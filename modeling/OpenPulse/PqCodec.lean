import OpenPulse.HandshakeCodec
import OpenPulse.PqHandshake

/-! What the post-quantum builders emit and what the parsers make of it. The builder
of a request does not count the modes it is given, the parser takes at most four. -/
namespace OpenPulse.PqHandshake
open ByteCodec Signing Trust Bodies HandshakeWire Handshake

theorem readsRd {α : Type} {r : BodyReader α} {raw : Bytes} {v : α} (read : Reads r raw v) : Reads (rd r) raw v := by
  intro after
  rw [rd, read]
  rfl

theorem readsFlag (field : String) (b : Bool) : Reads (rd (BodyReader.u8 field)) [b.toUInt8] b.toUInt8 :=
  readsRd (readsU8 field _)

theorem flagBack (b : Bool) : (b.toUInt8 != 0) = b := by cases b <;> rfl

theorem spendsRd {α : Type} {r : BodyReader α} {n : Nat} (spends : Spends r n) : Spends (rd r) n :=
  fun buf v left read => spends buf v left (mapErrorOk.mp read)

theorem finishedInv {β : Type} {what : String} {f : Unit → ByteReader PqHandshakeError β} {buf : Bytes} {out : β × Bytes}
    (read : (rd (BodyReader.finish what) >>= f) buf = .ok out) : buf = [] := by
  obtain ⟨_,_,finished,_⟩ := readThenInv read
  exact doneInv (mapErrorOk.mp finished)

def pqTrailer (hasClassical : Bool) (classical : Signature) (pq : Octets mlDsa44SigSize) : Bytes :=
  (if hasClassical then classical.val else []) ++ pq.val

theorem trailerSplits (hasClassical : Bool) (classical : Signature) (pq : Octets mlDsa44SigSize) :
    splitPqTrailer (pqTrailer hasClassical classical pq) hasClassical =
      .ok (if hasClassical then classical.val else [],pq.val) := by
  cases hasClassical with
  | false => simp [splitPqTrailer, pqTrailer, pq.property]
  | true =>
    have length : (classical.val ++ pq.val).length = sigLen + mlDsa44SigSize := by
      rw [List.length_append, classical.property, pq.property]
      rfl
    have front : (classical.val ++ pq.val).take sigLen = classical.val := List.take_left' classical.property
    have back : (classical.val ++ pq.val).drop sigLen = pq.val := List.drop_left' classical.property
    simp only [splitPqTrailer, pqTrailer, if_true, length, ne_eq, not_true_eq_false, if_false, front, back]

theorem edSigned (ed : Ed25519) {domain : SigningDomain} {magic : Bytes} (inBand : domain.placement = .inBand)
    (tag : domain.tag = magic) (seed : Seed) (body : Bytes) :
    ed25519Sign ed domain seed (framed magic body) = (ed.sign seed (framed magic body)).val := by
  subst tag
  rw [ed25519Sign, signInBandOk ed inBand seed (framedTag domain body)]

theorem seedArrayIff {raw : Bytes} {seed : Octets 32} : seedArray raw = .ok seed ↔ raw = seed.val := by
  unfold seedArray
  split
  · rw [Except.ok.injEq]
    exact ⟨fun same => congrArg Subtype.val same,fun same => Subtype.ext same⟩
  · rename_i wrong
    exact ⟨nofun,fun same => absurd (same ▸ seed.property) wrong⟩

structure Offer where
  stationId : String
  dstStation : String
  classicalPubkey : PeerId
  pqPubkey : Octets mlDsa44PubkeySize
  kemPubkey : Octets mlKem768EkSize
  signingModes : List SigningMode
  sessionId : UInt64
  timestampMs : UInt64

namespace Offer

def hasClassical (o : Offer) : Bool := !isPqOnly o.signingModes

def tail (o : Offer) : Bytes := be 8 o.sessionId.toNat ++ (be 8 o.timestampMs.toNat ++ [o.hasClassical.toUInt8])

def layout (o : Offer) : Bytes :=
  text o.stationId ++ (text o.dstStation ++ (o.classicalPubkey.val ++ (o.pqPubkey.val ++ (o.kemPubkey.val ++
    (modesText o.signingModes ++ o.tail)))))

structure Sendable (o : Offer) : Prop where
  addressed : o.dstStation ≠ ""
  stationId : (utf8 o.stationId).length ≤ Caps.stationId
  dstStation : (utf8 o.dstStation).length ≤ Caps.stationId
  body : o.layout.length < 65536

def fields (o : Offer) (classical pq : Bytes) : PqConReq :=
  ⟨o.stationId,o.dstStation,o.timestampMs,o.classicalPubkey.val,o.pqPubkey.val,o.kemPubkey.val,o.signingModes,o.sessionId,
    classical,pq⟩

def frame (o : Offer) (classical : Signature) (pq : Octets mlDsa44SigSize) : Bytes :=
  framed magicPqConreq o.layout ++ pqTrailer o.hasClassical classical pq

theorem readsBody {o : Offer} (ok : o.Sendable) (few : o.signingModes.length ≤ Caps.signingModes) {trailer classical pq : Bytes}
    (split : splitPqTrailer trailer o.hasClassical = .ok (classical,pq)) :
    ReadsAll (readPqConreq trailer) o.layout (o.fields classical pq) := by
  have count : o.signingModes.length.toUInt8.toNat = o.signingModes.length := by
    have small : o.signingModes.length ≤ 4 := few
    rw [Nat.toUInt8_eq, UInt8.toNat_ofNat']
    omega
  refine readsAllThen (readsRd (readsStrCapped _ _ ok.stationId (by decide))) ?_
  refine readsAllThen (readsRd (readsStrCapped _ _ ok.dstStation (by decide))) ?_
  refine readsAllThen (readsRd (readsFixed _ o.classicalPubkey.property)) ?_
  refine readsAllThen (readsRd (readsFixed _ o.pqPubkey.property)) ?_
  refine readsAllThen (readsRd (readsFixed _ o.kemPubkey.property)) ?_
  refine @readsAllThen _ _ _ _ _ [_] _ _ _ (readsRd (readsU8 _ _)) ?_
  rw [count, if_neg (Nat.not_lt.mpr few)]
  refine readsAllThen (readsRd (readsModes o.signingModes [])) ?_
  refine readsAllThen (readsRd (readsU64 _ _)) ?_
  refine readsAllThen (readsRd (readsU64 _ _)) ?_
  refine readsAllLast (readsFlag _ o.hasClassical) ?_
  refine (readThen (rfl : rd (BodyReader.finish "PQ CONREQ") [] = .ok ((),[]))).trans ?_
  have agrees : ¬ o.hasClassical ≠ !isPqOnly o.signingModes := not_not.mpr rfl
  simp only [flagBack, List.nil_append]
  rw [if_neg ok.addressed, if_neg agrees, split]
  rfl

/- The count byte of more than four modes is over the cap, or it wrapped around and
leaves modes over for the fields behind it, which end before the body does. -/
theorem readsNothing {o : Offer} (ok : o.Sendable) (many : Caps.signingModes < o.signingModes.length) (trailer : Bytes)
    (out : PqConReq × Bytes) : readPqConreq trailer o.layout ≠ .ok out := by
  intro read
  unfold readPqConreq layout at read
  rw [readThen (readsRd (readsStrCapped _ _ ok.stationId (by decide)) _)] at read
  rw [readThen (readsRd (readsStrCapped _ _ ok.dstStation (by decide)) _)] at read
  rw [readThen (readsRd (@readsFixed _ pubkeyLen _ o.classicalPubkey.property) _)] at read
  rw [readThen (readsRd (readsFixed _ o.pqPubkey.property) _)] at read
  rw [readThen (readsRd (readsFixed _ o.kemPubkey.property) _)] at read
  rw [modesText, List.cons_append, ← List.singleton_append, readThen (readsRd (readsU8 _ _) _)] at read
  split at read
  · cases read
  rename_i few
  generalize taken : o.signingModes.length.toUInt8.toNat = n at few read
  have wrapped : n + 256 ≤ o.signingModes.length := by
    have more : 4 < o.signingModes.length := many
    have under : ¬ 4 < n := few
    rw [Nat.toUInt8_eq, UInt8.toNat_ofNat'] at taken
    omega
  have length : (o.signingModes.take n).length = n := by
    rw [List.length_take]
    omega
  have modes := readsRd (readsModes (o.signingModes.take n) [])
  rw [length] at modes
  have cut : o.signingModes.map SigningMode.toWire ++ o.tail = (o.signingModes.take n).map SigningMode.toWire ++
      ((o.signingModes.drop n).map SigningMode.toWire ++ o.tail) := by
    rw [← List.append_assoc, ← List.map_append, List.take_append_drop]
  rw [cut, readThen (modes _)] at read
  obtain ⟨_,afterSession,session,read⟩ := readThenInv read
  obtain ⟨_,afterStamp,stamp,read⟩ := readThenInv read
  obtain ⟨_,afterFlag,flag,read⟩ := readThenInv read
  have none := finishedInv read
  have spent := spendsRd (spendsU64 _) _ _ _ session
  have spent' := spendsRd (spendsU64 _) _ _ _ stamp
  have spent'' := spendsRd (spendsU8 _) _ _ _ flag
  simp only [List.length_append, List.length_map, List.length_drop, tail, beLength, List.length_singleton] at spent
  rw [none, List.length_nil] at spent''
  omega

theorem layoutLength (o : Offer) : o.layout.length =
    (utf8 o.stationId).length + (utf8 o.dstStation).length + o.signingModes.length + 2548 := by
  have pq : o.pqPubkey.val.length = 1312 := o.pqPubkey.property
  have kem : o.kemPubkey.val.length = 1184 := o.kemPubkey.property
  simp only [layout, tail, text, modesText, List.length_append, List.length_cons, List.length_nil, List.length_map, beLength,
    o.classicalPubkey.property, pq, kem]
  omega

theorem framedSplits {o : Offer} (ok : o.Sendable) (trailer : Bytes) :
    splitFrameVariable (framed magicPqConreq o.layout ++ trailer) magicPqConreq "PQ CONREQ" =
      .ok (⟨framed magicPqConreq o.layout,o.layout,[]⟩,trailer) :=
  (@splitFrameVariableIff _ magicPqConreq _ _ _ rfl).mpr ⟨o.layout,ok.body,rfl,rfl⟩

theorem frameDecodes {o : Offer} (ok : o.Sendable) (few : o.signingModes.length ≤ Caps.signingModes) (classical : Signature)
    (pq : Octets mlDsa44SigSize) : decodePqConreq (o.frame classical pq) =
      .ok (o.fields (if o.hasClassical then classical.val else []) pq.val) := by
  unfold decodePqConreq frame
  rw [framedSplits ok]
  change (readPqConreq _ o.layout >>= _) = _
  rw [readsBody ok few (trailerSplits o.hasClassical classical pq)]
  rfl

theorem frameUndecodable {o : Offer} (ok : o.Sendable) (many : Caps.signingModes < o.signingModes.length)
    (classical : Signature) (pq : Octets mlDsa44SigSize) (req : PqConReq) :
    decodePqConreq (o.frame classical pq) ≠ .ok req := by
  intro decoded
  unfold decodePqConreq frame at decoded
  rw [framedSplits ok] at decoded
  change (readPqConreq _ o.layout >>= _) = _ at decoded
  obtain ⟨out,read,_⟩ := thenOk.mp decoded
  exact readsNothing ok many _ out read

end Offer

theorem writesPqConreq (stationId dstStation : String) (classical pq kem : Bytes) (modes : List SigningMode)
    (sessionId timestampMs : UInt64) (flag : Bool) :
    Writes (encodePqConreqBody stationId dstStation classical pq kem modes sessionId timestampMs flag)
      ((utf8 stationId).length ≤ Caps.stationId ∧ (utf8 dstStation).length ≤ Caps.stationId ∧ classical.length = pubkeyLen ∧
        pq.length = mlDsa44PubkeySize ∧ kem.length = mlKem768EkSize ∧ True ∧ True ∧ True ∧ True)
      (text stationId ++ (text dstStation ++ (classical ++ (pq ++ (kem ++ (modesText modes ++
        (be 8 sessionId.toNat ++ (be 8 timestampMs.toNat ++ [flag.toUInt8])))))))) :=
  writesThen (writesStrCapped _ _ _) (writesThen (writesStrCapped _ _ _) (writesThen (writesFixed _ _ _)
    (writesThen (writesFixed _ _ _) (writesThen (writesFixed _ _ _) (writesThen (writesModes _)
      (writesThen (writesPush _) (writesThen (writesPush _) (writesPush _))))))))

def PqConReqParams.offer (p : PqConReqParams) (classical : PeerId) (pq : Octets mlDsa44PubkeySize)
    (kem : Octets mlKem768EkSize) : Offer :=
  ⟨p.stationId,p.dstStation,classical,pq,kem,p.signingModes,p.sessionId,p.timestampMs⟩

theorem createPqConreqIff {ed : Ed25519} {dsa : MlDsa44} {p : PqConReqParams} {seed : Seed} {frame : Bytes} :
    createPqConreq ed dsa p seed = .ok frame ↔ ∃ (sk : Octets 32) (kem : Octets mlKem768EkSize) (o : Offer),
      p.pqSigningKey = sk.val ∧ p.kemEk = kem.val ∧ o = p.offer (ed.verifyingKey seed) (dsa.verifyingKey sk) kem ∧ o.Sendable ∧
      frame = o.frame (ed.sign seed (framed magicPqConreq o.layout)) (dsa.sign sk (framed magicPqConreq o.layout)) := by
  unfold createPqConreq
  by_cases unaddressed : p.dstStation = ""
  · rw [if_pos unaddressed]
    refine ⟨nofun,?_⟩
    rintro ⟨_,_,_,_,_,rfl,ok,_⟩
    exact absurd unaddressed ok.addressed
  rw [if_neg unaddressed]
  simp only [thenOk, mapErrorOk, seedArrayIff, finishIff (writesPqConreq _ _ _ _ _ _ _ _ _), signedPrefixIff, mlDsaSign]
  constructor
  · rintro ⟨sk,key,body,⟨⟨station,dst,_,_,kem,_⟩,rfl⟩,signed,⟨small,rfl⟩,sig,⟨sk',key',made⟩,last⟩
    cases Subtype.ext (key.symm.trans key')
    cases made
    cases last
    refine ⟨sk,⟨p.kemEk,kem⟩,_,key,rfl,rfl,⟨unaddressed,station,dst,small⟩,?_⟩
    rw [@edSigned ed .pqConReq magicPqConreq rfl rfl]
    rfl
  · rintro ⟨sk,kem,o,key,ek,rfl,ok,rfl⟩
    refine ⟨sk,key,_,⟨⟨ok.stationId,ok.dstStation,(ed.verifyingKey seed).property,(dsa.verifyingKey sk).property,
      ek ▸ kem.property,trivial,trivial,trivial,trivial⟩,rfl⟩,_,⟨?_,rfl⟩,_,⟨sk,key,rfl⟩,?_⟩
    · have small := ok.body
      rw [ek]
      exact small
    · rw [@edSigned ed .pqConReq magicPqConreq rfl rfl, ek]
      rfl

structure Answer where
  stationId : String
  classicalPubkey : PeerId
  pqPubkey : Octets mlDsa44PubkeySize
  kemCiphertext : Octets mlKem768CtSize
  selectedMode : SigningMode
  conreqHash : Octets 32
  timestampMs : UInt64

namespace Answer

def hasClassical (a : Answer) : Bool := a.selectedMode != .pq

def layout (a : Answer) : Bytes :=
  text a.stationId ++ (a.classicalPubkey.val ++ (a.pqPubkey.val ++ (a.kemCiphertext.val ++ ([a.selectedMode.toWire] ++
    (a.conreqHash.val ++ (be 8 a.timestampMs.toNat ++ [a.hasClassical.toUInt8]))))))

def fields (a : Answer) (classical pq : Bytes) : PqConAck :=
  ⟨a.stationId,a.conreqHash,a.timestampMs,a.classicalPubkey.val,a.pqPubkey.val,a.kemCiphertext.val,a.selectedMode,classical,pq⟩

def frame (a : Answer) (classical : Signature) (pq : Octets mlDsa44SigSize) : Bytes :=
  framed magicPqConack a.layout ++ pqTrailer a.hasClassical classical pq

theorem layoutLength {a : Answer} (named : (utf8 a.stationId).length ≤ Caps.stationId) : a.layout.length < 65536 := by
  have station : (utf8 a.stationId).length ≤ 18 := named
  have pq : a.pqPubkey.val.length = 1312 := a.pqPubkey.property
  have kem : a.kemCiphertext.val.length = 1088 := a.kemCiphertext.property
  simp only [layout, text, List.length_append, List.length_cons, List.length_nil, beLength, a.classicalPubkey.property,
    a.conreqHash.property, pq, kem]
  omega

theorem readsBody {a : Answer} (named : (utf8 a.stationId).length ≤ Caps.stationId) {trailer classical pq : Bytes}
    (split : splitPqTrailer trailer a.hasClassical = .ok (classical,pq)) :
    ReadsAll (readPqConack trailer) a.layout (a.fields classical pq) := by
  refine readsAllThen (readsRd (readsStrCapped _ _ named (by decide))) ?_
  refine readsAllThen (readsRd (readsFixed _ a.classicalPubkey.property)) ?_
  refine readsAllThen (readsRd (readsFixed _ a.pqPubkey.property)) ?_
  refine readsAllThen (readsRd (readsFixed _ a.kemCiphertext.property)) ?_
  refine readsAllThen (readsRd (readsU8 _ _)) ?_
  rw [SigningMode.fromWireToWire]
  refine readsAllThen (readsRd (readsTake _ a.conreqHash)) ?_
  refine readsAllThen (readsRd (readsU64 _ _)) ?_
  refine readsAllLast (readsFlag _ a.hasClassical) ?_
  refine (readThen (rfl : rd (BodyReader.finish "PQ CONACK") [] = .ok ((),[]))).trans ?_
  have agrees : ¬ a.hasClassical ≠ (a.selectedMode != .pq) := not_not.mpr rfl
  simp only [flagBack]
  rw [if_neg agrees, split]
  rfl

theorem framedSplits {a : Answer} (named : (utf8 a.stationId).length ≤ Caps.stationId) (trailer : Bytes) :
    splitFrameVariable (framed magicPqConack a.layout ++ trailer) magicPqConack "PQ CONACK" =
      .ok (⟨framed magicPqConack a.layout,a.layout,[]⟩,trailer) :=
  (@splitFrameVariableIff _ magicPqConack _ _ _ rfl).mpr ⟨a.layout,layoutLength named,rfl,rfl⟩

theorem frameDecodes {a : Answer} (named : (utf8 a.stationId).length ≤ Caps.stationId) (classical : Signature)
    (pq : Octets mlDsa44SigSize) : decodePqConack (a.frame classical pq) =
      .ok (a.fields (if a.hasClassical then classical.val else []) pq.val) := by
  unfold decodePqConack frame
  rw [framedSplits named]
  change (readPqConack _ a.layout >>= _) = _
  rw [readsBody named (trailerSplits a.hasClassical classical pq)]
  rfl

end Answer

theorem writesPqConack (p : PqConAckParams) (classical pq kem : Bytes) (flag : Bool) :
    Writes (encodePqConackBody p classical pq kem flag)
      ((utf8 p.stationId).length ≤ Caps.stationId ∧ classical.length = pubkeyLen ∧ pq.length = mlDsa44PubkeySize ∧
        kem.length = mlKem768CtSize ∧ True ∧ p.conreqHash.val.length = conreqHashLen ∧ True ∧ True)
      (text p.stationId ++ (classical ++ (pq ++ (kem ++ ([p.selectedMode.toWire] ++ (p.conreqHash.val ++
        (be 8 p.timestampMs.toNat ++ [flag.toUInt8]))))))) :=
  writesThen (writesStrCapped _ _ _) (writesThen (writesFixed _ _ _) (writesThen (writesFixed _ _ _)
    (writesThen (writesFixed _ _ _) (writesThen (writesPush _) (writesThen (writesFixed _ _ _)
      (writesThen (writesPush _) (writesPush _)))))))

def PqConAckParams.answer (p : PqConAckParams) (classical : PeerId) (pq : Octets mlDsa44PubkeySize)
    (ct : Octets mlKem768CtSize) : Answer :=
  ⟨p.stationId,classical,pq,ct,p.selectedMode,p.conreqHash,p.timestampMs⟩

theorem encapsulationKeyIff {kem : MlKem768} {raw : Bytes} {ek : Octets mlKem768EkSize} :
    encapsulationKey kem raw = .ok ek ↔ raw = ek.val ∧ kem.wellFormed ek = true := by
  simp only [encapsulationKey, thenOk, unlessOk, Bool.not_eq_false]
  unfold ekArray
  constructor
  · rintro ⟨found,made,formed,same⟩
    cases same
    split at made
    · cases made
      exact ⟨rfl,formed⟩
    · cases made
  · rintro ⟨rfl,formed⟩
    exact ⟨ek,dif_pos ek.property,formed,rfl⟩

theorem createPqConackInv {ed : Ed25519} {dsa : MlDsa44} {kem : MlKem768} {coins : Octets 32} {p : PqConAckParams} {seed : Seed}
    {frame secret : Bytes} (ok : createPqConack ed dsa kem coins p seed = .ok (frame,secret)) :
    ∃ (sk : Octets 32) (ek : Octets mlKem768EkSize) (a : Answer), p.pqSigningKey = sk.val ∧ p.reqKemEk = ek.val ∧
      a = p.answer (ed.verifyingKey seed) (dsa.verifyingKey sk) (kem.encapsulate coins ek).1 ∧
      (utf8 a.stationId).length ≤ Caps.stationId ∧
      frame = a.frame (ed.sign seed (framed magicPqConack a.layout)) (dsa.sign sk (framed magicPqConack a.layout)) := by
  unfold createPqConack at ok
  simp only [thenOk, mapErrorOk, seedArrayIff, encapsulationKeyIff, finishIff (writesPqConack _ _ _ _ _), signedPrefixIff,
    mlDsaSign] at ok
  obtain ⟨sk,key,ek,⟨ekey,_⟩,body,⟨⟨station,_⟩,rfl⟩,signed,⟨_,rfl⟩,sig,⟨sk',key',made⟩,last⟩ := ok
  cases Subtype.ext (key.symm.trans key')
  cases made
  cases last
  refine ⟨sk,ek,_,key,ekey,rfl,station,?_⟩
  rw [@edSigned ed .pqConAck magicPqConack rfl rfl]
  rfl

structure PqConReqParams.ReadBack (ed : Ed25519) (dsa : MlDsa44) (p : PqConReqParams) (seed : Seed) (req : PqConReq) : Prop where
  stationId : req.stationId = p.stationId
  dstStation : req.dstStation = p.dstStation
  classicalPubkey : req.classicalPubkey = (ed.verifyingKey seed).val
  pqPubkey : ∃ sk : Octets 32, p.pqSigningKey = sk.val ∧ req.pqPubkey = (dsa.verifyingKey sk).val
  kemPubkey : req.kemPubkey = p.kemEk
  signingModes : req.signingModes = p.signingModes
  sessionId : req.sessionId = p.sessionId
  timestampMs : req.timestampMs = p.timestampMs
  classicalSignature : req.classicalSignature ≠ [] ↔ isPqOnly p.signingModes = false

structure PqConAckParams.ReadBack (ed : Ed25519) (dsa : MlDsa44) (kem : MlKem768) (coins : Octets 32) (p : PqConAckParams)
    (seed : Seed) (ack : PqConAck) : Prop where
  stationId : ack.stationId = p.stationId
  classicalPubkey : ack.classicalPubkey = (ed.verifyingKey seed).val
  pqPubkey : ∃ sk : Octets 32, p.pqSigningKey = sk.val ∧ ack.pqPubkey = (dsa.verifyingKey sk).val
  kemCiphertext : ∃ ek : Octets mlKem768EkSize, p.reqKemEk = ek.val ∧ ack.kemCiphertext = (kem.encapsulate coins ek).1.val
  selectedMode : ack.selectedMode = p.selectedMode
  conreqHash : ack.conreqHash = p.conreqHash
  timestampMs : ack.timestampMs = p.timestampMs
  classicalSignature : ack.classicalSignature ≠ [] ↔ p.selectedMode ≠ .pq

theorem presentIff (here : Bool) (sig : Signature) : (if here then sig.val else []) ≠ [] ↔ here = true := by
  have some : sig.val ≠ [] := by
    intro none
    have length := sig.property
    rw [none] at length
    exact absurd length (by decide)
  cases here with
  | false => simp
  | true => simpa using some

theorem pqReadBackIff (ed : Ed25519) (dsa : MlDsa44) (kem : MlKem768) :
    (∀ p seed frame, createPqConreq ed dsa p seed = .ok frame →
      ((∃ req, decodePqConreq frame = .ok req ∧ p.ReadBack ed dsa seed req) ↔ p.signingModes.length ≤ Caps.signingModes)) ∧
    (∀ coins p seed frame secret, createPqConack ed dsa kem coins p seed = .ok (frame,secret) →
      ∃ ack, decodePqConack frame = .ok ack ∧ p.ReadBack ed dsa kem coins seed ack) := by
  constructor
  · intro p seed frame made
    obtain ⟨sk,ek,o,key,ekey,rfl,ok,rfl⟩ := createPqConreqIff.mp made
    constructor
    · rintro ⟨req,decoded,_⟩
      refine Nat.not_lt.mp fun many => ?_
      exact Offer.frameUndecodable ok many _ _ req decoded
    · intro few
      refine ⟨_,Offer.frameDecodes ok few _ _,rfl,rfl,rfl,⟨sk,key,rfl⟩,ekey.symm,rfl,rfl,rfl,?_⟩
      exact (presentIff _ _).trans (Bool.not_eq_true' _).to_iff
  · intro coins p seed frame secret made
    obtain ⟨sk,ek,a,key,ekey,rfl,named,rfl⟩ := createPqConackInv made
    refine ⟨_,Answer.frameDecodes named _ _,rfl,rfl,⟨sk,key,rfl⟩,⟨ek,ekey,rfl⟩,rfl,rfl,rfl,?_⟩
    exact (presentIff _ _).trans bne_iff_ne

def plainDsa : MlDsa44 where
  verifyingKey := fun seed => filled mlDsa44PubkeySize (seed.val.getD 0 0)
  sign := fun seed _ => filled mlDsa44SigSize (seed.val.getD 0 0)
  wellFormed := fun _ => true
  verify := fun key _ sig => key.val.getD 0 0 == sig.val.getD 0 0

def plainKem : MlKem768 where
  wellFormed := fun _ => true
  encapsulate := fun coins _ => (zeros mlKem768CtSize,coins)

def offering (modes : List SigningMode) : PqConReqParams :=
  ⟨"DC0SK","W1AW",(filled 32 2).val,(filled mlKem768EkSize 3).val,modes,7,1000⟩

theorem offeringMade {modes : List SigningMode} (few : modes.length ≤ 5) :
    ∃ frame, createPqConreq tagScheme plainDsa (offering modes) (filled 32 1) = .ok frame := by
  have named : (utf8 "DC0SK").length ≤ Caps.stationId := by decide
  have addressed : "W1AW" ≠ "" ∧ (utf8 "W1AW").length ≤ Caps.stationId := by decide
  have short : (utf8 "DC0SK").length + (utf8 "W1AW").length ≤ 9 := by decide
  refine ⟨_,createPqConreqIff.mpr ⟨filled 32 2,filled mlKem768EkSize 3,_,rfl,rfl,rfl,⟨addressed.1,named,addressed.2,?_⟩,rfl⟩⟩
  rw [Offer.layoutLength]
  change (utf8 "DC0SK").length + (utf8 "W1AW").length + modes.length + 2548 < 65536
  omega

theorem twoModesComeBack : ∃ frame, createPqConreq tagScheme plainDsa (offering [.hybrid,.normal]) (filled 32 1) = .ok frame ∧
    ∃ req, decodePqConreq frame = .ok req ∧ (offering [.hybrid,.normal]).ReadBack tagScheme plainDsa (filled 32 1) req := by
  obtain ⟨frame,made⟩ := @offeringMade [.hybrid,.normal] (by decide)
  exact ⟨frame,made,((pqReadBackIff tagScheme plainDsa plainKem).1 _ _ _ made).mpr (by decide)⟩

theorem fiveModesLost :
    ∃ frame, createPqConreq tagScheme plainDsa (offering [.hybrid,.pq,.paranoid,.normal,.psk]) (filled 32 1) = .ok frame ∧
      ∀ req, decodePqConreq frame ≠ .ok req := by
  obtain ⟨frame,made⟩ := @offeringMade [.hybrid,.pq,.paranoid,.normal,.psk] (by decide)
  obtain ⟨sk,ek,o,_,_,rfl,ok,rfl⟩ := createPqConreqIff.mp made
  have many : Caps.signingModes < [SigningMode.hybrid,.pq,.paranoid,.normal,.psk].length := by decide
  exact ⟨_,made,fun req => Offer.frameUndecodable ok many _ _ req⟩

end OpenPulse.PqHandshake
