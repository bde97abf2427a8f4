import OpenPulse.Handshake

/-! What the two frame builders accept, and that the parsers read back exactly what
was built. The builders' rules are listed once, as the parameters they accept. -/
namespace OpenPulse.Handshake
open ByteCodec Signing Trust Bodies HandshakeWire

def modesText (modes : List SigningMode) : Bytes := modes.length.toUInt8 :: modes.map SigningMode.toWire

theorem writesModes (modes : List SigningMode) : Writes (writeModes modes) True (modesText modes) := by
  have each := @writesEach WireError SigningMode (fun m => BodyWriter.u8 m.toWire) (fun m => [m.toWire])
    (fun m => writesPush [m.toWire]) modes
  have both := writesThen (writesPush [modes.length.toUInt8]) each
  rw [and_self, ← List.map_eq_flatMap] at both
  exact both

theorem readsModes (modes known : List SigningMode) :
    Reads (readModes modes.length known) (modes.map SigningMode.toWire) (known ++ modes) := by
  induction modes generalizing known with
  | nil =>
    rw [List.append_nil]
    exact readsPure known
  | cons m modes ih =>
    have rest := ih (known ++ [m])
    rw [List.append_assoc, List.singleton_append] at rest
    refine @readsThen _ _ _ _ _ [m.toWire] _ _ _ (readsU8 _ _) ?_
    rw [SigningMode.fromWireToWire]
    exact rest

def sealed (ed : Ed25519) (domain : SigningDomain) (magic : Bytes) (seed : Seed) (w : BodyWriter) : Except WireError Bytes := do
  let body ← finish w
  let signed ← signedPrefixWithMagic magic body
  let sig ← (signInBand ed domain seed signed).mapError WireError.signing
  return signed ++ sig.val

def signedFrame (ed : Ed25519) (magic : Bytes) (seed : Seed) (body : Bytes) : Bytes :=
  framed magic body ++ (ed.sign seed (framed magic body)).val

theorem framedTag (domain : SigningDomain) (body : Bytes) : domain.tag <+: framed domain.tag body := List.prefix_append _ _

theorem sealedIff (ed : Ed25519) {domain : SigningDomain} (inBand : domain.placement = .inBand) (seed : Seed)
    {w : BodyWriter} {fits : Prop} {raw frame : Bytes} (writes : Writes w fits raw) (small : fits → raw.length < 65536) :
    sealed ed domain domain.tag seed w = .ok frame ↔ fits ∧ frame = signedFrame ed domain.tag seed raw := by
  unfold sealed
  cases built : finish w with
  | error e =>
    refine ⟨nofun,fun h => ?_⟩
    rw [(finishIff writes).mpr ⟨h.1,rfl⟩] at built
    cases built
  | ok body =>
    obtain ⟨fit,rfl⟩ := (finishIff writes).mp built
    have signed := signInBandOk ed inBand seed (framedTag domain body)
    simp only [bind, Except.bind, (@signedPrefixIff domain.tag body _).mpr ⟨small fit,rfl⟩, signed, Except.mapError]
    change Except.ok (signedFrame ed domain.tag seed body) = _ ↔ _
    rw [Except.ok.injEq]
    exact ⟨fun same => ⟨fit,same.symm⟩,fun h => h.2.symm⟩

namespace ConReqParams

structure Acceptable (p : ConReqParams) : Prop where
  addressed : p.dstStation ≠ ""
  named : p.stationId ≠ ""
  modes : p.signingModes.length ≤ Caps.signingModes
  stationId : (utf8 p.stationId).length ≤ Caps.stationId
  dstStation : (utf8 p.dstStation).length ≤ Caps.stationId
  kexPubkey : p.kexPubkey.length = kexPubkeyLen
  stationGrid : (utf8 p.stationGrid).length ≤ Caps.grid
  profileName : (utf8 p.profileName).length ≤ Caps.profileName

/- The body with every field written out, whether or not the builder would take it. -/
def layout (p : ConReqParams) (pubkey : PeerId) : Bytes :=
  text p.stationId ++ (text p.dstStation ++ (pubkey.val ++ (p.kexPubkey ++ (modesText p.signingModes ++
    (be 8 p.sessionId.toNat ++ (text p.stationGrid ++ (text p.profileName ++
      (be 8 p.profileFingerprint.toNat ++ be 8 p.timestampMs.toNat))))))))

def fields (p : ConReqParams) (pubkey : PeerId) (signature : Signature) : ConReq :=
  ⟨p.stationId,p.dstStation,pubkey.val,p.kexPubkey,p.signingModes,p.sessionId,p.stationGrid,p.profileName,
    p.profileFingerprint,p.timestampMs,signature.val⟩

def Fit (p : ConReqParams) (pubkey : PeerId) : Prop :=
  (utf8 p.stationId).length ≤ Caps.stationId ∧ (utf8 p.dstStation).length ≤ Caps.stationId ∧
    pubkey.val.length = pubkeyLen ∧ p.kexPubkey.length = kexPubkeyLen ∧ True ∧ True ∧
      (utf8 p.stationGrid).length ≤ Caps.grid ∧ (utf8 p.profileName).length ≤ Caps.profileName ∧ True ∧ True

theorem writesBody (p : ConReqParams) (pubkey : PeerId) :
    Writes (ConReq.writeBody p pubkey) (p.Fit pubkey) (p.layout pubkey) :=
  writesThen (writesStrCapped _ _ _) (writesThen (writesStrCapped _ _ _) (writesThen (writesFixed _ _ _)
    (writesThen (writesFixed _ _ _) (writesThen (writesModes _) (writesThen (writesPush _) (writesThen (writesStrCapped _ _ _)
      (writesThen (writesStrCapped _ _ _) (writesThen (writesPush _) (writesPush _)))))))))

theorem readsBody {p : ConReqParams} (ok : p.Acceptable) (pubkey : PeerId) (signature : Signature) :
    ReadsAll (ConReq.readBody signature.val) (p.layout pubkey) (p.fields pubkey signature) := by
  have count : p.signingModes.length.toUInt8.toNat = p.signingModes.length := by
    have small : p.signingModes.length ≤ 4 := ok.modes
    rw [Nat.toUInt8_eq, UInt8.toNat_ofNat']
    omega
  refine readsAllThen (readsStrCapped _ _ ok.stationId (by decide)) ?_
  refine readsAllThen (readsStrCapped _ _ ok.dstStation (by decide)) ?_
  refine readsAllThen (readsFixed _ pubkey.property) ?_
  refine readsAllThen (readsFixed _ ok.kexPubkey) ?_
  refine @readsAllThen _ _ _ _ _ [_] _ _ _ (readsU8 _ _) ?_
  rw [count, if_neg (Nat.not_lt.mpr ok.modes)]
  refine readsAllThen (readsModes p.signingModes []) ?_
  refine readsAllThen (readsU64 _ _) ?_
  refine readsAllThen (readsStrCapped _ _ ok.stationGrid (by decide)) ?_
  refine readsAllThen (readsStrCapped _ _ ok.profileName (by decide)) ?_
  refine readsAllThen (readsU64 _ _) ?_
  refine readsAllLast (readsU64 _ _) ?_
  refine (doneThen _ _).trans ?_
  rw [if_neg ok.addressed, if_neg ok.named]
  rfl

theorem layoutLength {p : ConReqParams} (ok : p.Acceptable) (pubkey : PeerId) : (p.layout pubkey).length ≤ 165 := by
  have station : (utf8 p.stationId).length ≤ 18 := ok.stationId
  have dst : (utf8 p.dstStation).length ≤ 18 := ok.dstStation
  have grid : (utf8 p.stationGrid).length ≤ 8 := ok.stationGrid
  have profile : (utf8 p.profileName).length ≤ 24 := ok.profileName
  have modes : p.signingModes.length ≤ 4 := ok.modes
  have kex : p.kexPubkey.length = 32 := ok.kexPubkey
  simp only [layout, text, modesText, List.length_append, List.length_cons, List.length_map, beLength, pubkey.property]
  omega

theorem Acceptable.fit {p : ConReqParams} (ok : p.Acceptable) (pubkey : PeerId) : p.Fit pubkey :=
  ⟨ok.stationId,ok.dstStation,pubkey.property,ok.kexPubkey,trivial,trivial,ok.stationGrid,ok.profileName,trivial,trivial⟩

theorem createIff (ed : Ed25519) (p : ConReqParams) (seed : Seed) (frame : Bytes) : ConReq.create ed p seed = .ok frame ↔
    p.Acceptable ∧ frame = signedFrame ed magicConreq seed (p.layout (ed.verifyingKey seed)) := by
  unfold ConReq.create
  by_cases unaddressed : p.dstStation = ""
  · rw [if_pos unaddressed]
    exact ⟨nofun,fun h => absurd unaddressed h.1.addressed⟩
  rw [if_neg unaddressed]
  by_cases unnamed : p.stationId = ""
  · rw [if_pos unnamed]
    exact ⟨nofun,fun h => absurd unnamed h.1.named⟩
  rw [if_neg unnamed]
  by_cases many : Caps.signingModes < p.signingModes.length
  · rw [if_pos many]
    exact ⟨nofun,fun h => absurd h.1.modes (Nat.not_le.mpr many)⟩
  rw [if_neg many]
  have rules : p.Fit (ed.verifyingKey seed) → p.Acceptable := fun ⟨station,dst,_,kex,_,_,grid,profile,_⟩ =>
    ⟨unaddressed,unnamed,Nat.not_lt.mp many,station,dst,kex,grid,profile⟩
  have sealing := @sealedIff ed .conReq rfl seed _ _ _ frame (p.writesBody (ed.verifyingKey seed)) (fun h =>
    Nat.lt_of_le_of_lt (layoutLength (rules h) _) (by decide))
  exact sealing.trans ⟨fun h => ⟨rules h.1,h.2⟩,fun h => ⟨h.1.fit _,h.2⟩⟩

theorem layoutDecodes {p : ConReqParams} (ok : p.Acceptable) (pubkey : PeerId) (signature : Signature) :
    ConReq.decode (framed magicConreq (p.layout pubkey) ++ signature.val) = .ok (p.fields pubkey signature) := by
  have small : (p.layout pubkey).length < 65536 := Nat.lt_of_le_of_lt (layoutLength ok pubkey) (by decide)
  have split := (@splitFrameIff _ magicConreq "CONREQ" _ rfl).mpr ⟨p.layout pubkey,signature,small,rfl,rfl⟩
  unfold ConReq.decode
  rw [split]
  change (ConReq.readBody signature.val (p.layout pubkey) >>= _) = _
  rw [readsBody ok pubkey signature]
  rfl

end ConReqParams

namespace ConAckParams

structure Acceptable (p : ConAckParams) : Prop where
  stationId : (utf8 p.stationId).length ≤ Caps.stationId
  kexPubkey : p.kexPubkey.length = kexPubkeyLen
  stationGrid : (utf8 p.stationGrid).length ≤ Caps.grid
  profileName : (utf8 p.profileName).length ≤ Caps.profileName

def layout (p : ConAckParams) (pubkey : PeerId) : Bytes :=
  text p.stationId ++ (pubkey.val ++ (p.kexPubkey ++ ([p.selectedMode.toWire] ++ (p.conreqHash.val ++
    (text p.stationGrid ++ (text p.profileName ++ (be 8 p.profileFingerprint.toNat ++ be 8 p.timestampMs.toNat)))))))

def fields (p : ConAckParams) (pubkey : PeerId) (signature : Signature) : ConAck :=
  ⟨p.stationId,pubkey.val,p.kexPubkey,p.selectedMode,p.conreqHash,p.stationGrid,p.profileName,p.profileFingerprint,
    p.timestampMs,signature.val⟩

def Fit (p : ConAckParams) (pubkey : PeerId) : Prop :=
  (utf8 p.stationId).length ≤ Caps.stationId ∧ pubkey.val.length = pubkeyLen ∧ p.kexPubkey.length = kexPubkeyLen ∧
    True ∧ p.conreqHash.val.length = conreqHashLen ∧ (utf8 p.stationGrid).length ≤ Caps.grid ∧
      (utf8 p.profileName).length ≤ Caps.profileName ∧ True ∧ True

theorem writesBody (p : ConAckParams) (pubkey : PeerId) :
    Writes (ConAck.writeBody p pubkey) (p.Fit pubkey) (p.layout pubkey) :=
  writesThen (writesStrCapped _ _ _) (writesThen (writesFixed _ _ _) (writesThen (writesFixed _ _ _)
    (writesThen (writesPush _) (writesThen (writesFixed _ _ _) (writesThen (writesStrCapped _ _ _)
      (writesThen (writesStrCapped _ _ _) (writesThen (writesPush _) (writesPush _))))))))

theorem readsBody {p : ConAckParams} (ok : p.Acceptable) (pubkey : PeerId) (signature : Signature) :
    ReadsAll (ConAck.readBody signature.val) (p.layout pubkey) (p.fields pubkey signature) := by
  refine readsAllThen (readsStrCapped _ _ ok.stationId (by decide)) ?_
  refine readsAllThen (readsFixed _ pubkey.property) ?_
  refine readsAllThen (readsFixed _ ok.kexPubkey) ?_
  refine readsAllThen (readsU8 _ _) ?_
  rw [SigningMode.fromWireToWire]
  refine readsAllThen (readsTake _ p.conreqHash) ?_
  refine readsAllThen (readsStrCapped _ _ ok.stationGrid (by decide)) ?_
  refine readsAllThen (readsStrCapped _ _ ok.profileName (by decide)) ?_
  refine readsAllThen (readsU64 _ _) ?_
  exact readsAllLast (readsU64 _ _) (doneThen _ _)

theorem layoutLength {p : ConAckParams} (ok : p.Acceptable) (pubkey : PeerId) : (p.layout pubkey).length ≤ 166 := by
  have station : (utf8 p.stationId).length ≤ 18 := ok.stationId
  have grid : (utf8 p.stationGrid).length ≤ 8 := ok.stationGrid
  have profile : (utf8 p.profileName).length ≤ 24 := ok.profileName
  have kex : p.kexPubkey.length = 32 := ok.kexPubkey
  simp only [layout, text, List.length_append, List.length_cons, List.length_nil, beLength, pubkey.property,
    p.conreqHash.property]
  omega

theorem createIff (ed : Ed25519) (p : ConAckParams) (seed : Seed) (frame : Bytes) : ConAck.create ed p seed = .ok frame ↔
    p.Acceptable ∧ frame = signedFrame ed magicConack seed (p.layout (ed.verifyingKey seed)) := by
  have rules : p.Fit (ed.verifyingKey seed) → p.Acceptable := fun ⟨station,_,kex,_,_,grid,profile,_⟩ =>
    ⟨station,kex,grid,profile⟩
  have sealing := @sealedIff ed .conAck rfl seed _ _ _ frame (p.writesBody (ed.verifyingKey seed)) (fun h =>
    Nat.lt_of_le_of_lt (layoutLength (rules h) _) (by decide))
  refine sealing.trans ⟨fun h => ⟨rules h.1,h.2⟩,fun h => ⟨?_,h.2⟩⟩
  exact ⟨h.1.stationId,(ed.verifyingKey seed).property,h.1.kexPubkey,trivial,p.conreqHash.property,h.1.stationGrid,
    h.1.profileName,trivial,trivial⟩

theorem layoutDecodes {p : ConAckParams} (ok : p.Acceptable) (pubkey : PeerId) (signature : Signature) :
    ConAck.decode (framed magicConack (p.layout pubkey) ++ signature.val) = .ok (p.fields pubkey signature) := by
  have small : (p.layout pubkey).length < 65536 := Nat.lt_of_le_of_lt (layoutLength ok pubkey) (by decide)
  have split := (@splitFrameIff _ magicConack "CONACK" _ rfl).mpr ⟨p.layout pubkey,signature,small,rfl,rfl⟩
  unfold ConAck.decode
  rw [split]
  change (ConAck.readBody signature.val (p.layout pubkey) >>= _) = _
  rw [readsBody ok pubkey signature]
  rfl

end ConAckParams

structure FrameKind (Params Frame : Type) where
  domain : SigningDomain
  what : String
  create : Params → Except WireError Bytes
  decode : Bytes → Except WireError Frame
  acceptable : Params → Prop
  unchecked : Params → Bytes
  fields : Params → Signature → Frame

structure FrameKind.Faithful {Params Frame : Type} (ed : Ed25519) (seed : Seed) (kind : FrameKind Params Frame) : Prop where
  accepts : ∀ p, (∃ frame, kind.create p = .ok frame) ↔ kind.acceptable p
  fragment : ∀ p frame, kind.create p = .ok frame → frame.length ≤ fragmentCapacity
  readBack : ∀ p frame, kind.create p = .ok frame → ∃ spans sig,
    splitFrame frame kind.domain.tag kind.what = .ok spans ∧
    signInBand ed kind.domain seed spans.signedPrefix = .ok sig ∧ spans.signature = sig.val ∧
    kind.decode frame = .ok (kind.fields p sig)
  refuses : ∀ p, (∀ sig : Signature, ∃ e, kind.decode (framed kind.domain.tag (kind.unchecked p) ++ sig.val) = .error e) →
    ∃ e, kind.create p = .error e
  alone : ∀ frame v, kind.decode frame = .ok v → ∀ other, other ≠ frame → other <+: frame ∨ frame <+: other →
    ∃ e, kind.decode other = .error e

theorem FrameKind.faithful {Params Frame : Type} {ed : Ed25519} {seed : Seed} {kind : FrameKind Params Frame}
    (inBand : kind.domain.placement = .inBand)
    (created : ∀ p frame, kind.create p = .ok frame ↔
      kind.acceptable p ∧ frame = signedFrame ed kind.domain.tag seed (kind.unchecked p))
    (short : ∀ p, kind.acceptable p → (kind.unchecked p).length ≤ 180)
    (decoded : ∀ p, kind.acceptable p → ∀ sig : Signature,
      kind.decode (framed kind.domain.tag (kind.unchecked p) ++ sig.val) = .ok (kind.fields p sig))
    (splits : ∀ bytes v, kind.decode bytes = .ok v → ∃ spans, splitFrame bytes kind.domain.tag kind.what = .ok spans) :
    kind.Faithful ed seed where
  accepts := fun p => ⟨fun ⟨frame,ok⟩ => ((created p frame).mp ok).1,fun ok => ⟨_,(created p _).mpr ⟨ok,rfl⟩⟩⟩
  fragment := by
    intro p frame ok
    obtain ⟨fine,rfl⟩ := (created p frame).mp ok
    have body := short p fine
    rw [signedFrame, List.length_append, framedLength (tagLength _), (ed.sign seed _).property, headerLen, fragmentCapacity]
    omega
  readBack := by
    intro p frame ok
    obtain ⟨fine,rfl⟩ := (created p frame).mp ok
    have small : (kind.unchecked p).length < 65536 := Nat.lt_of_le_of_lt (short p fine) (by decide)
    exact ⟨_,_,(splitFrameIff (tagLength _)).mpr ⟨_,_,small,rfl,rfl⟩,
      signInBandOk ed inBand seed (framedTag kind.domain _),rfl,decoded p fine _⟩
  refuses := by
    intro p rejected
    cases made : kind.create p with
    | error e => exact ⟨e,rfl⟩
    | ok frame =>
      obtain ⟨e,refused⟩ := rejected (zeros 64)
      rw [decoded p ((created p frame).mp made).1] at refused
      cases refused
  alone := by
    intro frame v ok other different front
    cases parsed : kind.decode other with
    | error e => exact ⟨e,rfl⟩
    | ok w =>
      obtain ⟨_,left⟩ := splits frame v ok
      obtain ⟨_,right⟩ := splits other w parsed
      rcases front with inside | beyond
      · exact absurd (splitFrameAlone (tagLength _) right left inside) different
      · exact absurd (splitFrameAlone (tagLength _) left right beyond).symm different

def conReqKind (ed : Ed25519) (seed : Seed) : FrameKind ConReqParams ConReq where
  domain := .conReq
  what := "CONREQ"
  create := fun p => ConReq.create ed p seed
  decode := ConReq.decode
  acceptable := ConReqParams.Acceptable
  unchecked := fun p => p.layout (ed.verifyingKey seed)
  fields := fun p sig => p.fields (ed.verifyingKey seed) sig

def conAckKind (ed : Ed25519) (seed : Seed) : FrameKind ConAckParams ConAck where
  domain := .conAck
  what := "CONACK"
  create := fun p => ConAck.create ed p seed
  decode := ConAck.decode
  acceptable := ConAckParams.Acceptable
  unchecked := fun p => p.layout (ed.verifyingKey seed)
  fields := fun p sig => p.fields (ed.verifyingKey seed) sig

theorem splitsFirst {α : Type} {bytes magic : Bytes} {what : String} {f : FrameSpans → Except WireError α} {a : α}
    (ok : (splitFrame bytes magic what >>= f) = .ok a) : ∃ spans, splitFrame bytes magic what = .ok spans := by
  obtain ⟨spans,split,_⟩ := thenOk.mp ok
  exact ⟨spans,split⟩

theorem handshakeCodecFaithful (ed : Ed25519) (seed : Seed) :
    (conReqKind ed seed).Faithful ed seed ∧ (conAckKind ed seed).Faithful ed seed := by
  constructor
  · exact FrameKind.faithful rfl (fun p frame => p.createIff ed seed frame)
      (fun p ok => Nat.le_trans (ConReqParams.layoutLength ok _) (by decide))
      (fun p ok sig => ConReqParams.layoutDecodes ok _ sig) (fun _ _ ok => splitsFirst ok)
  · exact FrameKind.faithful rfl (fun p frame => p.createIff ed seed frame)
      (fun p ok => Nat.le_trans (ConAckParams.layoutLength ok _) (by decide))
      (fun p ok sig => ConAckParams.layoutDecodes ok _ sig) (fun _ _ ok => splitsFirst ok)

end OpenPulse.Handshake
