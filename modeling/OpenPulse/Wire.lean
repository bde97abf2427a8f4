import OpenPulse.Signing

/-! The control-plane envelope and its origin signature:
`openpulse-core/src/wire_query.rs`. The signature covers the header and the
payload with `hop_index` zeroed, the one byte a relay may rewrite. -/
namespace OpenPulse.Wire
open ByteCodec Signing

abbrev Nonce := Octets 12

inductive WireQueryError where
  | bufferTooShort
  | unsupportedVersion (got expected : UInt8)
  | invalidMagic
  | unknownMsgType (code : UInt8)
  | payloadTooLong
  | malformedPayload
  | hopCountExceeded
  | signatureTooLarge
  | invalidSrcKey
  | invalidSignature
  deriving DecidableEq, Repr

inductive WireMsgType where
  | peerQueryRequest
  | peerQueryResponse
  | routeDiscoveryRequest
  | routeDiscoveryResponse
  | relayDataChunk
  | relayHopAck
  | relayRouteUpdate
  | relayRouteReject
  | rigCtrlCmd
  | broadcastFrame
  deriving DecidableEq, Repr

namespace WireMsgType

def code : WireMsgType → UInt8
  | peerQueryRequest => 0x01
  | peerQueryResponse => 0x02
  | routeDiscoveryRequest => 0x03
  | routeDiscoveryResponse => 0x04
  | relayDataChunk => 0x05
  | relayHopAck => 0x06
  | relayRouteUpdate => 0x07
  | relayRouteReject => 0x08
  | rigCtrlCmd => 0x09
  | broadcastFrame => 0x0A

def fromU8 (v : UInt8) : Option WireMsgType :=
  match v.toNat with
  | 0x01 => some peerQueryRequest
  | 0x02 => some peerQueryResponse
  | 0x03 => some routeDiscoveryRequest
  | 0x04 => some routeDiscoveryResponse
  | 0x05 => some relayDataChunk
  | 0x06 => some relayHopAck
  | 0x07 => some relayRouteUpdate
  | 0x08 => some relayRouteReject
  | 0x09 => some rigCtrlCmd
  | 0x0A => some broadcastFrame
  | _ => none

theorem fromCode (t : WireMsgType) : fromU8 t.code = some t := by
  cases t <;> rfl

theorem codeInj {a b : WireMsgType} (same : a.code = b.code) : a = b := by
  have back := fromCode a
  rw [same, fromCode b] at back
  exact (Option.some.inj back).symm

end WireMsgType

def magic : Bytes := [0x4F,0x50,0x48,0x46]
def version : UInt8 := 2
def headerSize : Nat := 104
def signatureSize : Nat := 64
def hopIndexOffset : Nat := 101

structure WireEnvelope where
  msgType : WireMsgType
  flags : UInt16
  sessionId : UInt64
  srcPeerId : PeerId
  dstPeerId : PeerId
  nonce : Nonce
  timestampMs : UInt64
  hopLimit : UInt8
  hopIndex : UInt8
  payload : Bytes
  signature : Option Signature
  deriving DecidableEq, Repr

namespace WireEnvelope
variable (e : WireEnvelope)

def headerStart : Bytes :=
  magic ++ (version :: e.msgType.code :: (be 2 e.flags.toNat ++ (be 8 e.sessionId.toNat ++ (e.srcPeerId.val ++
    (e.dstPeerId.val ++ (e.nonce.val ++ (be 8 e.timestampMs.toNat ++ [e.hopLimit])))))))

def headerAndPayload : Except WireQueryError Bytes :=
  if 65535 < e.payload.length then .error .payloadTooLong
  else .ok (e.headerStart ++ e.hopIndex :: (be 2 e.payload.length ++ e.payload))

def signingBytes : Except WireQueryError Bytes :=
  match e.headerAndPayload with
  | .error err => .error err
  | .ok buf => .ok (buf.set hopIndexOffset 0)

def encode : Except WireQueryError Bytes :=
  match e.headerAndPayload with
  | .error err => .error err
  | .ok buf =>
    match e.signature with
    | some sig => .ok (buf ++ sig.val)
    | none => .ok buf

def sign (ed : Ed25519) (signingKeySeed : Seed) : Except WireQueryError WireEnvelope :=
  match e.signingBytes with
  | .error err => .error err
  | .ok msg =>
    match signInBand ed .wireEnvelope signingKeySeed msg with
    | .error _ => .error .invalidSignature
    | .ok sig => .ok { e with signature := some sig }

def verifyOrigin (ed : Ed25519) : Except WireQueryError Unit :=
  match e.signature with
  | none => .error .invalidSignature
  | some sigBytes =>
    if ed.fromBytes e.srcPeerId then
      match e.signingBytes with
      | .error err => .error err
      | .ok msg =>
        if verifyInBand ed .wireEnvelope e.srcPeerId msg sigBytes then .ok () else .error .invalidSignature
    else .error .invalidSrcKey

end WireEnvelope

def readU16 (bytes : Bytes) (off : Nat) : UInt16 := (readBe (slice off 2 bytes)).toUInt16
def readU32 (bytes : Bytes) (off : Nat) : UInt32 := (readBe (slice off 4 bytes)).toUInt32
def readU64 (bytes : Bytes) (off : Nat) : UInt64 := (readBe (slice off 8 bytes)).toUInt64

def readArr (n : Nat) (bytes : Bytes) (off : Nat) : Except WireQueryError (Octets n) :=
  match octets n off bytes with
  | some arr => .ok arr
  | none => .error .malformedPayload

def byteAt (bytes : Bytes) (off : Nat) : UInt8 := bytes.getD off 0

def trailingSignature (bytes : Bytes) (payloadEnd : Nat) : Except WireQueryError (Option Signature) :=
  if bytes.length - payloadEnd = 0 then .ok none
  else if bytes.length - payloadEnd = signatureSize then
    match octets signatureSize payloadEnd bytes with
    | some sig => .ok (some sig)
    | none => .error .malformedPayload
  else if bytes.length - payloadEnd < signatureSize then .error .bufferTooShort
  else .error .malformedPayload

def WireEnvelope.decode (bytes : Bytes) : Except WireQueryError WireEnvelope := do
  if bytes.length < headerSize then throw .bufferTooShort
  if slice 0 4 bytes ≠ magic then throw .invalidMagic
  if byteAt bytes 4 ≠ version then throw (.unsupportedVersion (byteAt bytes 4) version)
  match WireMsgType.fromU8 (byteAt bytes 5) with
  | none => throw (.unknownMsgType (byteAt bytes 5))
  | some msgType =>
    let srcPeerId ← readArr 32 bytes 16
    let dstPeerId ← readArr 32 bytes 48
    let nonce ← readArr 12 bytes 80
    let payloadEnd := 104 + (readU16 bytes 102).toNat
    if bytes.length < payloadEnd then throw .bufferTooShort
    let signature ← trailingSignature bytes payloadEnd
    return { msgType, srcPeerId, dstPeerId, nonce, signature
             flags := readU16 bytes 6
             sessionId := readU64 bytes 8
             timestampMs := readU64 bytes 92
             hopLimit := byteAt bytes 100
             hopIndex := byteAt bytes 101
             payload := slice 104 (readU16 bytes 102).toNat bytes }

theorem headerStartLength (e : WireEnvelope) : e.headerStart.length = hopIndexOffset := by
  have src := e.srcPeerId.property
  have dst := e.dstPeerId.property
  have nonce := e.nonce.property
  simp [WireEnvelope.headerStart, magic, hopIndexOffset, src, dst, nonce]

theorem signingBytesOk {e : WireEnvelope} (small : e.payload.length ≤ 65535) :
    e.signingBytes = .ok (e.headerStart ++ 0 :: (be 2 e.payload.length ++ e.payload)) := by
  have position := headerStartLength e
  rw [WireEnvelope.signingBytes, WireEnvelope.headerAndPayload, if_neg (by omega)]
  simp [List.set_append_right, position]

theorem signingBytesSmall {e : WireEnvelope} {msg : Bytes} (ok : e.signingBytes = .ok msg) :
    e.payload.length ≤ 65535 := by
  by_contra large
  rw [WireEnvelope.signingBytes, WireEnvelope.headerAndPayload, if_pos (by omega)] at ok
  cases ok

theorem headerStartInj {a b : WireEnvelope} (same : a.headerStart = b.headerStart) :
    a.msgType = b.msgType ∧ a.flags = b.flags ∧ a.sessionId = b.sessionId ∧ a.srcPeerId = b.srcPeerId ∧
      a.dstPeerId = b.dstPeerId ∧ a.nonce = b.nonce ∧ a.timestampMs = b.timestampMs ∧ a.hopLimit = b.hopLimit := by
  have width := fun (n : Nat) (x y : Octets n) => x.property.trans y.property.symm
  have same := List.append_cancel_left same
  obtain ⟨code,same⟩ := List.cons.inj (List.cons.inj same).2
  obtain ⟨flags,same⟩ := List.append_inj same (by simp)
  obtain ⟨session,same⟩ := List.append_inj same (by simp)
  obtain ⟨src,same⟩ := List.append_inj same (width _ _ _)
  obtain ⟨dst,same⟩ := List.append_inj same (width _ _ _)
  obtain ⟨nonce,same⟩ := List.append_inj same (width _ _ _)
  obtain ⟨timestamp,same⟩ := List.append_inj same (by simp)
  exact ⟨WireMsgType.codeInj code,be16Inj flags,be64Inj session,Subtype.ext src,Subtype.ext dst,Subtype.ext nonce,
    be64Inj timestamp,(List.cons.inj same).1⟩

theorem signingBytesInj {a b : WireEnvelope} {msg : Bytes} (left : a.signingBytes = .ok msg)
    (right : b.signingBytes = .ok msg) : a = { b with hopIndex := a.hopIndex, signature := a.signature } := by
  have smallLeft := signingBytesSmall left
  have smallRight := signingBytesSmall right
  rw [signingBytesOk smallLeft, Except.ok.injEq] at left
  rw [signingBytesOk smallRight, Except.ok.injEq] at right
  have same := left.trans right.symm
  obtain ⟨start,rest⟩ := List.append_inj same (by rw [headerStartLength, headerStartLength])
  obtain ⟨-,payload⟩ := List.append_inj (List.cons.inj rest).2 (by simp)
  obtain ⟨msgType,flags,session,src,dst,nonce,timestamp,hopLimit⟩ := headerStartInj start
  cases a
  cases b
  simp_all

theorem signingBytesHopIndex (e : WireEnvelope) (i : UInt8) : { e with hopIndex := i }.signingBytes = e.signingBytes := by
  by_cases small : e.payload.length ≤ 65535
  · rw [signingBytesOk small, signingBytesOk (e := { e with hopIndex := i }) small]
    rfl
  · have large : 65535 < e.payload.length := by omega
    simp [WireEnvelope.signingBytes, WireEnvelope.headerAndPayload, large]

theorem verifyOriginHopIndex (ed : Ed25519) (e : WireEnvelope) (i : UInt8) :
    { e with hopIndex := i }.verifyOrigin ed = e.verifyOrigin ed := by
  unfold WireEnvelope.verifyOrigin
  rw [signingBytesHopIndex]

theorem signingBytesTag {e : WireEnvelope} {msg : Bytes} (ok : e.signingBytes = .ok msg) :
    SigningDomain.wireEnvelope.tag <+: msg := by
  have small := signingBytesSmall ok
  rw [signingBytesOk small, Except.ok.injEq] at ok
  rw [← ok, WireEnvelope.headerStart, List.append_assoc]
  exact List.prefix_append _ _

theorem verifyOriginOk {ed : Ed25519} {e : WireEnvelope} : e.verifyOrigin ed = .ok () ↔
    ∃ sig msg, e.signature = some sig ∧ e.signingBytes = .ok msg ∧ ed.fromBytes e.srcPeerId = true ∧
      ed.verifyStrict e.srcPeerId msg sig = true := by
  constructor
  · intro ok
    unfold WireEnvelope.verifyOrigin at ok
    split at ok
    · cases ok
    · rename_i sig signed
      split at ok
      · rename_i point
        split at ok
        · cases ok
        · rename_i msg bytes
          split at ok
          · rename_i verified
            have strict := ((verifyInBandIff ed rfl).mp verified).2.2
            exact ⟨sig,msg,signed,bytes,point,strict⟩
          · cases ok
      · cases ok
  · rintro ⟨sig,msg,signed,bytes,point,strict⟩
    have verified := (verifyInBandIff ed rfl).mpr ⟨signingBytesTag bytes,point,strict⟩
    simp [WireEnvelope.verifyOrigin, signed, point, bytes, verified]

theorem signOk (ed : Ed25519) (seed : Seed) {e : WireEnvelope} {msg : Bytes} (bytes : e.signingBytes = .ok msg) :
    e.sign ed seed = .ok { e with signature := some (ed.sign seed msg) } := by
  simp [WireEnvelope.sign, bytes, signInBandOk ed rfl seed (signingBytesTag bytes)]

theorem verifySigned {ed : Ed25519} (correct : ed.Correct) {seed : Seed} {e : WireEnvelope} {msg : Bytes}
    (own : e.srcPeerId = ed.verifyingKey seed) (bytes : e.signingBytes = .ok msg) :
    { e with signature := some (ed.sign seed msg) }.verifyOrigin ed = .ok () := by
  obtain ⟨point,valid⟩ := correct seed msg
  rw [← own] at point valid
  exact verifyOriginOk.mpr ⟨ed.sign seed msg,msg,rfl,bytes,point,valid⟩

def WireEnvelope.trailer (e : WireEnvelope) : Bytes := (e.signature.map Subtype.val).getD []

theorem encodeOk {e : WireEnvelope} (small : e.payload.length ≤ 65535) :
    e.encode = .ok (e.headerStart ++ e.hopIndex :: (be 2 e.payload.length ++ (e.payload ++ e.trailer))) := by
  rw [WireEnvelope.encode, WireEnvelope.headerAndPayload, if_neg (by omega)]
  cases signed : e.signature <;> simp [WireEnvelope.trailer, signed]

theorem encodeSmall {e : WireEnvelope} {bytes : Bytes} (ok : e.encode = .ok bytes) : e.payload.length ≤ 65535 := by
  by_contra large
  rw [WireEnvelope.encode, WireEnvelope.headerAndPayload, if_pos (by omega)] at ok
  cases ok

theorem encodeLength {e : WireEnvelope} {bytes : Bytes} (ok : e.encode = .ok bytes) :
    bytes.length = headerSize + e.payload.length + e.trailer.length := by
  have small := encodeSmall ok
  have start := headerStartLength e
  rw [encodeOk small, Except.ok.injEq] at ok
  simp [← ok, start, hopIndexOffset, headerSize]
  omega

theorem byteAtOf {off : Nat} {raw : Bytes} (before : Bytes) (b : UInt8) (after : Bytes)
    (whole : raw = before ++ b :: after) (position : before.length = off) : byteAt raw off = b := by
  subst whole position
  simp [byteAt]

theorem readArrOf {n off : Nat} {raw : Bytes} (before : Bytes) (field : Octets n) (after : Bytes)
    (whole : raw = before ++ (field.val ++ after)) (position : before.length = off) : readArr n raw off = .ok field := by
  rw [readArr, octetsAt before field after whole position]

theorem readU16Of {off : Nat} {raw : Bytes} (before : Bytes) (field : UInt16) (after : Bytes)
    (whole : raw = before ++ (be 2 field.toNat ++ after)) (position : before.length = off) : readU16 raw off = field := by
  rw [readU16, sliceAt before _ after whole position (beLength 2 _), readBeBounded field.toNat_lt]
  simp

theorem readU64Of {off : Nat} {raw : Bytes} (before : Bytes) (field : UInt64) (after : Bytes)
    (whole : raw = before ++ (be 8 field.toNat ++ after)) (position : before.length = off) : readU64 raw off = field := by
  rw [readU64, sliceAt before _ after whole position (beLength 8 _), readBeBounded field.toNat_lt]
  simp

theorem trailingSignatureOf {bytes : Bytes} {e : WireEnvelope} (before : Bytes) (whole : bytes = before ++ e.trailer) :
    trailingSignature bytes before.length = .ok e.signature := by
  have beyond : bytes.length - before.length = e.trailer.length := by simp [whole]
  unfold trailingSignature
  cases signed : e.signature with
  | none =>
    have none : e.trailer.length = 0 := by simp [WireEnvelope.trailer, signed]
    rw [if_pos (by omega)]
  | some sig =>
    have same : e.trailer = sig.val := by simp [WireEnvelope.trailer, signed]
    have long : e.trailer.length = signatureSize := by rw [same, sig.property]; rfl
    have found : octets signatureSize before.length bytes = some sig :=
      octetsAt before sig [] (by simp [whole, same]) rfl
    rw [if_neg (by rw [beyond, long]; decide), if_pos (by omega), found]

theorem decodeEncode {e : WireEnvelope} {bytes : Bytes} (ok : e.encode = .ok bytes) :
    WireEnvelope.decode bytes = .ok e := by
  have length := encodeLength ok
  have small := encodeSmall ok
  have src := e.srcPeerId.property
  have dst := e.dstPeerId.property
  have nonce := e.nonce.property
  rw [encodeOk small, Except.ok.injEq] at ok
  let start := magic ++ [version,e.msgType.code]
  let ids := be 2 e.flags.toNat ++ be 8 e.sessionId.toNat
  let peers := e.srcPeerId.val ++ e.dstPeerId.val
  let stamp := e.nonce.val ++ be 8 e.timestampMs.toNat
  let hops := [e.hopLimit,e.hopIndex]
  let size := be 2 e.payload.length
  have whole : bytes = start ++ (ids ++ (peers ++ (stamp ++ (hops ++ (size ++ (e.payload ++ e.trailer)))))) := by
    simp [← ok, WireEnvelope.headerStart, start, ids, peers, stamp, hops, size]
  have magicAt : slice 0 4 bytes = magic := sliceAt [] magic _ (by simp only [whole, start, List.append_assoc]; rfl) rfl rfl
  have versionAt : byteAt bytes 4 = version := byteAtOf magic version _ (by simp only [whole, start, List.append_assoc]; rfl) rfl
  have typeAt : byteAt bytes 5 = e.msgType.code :=
    byteAtOf (magic ++ [version]) e.msgType.code _ (by simp only [whole, start, List.append_assoc]; rfl) rfl
  have flagsAt : readU16 bytes 6 = e.flags :=
    readU16Of start _ _ (by simp only [whole, ids, List.append_assoc]; rfl) rfl
  have sessionAt : readU64 bytes 8 = e.sessionId :=
    readU64Of (start ++ be 2 e.flags.toNat) _ _ (by simp only [whole, ids, List.append_assoc]; rfl) (by simp [start, magic])
  have srcAt : readArr 32 bytes 16 = .ok e.srcPeerId :=
    readArrOf (start ++ ids) _ _ (by simp only [whole, peers, List.append_assoc]; rfl) (by simp [start, magic, ids])
  have dstAt : readArr 32 bytes 48 = .ok e.dstPeerId :=
    readArrOf (start ++ (ids ++ e.srcPeerId.val)) _ _ (by simp only [whole, peers, List.append_assoc]; rfl)
      (by simp [start, magic, ids, src])
  have nonceAt : readArr 12 bytes 80 = .ok e.nonce :=
    readArrOf (start ++ (ids ++ peers)) _ _ (by simp only [whole, stamp, List.append_assoc]; rfl)
      (by simp [start, magic, ids, peers, src, dst])
  have stampAt : readU64 bytes 92 = e.timestampMs :=
    readU64Of (start ++ (ids ++ (peers ++ e.nonce.val))) _ _ (by simp only [whole, stamp, List.append_assoc]; rfl)
      (by simp [start, magic, ids, peers, src, dst, nonce])
  have limitAt : byteAt bytes 100 = e.hopLimit :=
    byteAtOf (start ++ (ids ++ (peers ++ stamp))) _ _ (by simp only [whole, hops, List.append_assoc]; rfl)
      (by simp [start, magic, ids, peers, stamp, src, dst, nonce])
  have indexAt : byteAt bytes 101 = e.hopIndex :=
    byteAtOf (start ++ (ids ++ (peers ++ (stamp ++ [e.hopLimit])))) _ _
      (by simp only [whole, hops, List.append_assoc]; rfl) (by simp [start, magic, ids, peers, stamp, src, dst, nonce])
  have sizeAt : (readU16 bytes 102).toNat = e.payload.length := by
    rw [readU16, sliceAt (start ++ (ids ++ (peers ++ (stamp ++ hops)))) _ _
      (by simp only [whole, size, List.append_assoc]; rfl)
      (by simp [start, magic, ids, peers, stamp, hops, src, dst, nonce]) (beLength 2 _),
      readBeBounded (by omega)]
    simp only [Nat.toUInt16_eq, UInt16.toNat_ofNat']
    omega
  have payloadAt : slice 104 e.payload.length bytes = e.payload :=
    sliceAt (start ++ (ids ++ (peers ++ (stamp ++ (hops ++ size))))) _ e.trailer (by simp only [whole, List.append_assoc])
      (by simp [start, magic, ids, peers, stamp, hops, size, src, dst, nonce]) rfl
  have signatureAt : trailingSignature bytes (104 + e.payload.length) = .ok e.signature := by
    have before := trailingSignatureOf (start ++ (ids ++ (peers ++ (stamp ++ (hops ++ (size ++ e.payload))))))
      (by simp only [whole, List.append_assoc] : bytes = _ ++ e.trailer)
    have position : (start ++ (ids ++ (peers ++ (stamp ++ (hops ++ (size ++ e.payload)))))).length =
        104 + e.payload.length := by
      simp [start, magic, ids, peers, stamp, hops, size, src, dst, nonce]
      omega
    rwa [position] at before
  have long : ¬ bytes.length < headerSize := by omega
  have longer : ¬ bytes.length < 104 + e.payload.length := by
    unfold headerSize at length
    omega
  simp only [WireEnvelope.decode, if_neg long, magicAt, versionAt, typeAt, WireMsgType.fromCode, srcAt, dstAt, nonceAt,
    sizeAt, if_neg longer, signatureAt, flagsAt, sessionAt, stampAt, limitAt, indexAt, payloadAt, ne_eq,
    not_true_eq_false, if_false]
  rfl

structure Decoded (bytes : Bytes) (e : WireEnvelope) : Prop where
  tagged : slice 0 4 bytes = magic
  msgType : WireMsgType.fromU8 (byteAt bytes 5) = some e.msgType
  inside : headerSize + (readU16 bytes 102).toNat ≤ bytes.length
  payload : e.payload = slice headerSize (readU16 bytes 102).toNat bytes
  signature : trailingSignature bytes (headerSize + (readU16 bytes 102).toNat) = .ok e.signature

theorem decodeOk {e : WireEnvelope} {bytes : Bytes} (ok : WireEnvelope.decode bytes = .ok e) : Decoded bytes e := by
  unfold WireEnvelope.decode at ok
  simp only [bind, Except.bind, throw, throwThe, MonadExceptOf.throw, pure, Except.pure] at ok
  split at ok
  · cases ok
  · split at ok
    · cases ok
    · rename_i tagged
      split at ok
      · cases ok
      · split at ok
        · cases ok
        · rename_i msgType known
          -- the three arrays, the length of the payload and the signature
          split at ok
          · cases ok
          · split at ok
            · cases ok
            · split at ok
              · cases ok
              · split at ok
                · cases ok
                · rename_i inside
                  split at ok
                  · cases ok
                  · rename_i signature found
                    cases ok
                    exact ⟨not_not.mp tagged,known,Nat.not_lt.mp inside,rfl,found⟩

theorem trailingSignatureLength {bytes : Bytes} {payloadEnd : Nat} {e : WireEnvelope} (inside : payloadEnd ≤ bytes.length)
    (ok : trailingSignature bytes payloadEnd = .ok e.signature) : bytes.length = payloadEnd + e.trailer.length := by
  unfold trailingSignature at ok
  unfold WireEnvelope.trailer
  split at ok
  · rw [← Except.ok.inj ok]
    simp only [Option.map_none, Option.getD_none, List.length_nil]
    omega
  · split at ok
    · split at ok
      · rename_i sig _
        have width : sig.val.length = signatureSize := sig.property
        rw [← Except.ok.inj ok]
        change bytes.length = payloadEnd + sig.val.length
        omega
      · cases ok
    · split at ok <;> cases ok

theorem decodeLength {e : WireEnvelope} {bytes : Bytes} (ok : WireEnvelope.decode bytes = .ok e) :
    bytes.length = headerSize + e.payload.length + e.trailer.length ∧ e.payload.length ≤ 65535 := by
  have decoded := decodeOk ok
  have inside := decoded.inside
  have whole := trailingSignatureLength inside decoded.signature
  have size : e.payload.length = (readU16 bytes 102).toNat := by
    rw [decoded.payload, slice, List.length_take, List.length_drop]
    omega
  have small := (readU16 bytes 102).toNat_lt
  omega

end OpenPulse.Wire
