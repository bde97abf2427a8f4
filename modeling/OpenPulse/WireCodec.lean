import OpenPulse.Reads
import OpenPulse.Wire

/-! The envelope's codec as a bijection: `decode` undoes `encode` and `encode`
undoes `decode`, the decoder stays inside the bytes it is given, and the signed
view of an envelope determines it up to `hop_index` and the signature. -/
namespace OpenPulse.WireCodec
open ByteCodec Reads Signing Wire

/- `decode` of `Wire` reads zeros past the end; here each read is the source's, and
leaving the slice stops the program. -/
def readU16Indexed (bytes : Bytes) (off : Nat) : Read WireQueryError UInt16 :=
  if bytes.length < off + 2 then throw .malformedPayload
  else do
    let high ← index bytes off
    let low ← index bytes (off + 1)
    return (readBe [high,low]).toUInt16

def readU32Indexed (bytes : Bytes) (off : Nat) : Read WireQueryError UInt32 := do
  let raw ← array 4 bytes off .malformedPayload
  return (readBe raw.val).toUInt32

def readU64Indexed (bytes : Bytes) (off : Nat) : Read WireQueryError UInt64 := do
  let raw ← array 8 bytes off .malformedPayload
  return (readBe raw.val).toUInt64

def readArrIndexed (n : Nat) (bytes : Bytes) (off : Nat) : Read WireQueryError (Octets n) :=
  array n bytes off .malformedPayload

def trailingSignatureIndexed (bytes : Bytes) (payloadEnd : Nat) : Read WireQueryError (Option Signature) :=
  if bytes.length - payloadEnd = 0 then pure none
  else if bytes.length - payloadEnd = signatureSize then do
    let sig ← array signatureSize bytes payloadEnd .malformedPayload
    return some sig
  else if bytes.length - payloadEnd < signatureSize then throw .bufferTooShort
  else throw .malformedPayload

def decodeIndexed (bytes : Bytes) : Read WireQueryError WireEnvelope :=
  if bytes.length < headerSize then throw .bufferTooShort
  else do
    let tag ← range bytes 0 4
    if tag ≠ magic then throw .invalidMagic
    else do
      let got ← index bytes 4
      if got ≠ version then throw (.unsupportedVersion got version)
      else do
        let code ← index bytes 5
        match WireMsgType.fromU8 code with
        | none => throw (.unknownMsgType code)
        | some msgType => do
          let flags ← readU16Indexed bytes 6
          let sessionId ← readU64Indexed bytes 8
          let srcPeerId ← readArrIndexed 32 bytes 16
          let dstPeerId ← readArrIndexed 32 bytes 48
          let nonce ← readArrIndexed 12 bytes 80
          let timestampMs ← readU64Indexed bytes 92
          let hopLimit ← index bytes 100
          let hopIndex ← index bytes 101
          let payloadLen ← readU16Indexed bytes 102
          let payloadEnd := 104 + payloadLen.toNat
          if bytes.length < payloadEnd then throw .bufferTooShort
          else do
            let payload ← range bytes 104 payloadEnd
            let signature ← trailingSignatureIndexed bytes payloadEnd
            return { msgType, flags, sessionId, srcPeerId, dstPeerId, nonce, timestampMs, hopLimit, hopIndex, payload,
                     signature }

theorem yieldsByte {bytes : Bytes} {i : Nat} (inside : i < bytes.length) :
    Yields (index bytes i : Read WireQueryError UInt8) (.ok (byteAt bytes i)) := yieldsIndex inside

theorem yieldsU16 {bytes : Bytes} {off : Nat} (inside : off + 2 ≤ bytes.length) :
    Yields (readU16Indexed bytes off) (.ok (readU16 bytes off)) := by
  unfold readU16Indexed
  rw [if_neg (by omega)]
  refine yieldsThen (yieldsIndex (by omega)) (yieldsThen (yieldsIndex (by omega)) ?_)
  rw [readU16, sliceIndex inside]
  exact yieldsPure _

theorem yieldsU32 {bytes : Bytes} {off : Nat} (inside : off + 4 ≤ bytes.length) :
    Yields (readU32Indexed bytes off) (.ok (readU32 bytes off)) :=
  yieldsThen (yieldsArray inside _) (yieldsPure _)

theorem yieldsU64 {bytes : Bytes} {off : Nat} (inside : off + 8 ≤ bytes.length) :
    Yields (readU64Indexed bytes off) (.ok (readU64 bytes off)) :=
  yieldsThen (yieldsArray inside _) (yieldsPure _)

theorem readArrInside {n off : Nat} {bytes : Bytes} (inside : off + n ≤ bytes.length) :
    readArr n bytes off = .ok ⟨slice off n bytes,sliceLength inside⟩ := by
  rw [readArr, octets, dif_pos (sliceLength inside)]

theorem yieldsArr {n off : Nat} {bytes : Bytes} (inside : off + n ≤ bytes.length) :
    Yields (readArrIndexed n bytes off) (.ok ⟨slice off n bytes,sliceLength inside⟩) :=
  yieldsArray inside _

theorem yieldsTrailing {bytes : Bytes} {payloadEnd : Nat} (inside : payloadEnd ≤ bytes.length) :
    Yields (trailingSignatureIndexed bytes payloadEnd) (trailingSignature bytes payloadEnd) := by
  unfold trailingSignatureIndexed trailingSignature
  refine yieldsIf (fun _ => yieldsPure _) (fun _ => yieldsIf (fun exact => ?_) (fun _ => yieldsIf (fun _ => yieldsThrow _)
    (fun _ => yieldsThrow _)))
  have fits : payloadEnd + signatureSize ≤ bytes.length := by omega
  rw [octets, dif_pos (sliceLength fits)]
  exact yieldsThen (yieldsArray fits _) (yieldsPure _)

theorem decodeInside (bytes : Bytes) : Yields (decodeIndexed bytes) (WireEnvelope.decode bytes) := by
  unfold decodeIndexed WireEnvelope.decode
  refine yieldsIf (fun _ => yieldsThrow _) (fun short => ?_)
  have long : 104 ≤ bytes.length := Nat.not_lt.mp short
  refine yieldsThen (yieldsRange (by omega) (by omega)) ?_
  refine yieldsIf (fun _ => yieldsThrow _) (fun _ => ?_)
  refine yieldsThen (yieldsByte (by omega)) ?_
  refine yieldsIf (fun _ => yieldsThrow _) (fun _ => ?_)
  refine yieldsThen (yieldsByte (by omega)) ?_
  cases WireMsgType.fromU8 (byteAt bytes 5) with
  | none => exact yieldsThrow _
  | some msgType =>
    refine yieldsThen (yieldsU16 (by omega)) (yieldsThen (yieldsU64 (by omega)) ?_)
    rw [readArrInside (by omega : 16 + 32 ≤ bytes.length), readArrInside (by omega : 48 + 32 ≤ bytes.length),
      readArrInside (by omega : 80 + 12 ≤ bytes.length)]
    refine yieldsThen (yieldsArr (by omega)) (yieldsThen (yieldsArr (by omega)) (yieldsThen (yieldsArr (by omega)) ?_))
    refine yieldsThen (yieldsU64 (by omega)) (yieldsThen (yieldsByte (by omega)) (yieldsThen (yieldsByte (by omega)) ?_))
    refine yieldsThen (yieldsU16 (by omega)) ?_
    refine yieldsIf (fun _ => yieldsThrow _) (fun inside => ?_)
    have payload := @yieldsRange WireQueryError bytes 104 (104 + (readU16 bytes 102).toNat) (by omega) (by omega)
    rw [Nat.add_sub_cancel_left] at payload
    exact yieldsThen payload (yieldsBind (yieldsTrailing (by omega)) (fun _ _ => yieldsPure _))

structure Header (bytes : Bytes) (e : WireEnvelope) : Prop where
  long : headerSize ≤ bytes.length
  version : byteAt bytes 4 = Wire.version
  flags : e.flags = readU16 bytes 6
  sessionId : e.sessionId = readU64 bytes 8
  srcPeerId : e.srcPeerId.val = slice 16 32 bytes
  dstPeerId : e.dstPeerId.val = slice 48 32 bytes
  nonce : e.nonce.val = slice 80 12 bytes
  timestampMs : e.timestampMs = readU64 bytes 92
  hopLimit : e.hopLimit = byteAt bytes 100
  hopIndex : e.hopIndex = byteAt bytes 101

theorem decodeHeader {e : WireEnvelope} {bytes : Bytes} (ok : WireEnvelope.decode bytes = .ok e) : Header bytes e := by
  unfold WireEnvelope.decode at ok
  by_cases short : bytes.length < headerSize
  · rw [if_pos short] at ok
    cases ok
  · rw [if_neg short] at ok
    have long : 104 ≤ bytes.length := Nat.not_lt.mp short
    rw [readArrInside (by omega : 16 + 32 ≤ bytes.length), readArrInside (by omega : 48 + 32 ≤ bytes.length),
      readArrInside (by omega : 80 + 12 ≤ bytes.length)] at ok
    simp only [bind, Except.bind, throw, throwThe, MonadExceptOf.throw, pure, Except.pure] at ok
    split at ok
    · cases ok
    · split at ok
      · cases ok
      · rename_i current
        split at ok
        · cases ok
        · split at ok
          · cases ok
          · split at ok
            · cases ok
            · cases ok
              exact ⟨long,not_not.mp current,rfl,rfl,rfl,rfl,rfl,rfl,rfl,rfl⟩

theorem codeFrom {v : UInt8} {t : WireMsgType} (known : WireMsgType.fromU8 v = some t) : t.code = v := by
  unfold WireMsgType.fromU8 at known
  apply UInt8.toNat_inj.mp
  split at known
  all_goals cases known
  all_goals rename_i value; rw [value]; rfl

theorem beSlice {width off : Nat} {bytes : Bytes} (inside : off + width ≤ bytes.length) :
    readBe (slice off width bytes) < 256 ^ width ∧ be width (readBe (slice off width bytes)) = slice off width bytes := by
  have small := readBeSmall (slice off width bytes)
  have back := beReadBe (slice off width bytes)
  rw [sliceLength inside] at small back
  exact ⟨small,back⟩

theorem beU16 {bytes : Bytes} {off : Nat} (inside : off + 2 ≤ bytes.length) :
    be 2 (readU16 bytes off).toNat = slice off 2 bytes := by
  obtain ⟨small,back⟩ := beSlice inside
  rw [readU16, Nat.toUInt16_eq, UInt16.toNat_ofNat', Nat.mod_eq_of_lt (show _ < 2 ^ 16 from small)]
  exact back

theorem beU64 {bytes : Bytes} {off : Nat} (inside : off + 8 ≤ bytes.length) :
    be 8 (readU64 bytes off).toNat = slice off 8 bytes := by
  obtain ⟨small,back⟩ := beSlice inside
  rw [readU64, Nat.toUInt64_eq, UInt64.toNat_ofNat', Nat.mod_eq_of_lt (show _ < 2 ^ 64 from small)]
  exact back

theorem headerStartDecoded {e : WireEnvelope} {bytes : Bytes} (ok : WireEnvelope.decode bytes = .ok e) :
    bytes = e.headerStart ++ bytes.drop hopIndexOffset := by
  have header := decodeHeader ok
  have decoded := decodeOk ok
  have long : 104 ≤ bytes.length := header.long
  calc bytes = slice 0 4 bytes ++ bytes.drop 4 := dropSlice 0 4 bytes
    _ = slice 0 4 bytes ++ byteAt bytes 4 :: byteAt bytes 5 :: bytes.drop 6 := by
      rw [dropIndex (by omega : 4 < bytes.length), dropIndex (by omega : 4 + 1 < bytes.length)]
      rfl
    _ = slice 0 4 bytes ++ byteAt bytes 4 :: byteAt bytes 5 :: (slice 6 2 bytes ++ (slice 8 8 bytes ++
        (slice 16 32 bytes ++ (slice 48 32 bytes ++ (slice 80 12 bytes ++ (slice 92 8 bytes ++
          (byteAt bytes 100 :: bytes.drop 101))))))) := by
      rw [dropSlice 6 2, dropSlice 8 8, dropSlice 16 32, dropSlice 48 32, dropSlice 80 12, dropSlice 92 8,
        dropIndex (by omega : 100 < bytes.length)]
      rfl
    _ = e.headerStart ++ bytes.drop hopIndexOffset := by
      rw [decoded.tagged, header.version, ← codeFrom decoded.msgType, ← beU16 (by omega), ← beU64 (by omega),
        ← beU64 (by omega), ← header.flags, ← header.sessionId, ← header.srcPeerId, ← header.dstPeerId, ← header.nonce,
        ← header.timestampMs, ← header.hopLimit]
      simp [WireEnvelope.headerStart, hopIndexOffset]

theorem trailerDecoded {e : WireEnvelope} {bytes : Bytes} {payloadEnd : Nat} (inside : payloadEnd ≤ bytes.length)
    (ok : trailingSignature bytes payloadEnd = .ok e.signature) : bytes.drop payloadEnd = e.trailer := by
  have length := trailingSignatureLength inside ok
  unfold trailingSignature at ok
  unfold WireEnvelope.trailer
  split at ok
  · rw [← Except.ok.inj ok]
    exact List.drop_eq_nil_of_le (by omega)
  · split at ok
    · rename_i exact
      have fits : payloadEnd + signatureSize ≤ bytes.length := by omega
      rw [octets, dif_pos (sliceLength fits)] at ok
      rw [← Except.ok.inj ok]
      exact (List.take_of_length_le (by rw [List.length_drop]; omega)).symm
    · split at ok <;> cases ok

theorem encodeDecoded {e : WireEnvelope} {bytes : Bytes} (ok : WireEnvelope.decode bytes = .ok e) :
    e.encode = .ok bytes := by
  have header := decodeHeader ok
  have decoded := decodeOk ok
  have long : 104 ≤ bytes.length := header.long
  have inside : 104 + (readU16 bytes 102).toNat ≤ bytes.length := decoded.inside
  have size : e.payload.length = (readU16 bytes 102).toNat := by
    rw [decoded.payload]
    exact sliceLength inside
  have trailer : bytes.drop (104 + (readU16 bytes 102).toNat) = e.trailer := trailerDecoded inside decoded.signature
  have body : bytes.drop hopIndexOffset = e.hopIndex :: (be 2 e.payload.length ++ (e.payload ++ e.trailer)) := by
    change bytes.drop 101 = _
    rw [dropIndex (by omega : 101 < bytes.length), dropSlice 102 2, dropSlice 104 (readU16 bytes 102).toNat,
      trailer, size, beU16 (by omega), decoded.payload, header.hopIndex]
    rfl
  rw [encodeOk (decodeLength ok).2, ← body]
  exact congrArg Except.ok (headerStartDecoded ok).symm

theorem signingBytesIff {a b : WireEnvelope} (left : a.payload.length ≤ 65535) (right : b.payload.length ≤ 65535) :
    a.signingBytes = b.signingBytes ↔ a = { b with hopIndex := a.hopIndex, signature := a.signature } := by
  constructor
  · intro same
    rw [signingBytesOk left] at same
    exact signingBytesInj (signingBytesOk left) same.symm
  · intro same
    rw [same]
    rw [signingBytesOk right, signingBytesOk (e := { b with hopIndex := a.hopIndex, signature := a.signature }) right]
    rfl

theorem verifiedAlike {ed : Ed25519} {a b : WireEnvelope} {sig : Signature} (left : a.signature = some sig)
    (right : b.signature = some sig)
    (binding : ∀ key message key' message', ed.verifyStrict key message sig = true →
      ed.verifyStrict key' message' sig = true → message = message')
    (first : a.verifyOrigin ed = .ok ()) (last : b.verifyOrigin ed = .ok ()) :
    a = { b with hopIndex := a.hopIndex } := by
  obtain ⟨s,m,signed,bytes,-,valid⟩ := verifyOriginOk.mp first
  obtain ⟨s',m',signed',bytes',-,valid'⟩ := verifyOriginOk.mp last
  cases left.symm.trans signed
  cases right.symm.trans signed'
  have message := binding _ m _ m' valid valid'
  subst message
  have same := signingBytesInj bytes bytes'
  rw [left, ← right] at same
  exact same

theorem envelopeBijection :
    (∀ e : WireEnvelope, e.payload.length ≤ 65535 → ∃ bytes, e.encode = .ok bytes ∧ WireEnvelope.decode bytes = .ok e) ∧
    (∀ bytes e, WireEnvelope.decode bytes = .ok e → e.encode = .ok bytes) ∧
    (∀ bytes, (decodeIndexed bytes).run = some (WireEnvelope.decode bytes)) ∧
    (∀ a b : WireEnvelope, a.payload.length ≤ 65535 → b.payload.length ≤ 65535 →
      (a.signingBytes = b.signingBytes ↔ a = { b with hopIndex := a.hopIndex, signature := a.signature })) ∧
    (∀ ed (e : WireEnvelope) i, { e with hopIndex := i }.verifyOrigin ed = e.verifyOrigin ed) ∧
    (∀ ed (a b : WireEnvelope) sig, a.signature = some sig → b.signature = some sig →
      (∀ key message key' message', ed.verifyStrict key message sig = true →
        ed.verifyStrict key' message' sig = true → message = message') →
      a.verifyOrigin ed = .ok () → b.verifyOrigin ed = .ok () → a = { b with hopIndex := a.hopIndex }) := by
  refine ⟨?_,fun _ _ => encodeDecoded,decodeInside,fun _ _ => signingBytesIff,verifyOriginHopIndex,
    fun _ _ _ _ => verifiedAlike⟩
  intro e small
  exact ⟨_,encodeOk small,decodeEncode (encodeOk small)⟩

end OpenPulse.WireCodec
