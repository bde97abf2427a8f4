import OpenPulse.FxWire
import OpenPulse.Signing
import OpenPulse.Utf8Cuts

/-! The codec of the file transfer frames as a whole: what an encoded frame comes back as, and
what the signature on an offer covers, `openpulse-filexfer/src/wire.rs` and `offer.rs`. -/
namespace OpenPulse.FxWire
open ByteCodec Reader Signing Utf8Cuts

inductive ManifestError where
  | invalidKey
  | invalidSignature
  deriving DecidableEq

namespace FileOffer

def signingBytes (o : FileOffer) : Bytes := o.encodeSignedFields

def verifySignature (ed : Ed25519) (o : FileOffer) (peerPubkey : PeerId) : Except ManifestError Unit :=
  if ed.fromBytes peerPubkey then
    if verifyInDomain ed .fileOffer peerPubkey o.signingBytes o.signature then .ok () else .error .invalidSignature
  else .error .invalidKey

end FileOffer

def shortened (max : Nat) (s : String) : String := String.ofList (within max s.toList)

theorem utf8Encoded (s : String) : utf8 s = encoded s.toList := by
  have bytes : s.toUTF8 = s.toList.utf8Encode := (String.utf8Encode_toList ..).symm
  rw [utf8, bytes]
  simp [List.utf8Encode, encoded]

theorem charBoundaryLast (raw : Bytes) (max : Nat) : charBoundaryUpTo raw max = lastBoundary raw max := by
  have same : ∀ i, isCharBoundary raw i = boundary raw i := by
    intro i
    unfold isCharBoundary boundary leads
    cases raw[i]? with
    | none => rfl
    | some b => exact Bool.or_assoc ..
  induction max with
  | zero => rfl
  | succ max ih => rw [charBoundaryUpTo, lastBoundary, same, ih]

theorem shortenedLongest (max : Nat) (s : String) : Longest max s.toList (shortened max s).toList := by
  rw [shortened, String.toList_ofList]
  exact withinLongest max s.toList

theorem shortenedFits (max : Nat) (s : String) : (utf8 (shortened max s)).length ≤ max := by
  rw [utf8Encoded]
  exact (shortenedLongest max s).fits

theorem shortenedWhole {max : Nat} {s : String} (fits : (utf8 s).length ≤ max) : shortened max s = s := by
  rw [utf8Encoded] at fits
  rw [shortened, withinWhole fits, String.ofList_toList]

theorem truncatedShortened (max : Nat) (s : String) : truncated (utf8 s) max = utf8 (shortened max s) := by
  rw [truncated]
  split_ifs with long
  · rw [charBoundaryLast, utf8Encoded, takeLastBoundary, utf8Encoded, shortened, String.toList_ofList]
  · rw [shortenedWhole (by omega)]

theorem writeShortened (max : Nat) (s : String) : writeStringTruncating s max = writeBytes (utf8 (shortened max s)) := by
  rw [writeStringTruncating, truncatedShortened]

theorem u64Append (v : UInt64) (after : Bytes) : u64 (be 8 v.toNat ++ after) = .ok (v,after) := by
  rw [u64, readBind (takeAppend (beLength ..) after), readBeBounded v.toNat_lt, readPure]
  simp

theorem stringAppend (field : String) {max : Nat} (cap : max < 256) {s : String} (fits : (utf8 s).length ≤ max) (after : Bytes) :
    string field max (writeBytes (utf8 s) ++ after) = .ok (s,after) := by
  have len : (utf8 s).length.toUInt8.toNat = (utf8 s).length := by
    rw [Nat.toUInt8, UInt8.toNat_ofNat', Nat.mod_eq_of_lt (by omega)]
  rw [string, writeBytes, List.cons_append, readBind (u8Cons ..)]
  simp only [len]
  rw [if_neg (Nat.not_lt.mpr fits), readBind (takeAppend rfl after), fromUtf8Utf8]
  rfl

/-- An offer as the other end has it. -/
def FileOffer.received (o : FileOffer) : FileOffer := { o with name := shortened nameMax o.name, mime := shortened mimeMax o.mime }

def InRange (blockSize : UInt32) : Prop := minBlockSize ≤ blockSize.toNat ∧ blockSize.toNat ≤ maxBlockSize

theorem decodeOffer (o : FileOffer) (inRange : InRange o.blockSize) (after : Bytes) :
    FileOffer.decodeBody (o.encodeBody ++ after) = .ok (o.received,after) := by
  have range : (!(decide (minBlockSize ≤ o.blockSize.toNat) && decide (o.blockSize.toNat ≤ maxBlockSize))) = false := by
    rw [decide_eq_true inRange.1, decide_eq_true inRange.2]
    rfl
  have sender : SenderId.new o.senderId.id = .ok o.senderId := by rw [SenderId.new, dif_pos o.senderId.fits]
  unfold FileOffer.decodeBody FileOffer.encodeBody FileOffer.encodeSignedFields
  simp only [List.append_assoc, List.cons_append]
  rw [readBind (u32Append ..), readBind (u8Cons ..), readBind (u64Append ..), readBind (arrayAppend ..), readBind (u32Append ..),
    range, if_neg Bool.false_ne_true, readBind (u16Append ..), readBind (stringAppend "sender_id" (by decide) o.senderId.fits _)]
  rw [sender, readBind (liftOk ..), writeShortened, writeShortened,
    readBind (stringAppend "name" (by decide) (shortenedFits nameMax o.name) _),
    readBind (stringAppend "mime" (by decide) (shortenedFits mimeMax o.mime) _), readBind (arrayAppend ..)]
  rfl

theorem readBindError {α β : Type} {x : Reader α} {f : α → Reader β} {buf : Bytes} {e : FxError} (stop : x buf = .error e) :
    (x >>= f) buf = .error e := by
  change (x buf >>= fun p => f p.1 p.2) = _
  rw [stop]
  rfl

theorem refuseOffer (o : FileOffer) (outside : ¬ InRange o.blockSize) (after : Bytes) :
    FileOffer.decodeBody (o.encodeBody ++ after) = .error (.blockSizeOutOfRange o.blockSize) := by
  have range : (!(decide (minBlockSize ≤ o.blockSize.toNat) && decide (o.blockSize.toNat ≤ maxBlockSize))) = true := by
    rw [Bool.not_eq_true', ← Bool.not_eq_true, Bool.and_eq_true, decide_eq_true_iff, decide_eq_true_iff]
    exact outside
  unfold FileOffer.decodeBody FileOffer.encodeBody FileOffer.encodeSignedFields
  simp only [List.append_assoc, List.cons_append]
  rw [readBind (u32Append ..), readBind (u8Cons ..), readBind (u64Append ..), readBind (arrayAppend ..), readBind (u32Append ..),
    range, if_pos rfl]
  exact readBindError rfl

namespace FxFrame

theorem decodeOutOfRange (o : FileOffer) (outside : ¬ InRange o.blockSize) :
    decode (encode (.fileOffer o)) = .error (.blockSizeOutOfRange o.blockSize) := by
  have body := refuseOffer o outside []
  rw [List.append_nil] at body
  rw [encode, decodeHeader]
  unfold decodeBody frameType encodeBody
  simp only
  rw [readBindError body]
  rfl

theorem decodeFileOffer (o : FileOffer) (inRange : InRange o.blockSize) : decode (encode (.fileOffer o)) = .ok (.fileOffer o.received) := by
  have body := decodeOffer o inRange []
  rw [List.append_nil] at body
  rw [encode, decodeHeader]
  unfold decodeBody frameType encodeBody
  simp only
  rw [readBind body]
  rfl

theorem decodeBlockAck (t : UInt32) (blockIndex : UInt16) (complete : Bool) {missing : Bytes} (fits : missing.length ≤ 255) :
    decode (encode (.blockAck t blockIndex complete missing)) = .ok (.blockAck t blockIndex complete missing) := by
  have len : missing.length = missing.length.toUInt8.toNat := by
    rw [Nat.toUInt8, UInt8.toNat_ofNat', Nat.mod_eq_of_lt (by omega)]
  have taken := takeAppend len []
  rw [List.append_nil] at taken
  have flag : (complete.toUInt8 != 0) = complete := by cases complete <;> rfl
  apply decodeEncode
  unfold encodeBody decodeBody frameType
  simp only
  rw [readBind (u32Append ..), readBind (u16Append ..), readBind (u8Cons ..), readBind (u8Cons ..), readBind taken, flag]
  rfl

/-- Frames whose bitmaps fit their length fields and whose block size is in range. -/
def Fits : FxFrame → Prop
  | .fileOffer o => InRange o.blockSize
  | .fileAccept _ haveBitmap => haveBitmap.length ≤ 65535
  | .blockAck _ _ _ missing => missing.length ≤ 255
  | .fileReject _ _ | .fileData _ _ _ | .fileComplete _ _ _ | .fileCancel _ _ => True

def received : FxFrame → FxFrame
  | .fileOffer o => .fileOffer o.received
  | f => f

theorem decodeReceived {f : FxFrame} (fits : f.Fits) : decode f.encode = .ok f.received := by
  cases f with
  | fileOffer o => exact decodeFileOffer o fits
  | fileAccept t haveBitmap => exact decodeFileAccept t (Nat.lt_succ_of_le fits)
  | fileReject t reason => exact decodeFileReject t reason
  | fileData t blockIndex packed => exact decodeFileData t blockIndex packed
  | blockAck t blockIndex complete missing => exact decodeBlockAck t blockIndex complete fits
  | fileComplete t status countersignature => exact decodeFileComplete t status countersignature
  | fileCancel t reason => exact decodeFileCancel t reason

end FxFrame

theorem writeTwice (max : Nat) (s : String) : writeStringTruncating (shortened max s) max = writeStringTruncating s max := by
  rw [writeShortened, writeShortened, shortenedWhole (shortenedFits max s)]

namespace FileOffer

theorem receivedSigned (o : FileOffer) : o.received.signingBytes = o.signingBytes := by
  unfold signingBytes encodeSignedFields
  simp only [received, writeTwice]

theorem receivedVerified (ed : Ed25519) (o : FileOffer) (peerPubkey : PeerId) :
    o.received.verifySignature ed peerPubkey = o.verifySignature ed peerPubkey := by
  rw [verifySignature, receivedSigned]
  rfl

end FileOffer

end OpenPulse.FxWire
