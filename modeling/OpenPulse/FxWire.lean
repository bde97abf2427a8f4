import OpenPulse.ByteCodec

/-! The frames of the file transfer protocol: `openpulse-filexfer/src/wire.rs`
and the offer of `offer.rs`. All integers are big-endian and a string is its
length in one byte followed by UTF-8. The reader is the bytes that are left. -/
namespace OpenPulse.FxWire
open ByteCodec

def filexferMagic : Bytes := [79, 80, 70, 88]
def filexferVersion : UInt8 := 1
def minBlockSize : Nat := 1024
def maxBlockSize : Nat := 49152
def maxBlockCount : Nat := 65534

inductive FxError where
  | truncated (needed had : Nat)
  | badMagic
  | unsupportedVersion (version : UInt8)
  | unknownFrameType (type : UInt8)
  | fieldTooLong (field : String) (len max : Nat)
  | invalidUtf8 (field : String)
  | invalidEnum (field : String) (byte : UInt8)
  | blockSizeOutOfRange (blockSize : UInt32)
  | blockTooLarge (blockIndex : UInt16)
  deriving DecidableEq, Repr

inductive Reason where
  | operatorDeclined | featureDisabled | tooLarge | quotaExceeded | busy | untrustedPeer | timeout
  | unsupportedVersion | operatorCancel | stall
  deriving DecidableEq, Repr

def Reason.toU8 : Reason → UInt8
  | .operatorDeclined => 0
  | .featureDisabled => 1
  | .tooLarge => 2
  | .quotaExceeded => 3
  | .busy => 4
  | .untrustedPeer => 5
  | .timeout => 6
  | .unsupportedVersion => 7
  | .operatorCancel => 8
  | .stall => 9

def Reason.fromU8 (b : UInt8) : Except FxError Reason :=
  match b with
  | 0 => .ok .operatorDeclined
  | 1 => .ok .featureDisabled
  | 2 => .ok .tooLarge
  | 3 => .ok .quotaExceeded
  | 4 => .ok .busy
  | 5 => .ok .untrustedPeer
  | 6 => .ok .timeout
  | 7 => .ok .unsupportedVersion
  | 8 => .ok .operatorCancel
  | 9 => .ok .stall
  | b => .error (.invalidEnum "reason" b)

inductive CompleteStatus where
  | verifiedOk | hashMismatch | signatureInvalid | sizeMismatch
  deriving DecidableEq, Repr

def CompleteStatus.isOk : CompleteStatus → Bool
  | .verifiedOk => true
  | .hashMismatch | .signatureInvalid | .sizeMismatch => false

def CompleteStatus.toU8 : CompleteStatus → UInt8
  | .verifiedOk => 0
  | .hashMismatch => 1
  | .signatureInvalid => 2
  | .sizeMismatch => 3

def CompleteStatus.fromU8 (b : UInt8) : Except FxError CompleteStatus :=
  match b with
  | 0 => .ok .verifiedOk
  | 1 => .ok .hashMismatch
  | 2 => .ok .signatureInvalid
  | 3 => .ok .sizeMismatch
  | b => .error (.invalidEnum "status" b)

def senderIdMax : Nat := 18
def nameMax : Nat := 48
def mimeMax : Nat := 24

structure SenderId where
  id : String
  fits : (utf8 id).length ≤ senderIdMax
  deriving DecidableEq, Repr

def SenderId.new (id : String) : Except FxError SenderId :=
  if fits : (utf8 id).length ≤ senderIdMax then .ok ⟨id,fits⟩
  else .error (.fieldTooLong "sender_id" (utf8 id).length senderIdMax)

def isCharBoundary (raw : Bytes) (i : Nat) : Bool :=
  match raw[i]? with
  | some b => i == 0 || b < 128 || 192 ≤ b
  | none => i == raw.length

def charBoundaryUpTo (raw : Bytes) : Nat → Nat
  | 0 => 0
  | i + 1 => if isCharBoundary raw (i + 1) then i + 1 else charBoundaryUpTo raw i

def truncated (raw : Bytes) (max : Nat) : Bytes := if max < raw.length then raw.take (charBoundaryUpTo raw max) else raw

def writeBytes (raw : Bytes) : Bytes := raw.length.toUInt8 :: raw

def writeStringTruncating (s : String) (max : Nat) : Bytes := writeBytes (truncated (utf8 s) max)

structure FileOffer where
  transferId : UInt32
  flags : UInt8
  fileSize : UInt64
  sha256 : Octets 32
  blockSize : UInt32
  blockCount : UInt16
  senderId : SenderId
  name : String
  mime : String
  signature : Octets 64
  deriving DecidableEq, Repr

inductive FxFrame where
  | fileOffer (offer : FileOffer)
  | fileAccept (transferId : UInt32) (haveBitmap : Bytes)
  | fileReject (transferId : UInt32) (reason : Reason)
  | fileData (transferId : UInt32) (blockIndex : UInt16) (packed : Bytes)
  | blockAck (transferId : UInt32) (blockIndex : UInt16) (complete : Bool) (missingFragBitmap : Bytes)
  | fileComplete (transferId : UInt32) (status : CompleteStatus) (countersignature : Octets 64)
  | fileCancel (transferId : UInt32) (reason : Reason)
  deriving DecidableEq, Repr

def FileOffer.encodeSignedFields (o : FileOffer) : Bytes :=
  be 4 o.transferId.toNat ++ (o.flags :: (be 8 o.fileSize.toNat ++ (o.sha256.val ++ (be 4 o.blockSize.toNat ++
    (be 2 o.blockCount.toNat ++ (writeBytes (utf8 o.senderId.id) ++
      (writeStringTruncating o.name nameMax ++ writeStringTruncating o.mime mimeMax)))))))

def FileOffer.encodeBody (o : FileOffer) : Bytes := o.encodeSignedFields ++ o.signature.val

namespace FxFrame

def transferId : FxFrame → UInt32
  | .fileOffer o => o.transferId
  | .fileAccept t _ | .fileReject t _ | .fileData t _ _ | .blockAck t _ _ _ | .fileComplete t _ _ | .fileCancel t _ => t

def frameType : FxFrame → UInt8
  | .fileOffer _ => 1
  | .fileAccept _ _ => 2
  | .fileReject _ _ => 3
  | .fileData _ _ _ => 4
  | .blockAck _ _ _ _ => 5
  | .fileComplete _ _ _ => 6
  | .fileCancel _ _ => 7

def encodeBody : FxFrame → Bytes
  | .fileOffer o => o.encodeBody
  | .fileAccept t haveBitmap => be 4 t.toNat ++ (be 2 haveBitmap.length ++ haveBitmap)
  | .fileReject t reason => be 4 t.toNat ++ [reason.toU8]
  | .fileData t blockIndex packed => be 4 t.toNat ++ (be 2 blockIndex.toNat ++ packed)
  | .blockAck t blockIndex complete missing =>
    be 4 t.toNat ++ (be 2 blockIndex.toNat ++ (complete.toUInt8 :: missing.length.toUInt8 :: missing))
  | .fileComplete t status countersignature => be 4 t.toNat ++ (status.toU8 :: countersignature.val)
  | .fileCancel t reason => be 4 t.toNat ++ [reason.toU8]

def encode (f : FxFrame) : Bytes := filexferMagic ++ (filexferVersion :: f.frameType :: f.encodeBody)

end FxFrame

abbrev Reader := StateT Bytes (Except FxError)

namespace Reader

def array (n : Nat) : Reader (Octets n) := fun buf =>
  if fits : n ≤ buf.length then .ok (⟨buf.take n,by simp [fits]⟩,buf.drop n) else .error (.truncated n buf.length)

def take (n : Nat) : Reader Bytes := do return (← array n).val
def u8 : Reader UInt8 := do return UInt8.ofNat (readBe (← take 1))
def u16 : Reader UInt16 := do return UInt16.ofNat (readBe (← take 2))
def u32 : Reader UInt32 := do return UInt32.ofNat (readBe (← take 4))
def u64 : Reader UInt64 := do return UInt64.ofNat (readBe (← take 8))
def rest : Reader Bytes := fun buf => .ok (buf,[])

def string (field : String) (max : Nat) : Reader String := do
  let len := (← u8).toNat
  if max < len then throw (.fieldTooLong field len max)
  match fromUtf8 (← take len) with
  | some s => return s
  | none => throw (.invalidUtf8 field)

end Reader

open Reader

def FileOffer.decodeBody : Reader FileOffer := do
  let transferId ← u32
  let flags ← u8
  let fileSize ← u64
  let sha256 ← array 32
  let blockSize ← u32
  if !(decide (minBlockSize ≤ blockSize.toNat) && decide (blockSize.toNat ≤ maxBlockSize)) then
    throw (.blockSizeOutOfRange blockSize)
  let blockCount ← u16
  let senderId ← SenderId.new (← string "sender_id" senderIdMax)
  let name ← string "name" nameMax
  let mime ← string "mime" mimeMax
  let signature ← array 64
  return ⟨transferId,flags,fileSize,sha256,blockSize,blockCount,senderId,name,mime,signature⟩

namespace FxFrame

def decodeBody (type : UInt8) : Reader FxFrame :=
  match type with
  | 1 => do return .fileOffer (← FileOffer.decodeBody)
  | 2 => do
    let transferId ← u32
    let haveLen ← u16
    return .fileAccept transferId (← take haveLen.toNat)
  | 3 => do
    let transferId ← u32
    return .fileReject transferId (← Reason.fromU8 (← u8))
  | 4 => do
    let transferId ← u32
    let blockIndex ← u16
    return .fileData transferId blockIndex (← rest)
  | 5 => do
    let transferId ← u32
    let blockIndex ← u16
    let complete ← u8
    let missingLen ← u8
    return .blockAck transferId blockIndex (complete != 0) (← take missingLen.toNat)
  | 6 => do
    let transferId ← u32
    let status ← CompleteStatus.fromU8 (← u8)
    return .fileComplete transferId status (← array 64)
  | 7 => do
    let transferId ← u32
    return .fileCancel transferId (← Reason.fromU8 (← u8))
  | other => throw (.unknownFrameType other)

def decodeFrame : Reader FxFrame := do
  let magic ← take 4
  if magic ≠ filexferMagic then throw .badMagic
  else do
    let version ← u8
    if version ≠ filexferVersion then throw (.unsupportedVersion version)
    else decodeBody (← u8)

def decode (bytes : Bytes) : Except FxError FxFrame := (decodeFrame.run bytes).map Prod.fst

end FxFrame

theorem readPure {α : Type} (v : α) (bytes : Bytes) : (pure v : Reader α) bytes = .ok (v,bytes) := rfl

theorem readBind {α β : Type} {x : Reader α} {f : α → Reader β} {buf left : Bytes} {a : α} (read : x buf = .ok (a,left)) :
    (x >>= f) buf = f a left := by
  change (x buf >>= fun p => f p.1 p.2) = _
  rw [read]
  rfl

theorem readBindInv {α β : Type} {x : Reader α} {f : α → Reader β} {buf : Bytes} {out : β × Bytes}
    (read : (x >>= f) buf = .ok out) : ∃ a left, x buf = .ok (a,left) ∧ f a left = .ok out := by
  change (x buf >>= fun p => f p.1 p.2) = _ at read
  cases first : x buf with
  | error e =>
    rw [first] at read
    cases read
  | ok p =>
    rw [first] at read
    exact ⟨p.1,p.2,rfl,read⟩

theorem liftOk {α : Type} (a : α) (buf : Bytes) : (liftM (.ok a : Except FxError α) : Reader α) buf = .ok (a,buf) := rfl

theorem arrayAppend {n : Nat} (x : Octets n) (after : Bytes) : array n (x.val ++ after) = .ok (x,after) := by
  obtain ⟨raw,rfl⟩ := x
  simp [array]

theorem takeAppend {n : Nat} {raw : Bytes} (width : raw.length = n) (after : Bytes) :
    take n (raw ++ after) = .ok (raw,after) := by
  rw [take, readBind (arrayAppend ⟨raw,width⟩ after)]
  rfl

theorem u8Cons (b : UInt8) (after : Bytes) : u8 (b::after) = .ok (b,after) := by
  have read : take 1 (b::after) = .ok ([b],after) := @takeAppend 1 [b] rfl after
  rw [u8, readBind read, readPure]
  simp [readBe]

theorem u16Append (v : UInt16) (after : Bytes) : u16 (be 2 v.toNat ++ after) = .ok (v,after) := by
  rw [u16, readBind (takeAppend (beLength ..) after), readBeBounded v.toNat_lt, readPure]
  simp

theorem u32Append (v : UInt32) (after : Bytes) : u32 (be 4 v.toNat ++ after) = .ok (v,after) := by
  rw [u32, readBind (takeAppend (beLength ..) after), readBeBounded v.toNat_lt, readPure]
  simp

theorem reasonRoundTrip (r : Reason) : Reason.fromU8 r.toU8 = .ok r := by cases r <;> rfl

theorem statusRoundTrip (s : CompleteStatus) : CompleteStatus.fromU8 s.toU8 = .ok s := by cases s <;> rfl

namespace FxFrame

theorem decodeHeader (type : UInt8) (body : Bytes) :
    decode (filexferMagic ++ (filexferVersion :: type :: body)) = (decodeBody type body).map Prod.fst := by
  have magic : take 4 (filexferMagic ++ (filexferVersion :: type :: body)) = .ok (filexferMagic,filexferVersion :: type :: body) :=
    @takeAppend 4 filexferMagic rfl _
  unfold decode decodeFrame
  change Except.map Prod.fst ((take 4 >>= _) _) = _
  rw [readBind magic, if_neg (not_not.mpr rfl), readBind (u8Cons ..), if_neg (not_not.mpr rfl), readBind (u8Cons ..)]

theorem decodeEncode {f : FxFrame} (body : decodeBody f.frameType f.encodeBody = .ok (f,[])) :
    decode f.encode = .ok f := by
  rw [encode, decodeHeader, body]
  rfl

theorem decodeFileAccept (t : UInt32) {haveBitmap : Bytes} (fits : haveBitmap.length < 65536) :
    decode (encode (.fileAccept t haveBitmap)) = .ok (.fileAccept t haveBitmap) := by
  have len : haveBitmap.length = (UInt16.ofNat haveBitmap.length).toNat := by simp; omega
  have taken : take (UInt16.ofNat haveBitmap.length).toNat haveBitmap = .ok (haveBitmap,[]) := by
    have whole := takeAppend len []
    rwa [List.append_nil] at whole
  apply decodeEncode
  change (do
    let transferId ← u32
    let haveLen ← u16
    return .fileAccept transferId (← take haveLen.toNat) : Reader FxFrame) (be 4 t.toNat ++ (be 2 haveBitmap.length ++ haveBitmap)) = _
  rw [readBind (u32Append ..), len, readBind (u16Append ..), readBind taken]
  rfl

theorem decodeFileReject (t : UInt32) (reason : Reason) :
    decode (encode (.fileReject t reason)) = .ok (.fileReject t reason) := by
  apply decodeEncode
  change (do
    let transferId ← u32
    return .fileReject transferId (← Reason.fromU8 (← u8)) : Reader FxFrame) (be 4 t.toNat ++ [reason.toU8]) = _
  rw [readBind (u32Append ..), readBind (u8Cons ..), reasonRoundTrip]
  rfl

theorem decodeFileCancel (t : UInt32) (reason : Reason) :
    decode (encode (.fileCancel t reason)) = .ok (.fileCancel t reason) := by
  apply decodeEncode
  change (do
    let transferId ← u32
    return .fileCancel transferId (← Reason.fromU8 (← u8)) : Reader FxFrame) (be 4 t.toNat ++ [reason.toU8]) = _
  rw [readBind (u32Append ..), readBind (u8Cons ..), reasonRoundTrip]
  rfl

theorem decodeFileComplete (t : UInt32) (status : CompleteStatus) (countersignature : Octets 64) :
    decode (encode (.fileComplete t status countersignature)) = .ok (.fileComplete t status countersignature) := by
  have taken := arrayAppend countersignature []
  rw [List.append_nil] at taken
  apply decodeEncode
  change (do
    let transferId ← u32
    let status ← CompleteStatus.fromU8 (← u8)
    return .fileComplete transferId status (← array 64) : Reader FxFrame) (be 4 t.toNat ++ (status.toU8 :: countersignature.val)) = _
  rw [readBind (u32Append ..), readBind (u8Cons ..), statusRoundTrip, readBind (liftOk ..), readBind taken]
  rfl

theorem decodeFileData (t : UInt32) (blockIndex : UInt16) (packed : Bytes) :
    decode (encode (.fileData t blockIndex packed)) = .ok (.fileData t blockIndex packed) := by
  apply decodeEncode
  change (do
    let transferId ← u32
    let blockIndex ← u16
    return .fileData transferId blockIndex (← rest) : Reader FxFrame) (be 4 t.toNat ++ (be 2 blockIndex.toNat ++ packed)) = _
  rw [readBind (u32Append ..), readBind (u16Append ..)]
  rfl

theorem decodeBodyType {type : UInt8} {body left : Bytes} {f : FxFrame} (read : decodeBody type body = .ok (f,left)) :
    f.frameType = type := by
  unfold decodeBody at read
  split at read
  · obtain ⟨o,rest,-,last⟩ := readBindInv read
    cases last
    rfl
  · obtain ⟨t,rest,-,read⟩ := readBindInv read
    obtain ⟨n,rest,-,read⟩ := readBindInv read
    obtain ⟨b,rest,-,last⟩ := readBindInv read
    cases last
    rfl
  · obtain ⟨t,rest,-,read⟩ := readBindInv read
    obtain ⟨b,rest,-,read⟩ := readBindInv read
    obtain ⟨r,rest,-,last⟩ := readBindInv read
    cases last
    rfl
  · obtain ⟨t,rest,-,read⟩ := readBindInv read
    obtain ⟨i,rest,-,read⟩ := readBindInv read
    obtain ⟨p,rest,-,last⟩ := readBindInv read
    cases last
    rfl
  · obtain ⟨t,rest,-,read⟩ := readBindInv read
    obtain ⟨i,rest,-,read⟩ := readBindInv read
    obtain ⟨c,rest,-,read⟩ := readBindInv read
    obtain ⟨n,rest,-,read⟩ := readBindInv read
    obtain ⟨m,rest,-,last⟩ := readBindInv read
    cases last
    rfl
  · obtain ⟨t,rest,-,read⟩ := readBindInv read
    obtain ⟨b,rest,-,read⟩ := readBindInv read
    obtain ⟨s,rest,-,read⟩ := readBindInv read
    obtain ⟨c,rest,-,last⟩ := readBindInv read
    cases last
    rfl
  · obtain ⟨t,rest,-,read⟩ := readBindInv read
    obtain ⟨b,rest,-,read⟩ := readBindInv read
    obtain ⟨r,rest,-,last⟩ := readBindInv read
    cases last
    rfl
  · cases read

theorem decodeEncodeType {f g : FxFrame} (read : decode f.encode = .ok g) : g.frameType = f.frameType := by
  rw [encode, decodeHeader] at read
  cases body : decodeBody f.frameType f.encodeBody with
  | error e =>
    rw [body] at read
    cases read
  | ok p =>
    rw [body] at read
    obtain rfl := Except.ok.inj read
    exact decodeBodyType body

end FxFrame

end OpenPulse.FxWire
