import OpenPulse.FxCodec

/-! The reader of `openpulse-filexfer/src/wire.rs` as it runs: a position in a buffer that stays.
Indexing, slicing and copying stop the program where they leave a buffer. The reader
over the bytes that are left says what it reads, and that it never stops so. -/
namespace OpenPulse.FxWire
open ByteCodec Signing Utf8Cuts

inductive Stop where
  | refused (e : FxError)
  | outOfRange
  deriving DecidableEq

abbrev Slice := { bytes : Bytes // bytes.length < 2 ^ 63 }

abbrev Positioned := ReaderT Bytes (StateT Nat (Except Stop))

namespace Positioned

def sliced (buf : Bytes) (start stop : Nat) : Except Stop Bytes :=
  if start ≤ stop ∧ stop ≤ buf.length then .ok ((buf.drop start).take (stop - start)) else .error .outOfRange

def byteAt (b : Bytes) (i : Nat) : Positioned UInt8 :=
  match b[i]? with
  | some x => pure x
  | none => throw .outOfRange

def copyFromSlice (n : Nat) (b : Bytes) : Positioned (Octets n) :=
  if fits : b.length = n then pure ⟨b,fits⟩ else throw .outOfRange

def orRefuse {α : Type} : Except FxError α → Positioned α
  | .ok a => pure a
  | .error e => throw (.refused e)

/- The sum is checked: a position is a `usize`. -/
def take (n : Nat) : Positioned Bytes := fun buf pos =>
  if 2 ^ 64 ≤ pos + n then .error (.refused (.truncated n (buf.length - pos)))
  else if buf.length < pos + n then .error (.refused (.truncated n (buf.length - pos)))
  else (sliced buf pos (pos + n)).map fun slice => (slice,pos + n)

def u8 : Positioned UInt8 := do byteAt (← take 1) 0

def u16 : Positioned UInt16 := do
  let b ← take 2
  return UInt16.ofNat (readBe [← byteAt b 0,← byteAt b 1])

def u32 : Positioned UInt32 := do
  let b ← take 4
  return UInt32.ofNat (readBe [← byteAt b 0,← byteAt b 1,← byteAt b 2,← byteAt b 3])

def u64 : Positioned UInt64 := do
  let b ← take 8
  return UInt64.ofNat (readBe (← copyFromSlice 8 b).val)

def array (n : Nat) : Positioned (Octets n) := do
  let b ← take n
  copyFromSlice n b

def string (field : String) (max : Nat) : Positioned String := do
  let len := (← u8).toNat
  if max < len then throw (.refused (.fieldTooLong field len max))
  match fromUtf8 (← take len) with
  | some s => return s
  | none => throw (.refused (.invalidUtf8 field))

def rest : Positioned Bytes := fun buf pos => (sliced buf pos buf.length).map fun slice => (slice,buf.length)

def offerBody : Positioned FileOffer := do
  let transferId ← u32
  let flags ← u8
  let fileSize ← u64
  let sha256 ← array 32
  let blockSize ← u32
  if !(decide (minBlockSize ≤ blockSize.toNat) && decide (blockSize.toNat ≤ maxBlockSize)) then
    throw (.refused (.blockSizeOutOfRange blockSize))
  let blockCount ← u16
  let senderId ← orRefuse (SenderId.new (← string "sender_id" senderIdMax))
  let name ← string "name" nameMax
  let mime ← string "mime" mimeMax
  let signature ← array 64
  return ⟨transferId,flags,fileSize,sha256,blockSize,blockCount,senderId,name,mime,signature⟩

def decodeBody (type : UInt8) : Positioned FxFrame :=
  match type with
  | 1 => do return .fileOffer (← offerBody)
  | 2 => do
    let transferId ← u32
    let haveLen ← u16
    return .fileAccept transferId (← take haveLen.toNat)
  | 3 => do
    let transferId ← u32
    return .fileReject transferId (← orRefuse (Reason.fromU8 (← u8)))
  | 4 => do
    let transferId ← u32
    let blockIndex ← u16
    return .fileData transferId blockIndex (← rest)
  | 5 => do
    let transferId ← u32
    let blockIndex ← u16
    let complete ← u8
    let missingLen ← u8
    return .blockAck transferId blockIndex (complete != 0) (← take missingLen.toNat)
  | 6 => do
    let transferId ← u32
    let status ← orRefuse (CompleteStatus.fromU8 (← u8))
    return .fileComplete transferId status (← array 64)
  | 7 => do
    let transferId ← u32
    return .fileCancel transferId (← orRefuse (Reason.fromU8 (← u8)))
  | other => throw (.refused (.unknownFrameType other))

def decodeFrame : Positioned FxFrame := do
  let magic ← take 4
  if magic ≠ filexferMagic then throw (.refused .badMagic)
  else do
    let version ← u8
    if version ≠ filexferVersion then throw (.refused (.unsupportedVersion version))
    else decodeBody (← u8)

def decode (bytes : Slice) : Except Stop FxFrame := (decodeFrame bytes.val 0).map Prod.fst

end Positioned

section Follows
variable {α β : Type}

inductive Follows (buf : Bytes) : Except FxError (α × Bytes) → Except Stop (α × Nat) → Prop where
  | read (a : α) {pos : Nat} (inside : pos ≤ buf.length) : Follows buf (.ok (a,buf.drop pos)) (.ok (a,pos))
  | refused (e : FxError) : Follows buf (.error e) (.error (.refused e))

def Simulates (x : Reader α) (y : Positioned α) : Prop :=
  ∀ buf pos, buf.length < 2 ^ 63 → pos ≤ buf.length → Follows buf (x (buf.drop pos)) (y buf pos)

theorem simPure (a : α) : Simulates (pure a) (pure a) := fun _ _ _ inside => .read a inside

theorem simThrow (e : FxError) : Simulates (throw e : Reader α) (throw (.refused e)) := fun _ _ _ _ => .refused e

theorem simBind {x : Reader α} {y : Positioned α} {f : α → Reader β} {g : α → Positioned β} (first : Simulates x y)
    (later : ∀ a, Simulates (f a) (g a)) : Simulates (x >>= f) (y >>= g) := by
  intro buf pos small inside
  have here := first buf pos small inside
  change Follows buf (x (buf.drop pos) >>= fun p => f p.1 p.2) (y buf pos >>= fun p => g p.1 buf p.2)
  generalize x (buf.drop pos) = read at here
  generalize y buf pos = read' at here
  cases here with
  | read a inside => exact later a buf _ small inside
  | refused e => exact .refused e

theorem simLift (r : Except FxError α) : Simulates (liftM r : Reader α) (Positioned.orRefuse r) := by
  cases r with
  | ok a => exact simPure a
  | error e => exact simThrow e

theorem takeFollows (n : Nat) {buf : Bytes} {pos : Nat} (small : buf.length < 2 ^ 63) (inside : pos ≤ buf.length) :
    (Reader.array n (buf.drop pos) = .error (.truncated n (buf.length - pos)) ∧
      Positioned.take n buf pos = .error (.refused (.truncated n (buf.length - pos)))) ∨
    ∃ b : Octets n, pos + n ≤ buf.length ∧ Reader.array n (buf.drop pos) = .ok (b,buf.drop (pos + n)) ∧
      Positioned.take n buf pos = .ok (b.val,pos + n) := by
  have left : (buf.drop pos).length = buf.length - pos := List.length_drop
  rcases Nat.lt_or_ge buf.length (pos + n) with short | fits
  · refine .inl ⟨?_,?_⟩
    · rw [Reader.array, dif_neg (by omega), left]
    · rw [Positioned.take]
      split_ifs <;> rfl
  · refine .inr ⟨⟨(buf.drop pos).take n,by rw [List.length_take]; omega⟩,fits,?_,?_⟩
    · rw [Reader.array, dif_pos (by omega), List.drop_drop]
    · rw [Positioned.take, if_neg (by omega), if_neg (by omega), Positioned.sliced, if_pos ⟨by omega,fits⟩, Nat.add_sub_cancel_left]
      rfl

theorem posBind {y : Positioned α} {g : α → Positioned β} {buf : Bytes} {pos pos' : Nat} {a : α} (read : y buf pos = .ok (a,pos')) :
    (y >>= g) buf pos = g a buf pos' := by
  change (y buf pos >>= fun p => g p.1 buf p.2) = _
  rw [read]
  rfl

theorem posBindError {y : Positioned α} {g : α → Positioned β} {buf : Bytes} {pos : Nat} {s : Stop} (stop : y buf pos = .error s) :
    (y >>= g) buf pos = .error s := by
  change (y buf pos >>= fun p => g p.1 buf p.2) = _
  rw [stop]
  rfl

theorem simTakeBind {n : Nat} {f : Bytes → Reader β} {g : Bytes → Positioned β} (later : ∀ b, b.length = n → Simulates (f b) (g b)) :
    Simulates (Reader.take n >>= f) (Positioned.take n >>= g) := by
  intro buf pos small inside
  rcases takeFollows n small inside with ⟨refused,refused'⟩ | ⟨b,fits,read,read'⟩
  · have stop : Reader.take n (buf.drop pos) = .error (.truncated n (buf.length - pos)) := readBindError refused
    rw [readBindError stop, posBindError refused']
    exact .refused _
  · have bytes : Reader.take n (buf.drop pos) = .ok (b.val,buf.drop (pos + n)) := readBind read
    rw [readBind bytes, posBind read']
    exact later b.val b.property buf (pos + n) small fits

theorem simTake (n : Nat) : Simulates (Reader.take n) (Positioned.take n) := by
  have same := @simTakeBind Bytes n pure pure fun b _ => simPure b
  rwa [bind_pure, bind_pure] at same

theorem simArray (n : Nat) : Simulates (Reader.array n) (Positioned.array n) := by
  intro buf pos small inside
  rcases takeFollows n small inside with ⟨refused,refused'⟩ | ⟨b,fits,read,read'⟩
  · rw [refused, Positioned.array, posBindError refused']
    exact .refused _
  · rw [read, Positioned.array, posBind read', Positioned.copyFromSlice, dif_pos b.property]
    exact .read b fits

theorem simU8 : Simulates Reader.u8 Positioned.u8 := by
  refine simTakeBind fun b length => ?_
  obtain ⟨x,rfl⟩ := List.length_eq_one_iff.mp length
  have same : UInt8.ofNat (readBe [x]) = x := by simp [readBe]
  rw [same]
  exact simPure x

theorem simU16 : Simulates Reader.u16 Positioned.u16 := by
  refine simTakeBind fun b length => ?_
  obtain ⟨x,y,rfl⟩ := List.length_eq_two.mp length
  exact simPure _

theorem simU32 : Simulates Reader.u32 Positioned.u32 := by
  refine simTakeBind fun b length => ?_
  rcases b with _ | ⟨w,b⟩
  · cases length
  · obtain ⟨x,y,z,rfl⟩ := List.length_eq_three.mp (Nat.succ.inj length)
    exact simPure _

theorem simU64 : Simulates Reader.u64 Positioned.u64 := by
  refine simTakeBind fun b length => ?_
  rw [Positioned.copyFromSlice, dif_pos length]
  exact simPure _

theorem simString (field : String) (max : Nat) : Simulates (Reader.string field max) (Positioned.string field max) := by
  refine simBind simU8 fun len => ?_
  by_cases long : max < len.toNat
  · simp only [if_pos long]
    exact simThrow _
  · simp only [if_neg long]
    refine simBind (simTake len.toNat) fun bytes => ?_
    cases fromUtf8 bytes with
    | some s => exact simPure s
    | none => exact simThrow _

theorem simRest : Simulates Reader.rest Positioned.rest := by
  intro buf pos _ inside
  have whole : Positioned.rest buf pos = .ok (buf.drop pos,buf.length) := by
    rw [Positioned.rest, Positioned.sliced, if_pos ⟨inside,Nat.le_refl _⟩, List.take_of_length_le (by rw [List.length_drop])]
    rfl
  have none' : buf.drop buf.length = [] := List.drop_length
  rw [whole]
  change Follows buf (.ok (buf.drop pos,[])) _
  rw [← none']
  exact .read _ (Nat.le_refl _)

end Follows

theorem simOffer : Simulates FileOffer.decodeBody Positioned.offerBody := by
  refine simBind simU32 fun transferId => simBind simU8 fun flags => simBind simU64 fun fileSize => simBind (simArray 32) fun sha256 =>
    simBind simU32 fun blockSize => ?_
  have tail : Simulates
      (do
        let blockCount ← Reader.u16
        let senderId ← SenderId.new (← Reader.string "sender_id" senderIdMax)
        let name ← Reader.string "name" nameMax
        let mime ← Reader.string "mime" mimeMax
        let signature ← Reader.array 64
        return (⟨transferId,flags,fileSize,sha256,blockSize,blockCount,senderId,name,mime,signature⟩ : FileOffer))
      (do
        let blockCount ← Positioned.u16
        let senderId ← Positioned.orRefuse (SenderId.new (← Positioned.string "sender_id" senderIdMax))
        let name ← Positioned.string "name" nameMax
        let mime ← Positioned.string "mime" mimeMax
        let signature ← Positioned.array 64
        return ⟨transferId,flags,fileSize,sha256,blockSize,blockCount,senderId,name,mime,signature⟩) :=
    simBind simU16 fun _ => simBind (simString "sender_id" senderIdMax) fun id => simBind (simLift (SenderId.new id)) fun _ =>
      simBind (simString "name" nameMax) fun _ => simBind (simString "mime" mimeMax) fun _ => simBind (simArray 64) fun _ => simPure _
  by_cases outside : (!(decide (minBlockSize ≤ blockSize.toNat) && decide (blockSize.toNat ≤ maxBlockSize))) = true
  · simp only [if_pos outside]
    exact simThrow _
  · simp only [if_neg outside]
    exact tail

theorem simBody (type : UInt8) : Simulates (FxFrame.decodeBody type) (Positioned.decodeBody type) := by
  unfold FxFrame.decodeBody
  split
  · exact simBind simOffer fun _ => simPure _
  · exact simBind simU32 fun _ => simBind simU16 fun n => simBind (simTake n.toNat) fun _ => simPure _
  · exact simBind simU32 fun _ => simBind simU8 fun b => simBind (simLift (Reason.fromU8 b)) fun _ => simPure _
  · exact simBind simU32 fun _ => simBind simU16 fun _ => simBind simRest fun _ => simPure _
  · exact simBind simU32 fun _ => simBind simU16 fun _ => simBind simU8 fun _ => simBind simU8 fun n =>
      simBind (simTake n.toNat) fun _ => simPure _
  · exact simBind simU32 fun _ => simBind simU8 fun b => simBind (simLift (CompleteStatus.fromU8 b)) fun _ =>
      simBind (simArray 64) fun _ => simPure _
  · exact simBind simU32 fun _ => simBind simU8 fun b => simBind (simLift (Reason.fromU8 b)) fun _ => simPure _
  · simp only [Positioned.decodeBody, *]
    exact simThrow _

theorem simFrame : Simulates FxFrame.decodeFrame Positioned.decodeFrame := by
  refine simBind (simTake 4) fun magic => ?_
  by_cases other : magic ≠ filexferMagic
  · simp only [if_pos other]
    exact simThrow _
  · simp only [if_neg other]
    refine simBind simU8 fun version => ?_
    by_cases old : version ≠ filexferVersion
    · simp only [if_pos old]
      exact simThrow _
    · simp only [if_neg old]
      exact simBind simU8 simBody

/-- The running reader gives what the frames are read as, and never leaves its buffer. -/
theorem decodePositioned (bytes : Slice) : Positioned.decode bytes = (FxFrame.decode bytes.val).mapError .refused := by
  have follows := simFrame bytes.val 0 bytes.property (Nat.zero_le _)
  rw [List.drop_zero] at follows
  unfold Positioned.decode FxFrame.decode StateT.run
  generalize FxFrame.decodeFrame bytes.val = read at follows
  generalize Positioned.decodeFrame bytes.val 0 = read' at follows
  cases follows with
  | read a inside => rfl
  | refused e => rfl

theorem decodeInRange (bytes : Slice) : Positioned.decode bytes ≠ .error .outOfRange := by
  rw [decodePositioned]
  cases FxFrame.decode bytes.val with
  | ok f => rintro ⟨⟩
  | error e => rintro ⟨⟩

theorem fxCodec (ed : Ed25519) :
    (∀ f : FxFrame, f.Fits → FxFrame.decode f.encode = .ok f.received) ∧
    (∀ max s, Longest max s.toList (shortened max s).toList) ∧
    (∀ (o : FileOffer) (g : FxFrame), FxFrame.decode (FxFrame.encode (.fileOffer o)) = .ok g →
      ∃ o', g = .fileOffer o' ∧ o'.signingBytes = o.signingBytes ∧
        ∀ peerPubkey, o'.verifySignature ed peerPubkey = o.verifySignature ed peerPubkey) ∧
    ∀ bytes : Slice, Positioned.decode bytes = (FxFrame.decode bytes.val).mapError .refused ∧
      Positioned.decode bytes ≠ .error .outOfRange := by
  refine ⟨fun _ fits => FxFrame.decodeReceived fits,shortenedLongest,?_,fun bytes => ⟨decodePositioned bytes,decodeInRange bytes⟩⟩
  intro o g read
  by_cases inRange : InRange o.blockSize
  · rw [FxFrame.decodeFileOffer o inRange] at read
    obtain rfl := Except.ok.inj read
    exact ⟨o.received,rfl,o.receivedSigned,o.receivedVerified ed⟩
  · rw [FxFrame.decodeOutOfRange o inRange] at read
    cases read

def longNamed : FileOffer where
  transferId := 7
  flags := 0
  fileSize := 2048
  sha256 := filled 32 1
  blockSize := 1024
  blockCount := 2
  senderId := ⟨"DC0SK",by decide⟩
  name := "éééééééééééééééééééééééééé"
  mime := "text/plain"
  signature := filled 64 2

theorem fxCodec_longNamed : FxFrame.decode (FxFrame.encode (.fileOffer longNamed)) = .ok (.fileOffer longNamed.received) :=
  (fxCodec tagScheme).1 (.fileOffer longNamed) ⟨by decide,by decide⟩

end OpenPulse.FxWire
