import OpenPulse.ByteCodec

/-! Bitmaps, little-endian by byte: bit `i` is bit `i % 8` of byte `i / 8`. A bit
past the end reads as clear. -/
namespace OpenPulse.Bitmap
open ByteCodec

def bitIsSet (bitmap : Bytes) (i : Nat) : Bool :=
  match bitmap[i / 8]? with
  | some b => b.toNat.testBit (i % 8)
  | none => false

def setBit (bitmap : Bytes) (i : Nat) : Bytes := bitmap.modify (i / 8) (fun b => b ||| (1 <<< (i % 8).toUInt8))

def ofFlags (flags : List Bool) : Bytes :=
  flags.zipIdx.foldl (fun bitmap flag => if flag.1 then setBit bitmap flag.2 else bitmap)
    (List.replicate ((flags.length + 7) / 8) 0)

@[simp] theorem setBitLength (bitmap : Bytes) (i : Nat) : (setBit bitmap i).length = bitmap.length := by
  simp [setBit]

theorem singleBit {k : Nat} (small : k < 8) (m : Nat) : (1 <<< k % 256).testBit m = decide (m = k) := by
  have fits : 1 <<< k < 256 := by
    rw [Nat.one_shiftLeft]
    exact Nat.pow_lt_pow_right (by omega) small
  rw [Nat.mod_eq_of_lt fits, Nat.one_shiftLeft, Nat.testBit_two_pow]
  exact decide_eq_decide.mpr eq_comm

theorem bitIsSetSet {bitmap : Bytes} {i : Nat} (inside : i / 8 < bitmap.length) (j : Nat) :
    bitIsSet (setBit bitmap i) j = (bitIsSet bitmap j || decide (j = i)) := by
  unfold bitIsSet setBit
  rw [List.getElem?_modify]
  by_cases same : i / 8 = j / 8
  · have found : bitmap[j / 8]? = some (bitmap[i / 8]) := by
      rw [← same]
      exact List.getElem?_eq_getElem inside
    have position : j = i ↔ j % 8 = i % 8 := by omega
    simp [same, found, singleBit (Nat.mod_lt i (by omega : 0 < 8)), position]
  · have other : j ≠ i := fun eq => same (by rw [eq])
    simp [same, other]

theorem bitIsSetZeros (n j : Nat) : bitIsSet (List.replicate n 0) j = false := by
  unfold bitIsSet
  split
  next b found =>
    have zero := List.eq_of_mem_replicate (List.mem_of_getElem? found)
    simp [zero]
  next => rfl

theorem bitIsSetFold {flags : List Bool} {k : Nat} {bitmap : Bytes} (room : k + flags.length ≤ 8 * bitmap.length) (j : Nat) :
    bitIsSet ((flags.zipIdx k).foldl (fun bitmap flag => if flag.1 then setBit bitmap flag.2 else bitmap) bitmap) j =
      (bitIsSet bitmap j || (decide (k ≤ j) && flags[j - k]?.getD false)) := by
  induction flags generalizing k bitmap with
  | nil => simp
  | cons flag flags ih =>
    rw [List.length_cons] at room
    rw [List.zipIdx_cons, List.foldl_cons]
    have later : k < j → (flag::flags)[j - k]?.getD false = flags[j - (k + 1)]?.getD false := by
      intro after
      rw [show j - k = (j - (k + 1)) + 1 by omega, List.getElem?_cons_succ]
    have enough : ∀ b : Bytes, b.length = bitmap.length → k + 1 + flags.length ≤ 8 * b.length := by
      intro b same
      rw [same]
      omega
    cases flag with
    | true =>
      rw [if_pos rfl, ih (enough _ (setBitLength ..)), bitIsSetSet (by omega)]
      rcases Nat.lt_trichotomy j k with before | rfl | after
      · simp [show ¬ k + 1 ≤ j by omega, show ¬ k ≤ j by omega, show j ≠ k by omega]
      · simp
      · simp [later after, show k + 1 ≤ j by omega, show k ≤ j by omega, show j ≠ k by omega]
    | false =>
      rw [if_neg (by simp), ih (enough _ rfl)]
      rcases Nat.lt_trichotomy j k with before | rfl | after
      · simp [show ¬ k + 1 ≤ j by omega, show ¬ k ≤ j by omega]
      · simp [show ¬ j + 1 ≤ j by omega]
      · simp [later after, show k + 1 ≤ j by omega, show k ≤ j by omega]

theorem bitIsSetOfFlags (flags : List Bool) (j : Nat) : bitIsSet (ofFlags flags) j = flags[j]?.getD false := by
  unfold ofFlags
  rw [bitIsSetFold (by simp; omega), bitIsSetZeros]
  simp

@[simp] theorem ofFlagsLength (flags : List Bool) : (ofFlags flags).length = (flags.length + 7) / 8 := by
  have kept : ∀ (marks : List (Bool × Nat)) (bitmap : Bytes),
      (marks.foldl (fun bitmap flag => if flag.1 then setBit bitmap flag.2 else bitmap) bitmap).length = bitmap.length := by
    intro marks
    induction marks with
    | nil => intro bitmap; rfl
    | cons flag marks ih =>
      intro bitmap
      rw [List.foldl_cons, ih]
      split
      · exact setBitLength ..
      · rfl
  unfold ofFlags
  rw [kept, List.length_replicate]

end OpenPulse.Bitmap
