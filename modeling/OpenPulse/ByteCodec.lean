import Mathlib.Algebra.Group.Nat.Defs
import Mathlib.Data.List.Basic
import Mathlib.Data.Nat.Basic

/-! Byte strings, byte arrays of a fixed length, and integers written in a fixed
number of bytes, in both byte orders. -/
namespace OpenPulse.ByteCodec

abbrev Bytes := List UInt8

abbrev Octets (n : Nat) := { raw : Bytes // raw.length = n }

def filled (n : Nat) (b : UInt8) : Octets n := ⟨List.replicate n b,List.length_replicate⟩

def zeros (n : Nat) : Octets n := filled n 0

def be : Nat → Nat → Bytes
  | 0, _ => []
  | width + 1, value => be width (value / 256) ++ [value.toUInt8]

def readBe (raw : Bytes) : Nat := raw.foldl (fun n b => n * 256 + b.toNat) 0

def le (width value : Nat) : Bytes := (be width value).reverse

def readLe (raw : Bytes) : Nat := readBe raw.reverse

def slice (offset length : Nat) (raw : Bytes) : Bytes := (raw.drop offset).take length

def octets (n offset : Nat) (raw : Bytes) : Option (Octets n) :=
  if fits : (slice offset n raw).length = n then some ⟨slice offset n raw,fits⟩ else none

@[simp] theorem beLength (width value : Nat) : (be width value).length = width := by
  induction width generalizing value with
  | zero => rfl
  | succ width ih => simp [be, ih]

@[simp] theorem leLength (width value : Nat) : (le width value).length = width := by
  simp [le]

theorem readBeSnoc (raw : Bytes) (b : UInt8) : readBe (raw ++ [b]) = readBe raw * 256 + b.toNat := by
  simp [readBe]

theorem readBeLt (raw : Bytes) : readBe raw < 256 ^ raw.length := by
  have onward : ∀ n, raw.foldl (fun n b => n * 256 + b.toNat) n < (n + 1) * 256 ^ raw.length := by
    induction raw with
    | nil => exact fun n => by simp
    | cons b raw ih =>
      intro n
      have digit := b.toNat_lt
      have room : n * 256 + b.toNat + 1 ≤ (n + 1) * 256 := by omega
      calc raw.foldl (fun n b => n * 256 + b.toNat) (n * 256 + b.toNat)
          < (n * 256 + b.toNat + 1) * 256 ^ raw.length := ih _
        _ ≤ (n + 1) * 256 * 256 ^ raw.length := Nat.mul_le_mul_right _ room
        _ = (n + 1) * 256 ^ (b::raw).length := by rw [Nat.mul_assoc, List.length_cons, Nat.pow_succ']
  have whole := onward 0
  rwa [Nat.zero_add, Nat.one_mul] at whole

theorem readBeBounded {width value : Nat} (bound : value < 256 ^ width) : readBe (be width value) = value := by
  induction width generalizing value with
  | zero =>
    have zero : value = 0 := by simpa using bound
    simp [be, readBe, zero]
  | succ width ih =>
    have high : value / 256 < 256 ^ width := by
      rw [Nat.div_lt_iff_lt_mul (by decide), ← Nat.pow_succ]
      exact bound
    rw [be, readBeSnoc, ih high]
    simp only [Nat.toUInt8_eq, UInt8.toNat_ofNat']
    omega

theorem beInj {width a b : Nat} (left : a < 256 ^ width) (right : b < 256 ^ width) (same : be width a = be width b) :
    a = b := by
  rw [← readBeBounded left, same, readBeBounded right]

theorem be16Inj {a b : UInt16} (same : be 2 a.toNat = be 2 b.toNat) : a = b :=
  UInt16.toNat_inj.mp (beInj a.toNat_lt b.toNat_lt same)

theorem be64Inj {a b : UInt64} (same : be 8 a.toNat = be 8 b.toNat) : a = b :=
  UInt64.toNat_inj.mp (beInj a.toNat_lt b.toNat_lt same)

theorem wordValue (hi lo : UInt8) : (hi.toUInt16 <<< 8 ||| lo.toUInt16).toNat = hi.toNat * 256 + lo.toNat := by
  have small := hi.toNat_lt
  have low := lo.toNat_lt
  have whole : hi.toNat <<< 8 % 2 ^ 16 = hi.toNat <<< 8 := by
    rw [Nat.shiftLeft_eq]
    omega
  simp only [UInt16.toNat_or, UInt16.toNat_shiftLeft, UInt8.toNat_toUInt16, show (8 : UInt16).toNat % 16 = 8 from rfl]
  rw [whole, ← Nat.shiftLeft_add_eq_or_of_lt low, Nat.shiftLeft_eq]

theorem wordBytes (hi lo : UInt8) : be 2 (hi.toUInt16 <<< 8 ||| lo.toUInt16).toNat = [hi,lo] := by
  have low := lo.toNat_lt
  have high := hi.toNat_lt
  have first : ((hi.toNat * 256 + lo.toNat) / 256).toUInt8 = hi := by
    apply UInt8.toNat_inj.mp
    simp only [Nat.toUInt8_eq, UInt8.toNat_ofNat']
    omega
  have second : (hi.toNat * 256 + lo.toNat).toUInt8 = lo := by
    apply UInt8.toNat_inj.mp
    simp only [Nat.toUInt8_eq, UInt8.toNat_ofNat']
    omega
  rw [wordValue]
  simp only [be, List.nil_append, List.singleton_append, first, second]

theorem sliceAt {off n : Nat} {raw : Bytes} (before field after : Bytes) (whole : raw = before ++ (field ++ after))
    (position : before.length = off) (width : field.length = n) : slice off n raw = field := by
  subst whole position width
  simp [slice]

theorem octetsAt {off n : Nat} {raw : Bytes} (before : Bytes) (field : Octets n) (after : Bytes)
    (whole : raw = before ++ (field.val ++ after)) (position : before.length = off) : octets n off raw = some field := by
  have found := sliceAt before field.val after whole position field.property
  rw [octets, dif_pos (by rw [found, field.property])]
  simp [found]

theorem slicePrefix {off n : Nat} {first : Bytes} (inside : off + n ≤ first.length) (rest : Bytes) :
    slice off n (first ++ rest) = slice off n first := by
  rw [slice, slice, List.drop_append_of_le_length (by omega), List.take_append_of_le_length]
  rw [List.length_drop]
  omega

theorem sliceSlice (a b off n : Nat) (raw : Bytes) : slice a b (slice off n raw) = slice (off + a) (min b (n - a)) raw := by
  simp only [slice, List.drop_take, List.drop_drop, List.take_take]

def utf8 (s : String) : Bytes := s.toUTF8.data.toList

def fromUtf8 (raw : Bytes) : Option String := String.fromUTF8? ⟨raw.toArray⟩

theorem fromUtf8Utf8 (s : String) : fromUtf8 (utf8 s) = some s := by
  have valid : (⟨s.toUTF8.data.toList.toArray⟩ : ByteArray).IsValidUTF8 := s.isValidUTF8
  rw [fromUtf8, utf8, String.fromUTF8?, dif_pos valid]
  rfl

theorem utf8Append (a b : String) : utf8 (a ++ b) = utf8 a ++ utf8 b := by
  simp [utf8, String.toByteArray_append, ByteArray.data_append]

theorem utf8Inj {a b : String} (same : utf8 a = utf8 b) : a = b := by
  have read := congrArg fromUtf8 same
  rw [fromUtf8Utf8, fromUtf8Utf8] at read
  exact Option.some.inj read

def piece (size : Nat) (raw : Bytes) (i : Nat) : Bytes := (raw.drop (i * size)).take size

theorem pieceLength (size : Nat) (raw : Bytes) (i : Nat) : (piece size raw i).length = min (raw.length - i * size) size := by
  simp [piece, Nat.min_comm]

theorem piecesFlatten (size : Nat) (raw : Bytes) (n : Nat) :
    ((List.range n).map (piece size raw)).flatten = raw.take (n * size) := by
  induction n with
  | zero => simp
  | succ n ih =>
    rw [List.range_succ, List.map_append, List.flatten_append, ih, Nat.succ_mul, List.take_add]
    simp [piece]

end OpenPulse.ByteCodec
