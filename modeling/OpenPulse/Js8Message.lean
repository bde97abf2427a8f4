import Mathlib.Data.Nat.Bitwise
import OpenPulse.Convolutional
import OpenPulse.Js8Frames

/-! The 87 information bits of a JS8 frame and their check: `plugins/js8/src/crc.rs` and
`message.rs`. What the source keeps one bit to a byte is a word of bits here. -/
namespace OpenPulse.Js8
open ByteCodec
open Convolutional (added addedCons)

abbrev Word (n : Nat) := { bits : List Bool // bits.length = n }

def crc12Poly : Nat := 0xc06
def js8Crc12Xor : Nat := 42

def crcBit (rem : Nat) (bit : Bool) : Nat :=
  let shifted := ((rem <<< 1) ||| bit.toNat) &&& 0xfff
  if rem.testBit 11 then shifted ^^^ crc12Poly else shifted

def augmentedCrc12 (data : Bytes) : Nat := (data.flatMap byteBits).foldl crcBit 0 &&& 0xfff

def js8MessageCrc12 (payload9 : Payload) (i3bit : UInt8) : Nat :=
  (augmentedCrc12 (payload9.val ++ [(i3bit <<< 5) &&& 0xE0,0]) ^^^ js8Crc12Xor) &&& 0x0fff

def flagBits (i3bit : UInt8) : List Bool := [2,1,0].map fun k => i3bit.toNat.testBit k

def bitsOf (n value : Nat) : List Bool := (List.range n).map fun i => value.testBit (n - 1 - i)

theorem byteBitsLength (bytes : Bytes) : (bytes.flatMap byteBits).length = 8 * bytes.length := by
  simp [List.length_flatMap, byteBits, Nat.mul_comm]

theorem bits72Length (payload9 : Payload) : (bits72 payload9).length = 72 := by rw [bits72, byteBitsLength, payload9.property]

theorem infoLength (payload9 : Payload) (i3bit : UInt8) (crc : Nat) :
    (bits72 payload9 ++ flagBits i3bit ++ bitsOf 12 crc).length = 87 := by
  simp [bits72Length, flagBits, bitsOf]

def js8InfoBits (payload9 : Payload) (i3bit : UInt8) : Word 87 :=
  ⟨bits72 payload9 ++ flagBits i3bit ++ bitsOf 12 (js8MessageCrc12 payload9 i3bit),infoLength _ _ _⟩

def valueOf (bits : List Bool) : Nat := bits.foldl (fun n b => 2 * n + b.toNat) 0

def checkInfoCrc (info : Word 87) : Option (Payload × UInt8) :=
  let payload9 : Payload := ⟨bitsBytes 9 (info.val.take 72),bitsBytesLength 9 _⟩
  let i3bit := UInt8.ofNat (valueOf ((info.val.drop 72).take 3))
  if js8MessageCrc12 payload9 i3bit = valueOf (info.val.drop 75) then some (payload9,i3bit) else none

def feed (rem : Nat) (bits : List Bool) : Nat := bits.foldl crcBit rem

@[simp] theorem feedNil (rem : Nat) : feed rem [] = rem := rfl

@[simp] theorem feedCons (rem : Nat) (b : Bool) (bits : List Bool) : feed rem (b::bits) = feed (crcBit rem b) bits := rfl

theorem feedAppend (rem : Nat) (xs ys : List Bool) : feed rem (xs ++ ys) = feed (feed rem xs) ys := List.foldl_append

theorem shiftedValue (rem : Nat) (bit : Bool) : ((rem <<< 1) ||| bit.toNat) &&& 0xfff = (2 * rem + bit.toNat) % 2 ^ 12 := by
  have low : bit.toNat < 2 ^ 1 := Bool.toNat_lt bit
  rw [← Nat.shiftLeft_add_eq_or_of_lt low, show 0xfff = 2 ^ 12 - 1 from rfl, Nat.and_two_pow_sub_one_eq_mod, Nat.shiftLeft_eq,
    Nat.mul_comm]

theorem crcBitEq (rem : Nat) (bit : Bool) : crcBit rem bit =
    if rem.testBit 11 then (2 * rem + bit.toNat) % 2 ^ 12 ^^^ crc12Poly else (2 * rem + bit.toNat) % 2 ^ 12 := by
  rw [← shiftedValue]
  rfl

theorem shiftedXor (a b : Nat) (p q : Bool) :
    (((a ^^^ b) <<< 1) ||| (p ^^ q).toNat) &&& 0xfff =
      (((a <<< 1) ||| p.toNat) &&& 0xfff) ^^^ (((b <<< 1) ||| q.toNat) &&& 0xfff) := by
  refine Nat.eq_of_testBit_eq (fun i => ?_)
  simp only [Nat.testBit_and, Nat.testBit_or, Nat.testBit_xor, Nat.testBit_shiftLeft, Nat.testBit_bool_toNat]
  cases i with
  | zero => cases p <;> cases q <;> simp
  | succ i => cases Nat.testBit 0xfff (i + 1) <;> simp

theorem crcBitXor (a b : Nat) (p q : Bool) : crcBit (a ^^^ b) (p ^^ q) = crcBit a p ^^^ crcBit b q := by
  unfold crcBit
  rw [shiftedXor, Nat.testBit_xor]
  generalize ((a <<< 1) ||| p.toNat) &&& 0xfff = x
  generalize ((b <<< 1) ||| q.toNat) &&& 0xfff = y
  cases a.testBit 11 <;> cases b.testBit 11
  · simp
  · simp [Nat.xor_assoc]
  · simp [Nat.xor_comm, Nat.xor_left_comm]
  · simp only [Bool.xor_self, Bool.false_eq_true, if_false, if_true]
    rw [Nat.xor_assoc, Nat.xor_comm crc12Poly, Nat.xor_assoc, Nat.xor_self, Nat.xor_zero]

theorem crcBitBound (rem : Nat) (bit : Bool) : crcBit rem bit < 2 ^ 12 := by
  have small : (2 * rem + bit.toNat) % 2 ^ 12 < 2 ^ 12 := Nat.mod_lt _ (by decide)
  rw [crcBitEq]
  split_ifs
  · exact Nat.xor_lt_two_pow small (by decide)
  · exact small

theorem feedBound {rem : Nat} (small : rem < 2 ^ 12) (bits : List Bool) : feed rem bits < 2 ^ 12 := by
  induction bits generalizing rem with
  | nil => exact small
  | cons b bits ih => exact ih (crcBitBound rem b)

theorem feedXor {xs ys : List Bool} (same : xs.length = ys.length) (a b : Nat) :
    feed (a ^^^ b) (added xs ys) = feed a xs ^^^ feed b ys := by
  induction xs generalizing ys a b with
  | nil =>
    have none : ys = [] := List.eq_nil_of_length_eq_zero same.symm
    rw [none]
    rfl
  | cons x xs ih =>
    cases ys with
    | nil => cases same
    | cons y ys => rw [addedCons, feedCons, crcBitXor, ih (Nat.succ.inj same), feedCons, feedCons]

theorem crcBitLow {rem : Nat} (low : rem < 2 ^ 11) (bit : Bool) : crcBit rem bit = 2 * rem + bit.toNat := by
  have one : bit.toNat < 2 := Bool.toNat_lt bit
  rw [crcBitEq, if_neg (by simp [Nat.testBit_lt_two_pow low])]
  exact Nat.mod_eq_of_lt (by omega)

theorem valueSnoc (bits : List Bool) (b : Bool) : valueOf (bits ++ [b]) = 2 * valueOf bits + b.toNat := List.foldl_append

theorem valueBound (bits : List Bool) : valueOf bits < 2 ^ bits.length := by
  induction bits using List.reverseRecOn with
  | nil => exact Nat.one_pos
  | append_singleton bits b ih =>
    have one : b.toNat < 2 := Bool.toNat_lt b
    rw [valueSnoc, List.length_append, List.length_singleton, Nat.pow_succ]
    omega

theorem feedShort {bits : List Bool} (short : bits.length ≤ 12) : feed 0 bits = valueOf bits := by
  induction bits using List.reverseRecOn with
  | nil => rfl
  | append_singleton bits b ih =>
    rw [List.length_append, List.length_singleton] at short
    have low : valueOf bits < 2 ^ 11 := (valueBound bits).trans_le (Nat.pow_le_pow_right (by decide) (by omega))
    rw [feedAppend, ih (by omega), valueSnoc, feedCons, feedNil, crcBitLow low]

def residue (info : List Bool) : Nat := feed 0 (info.take 75 ++ false :: info.drop 75)

theorem feedZeros (n : Nat) : feed 0 (List.replicate n false) = 0 := by
  induction n with
  | zero => rfl
  | succ n ih => exact ih

theorem flagByte (a b c : Bool) : byteBits ((UInt8.ofNat (valueOf [a,b,c]) <<< 5) &&& 0xE0) = [a,b,c] ++ List.replicate 5 false := by
  revert a b c
  decide

theorem messageBits (info : Word 87) :
    (bitsBytes 9 (info.val.take 72) ++ [(UInt8.ofNat (valueOf ((info.val.drop 72).take 3)) <<< 5) &&& 0xE0,0]).flatMap byteBits =
      info.val.take 75 ++ List.replicate 13 false := by
  have payload : (info.val.take 72).length = 8 * 9 := by rw [List.length_take, info.property]; rfl
  have flags : ((info.val.drop 72).take 3).length = 3 := by rw [List.length_take, List.length_drop, info.property]; rfl
  have front : info.val.take 75 = info.val.take 72 ++ (info.val.drop 72).take 3 := @List.take_add _ _ 72 3
  obtain ⟨a,b,c,three⟩ := List.length_eq_three.mp flags
  have last : byteBits 0 = List.replicate 8 false := by decide
  rw [List.flatMap_append, bitsBytesBack 9 payload, front, three, List.flatMap_cons, flagByte, List.flatMap_singleton, last]
  simp [List.append_assoc]

theorem addedZeros (bits : List Bool) : added bits (List.replicate bits.length false) = bits := by
  induction bits with
  | nil => rfl
  | cons b bits ih => rw [List.length_cons, List.replicate_succ, addedCons, ih, Bool.xor_false]

theorem zerosAdded (bits : List Bool) : added (List.replicate bits.length false) bits = bits := by
  induction bits with
  | nil => rfl
  | cons b bits ih => rw [List.length_cons, List.replicate_succ, addedCons, ih, Bool.false_xor]

theorem addedAppend {as bs cs ds : List Bool} (same : as.length = cs.length) :
    added (as ++ bs) (cs ++ ds) = added as cs ++ added bs ds := List.zipWith_append same

theorem residueSplit (info : Word 87) :
    residue info.val = feed 0 (info.val.take 75 ++ List.replicate 13 false) ^^^ valueOf (info.val.drop 75) := by
  have check : (info.val.drop 75).length = 12 := by rw [List.length_drop, info.property]
  have front : (info.val.take 75).length = 75 := by rw [List.length_take, info.property]; rfl
  have alone : feed 0 (List.replicate 76 false ++ info.val.drop 75) = valueOf (info.val.drop 75) := by
    rw [feedAppend, feedZeros, feedShort (by omega)]
  have split : info.val.take 75 ++ false :: info.val.drop 75 =
      added (info.val.take 75 ++ List.replicate 13 false) (List.replicate 76 false ++ info.val.drop 75) := by
    have zeros : List.replicate 76 false = List.replicate (info.val.take 75).length false ++ [false] := by rw [front]; rfl
    have zeros' : List.replicate 13 false = [false] ++ List.replicate (info.val.drop 75).length false := by rw [check]; rfl
    rw [zeros, zeros', List.append_assoc, addedAppend (by simp), addedZeros, addedAppend rfl, zerosAdded]
    rfl
  have both := @feedXor (info.val.take 75 ++ List.replicate 13 false) (List.replicate 76 false ++ info.val.drop 75)
    (by simp [front, check]) 0 0
  rw [residue, split, ← alone]
  exact both

def framed (info : Word 87) : Payload × UInt8 :=
  (⟨bitsBytes 9 (info.val.take 72),bitsBytesLength 9 _⟩,UInt8.ofNat (valueOf ((info.val.drop 72).take 3)))

theorem checkIff (info : Word 87) : checkInfoCrc info = if residue info.val = js8Crc12Xor then some (framed info) else none := by
  have small := @feedBound 0 (by decide) (info.val.take 75 ++ List.replicate 13 false)
  have crc : js8MessageCrc12 (framed info).1 (framed info).2 =
      feed 0 (info.val.take 75 ++ List.replicate 13 false) ^^^ js8Crc12Xor := by
    rw [js8MessageCrc12, augmentedCrc12, framed, messageBits]
    change ((feed 0 (info.val.take 75 ++ List.replicate 13 false) &&& 0xfff) ^^^ js8Crc12Xor) &&& 0xfff = _
    rw [show 0xfff = 2 ^ 12 - 1 from rfl, Nat.and_two_pow_sub_one_eq_mod, Nat.and_two_pow_sub_one_eq_mod, Nat.mod_eq_of_lt small]
    exact Nat.mod_eq_of_lt (Nat.xor_lt_two_pow small (by decide))
  have same : js8MessageCrc12 (framed info).1 (framed info).2 = valueOf (info.val.drop 75) ↔ residue info.val = js8Crc12Xor := by
    rw [crc, residueSplit]
    constructor
    · intro same
      rw [← same, Nat.xor_xor_cancel_left]
    · intro same
      rw [← same, Nat.xor_xor_cancel_left]
  exact if_congr same rfl rfl

theorem bitsOfSnoc (n value : Nat) : bitsOf (n + 1) value = bitsOf n (value / 2) ++ [value.testBit 0] := by
  rw [bitsOf, List.range_succ, List.map_append, bitsOf]
  congr 1
  · refine List.map_congr_left (fun i member => ?_)
    have inside := List.mem_range.mp member
    rw [← Nat.testBit_succ, show (n - 1 - i).succ = n + 1 - 1 - i by omega]
  · simp

theorem valueBits (n value : Nat) : valueOf (bitsOf n value) = value % 2 ^ n := by
  induction n generalizing value with
  | zero => exact (Nat.mod_one value).symm
  | succ n ih =>
    rw [bitsOfSnoc, valueSnoc, ih, Nat.toNat_testBit, Nat.pow_zero, Nat.div_one, Nat.pow_succ', Nat.mod_mul, Nat.add_comm]

theorem byteChecked (b : UInt8) : bitsByte (byteBits b) = b ∧ UInt8.ofNat (valueOf (flagBits b)) = b &&& 7 ∧
    ((b &&& (7 : UInt8)) <<< 5) &&& (0xE0 : UInt8) = (b <<< 5) &&& 0xE0 := by
  obtain ⟨n,rfl⟩ : ∃ n, b = UInt8.ofFin n := ⟨b.toFin,(UInt8.ofFin_toFin b).symm⟩
  revert n
  decide +kernel

theorem bitsByteBits (b : UInt8) : bitsByte (byteBits b) = b := (byteChecked b).1

theorem bitsBytesBits (bytes : Bytes) : bitsBytes bytes.length (bytes.flatMap byteBits) = bytes := by
  induction bytes with
  | nil => rfl
  | cons b bytes ih =>
    have eight : (byteBits b).length = 8 := rfl
    rw [List.length_cons, bitsBytes, List.flatMap_cons, List.take_left' eight, List.drop_left' eight, bitsByteBits, ih]

theorem crcBound (payload9 : Payload) (i3bit : UInt8) : js8MessageCrc12 payload9 i3bit < 2 ^ 12 := by
  rw [js8MessageCrc12, show 0x0fff = 2 ^ 12 - 1 from rfl, Nat.and_two_pow_sub_one_eq_mod]
  exact Nat.mod_lt _ (by decide)

theorem checkInfo (payload9 : Payload) (i3bit : UInt8) :
    checkInfoCrc (js8InfoBits payload9 i3bit) = some (payload9,i3bit &&& 7) := by
  have layout : (js8InfoBits payload9 i3bit).val =
      bits72 payload9 ++ (flagBits i3bit ++ bitsOf 12 (js8MessageCrc12 payload9 i3bit)) := List.append_assoc _ _ _
  have payload : (js8InfoBits payload9 i3bit).val.take 72 = bits72 payload9 := by
    rw [layout, List.take_left' (bits72Length payload9)]
  have behind : (js8InfoBits payload9 i3bit).val.drop 72 = flagBits i3bit ++ bitsOf 12 (js8MessageCrc12 payload9 i3bit) := by
    rw [layout, List.drop_left' (bits72Length payload9)]
  have three : (flagBits i3bit).length = 3 := rfl
  have flags : ((js8InfoBits payload9 i3bit).val.drop 72).take 3 = flagBits i3bit := by
    rw [behind, List.take_left' three]
  have check : (js8InfoBits payload9 i3bit).val.drop 75 = bitsOf 12 (js8MessageCrc12 payload9 i3bit) := by
    rw [show 75 = 72 + 3 from rfl, ← List.drop_drop, behind, List.drop_left' three]
  have back : bitsBytes 9 (bits72 payload9) = payload9.val := by
    have bytes := bitsBytesBits payload9.val
    rwa [payload9.property] at bytes
  have same : js8MessageCrc12 payload9 (i3bit &&& 7) = js8MessageCrc12 payload9 i3bit := by
    rw [js8MessageCrc12, js8MessageCrc12, (byteChecked i3bit).2.2]
  unfold checkInfoCrc
  simp only [payload, flags, check, back, (byteChecked i3bit).2.1, valueBits, Nat.mod_eq_of_lt (crcBound payload9 i3bit), same, if_true]

/- The polynomial of the check is `x` times `x^11 + x^10 + x^9 + x + 1`. A burst of ten places, with
the free place among them, is worth less than the second factor, and shifting it never
makes it a multiple. -/
def factor : Nat := 0xe03

def Alive (rem : Nat) : Prop := rem < 2 ^ 12 ∧ rem ≠ 0 ∧ rem ≠ factor

theorem shiftAlive {rem : Nat} (alive : Alive rem) : Alive (crcBit rem false) := by
  obtain ⟨small,some',other⟩ := alive
  refine ⟨crcBitBound rem false,?_,?_⟩
  · intro none'
    rcases Nat.lt_or_ge rem (2 ^ 11) with low | high
    · rw [crcBitLow low, Bool.toNat_false] at none'
      omega
    · rw [crcBitEq, Bool.toNat_false] at none'
      split at none'
      · -- the shift gave the polynomial itself
        have polynomial := Nat.xor_eq_zero_iff.mp none'
        simp only [crc12Poly, factor] at polynomial other
        omega
      · next unset =>
        have top : rem = 2 ^ 11 := by omega
        rw [top] at unset
        exact unset (by decide)
  · intro same
    have even : (crcBit rem false).testBit 0 = false := by
      have shifted : ((2 * rem + 0) % 2 ^ 12).testBit 0 = false := by
        rw [Nat.testBit_zero, decide_eq_false_iff_not]
        omega
      rw [crcBitEq, Bool.toNat_false]
      split_ifs
      · rw [Nat.testBit_xor, shifted]
        rfl
      · exact shifted
    rw [same] at even
    exact absurd even (by decide)

theorem feedAlive {rem : Nat} (alive : Alive rem) (n : Nat) : Alive (feed rem (List.replicate n false)) := by
  induction n generalizing rem with
  | zero => exact alive
  | succ n ih => exact ih (shiftAlive alive)

structure Burst (span : Nat) (error : List Bool) : Prop where
  hit : ∃ p, error.getD p false = true
  confined : ∃ first, ∀ p, error.getD p false = true → first ≤ p ∧ p < first + span

theorem quietReplicate {bits : List Bool} (quiet : ∀ p, bits.getD p false = false) : bits = List.replicate bits.length false := by
  refine List.eq_replicate_iff.mpr ⟨rfl,fun b member => ?_⟩
  obtain ⟨p,inside,rfl⟩ := List.getElem_of_mem member
  have here := quiet p
  rwa [List.getD_eq_getElem _ _ inside] at here

theorem Burst.window {span : Nat} {error : List Bool} (burst : Burst span error) :
    ∃ m window n, error = List.replicate m false ++ window ++ List.replicate n false ∧ window.length ≤ span ∧ true ∈ window := by
  obtain ⟨⟨p,hit⟩,first,confined⟩ := burst
  have whole : error = error.take first ++ (error.drop first).take span ++ error.drop (first + span) := by
    rw [List.append_assoc, ← List.drop_drop, List.take_append_drop, List.take_append_drop]
  have front : ∀ q, (error.take first).getD q false = false := by
    intro q
    by_contra some'
    rw [List.getD_eq_getElem?_getD, List.getElem?_take] at some'
    split_ifs at some' with early
    · have := confined q (by simpa [List.getD_eq_getElem?_getD] using some')
      omega
    · exact some' rfl
  have back : ∀ q, (error.drop (first + span)).getD q false = false := by
    intro q
    by_contra some'
    rw [List.getD_eq_getElem?_getD, List.getElem?_drop] at some'
    have := confined (first + span + q) (by simpa [List.getD_eq_getElem?_getD] using some')
    omega
  refine ⟨(error.take first).length,(error.drop first).take span,(error.drop (first + span)).length,?_,List.length_take_le _ _,?_⟩
  · rw [← quietReplicate front, ← quietReplicate back]
    exact whole
  · have place := confined p hit
    have here : ((error.drop first).take span)[p - first]? = error[p]? := by
      rw [List.getElem?_take_of_lt (by omega), List.getElem?_drop, Nat.add_sub_cancel' place.1]
    rw [List.getD_eq_getElem?_getD] at hit
    cases found : error[p]? with
    | none => simp [found] at hit
    | some b =>
      have one : b = true := by simpa [found] using hit
      exact List.mem_of_getElem? (by rw [here, found, one])

theorem valueSome {bits : List Bool} (some' : true ∈ bits) : 0 < valueOf bits := by
  induction bits using List.reverseRecOn with
  | nil => cases some'
  | append_singleton bits b ih =>
    rw [valueSnoc]
    rcases List.mem_append.mp some' with early | last
    · have := ih early
      omega
    · have one : b = true := (List.mem_singleton.mp last).symm
      rw [one]
      exact Nat.succ_pos _

theorem burstSeen {error : List Bool} (burst : Burst 11 error) : feed 0 error ≠ 0 := by
  obtain ⟨m,window,n,rfl,short,some'⟩ := burst.window
  rw [feedAppend, feedAppend, feedZeros, feedShort (by omega)]
  have below : valueOf window < 2 ^ 11 := (valueBound window).trans_le (Nat.pow_le_pow_right (by decide) short)
  have alive : Alive (valueOf window) := by
    refine ⟨by omega,(valueSome some').ne',?_⟩
    simp only [factor]
    omega
  exact (feedAlive alive n).2.1

theorem widenedGet (error : Word 87) (p : Nat) : (error.val.take 75 ++ false :: error.val.drop 75).getD p false =
    if p < 75 then error.val.getD p false else if p = 75 then false else error.val.getD (p - 1) false := by
  have front : (error.val.take 75).length = 75 := by rw [List.length_take, error.property]; rfl
  rcases Nat.lt_trichotomy p 75 with before | rfl | after
  · rw [if_pos before, List.getD_append _ _ _ _ (by omega), List.getD_eq_getElem?_getD, List.getElem?_take_of_lt before,
      List.getD_eq_getElem?_getD]
  · rw [if_neg (by decide), if_pos rfl, List.getD_append_right _ _ _ _ (by omega), front]
    rfl
  · rw [if_neg (by omega), if_neg (by omega), List.getD_append_right _ _ _ _ (by omega), front]
    obtain ⟨k,rfl⟩ := Nat.exists_eq_add_of_lt after
    rw [show 75 + k + 1 - 75 = k + 1 by omega, List.getD_cons_succ, List.getD_eq_getElem?_getD, List.getElem?_drop,
      List.getD_eq_getElem?_getD]
    rfl

theorem Burst.widened {error : Word 87} (burst : Burst 10 error.val) :
    Burst 11 (error.val.take 75 ++ false :: error.val.drop 75) := by
  obtain ⟨⟨p,hit⟩,first,confined⟩ := burst
  constructor
  · by_cases before : p < 75
    · exact ⟨p,by rw [widenedGet, if_pos before]; exact hit⟩
    · refine ⟨p + 1,?_⟩
      rw [widenedGet, if_neg (by omega), if_neg (by omega)]
      exact hit
  · refine ⟨first,fun q one => ?_⟩
    rw [widenedGet] at one
    split_ifs at one
    · have := confined q one
      omega
    · have := confined (q - 1) one
      omega

def flip (info error : Word 87) : Word 87 := ⟨added info.val error.val,by simp [added, info.property, error.property]⟩

theorem residueXor (info error : Word 87) : residue (flip info error).val = residue info.val ^^^ residue error.val := by
  have same : info.val.length = error.val.length := info.property.trans error.property.symm
  have widened : (flip info error).val.take 75 ++ false :: (flip info error).val.drop 75 =
      added (info.val.take 75 ++ false :: info.val.drop 75) (error.val.take 75 ++ false :: error.val.drop 75) := by
    rw [addedAppend (by rw [List.length_take, List.length_take, same]), addedCons]
    simp only [flip, added, List.take_zipWith, List.drop_zipWith, Bool.xor_self]
  have both := @feedXor (info.val.take 75 ++ false :: info.val.drop 75) (error.val.take 75 ++ false :: error.val.drop 75)
    (by simp [same]) 0 0
  rw [residue, widened]
  exact both

theorem burstDetected (payload9 : Payload) (i3bit : UInt8) (error : Word 87) (burst : Burst 10 error.val) :
    checkInfoCrc (flip (js8InfoBits payload9 i3bit) error) = none := by
  have own : residue (js8InfoBits payload9 i3bit).val = js8Crc12Xor := by
    have passes := checkInfo payload9 i3bit
    rw [checkIff] at passes
    by_contra other
    rw [if_neg other] at passes
    cases passes
  rw [checkIff, residueXor, own, if_neg]
  intro same
  have none' : residue error.val = 0 := by
    rw [← Nat.xor_xor_cancel_left js8Crc12Xor (residue error.val), same, Nat.xor_self]
  exact burstSeen burst.widened none'

def acrossFlags : Word 87 := ⟨List.replicate 70 false ++ List.replicate 10 true ++ List.replicate 7 false,rfl⟩

theorem acrossFlagsBurst : Burst 10 acrossFlags.val := by
  have inside : ∀ p < 87, acrossFlags.val.getD p false = true → 70 ≤ p ∧ p < 70 + 10 := by decide
  refine ⟨⟨70,rfl⟩,70,fun p one => ?_⟩
  rcases Nat.lt_or_ge p 87 with bound | beyond
  · exact inside p bound one
  · rw [List.getD_eq_default _ _ (acrossFlags.property.trans_le beyond)] at one
    cases one

theorem burstDetected_acrossFlags : checkInfoCrc (flip (js8InfoBits ⟨List.replicate 9 0x5b,rfl⟩ 6) acrossFlags) = none :=
  burstDetected ⟨List.replicate 9 0x5b,rfl⟩ 6 acrossFlags acrossFlagsBurst

end OpenPulse.Js8
