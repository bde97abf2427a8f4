import OpenPulse.ByteCodec

/-! Bit strings in bytes, with either bit of a byte first. The last byte of a
packed string is filled up with zeros. -/
namespace OpenPulse.BitPacking
open ByteCodec

inductive BitOrder where
  | mostSignificant
  | leastSignificant
  deriving DecidableEq, Repr

def BitOrder.place : BitOrder → Nat → Nat
  | .mostSignificant, k => 7 - k
  | .leastSignificant, k => k

def bitAt (order : BitOrder) (b : UInt8) (k : Nat) : Bool := b.toNat.testBit (order.place k)

def ofBits (order : BitOrder) (f : Nat → Bool) : UInt8 :=
  (List.range 8).foldl (fun b k => b ||| (f k).toUInt8 <<< (order.place k).toUInt8) 0

def unpack (order : BitOrder) (raw : Bytes) : List Bool := raw.flatMap (fun b => (List.range 8).map (bitAt order b))

def pack (order : BitOrder) (bits : List Bool) : Bytes :=
  (List.range ((bits.length + 7) / 8)).map (fun j => ofBits order (fun k => bits.getD (8 * j + k) false))

theorem placeBound (order : BitOrder) {k : Nat} (inside : k < 8) : order.place k < 8 := by
  cases order with
  | mostSignificant => exact Nat.sub_lt_succ 7 k
  | leastSignificant => exact inside

theorem placeTwice (order : BitOrder) {k : Nat} (inside : k < 8) : order.place (order.place k) = k := by
  cases order with
  | mostSignificant => exact Nat.sub_sub_self (Nat.le_of_lt_succ inside)
  | leastSignificant => rfl

theorem bitsZero (order : BitOrder) {b : UInt8} (quiet : ∀ k < 8, bitAt order b k = false) : b = 0 := by
  apply UInt8.toNat_inj.mp
  refine Nat.eq_of_testBit_eq (fun i => ?_)
  rw [UInt8.toNat_zero, Nat.zero_testBit]
  by_cases inside : i < 8
  · have here := quiet (order.place i) (placeBound order inside)
    rwa [bitAt, placeTwice order inside] at here
  · exact Nat.testBit_lt_two_pow (Nat.lt_of_lt_of_le b.toNat_lt (Nat.pow_le_pow_right (by decide) (Nat.not_lt.mp inside)))

theorem bitAtZero (order : BitOrder) (k : Nat) : bitAt order 0 k = false := by simp [bitAt]

theorem bitAtXor (order : BitOrder) (a b : UInt8) (k : Nat) : bitAt order (a ^^^ b) k = (bitAt order a k ^^ bitAt order b k) := by
  simp [bitAt]

theorem bitsExt (order : BitOrder) {a b : UInt8} (same : ∀ k < 8, bitAt order a k = bitAt order b k) : a = b := by
  refine UInt8.xor_eq_zero_iff.mp (bitsZero order (fun k inside => ?_))
  rw [bitAtXor, same k inside, Bool.xor_self]

theorem orBit (b : UInt8) (x : Bool) {j : Nat} (inside : j < 8) (p : Nat) :
    (b ||| x.toUInt8 <<< j.toUInt8).toNat.testBit p = (b.toNat.testBit p || (x && decide (j = p))) := by
  have shift : j.toUInt8.toNat % 8 = j := by
    simp only [Nat.toUInt8_eq, UInt8.toNat_ofNat']
    omega
  have small : 2 ^ j < 2 ^ 8 := Nat.pow_lt_pow_right (by decide) inside
  rw [UInt8.toNat_or, UInt8.toNat_shiftLeft, shift, Nat.testBit_or]
  cases x with
  | false =>
    have none : false.toUInt8.toNat <<< j % 2 ^ 8 = 0 := by
      rw [show false.toUInt8.toNat = 0 from rfl, Nat.zero_shiftLeft, Nat.zero_mod]
    rw [none, Nat.zero_testBit, Bool.false_and]
  | true =>
    have one : true.toUInt8.toNat <<< j % 2 ^ 8 = 2 ^ j := by
      rw [show true.toUInt8.toNat = 1 from rfl, Nat.shiftLeft_eq, Nat.one_mul, Nat.mod_eq_of_lt small]
    rw [one, Nat.testBit_two_pow, Bool.true_and]

theorem foldBits (order : BitOrder) (f : Nat → Bool) (p : Nat) {ks : List Nat} (inside : ∀ k ∈ ks, k < 8) (b : UInt8) :
    (ks.foldl (fun b k => b ||| (f k).toUInt8 <<< (order.place k).toUInt8) b).toNat.testBit p =
      (b.toNat.testBit p || ks.any (fun k => f k && decide (order.place k = p))) := by
  induction ks generalizing b with
  | nil => simp
  | cons k ks ih =>
    obtain ⟨first,rest⟩ := List.forall_mem_cons.mp inside
    rw [List.foldl_cons, ih rest, orBit b (f k) (placeBound order first), List.any_cons, Bool.or_assoc]

theorem bitAtOfBits (order : BitOrder) (f : Nat → Bool) {k : Nat} (inside : k < 8) : bitAt order (ofBits order f) k = f k := by
  rw [bitAt, ofBits, foldBits order f _ (fun k member => List.mem_range.mp member)]
  rw [show (0 : UInt8).toNat.testBit (order.place k) = false by simp, Bool.false_or]
  cases value : f k with
  | true => exact List.any_eq_true.mpr ⟨k,List.mem_range.mpr inside,by simp [value]⟩
  | false =>
    rw [List.any_eq_false]
    intro j member
    have bound := List.mem_range.mp member
    by_cases same : order.place j = order.place k
    · have equal : j = k := by rw [← placeTwice order bound, same, placeTwice order inside]
      simp [equal, value]
    · simp [same]

theorem unpackCons (order : BitOrder) (b : UInt8) (raw : Bytes) :
    unpack order (b::raw) = (List.range 8).map (bitAt order b) ++ unpack order raw := List.flatMap_cons

theorem unpackAppend (order : BitOrder) (xs ys : Bytes) : unpack order (xs ++ ys) = unpack order xs ++ unpack order ys :=
  List.flatMap_append

@[simp] theorem unpackLength (order : BitOrder) (raw : Bytes) : (unpack order raw).length = 8 * raw.length := by
  induction raw with
  | nil => rfl
  | cons b raw ih =>
    rw [unpackCons, List.length_append, ih, List.length_map, List.length_range, List.length_cons]
    omega

@[simp] theorem packLength (order : BitOrder) (bits : List Bool) : (pack order bits).length = (bits.length + 7) / 8 := by
  simp [pack]

theorem unpackTake (order : BitOrder) (raw : Bytes) (n : Nat) : unpack order (raw.take n) = (unpack order raw).take (8 * n) := by
  have cut := unpackAppend order (raw.take n) (raw.drop n)
  rw [List.take_append_drop] at cut
  rw [cut]
  by_cases within : n ≤ raw.length
  · rw [List.take_left' (by rw [unpackLength, List.length_take_of_le within])]
  · have all := List.take_of_length_le (Nat.le_of_not_le within)
    rw [all, List.drop_of_length_le (Nat.le_of_not_le within), List.take_of_length_le]
    · exact (List.append_nil _).symm
    · rw [List.length_append, unpackLength, unpackLength, List.length_nil]
      omega

theorem unpackGet (order : BitOrder) (raw : Bytes) (i : Nat) :
    (unpack order raw)[i]? = raw[i / 8]?.map (fun b => bitAt order b (i % 8)) := by
  induction raw generalizing i with
  | nil => rfl
  | cons b raw ih =>
    rw [unpackCons]
    by_cases first : i < 8
    · rw [List.getElem?_append_left (by simpa using first), List.getElem?_map, List.getElem?_range first, Nat.div_eq_of_lt first,
        Nat.mod_eq_of_lt first]
      rfl
    · have later := ih (i - 8)
      rw [List.getElem?_append_right (by simpa using first), List.length_map, List.length_range, later,
        show i / 8 = (i - 8) / 8 + 1 by omega, show (i - 8) % 8 = i % 8 by omega, List.getElem?_cons_succ]

theorem unpackXor (order : BitOrder) (xs ys : Bytes) :
    unpack order (xs.zipWith (· ^^^ ·) ys) = (unpack order xs).zipWith xor (unpack order ys) := by
  refine List.ext_getElem? (fun i => ?_)
  rw [unpackGet, List.getElem?_zipWith, List.getElem?_zipWith, unpackGet, unpackGet]
  cases xs[i / 8]? with
  | none => rfl
  | some x =>
    cases ys[i / 8]? with
    | none => rfl
    | some y => exact congrArg some (bitAtXor order x y (i % 8))

theorem unpackPack (order : BitOrder) (bits : List Bool) :
    unpack order (pack order bits) = bits ++ List.replicate (8 * ((bits.length + 7) / 8) - bits.length) false := by
  refine List.ext_getElem? (fun i => ?_)
  rw [unpackGet, pack, List.getElem?_map]
  by_cases within : i / 8 < (bits.length + 7) / 8
  · rw [List.getElem?_range within, Option.map_some, Option.map_some, bitAtOfBits order _ (Nat.mod_lt i (by decide)),
      Nat.div_add_mod, List.getD_eq_getElem?_getD]
    by_cases known : i < bits.length
    · rw [List.getElem?_append_left known, List.getElem?_eq_getElem known, Option.getD_some]
    · have beyond := Nat.not_lt.mp known
      rw [List.getElem?_append_right beyond, List.getElem?_eq_none beyond, List.getElem?_replicate, if_pos (by omega), Option.getD_none]
  · rw [List.getElem?_eq_none (by simpa using within), Option.map_none, Option.map_none, List.getElem?_eq_none]
    rw [List.length_append, List.length_replicate]
    omega

theorem packUnpack (order : BitOrder) (raw : Bytes) : pack order (unpack order raw) = raw := by
  refine List.ext_getElem? (fun j => ?_)
  rw [pack, unpackLength, show (8 * raw.length + 7) / 8 = raw.length by omega, List.getElem?_map]
  by_cases within : j < raw.length
  · rw [List.getElem?_range within, Option.map_some, List.getElem?_eq_getElem within]
    refine congrArg some (bitsExt order (fun k inside => ?_))
    rw [bitAtOfBits order _ inside, List.getD_eq_getElem?_getD, unpackGet, show (8 * j + k) / 8 = j by omega,
      show (8 * j + k) % 8 = k by omega, List.getElem?_eq_getElem within, Option.map_some, Option.getD_some]
  · rw [List.getElem?_eq_none (by simpa using within), List.getElem?_eq_none (Nat.not_lt.mp within), Option.map_none]

theorem unpackInj (order : BitOrder) {xs ys : Bytes} (same : unpack order xs = unpack order ys) : xs = ys := by
  rw [← packUnpack order xs, same, packUnpack]

theorem unpackPackWhole (order : BitOrder) (bits : List Bool) (n : Nat) (whole : bits.length = 8 * n) :
    unpack order (pack order bits) = bits := by
  rw [unpackPack, show 8 * ((bits.length + 7) / 8) - bits.length = 0 by omega, List.replicate_zero, List.append_nil]

end OpenPulse.BitPacking
