import Mathlib.Data.List.Count
import Mathlib.Logic.Function.Iterate

/-! Check registers of any width that take the bits of a message in at the top. What a register makes of an
error does not depend on the message, so an error is seen when the register, fed the error alone, does not end
at zero: a burst no longer than the register, an odd number of errors when the polynomial keeps the parity, and
two errors less than a period apart. -/
namespace OpenPulse.CrcRegisters

variable {w : Nat} (poly : BitVec w)

def step (r : BitVec w) (b : Bool) : BitVec w := (r <<< 1) ^^^ (if r.msb ^^ b then poly else 0)

def feed (r : BitVec w) (bits : List Bool) : BitVec w := bits.foldl (step poly) r

def added (xs ys : List Bool) : List Bool := xs.zipWith Bool.xor ys

@[simp] theorem feedNil (r : BitVec w) : feed poly r [] = r := rfl

@[simp] theorem feedCons (r : BitVec w) (b : Bool) (bits : List Bool) : feed poly r (b::bits) = feed poly (step poly r b) bits := rfl

theorem feedAppend (r : BitVec w) (xs ys : List Bool) : feed poly r (xs ++ ys) = feed poly (feed poly r xs) ys := List.foldl_append

theorem stepXor (r s : BitVec w) (b c : Bool) : step poly (r ^^^ s) (b ^^ c) = step poly r b ^^^ step poly s c := by
  have tops : ((r ^^^ s).msb ^^ (b ^^ c)) = ((r.msb ^^ b) ^^ (s.msb ^^ c)) := by
    rw [BitVec.msb_xor]
    cases r.msb <;> cases s.msb <;> cases b <;> cases c <;> rfl
  have fed : (if (r.msb ^^ b) ^^ (s.msb ^^ c) then poly else 0) =
      (if r.msb ^^ b then poly else 0) ^^^ (if s.msb ^^ c then poly else 0) := by
    cases r.msb ^^ b <;> cases s.msb ^^ c <;> simp
  rw [step, tops, fed, step, step, BitVec.shiftLeft_xor_distrib]
  ac_rfl

theorem feedXor {xs ys : List Bool} (same : xs.length = ys.length) (r s : BitVec w) :
    feed poly (r ^^^ s) (added xs ys) = feed poly r xs ^^^ feed poly s ys := by
  induction xs generalizing ys r s with
  | nil =>
    rw [List.eq_nil_of_length_eq_zero same.symm]
    rfl
  | cons x xs ih =>
    cases ys with
    | nil => cases same
    | cons y ys =>
      rw [added, List.zipWith_cons_cons, feedCons, stepXor]
      exact ih (Nat.succ.inj same) _ _

theorem feedQuiet (n : Nat) : feed poly 0 (List.replicate n false) = 0 := by
  induction n with
  | zero => rfl
  | succ n ih =>
    rw [List.replicate_succ, feedCons, show step poly 0 false = 0 by simp [step]]
    exact ih

section
variable {poly} (odd : poly.getLsbD 0 = true)
include odd

theorem stepLow {r : BitVec w} {b : Bool} {j : Nat} (inside : j < w) (low : step poly r b <<< j = 0) :
    (r.msb ^^ b) = false ∧ r <<< (j + 1) = 0 := by
  have quiet : (r.msb ^^ b) = false := by
    have place := congrArg (fun v : BitVec w => v.getLsbD j) low
    cases fed : (r.msb ^^ b) with
    | false => rfl
    | true =>
      have wide : 0 < w := Nat.lt_of_le_of_lt (Nat.zero_le j) inside
      have one : poly[0] = true := by rw [← BitVec.getLsbD_eq_getElem wide]; exact odd
      simp [step, fed, inside, one] at place
  refine ⟨quiet,?_⟩
  rw [step, quiet] at low
  rw [Nat.add_comm j 1, BitVec.shiftLeft_add]
  simpa using low

theorem feedLow {bits : List Bool} {r : BitVec w} {j : Nat} (inside : j + bits.length ≤ w) (low : feed poly r bits <<< j = 0) :
    r <<< (j + bits.length) = 0 := by
  induction bits generalizing r with
  | nil => exact low
  | cons b bits ih =>
    rw [List.length_cons] at inside ⊢
    have next := ih (by omega) low
    exact (stepLow odd (by omega) next).2

theorem feedZero {bits : List Bool} (short : bits.length ≤ w) (zero : feed poly 0 bits = 0) : ∀ b ∈ bits, b = false := by
  induction bits with
  | nil => exact fun b member => by cases member
  | cons b bits ih =>
    rw [List.length_cons] at short
    have next := feedLow odd (show 0 + bits.length ≤ w by omega) ((BitVec.shiftLeft_zero _).trans zero)
    have quiet := (stepLow odd (by omega) next).1
    have first : b = false := by simpa using quiet
    subst first
    rw [feedCons, show step poly 0 false = 0 by simp [step]] at zero
    intro c member
    rcases List.mem_cons.mp member with rfl | later
    · rfl
    · exact ih (by omega) zero c later

theorem stillZero (wide : 0 < w) {r : BitVec w} {n : Nat} (zero : feed poly r (List.replicate n false) = 0) : r = 0 := by
  induction n generalizing r with
  | zero => exact zero
  | succ n ih =>
    obtain ⟨quiet,low⟩ := stepLow odd wide ((BitVec.shiftLeft_zero _).trans (ih zero))
    have top : r.getLsbD (w - 1) = false := by simpa [BitVec.msb_eq_getLsbD_last] using quiet
    refine BitVec.eq_of_getLsbD_eq fun i inside => ?_
    by_cases last : i + 1 = w
    · rw [show i = w - 1 by omega, top]
      exact BitVec.getLsbD_zero.symm
    · have place := congrArg (fun v : BitVec w => v.getLsbD (i + 1)) low
      simpa [show i + 1 < w by omega, BitVec.getLsbD_eq_getElem inside] using place

/-- An error confined to as many places as the register has is seen, wherever it lies. -/
theorem burstSeen (wide : 0 < w) {error : List Bool} (short : error.length ≤ w) (hit : ∃ b ∈ error, b = true) (before after : Nat) :
    feed poly 0 (List.replicate before false ++ error ++ List.replicate after false) ≠ 0 := by
  intro zero
  rw [feedAppend, feedAppend, feedQuiet] at zero
  have quiet := feedZero odd short (stillZero odd wide zero)
  obtain ⟨b,member,one⟩ := hit
  rw [quiet b member] at one
  cases one

end

def places (r : BitVec w) : List Bool := (List.range w).map r.getMsbD

theorem placesXor (r s : BitVec w) : places (r ^^^ s) = added (places r) (places s) := by
  rw [places, added, places, places, List.zipWith_map, List.zipWith_self]
  exact List.map_congr_left fun i _ => BitVec.getMsbD_xor

theorem placesLength (r : BitVec w) : (places r).length = w := by rw [places, List.length_map, List.length_range]

theorem feedOwn (r : BitVec w) {n : Nat} (inside : n ≤ w) : feed poly r ((places r).take n) = r <<< n := by
  have cut : ∀ n ≤ w, (places r).take n = (List.range n).map r.getMsbD := fun n inside => by
    rw [places, ← List.map_take, List.take_range, Nat.min_eq_left inside]
  induction n with
  | zero => exact (BitVec.shiftLeft_zero r).symm
  | succ n ih =>
    have before := ih (by omega)
    rw [cut n (by omega)] at before
    rw [cut (n + 1) inside, List.range_succ, List.map_append, feedAppend, before, List.map_singleton, feedCons, feedNil, step,
      BitVec.msb_shiftLeft, Bool.xor_self, BitVec.shiftLeft_add]
    exact BitVec.xor_zero

theorem feedPlaces (r s : BitVec w) {n : Nat} (inside : n ≤ w) :
    feed poly r ((places s).take n) = s <<< n ^^^ feed poly (r ^^^ s) (List.replicate n false) := by
  have long : ((places s).take n).length = (List.replicate n false).length := by
    rw [List.length_take, placesLength, List.length_replicate, Nat.min_eq_left inside]
  have own := feedXor poly long s (r ^^^ s)
  have same : added ((places s).take n) (List.replicate n false) = (places s).take n := by
    refine List.ext_getElem (by simp [added, placesLength]) fun i _ _ => ?_
    simp [added]
  have moved : s ^^^ (r ^^^ s) = r := by rw [BitVec.xor_comm r s, ← BitVec.xor_assoc, BitVec.xor_self, BitVec.zero_xor]
  rwa [same, feedOwn poly s inside, moved] at own

theorem feedCheck (odd : poly.getLsbD 0 = true) (wide : 0 < w) {r s : BitVec w} : feed poly r (places s) = 0 ↔ r = s := by
  rw [← List.take_of_length_le (Nat.le_of_eq (placesLength s)), feedPlaces poly r s (Nat.le_refl w), BitVec.shiftLeft_eq_zero (Nat.le_refl w)]
  refine ⟨fun zero => ?_,?_⟩
  · exact BitVec.xor_eq_zero_iff.mp (stillZero odd wide (BitVec.zero_xor.symm.trans zero))
  · rintro rfl
    rw [BitVec.xor_self]
    exact BitVec.zero_xor.trans (feedQuiet poly w)

def parity (r : BitVec w) : Bool := (places r).foldr Bool.xor false

theorem parityXor (r s : BitVec w) : parity (r ^^^ s) = (parity r ^^ parity s) := by
  have lists : ∀ xs ys : List Bool, xs.length = ys.length →
      (added xs ys).foldr Bool.xor false = (xs.foldr Bool.xor false ^^ ys.foldr Bool.xor false) := by
    intro xs
    induction xs with
    | nil =>
      intro ys same
      rw [List.eq_nil_of_length_eq_zero same.symm]
      rfl
    | cons x xs ih =>
      intro ys same
      cases ys with
      | nil => cases same
      | cons y ys =>
        have rest := ih ys (Nat.succ.inj same)
        simp only [added, List.zipWith_cons_cons, List.foldr_cons] at rest ⊢
        rw [rest, Bool.xor_assoc, Bool.xor_assoc, Bool.xor_left_comm y]
  rw [parity, placesXor]
  exact lists _ _ (by rw [placesLength, placesLength])

theorem parityShift (r : BitVec w) (wide : 0 < w) : parity (r <<< 1) = (parity r ^^ r.msb) := by
  obtain ⟨n,rfl⟩ : ∃ n, w = n + 1 := ⟨w - 1,by omega⟩
  have before : places r = r.getMsbD 0::(List.range n).map fun i => r.getMsbD (i + 1) := by
    rw [places, List.range_succ_eq_map, List.map_cons, List.map_map]
    rfl
  have after : places (r <<< 1) = ((List.range n).map fun i => r.getMsbD (i + 1)) ++ [false] := by
    rw [places, List.range_succ, List.map_append]
    simp
  rw [parity, parity, before, after, List.foldr_append, List.foldr_cons]
  show _ = ((r.msb ^^ _) ^^ r.msb)
  rw [Bool.xor_comm r.msb, Bool.xor_assoc, Bool.xor_self, Bool.xor_false]
  rfl

theorem parityStep (wide : 0 < w) (uneven : parity poly = true) (r : BitVec w) (b : Bool) : parity (step poly r b) = (parity r ^^ b) := by
  have none : parity (0 : BitVec w) = false := by
    have twice := parityXor (0 : BitVec w) 0
    rwa [BitVec.xor_self, Bool.xor_self] at twice
  have fed : parity (if r.msb ^^ b then poly else 0) = (r.msb ^^ b) := by
    cases r.msb ^^ b with
    | false => exact none
    | true => exact uneven
  rw [step, parityXor, parityShift r wide, fed, Bool.xor_assoc, ← Bool.xor_assoc r.msb, Bool.xor_self, Bool.false_xor]

theorem oddSeen (wide : 0 < w) (uneven : parity poly = true) {error : List Bool} (odd : error.count true % 2 = 1) :
    feed poly 0 error ≠ 0 := by
  have counted : ∀ (bits : List Bool) r, parity (feed poly r bits) = (parity r ^^ decide (bits.count true % 2 = 1)) := by
    intro bits
    induction bits with
    | nil => simp
    | cons b bits ih =>
      intro r
      rw [feedCons, ih, parityStep poly wide uneven]
      cases b with
      | false => simp
      | true =>
        rw [List.count_cons_self, Bool.xor_assoc, Bool.xor_right_inj]
        rcases Nat.mod_two_eq_zero_or_one (bits.count true) with even | odd
        · simp [Nat.add_mod, even]
        · simp [Nat.add_mod, odd]
  intro none
  have whole := counted error 0
  rw [none, decide_eq_true odd] at whole
  simp at whole

theorem firstOne {bits : List Bool} {k : Nat} (counted : bits.count true = k + 1) :
    ∃ a rest, bits = List.replicate a false ++ true::rest ∧ rest.count true = k := by
  induction bits with
  | nil => simp at counted
  | cons b bits ih =>
    cases b with
    | true => exact ⟨0,bits,rfl,by simpa using counted⟩
    | false =>
      obtain ⟨a,rest,rfl,left⟩ := ih (by simpa using counted)
      exact ⟨a + 1,rest,rfl,left⟩

theorem noOnes {bits : List Bool} (counted : bits.count true = 0) : bits = List.replicate bits.length false := by
  rw [List.eq_replicate_iff]
  refine ⟨rfl,fun b member => ?_⟩
  cases b with
  | false => rfl
  | true => exact absurd member (List.count_eq_zero.mp counted)

theorem feedShifts (r : BitVec w) (n : Nat) : feed poly r (List.replicate n false) = (fun r => step poly r false)^[n] r := by
  induction n generalizing r with
  | zero => rfl
  | succ n ih => rw [List.replicate_succ, feedCons, ih, Function.iterate_succ_apply]

def returns (start : BitVec w) : BitVec w → Nat → Bool
  | _, 0 => false
  | r, n + 1 => step poly r false == start || returns start (step poly r false) n

theorem returnsLater {start r : BitVec w} {n k : Nat} (never : returns poly start r n = false) (within : k < n) :
    (fun r => step poly r false)^[k + 1] r ≠ start := by
  induction n generalizing r k with
  | zero => exact absurd within (Nat.not_lt_zero k)
  | succ n ih =>
    rw [returns, Bool.or_eq_false_iff] at never
    cases k with
    | zero => exact ne_of_beq_false never.1
    | succ k =>
      rw [Function.iterate_succ_apply]
      exact ih never.2 (Nat.lt_of_succ_lt_succ within)

theorem pairSeen (wide : 0 < w) (odd : poly.getLsbD 0 = true) {n : Nat}
    (period : returns poly poly poly n = false) {error : List Bool} (length : error.length ≤ n)
    (two : error.count true = 2) : feed poly 0 error ≠ 0 := by
  obtain ⟨a,rest,rfl,one⟩ := firstOne two
  obtain ⟨b,rest,rfl,none⟩ := firstOne one
  rw [noOnes none] at length ⊢
  intro zero
  have first : step poly 0 true = poly := by simp [step]
  rw [feedAppend, feedQuiet, feedCons, first, feedAppend, feedCons] at zero
  have back := stillZero odd wide zero
  have split : step poly (feed poly poly (List.replicate b false)) true =
      step poly (feed poly poly (List.replicate b false)) false ^^^ poly := by
    have both := stepXor poly (feed poly poly (List.replicate b false)) 0 false true
    rw [first] at both
    exact (congrArg (fun r => step poly r true) (BitVec.xor_zero).symm).trans both
  have same : step poly (feed poly poly (List.replicate b false)) false = poly := BitVec.xor_eq_zero_iff.mp (split.symm.trans back)
  rw [feedShifts, ← Function.iterate_succ_apply' (fun r => step poly r false)] at same
  simp only [List.length_append, List.length_replicate, List.length_cons] at length
  exact returnsLater poly period (by omega) same

end OpenPulse.CrcRegisters
