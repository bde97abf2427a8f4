import Mathlib.Data.List.GetD
import Mathlib.Data.Nat.Bitwise

/-! Linear functions of words of bits. A function is the row of its coefficients, and a
row that is the bits of a number is added to another by `^^^`. A function that is a
sum of others is nothing on the words where these are. -/
namespace OpenPulse.BinaryLinear

def dot (row : Nat → Bool) (word : List Bool) : Bool :=
  word.zipIdx.foldl (fun acc x => acc ^^ (x.1 && row x.2)) false

def sumAt (word : List Bool) (places : List Nat) : Bool := places.foldl (fun acc v => acc ^^ word.getD v false) false

def total (masks : List Nat) : Nat := masks.foldl (· ^^^ ·) 0

def maskOf (places : List Nat) : Nat := total (places.map (1 <<< ·))

def chosen {α : Type} (row : Nat → Bool) (xs : List α) : List α := (xs.zipIdx.filter fun x => row x.2).map (·.1)

theorem foldlXor {α : Type} (f : α → Bool) (xs : List α) (acc : Bool) :
    xs.foldl (fun acc x => acc ^^ f x) acc = (acc ^^ xs.foldl (fun acc x => acc ^^ f x) false) := by
  induction xs generalizing acc with
  | nil => exact (Bool.xor_false acc).symm
  | cons x xs ih => rw [List.foldl_cons, ih, List.foldl_cons, ih (false ^^ f x), Bool.false_xor, Bool.xor_assoc]

@[simp] theorem sumAtNil (word : List Bool) : sumAt word [] = false := rfl

@[simp] theorem sumAtCons (word : List Bool) (v : Nat) (places : List Nat) :
    sumAt word (v::places) = (word.getD v false ^^ sumAt word places) := by
  rw [sumAt, List.foldl_cons, foldlXor, Bool.false_xor, sumAt]

theorem sumAtMap (word : List Bool) (places : List Nat) :
    sumAt word places = (places.map fun v => word.getD v false).foldl xor false := List.foldl_map.symm

theorem totalCons (m : Nat) (masks : List Nat) : total (m::masks) = m ^^^ total masks := by
  have shift : ∀ acc, masks.foldl (· ^^^ ·) acc = acc ^^^ masks.foldl (· ^^^ ·) 0 := by
    induction masks with
    | nil => exact fun acc => (Nat.xor_zero acc).symm
    | cons m masks ih =>
      intro acc
      rw [List.foldl_cons, ih, List.foldl_cons, ih (0 ^^^ m), Nat.zero_xor, Nat.xor_assoc]
  rw [total, List.foldl_cons, shift, Nat.zero_xor, total]

@[simp] theorem dotNil (row : Nat → Bool) : dot row [] = false := rfl

theorem dotCons (row : Nat → Bool) (b : Bool) (word : List Bool) :
    dot row (b::word) = ((b && row 0) ^^ dot (fun j => row (j + 1)) word) := by
  have later : ∀ n, (word.zipIdx (n + 1)).foldl (fun acc x => acc ^^ (x.1 && row x.2)) false =
      (word.zipIdx n).foldl (fun acc x => acc ^^ (x.1 && row (x.2 + 1))) false := by
    intro n
    rw [List.zipIdx_succ, List.foldl_map]
  rw [dot, List.zipIdx_cons, List.foldl_cons, foldlXor, Bool.false_xor, later 0, dot]

theorem dotCongr {row row' : Nat → Bool} {word : List Bool} (same : ∀ j < word.length, row j = row' j) :
    dot row word = dot row' word := by
  induction word generalizing row row' with
  | nil => rfl
  | cons b word ih =>
    rw [dotCons, dotCons, same 0 (Nat.succ_pos _), ih (fun j bound => same (j + 1) (Nat.succ_lt_succ bound))]

theorem dotNone (word : List Bool) : dot (fun _ => false) word = false := by
  induction word with
  | nil => rfl
  | cons b word ih => rw [dotCons, ih, Bool.and_false, Bool.xor_false]

theorem dotXor (row row' : Nat → Bool) (word : List Bool) :
    dot (fun j => row j ^^ row' j) word = (dot row word ^^ dot row' word) := by
  induction word generalizing row row' with
  | nil => rfl
  | cons b word ih =>
    rw [dotCons, dotCons, dotCons, ih]
    cases b <;> simp [Bool.xor_left_comm]

theorem dotUnit (d : Nat) (word : List Bool) : dot (fun j => j == d) word = word.getD d false := by
  induction word generalizing d with
  | nil => rfl
  | cons b word ih =>
    rw [dotCons]
    cases d with
    | zero =>
      have rest : dot (fun j => j + 1 == 0) word = false := dotNone word
      rw [rest, Bool.xor_false]
      exact Bool.and_true b
    | succ d =>
      have rest : dot (fun j => j + 1 == d + 1) word = word.getD d false := by
        rw [← ih d]
        exact dotCongr (fun j _ => by simp)
      rw [rest]
      simp

theorem memChosen {α : Type} {row : Nat → Bool} {xs : List α} {x : α} (member : x ∈ chosen row xs) : x ∈ xs := by
  obtain ⟨y,kept,rfl⟩ := List.mem_map.mp member
  exact List.fst_mem_of_mem_zipIdx (List.mem_filter.mp kept).1

theorem chosenCons {α : Type} (row : Nat → Bool) (x : α) (xs : List α) :
    chosen row (x::xs) = if row 0 then x :: chosen (fun j => row (j + 1)) xs else chosen (fun j => row (j + 1)) xs := by
  have later : ((xs.zipIdx 1).filter fun x => row x.2).map (·.1) = chosen (fun j => row (j + 1)) xs := by
    rw [List.zipIdx_succ, List.filter_map, List.map_map]
    rfl
  rw [chosen, List.zipIdx_cons, List.filter_cons]
  split_ifs
  · rw [List.map_cons, later]
  · exact later

theorem dotChosen (row : Nat → Bool) (word : List Bool) (places : List Nat) :
    dot row (places.map fun v => word.getD v false) = sumAt word (chosen row places) := by
  induction places generalizing row with
  | nil => rfl
  | cons v places ih =>
    rw [List.map_cons, dotCons, ih, chosenCons]
    cases row 0
    · rw [Bool.and_false, Bool.false_xor, if_neg Bool.false_ne_true]
    · rw [Bool.and_true, if_pos rfl, sumAtCons]

/- `place` says which bit of the numbers is the coefficient of a bit of the word. -/
variable (place : Nat → Nat)

theorem dotTotal (masks : List Nat) (word : List Bool) : dot (fun j => (total masks).testBit (place j)) word =
    (masks.map fun m => dot (fun j => m.testBit (place j)) word).foldl xor false := by
  induction masks with
  | nil =>
    have none' : (fun j => (total []).testBit (place j)) = fun _ => false := by
      funext j
      exact Nat.zero_testBit _
    rw [none', dotNone]
    rfl
  | cons m masks ih =>
    have split : (fun j => (total (m::masks)).testBit (place j)) =
        fun j => m.testBit (place j) ^^ (total masks).testBit (place j) := by
      funext j
      rw [totalCons, Nat.testBit_xor]
    rw [split, dotXor, ih, List.map_cons, List.foldl_cons, Bool.false_xor]
    exact (foldlXor (fun b => b) _ _).symm

theorem dotTotalQuiet {masks : List Nat} {word : List Bool} (quiet : ∀ m ∈ masks, dot (fun j => m.testBit (place j)) word = false) :
    dot (fun j => (total masks).testBit (place j)) word = false := by
  rw [dotTotal, List.map_congr_left quiet]
  clear quiet
  induction masks with
  | nil => rfl
  | cons m masks ih => exact ih

theorem dotMask (places : List Nat) (word : List Bool) : dot (maskOf places).testBit word = sumAt word places := by
  have unit : ∀ v, dot (fun j => (1 <<< v).testBit j) word = word.getD v false := by
    intro v
    rw [← dotUnit v word]
    refine dotCongr (fun j _ => ?_)
    rw [Nat.one_shiftLeft, Nat.testBit_two_pow, Bool.beq_eq_decide_eq, decide_eq_decide]
    exact eq_comm
  have sum := dotTotal id (places.map (1 <<< ·)) word
  rw [List.map_map] at sum
  simp only [id, Function.comp_def, unit] at sum
  rw [sumAtMap]
  exact sum

theorem maskMem {places : List Nat} {d : Nat} (set' : (maskOf places).testBit d = true) : d ∈ places := by
  induction places with
  | nil =>
    rw [maskOf, List.map_nil, total, List.foldl_nil, Nat.zero_testBit] at set'
    cases set'
  | cons v places ih =>
    rw [maskOf, List.map_cons, totalCons, Nat.testBit_xor, Nat.one_shiftLeft, Nat.testBit_two_pow] at set'
    by_cases here : v = d
    · exact here ▸ List.mem_cons_self
    · rw [decide_eq_false here, Bool.false_xor] at set'
      exact List.mem_cons_of_mem v (ih set')

end OpenPulse.BinaryLinear
