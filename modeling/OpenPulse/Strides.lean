import Mathlib.Data.List.Nodup
import Mathlib.Data.List.Perm.Subperm
import Mathlib.Data.List.Range
import Mathlib.Tactic.Ring

/-! The numbers below a bound in the order of their remainders, those of one
remainder in ascending order. Near places of that order hold distant numbers. -/
namespace OpenPulse.Strides

def start (n d r : Nat) : Nat := r * (n / d) + min r (n % d)

def rank (n d x : Nat) : Nat := start n d (x % d) + x / d

variable {n d : Nat}

theorem startSucc (r : Nat) : start n d (r + 1) = start n d r + n / d + if r < n % d then 1 else 0 := by
  unfold start
  rw [Nat.add_mul, Nat.one_mul]
  split <;> omega

theorem startMono {r s : Nat} (le : r ≤ s) : start n d r ≤ start n d s :=
  Nat.add_le_add (Nat.mul_le_mul_right _ le) (by omega)

theorem startAll (positive : 0 < d) : start n d d = n := by
  have rest := Nat.mod_lt n positive
  rw [start, Nat.min_eq_right (Nat.le_of_lt rest), Nat.div_add_mod]

theorem rankBelow {x : Nat} (below : x < n) : rank n d x < start n d (x % d + 1) := by
  have number := Nat.div_add_mod x d
  have bound := Nat.div_add_mod n d
  rw [startSucc, rank]
  split
  · next early =>
    have le : x / d ≤ n / d := Nat.div_le_div_right (Nat.le_of_lt below)
    omega
  · next late =>
    have lt : x / d < n / d := by
      by_contra high
      have more : d * (n / d) ≤ d * (x / d) := Nat.mul_le_mul_left d (Nat.not_lt.mp high)
      omega
    omega

theorem rankLt (positive : 0 < d) {x : Nat} (below : x < n) : rank n d x < n :=
  Nat.lt_of_lt_of_le (rankBelow below) (Nat.le_trans (startMono (Nat.mod_lt x positive)) (Nat.le_of_eq (startAll positive)))

theorem rankZero : rank n d 0 = 0 := by simp [rank, start]

theorem rankStep (positive : 0 < d) (x : Nat) : rank n d (x + d) = rank n d x + 1 := by
  rw [rank, rank, Nat.add_mod_right, Nat.add_div_right x positive, Nat.add_assoc]

theorem rankWrap (positive : 0 < d) {x : Nat} (below : x < n) (last : n ≤ x + d) : rank n d x + 1 = start n d (x % d + 1) := by
  have number := Nat.div_add_mod x d
  have bound := Nat.div_add_mod n d
  have upper := rankBelow (d := d) below
  have lower : start n d (x % d + 1) ≤ rank n d x + 1 := by
    rw [startSucc, rank]
    split
    · next early =>
      have le : n / d ≤ x / d := by
        by_contra low
        have less : d * (x / d + 1) ≤ d * (n / d) := Nat.mul_le_mul_left d (Nat.not_le.mp low)
        rw [Nat.mul_add, Nat.mul_one] at less
        omega
      omega
    · next late =>
      have le : n / d ≤ x / d + 1 := by
        by_contra low
        have less : d * (x / d + 2) ≤ d * (n / d) := Nat.mul_le_mul_left d (Nat.not_le.mp low)
        rw [Nat.mul_add] at less
        have rest := Nat.mod_lt x positive
        omega
      omega
  omega

theorem rankSmall {r : Nat} (small : r < d) : rank n d r = start n d r := by
  rw [rank, Nat.mod_eq_of_lt small, Nat.div_eq_of_lt small, Nat.add_zero]

theorem startInside {r : Nat} (small : r < d) (room : start n d r < n) : r < n := by
  by_contra beyond
  have bound := Nat.not_lt.mp beyond
  have short : n < d := Nat.lt_of_le_of_lt bound small
  rw [start, Nat.div_eq_of_lt short, Nat.mod_eq_of_lt short, Nat.mul_zero, Nat.min_eq_right bound, Nat.zero_add] at room
  exact Nat.lt_irrefl n room

theorem rankOrder {x y : Nat} (below : x < n) (less : x % d < y % d) : rank n d x < rank n d y :=
  Nat.lt_of_lt_of_le (rankBelow below) (Nat.le_trans (startMono less) (Nat.le_add_right _ _))

theorem rankInj {x y : Nat} (left : x < n) (right : y < n) (same : rank n d x = rank n d y) : x = y := by
  have remainders : x % d = y % d := by
    by_contra differ
    cases Nat.lt_or_gt_of_ne differ with
    | inl less => exact Nat.ne_of_lt (rankOrder left less) same
    | inr more => exact Nat.ne_of_gt (rankOrder right more) same
  have quotients : x / d = y / d := by
    rw [rank, rank, remainders] at same
    exact Nat.add_left_cancel same
  rw [← Nat.div_add_mod x d, ← Nat.div_add_mod y d, quotients, remainders]

theorem rankSpread {x y : Nat} (left : x < n) (right : y < n) (before : rank n d x < rank n d y)
    (near : rank n d y < rank n d x + n / d) : x + (d - 1) ≤ y ∨ y + (d - 1) ≤ x := by
  have first := Nat.div_add_mod x d
  have second := Nat.div_add_mod y d
  have ordered : x % d ≤ y % d := by
    by_contra more
    exact Nat.lt_asymm before (rankOrder right (Nat.not_le.mp more))
  by_cases same : x % d = y % d
  · -- two numbers of one remainder
    have less : x / d < y / d := by
      rw [rank, rank, same] at before
      exact Nat.lt_of_add_lt_add_left before
    have apart : d * (x / d + 1) ≤ d * (y / d) := Nat.mul_le_mul_left d less
    rw [Nat.mul_add, Nat.mul_one] at apart
    omega
  · have step := startSucc (n := n) (d := d) (x % d)
    by_cases next : y % d = x % d + 1
    · -- the second number is earlier in its remainder than the first in its own
      have less : y / d < x / d := by
        rw [rank, rank, next] at near
        omega
      have apart : d * (y / d + 1) ≤ d * (x / d) := Nat.mul_le_mul_left d less
      rw [Nat.mul_add, Nat.mul_one] at apart
      omega
    · -- a whole remainder would lie between them
      have far : start n d (x % d + 1) + n / d ≤ start n d (y % d) := by
        refine Nat.le_trans ?_ (startMono (show x % d + 1 + 1 ≤ y % d by omega))
        rw [startSucc (x % d + 1)]
        omega
      have upper := rankBelow (d := d) left
      have here : start n d (y % d) ≤ rank n d y := Nat.le_add_right _ _
      omega

theorem quotientNear {a b q : Nat} (positive : 0 < q) (same : a / q = b / q) : a < b + q := by
  have first := Nat.div_add_mod a q
  have second := Nat.div_add_mod b q
  have rest := Nat.mod_lt a positive
  rw [same] at first
  omega

theorem stretchSpread {x y first : Nat} (some : 0 < n / d) (left : x < n) (right : y < n) (fromX : first ≤ rank n d x)
    (fromY : first ≤ rank n d y) (same : (rank n d x - first) / (n / d) = (rank n d y - first) / (n / d)) :
    x = y ∨ x + (d - 1) ≤ y ∨ y + (d - 1) ≤ x := by
  have near := quotientNear some same
  have back := quotientNear some same.symm
  rcases Nat.lt_trichotomy (rank n d x) (rank n d y) with before | equal | after
  · exact .inr (rankSpread left right before (by omega))
  · exact .inl (rankInj left right equal)
  · exact .inr (rankSpread right left after (by omega)).symm

def stride (n d : Nat) : Nat → Nat → Nat → List Nat
  | 0, _, _ => []
  | left + 1, p, s => p::(if n ≤ p + d then stride n d left s (s + 1) else stride n d left (p + d) s)

theorem strideRanks (positive : 0 < d) {left p : Nat} (inside : p < n) (room : rank n d p + left ≤ n) :
    (stride n d left p (p % d + 1)).map (rank n d) = List.range' (rank n d p) left ∧ ∀ x ∈ stride n d left p (p % d + 1), x < n := by
  induction left generalizing p with
  | zero => exact ⟨rfl,fun x none => nomatch none⟩
  | succ left ih =>
    rw [stride, List.range'_succ, List.map_cons, List.forall_mem_cons]
    by_cases last : n ≤ p + d
    · rw [if_pos last]
      have next := rankWrap positive inside last
      cases left with
      | zero => exact ⟨rfl,inside,fun x none => nomatch none⟩
      | succ left =>
        have small : p % d + 1 < d := by
          by_contra large
          have all : p % d + 1 = d := by
            have rest := Nat.mod_lt p positive
            omega
          rw [all, startAll positive] at next
          omega
        have first : (p % d + 1) % d = p % d + 1 := Nat.mod_eq_of_lt small
        have inside' : p % d + 1 < n := startInside small (by omega)
        rw [← rankSmall small] at next
        have step := ih (p := p % d + 1) inside' (by omega)
        rw [first, ← next] at step
        exact ⟨by rw [step.1],inside,step.2⟩
    · rw [if_neg last]
      have step := ih (p := p + d) (by omega) (by rw [rankStep positive]; omega)
      rw [Nat.add_mod_right, rankStep positive] at step
      exact ⟨by rw [step.1],inside,step.2⟩

theorem strideAll (positive : 0 < d) (n : Nat) :
    (stride n d n 0 1).map (rank n d) = List.range n ∧ ∀ x ∈ stride n d n 0 1, x < n := by
  cases n with
  | zero => exact ⟨rfl,fun x none => nomatch none⟩
  | succ n =>
    have all := strideRanks (n := n + 1) positive (Nat.succ_pos n) (Nat.le_of_eq (by rw [rankZero, Nat.zero_add]))
    rw [rankZero, Nat.zero_mod, ← List.range_eq_range'] at all
    exact all

theorem strideNodup (positive : 0 < d) (n : Nat) : (stride n d n 0 1).Nodup := by
  refine List.Nodup.of_map (rank n d) ?_
  rw [(strideAll positive n).1]
  exact List.nodup_range

theorem stridePerm (positive : 0 < d) (n : Nat) : (stride n d n 0 1).Perm (List.range n) := by
  obtain ⟨ranks,below⟩ := strideAll positive n
  have length := congrArg List.length ranks
  rw [List.length_map] at length
  have sub : (stride n d n 0 1).Subperm (List.range n) :=
    (strideNodup positive n).subperm (fun x member => List.mem_range.mpr (below x member))
  exact sub.perm_of_length_le (Nat.le_of_eq length.symm)

theorem strideGet (positive : 0 < d) {i : Nat} (inside : i < n) : ∃ x, (stride n d n 0 1)[i]? = some x ∧ x < n ∧ rank n d x = i := by
  obtain ⟨ranks,below⟩ := strideAll positive n
  have here := congrArg (·[i]?) ranks
  simp only [List.getElem?_map, List.getElem?_range inside, Option.map_eq_some_iff] at here
  obtain ⟨x,found,rank⟩ := here
  exact ⟨x,found,below x (List.mem_of_getElem? found),rank⟩

theorem strideAt (positive : 0 < d) {x : Nat} (inside : x < n) : (stride n d n 0 1)[rank n d x]? = some x := by
  obtain ⟨y,found,below,same⟩ := strideGet positive (rankLt positive inside)
  rw [found, rankInj below inside same]

end OpenPulse.Strides
