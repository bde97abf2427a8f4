import Mathlib.Data.List.Basic

/-! The numbers from `first` to `last` in steps: what a loop that adds the step visits,
and how a loop that stopped goes on. A search visits a list through the first hit. -/
namespace OpenPulse.Grids

def grid (step first last : Nat) : List Nat :=
  if last < first then [] else List.range' first ((last - first) / step + 1) step

variable {step first last x : Nat}

theorem gridNil (beyond : last < first) : grid step first last = [] := if_pos beyond

theorem gridSome (within : first ≤ last) : grid step first last = List.range' first ((last - first) / step + 1) step :=
  if_neg (Nat.not_lt.mpr within)

theorem memGrid (positive : 0 < step) : x ∈ grid step first last ↔ first ≤ x ∧ x ≤ last ∧ step ∣ x - first := by
  by_cases within : first ≤ last
  · rw [gridSome within, List.mem_range']
    constructor
    · rintro ⟨i,below,rfl⟩
      have room : step * i ≤ last - first := by
        rw [Nat.mul_comm]
        exact (Nat.le_div_iff_mul_le positive).mp (Nat.le_of_lt_succ below)
      refine ⟨Nat.le_add_right _ _,by omega,?_⟩
      rw [Nat.add_sub_cancel_left]
      exact Nat.dvd_mul_right _ _
    · rintro ⟨after,before,i,apart⟩
      refine ⟨i,Nat.lt_succ_of_le ((Nat.le_div_iff_mul_le positive).mpr ?_),by omega⟩
      rw [Nat.mul_comm]
      omega
  · rw [gridNil (Nat.not_le.mp within)]
    constructor
    · intro member
      cases member
    · rintro ⟨after,before,-⟩
      omega

theorem gridRises (positive : 0 < step) : (grid step first last).Pairwise (· < ·) := by
  unfold grid
  split
  · exact List.Pairwise.nil
  · exact List.pairwise_lt_range' step positive

theorem gridOnce (positive : 0 < step) : (grid step first last).Nodup :=
  (gridRises positive).imp Nat.ne_of_lt

theorem gridHead (within : first ≤ last) : (grid step first last).head? = some first := by
  rw [gridSome within, List.range'_succ, List.head?_cons]

theorem gridNear (positive : 0 < step) (after : first ≤ x) (before : x ≤ last) :
    ∃ q ∈ grid step first last, q ≤ x ∧ x < q + step := by
  have cut := Nat.div_add_mod (x - first) step
  have short := Nat.mod_lt (x - first) positive
  refine ⟨first + step * ((x - first) / step),(memGrid positive).mpr ⟨Nat.le_add_right _ _,by omega,?_⟩,by omega,by omega⟩
  rw [Nat.add_sub_cancel_left]
  exact Nat.dvd_mul_right _ _

theorem gridSplit (positive : 0 < step) {mid : Nat} (after : first ≤ mid) (before : mid ≤ last) (onGrid : step ∣ mid - first) :
    grid step first last = grid step first mid ++ grid step (mid + step) last := by
  obtain ⟨i,apart⟩ := onGrid
  have first' : (mid - first) / step = i := by rw [apart, Nat.mul_div_cancel_left _ positive]
  have whole : last - first = step * i + (last - mid) := by omega
  have count : (last - first) / step + 1 = (i + 1) + (last - mid) / step := by
    rw [whole, Nat.mul_add_div positive]
    omega
  have next : first + step * (i + 1) = mid + step := by
    rw [Nat.mul_succ]
    omega
  rw [gridSome (Nat.le_trans after before), gridSome after, first', count, ← List.range'_append, next]
  refine congrArg _ ?_
  by_cases more : mid + step ≤ last
  · rw [gridSome more, show last - mid = (last - (mid + step)) + step by omega, Nat.add_div_right _ positive]
  · rw [gridNil (Nat.not_le.mp more), Nat.div_eq_of_lt (by omega)]
    rfl

theorem gridCons (positive : 0 < step) (within : first ≤ last) : grid step first last = first :: grid step (first + step) last := by
  have single : grid step first first = [first] := by
    rw [gridSome (Nat.le_refl first), Nat.sub_self, Nat.zero_div]
    rfl
  have split := gridSplit positive (Nat.le_refl first) within (by rw [Nat.sub_self]; exact Nat.dvd_zero step)
  rwa [single] at split

theorem gridBehind (positive : 0 < step) {before behind : List Nat} (cut : grid step first last = before ++ x::behind) :
    behind = grid step (x + step) last := by
  induction before generalizing first with
  | nil =>
    by_cases within : first ≤ last
    · rw [gridCons positive within] at cut
      obtain ⟨rfl,rest⟩ := List.cons.inj cut
      exact rest.symm
    · rw [gridNil (Nat.not_le.mp within)] at cut
      cases cut
  | cons y before ih =>
    by_cases within : first ≤ last
    · rw [gridCons positive within] at cut
      exact ih (List.cons.inj cut).2
    · rw [gridNil (Nat.not_le.mp within)] at cut
      cases cut

theorem gridShort (step first last : Nat) : (grid step first last).length ≤ last + 1 := by
  unfold grid
  split
  · exact Nat.zero_le _
  · rw [List.length_range']
    exact Nat.succ_le_succ (Nat.le_trans (Nat.div_le_self _ _) (Nat.sub_le _ _))

theorem gridRounded (positive : 0 < step) : grid step 0 (last / step * step) = grid step 0 last := by
  rw [gridSome (Nat.zero_le _), gridSome (Nat.zero_le _), Nat.sub_zero, Nat.sub_zero, Nat.mul_div_cancel _ positive]

variable {A : Type} {p : A → Bool}

def through (p : A → Bool) : List A → List A
  | [] => []
  | a::rest => if p a then [a] else a :: through p rest

theorem throughCons (p : A → Bool) (a : A) (rest : List A) : through p (a::rest) = if p a then [a] else a :: through p rest := rfl

theorem throughAppend {before : List A} (miss : ∀ a ∈ before, p a = false) (rest : List A) :
    through p (before ++ rest) = before ++ through p rest := by
  induction before with
  | nil => rfl
  | cons a before ih =>
    obtain ⟨first,later⟩ := List.forall_mem_cons.mp miss
    rw [List.cons_append, throughCons, if_neg (by rw [first]; exact Bool.false_ne_true), ih later, List.cons_append]

theorem throughAll {all : List A} (miss : ∀ a ∈ all, p a = false) : through p all = all := by
  have whole := throughAppend miss []
  rwa [List.append_nil, show through p [] = [] from rfl, List.append_nil] at whole

theorem throughHit {before : List A} (miss : ∀ a ∈ before, p a = false) {a : A} (hit : p a = true) (rest : List A) :
    through p (before ++ a::rest) = before ++ [a] := by
  rw [throughAppend miss, throughCons, if_pos hit]

theorem throughPrefix (p : A → Bool) (all : List A) : through p all <+: all := by
  induction all with
  | nil => exact List.prefix_refl []
  | cons a all ih =>
    rw [throughCons]
    split
    · exact ⟨all,rfl⟩
    · exact List.cons_prefix_cons.mpr ⟨rfl,ih⟩

section
variable {all : List Nat} (rises : all.Pairwise (· < ·))
include rises

theorem memThrough {p : Nat → Bool} : x ∈ through p all ↔ x ∈ all ∧ ∀ y ∈ all, y < x → p y = false := by
  induction all with
  | nil => exact ⟨fun member => (List.not_mem_nil member).elim,fun member => member.1⟩
  | cons a all ih =>
    obtain ⟨above,later⟩ := List.pairwise_cons.mp rises
    rw [throughCons]
    split
    next hit =>
      rw [List.mem_singleton]
      constructor
      · rintro rfl
        refine ⟨List.mem_cons_self,fun y member low => ?_⟩
        rcases List.mem_cons.mp member with rfl | inside
        · exact absurd low (Nat.lt_irrefl y)
        · exact absurd (Nat.lt_trans low (above y inside)) (Nat.lt_irrefl y)
      · rintro ⟨member,missed⟩
        rcases List.mem_cons.mp member with rfl | inside
        · rfl
        · rw [missed a List.mem_cons_self (above x inside)] at hit
          cases hit
    next miss =>
      rw [List.mem_cons, ih later, List.mem_cons]
      constructor
      · rintro (rfl | ⟨inside,missed⟩)
        · refine ⟨Or.inl rfl,fun y member low => ?_⟩
          rcases List.mem_cons.mp member with rfl | inside
          · exact absurd low (Nat.lt_irrefl y)
          · exact absurd (Nat.lt_trans low (above y inside)) (Nat.lt_irrefl y)
        · refine ⟨Or.inr inside,fun y member low => ?_⟩
          rcases List.mem_cons.mp member with rfl | here
          · exact Bool.eq_false_iff.mpr miss
          · exact missed y here low
      · rintro ⟨rfl | inside,missed⟩
        · exact Or.inl rfl
        · exact Or.inr ⟨inside,fun y here => missed y (List.mem_cons_of_mem a here)⟩

theorem findRising {B : Type} {f : Nat → Option B} {b : B} :
    all.findSome? f = some b ↔ ∃ x ∈ all, f x = some b ∧ ∀ y ∈ all, y < x → f y = none := by
  constructor
  · intro found
    obtain ⟨before,x,behind,rfl,hit,missed⟩ := List.findSome?_eq_some_iff.mp found
    refine ⟨x,List.mem_append_right _ List.mem_cons_self,hit,fun y member low => ?_⟩
    have above := (List.pairwise_cons.mp (List.pairwise_append.mp rises).2.1).1
    rcases List.mem_append.mp member with early | late
    · exact missed y early
    · rcases List.mem_cons.mp late with rfl | inside
      · exact absurd low (Nat.lt_irrefl y)
      · exact absurd (Nat.lt_trans low (above y inside)) (Nat.lt_irrefl y)
  · rintro ⟨x,member,hit,missed⟩
    obtain ⟨before,behind,rfl⟩ := List.append_of_mem member
    refine List.findSome?_eq_some_iff.mpr ⟨before,x,behind,rfl,hit,fun y early => ?_⟩
    exact missed y (List.mem_append_left _ early) ((List.pairwise_append.mp rises).2.2 y early x List.mem_cons_self)

end

end OpenPulse.Grids
