import Mathlib.Data.List.Induction
import Mathlib.Order.Lattice

/-! One pass over a list that keeps what it has until something better comes. It
ends with a best element, and with the first of them. -/
namespace OpenPulse.Scans

variable {A K : Type} [LinearOrder K] {merit : A → K}

def FirstBest (merit : A → K) (xs : List A) (x : A) : Prop :=
  ∃ before after, xs = before ++ x :: after ∧ (∀ b ∈ before, merit b < merit x) ∧ ∀ a ∈ after, merit a ≤ merit x

def keep (merit : A → K) (best : Option A) (x : A) : Option A :=
  match best with
  | none => some x
  | some b => if merit b < merit x then some x else some b

def scan (merit : A → K) (xs : List A) : Option A := xs.foldl (keep merit) none

theorem firstBestSingle (x : A) : FirstBest merit [x] x := ⟨[],[],rfl,by simp,by simp⟩

variable {xs : List A} {x y : A}

theorem FirstBest.greatest (best : FirstBest merit xs x) : ∀ y ∈ xs, merit y ≤ merit x := by
  obtain ⟨before,after,rfl,earlier,later⟩ := best
  intro y member
  rcases List.mem_append.mp member with early | here
  · exact le_of_lt (earlier y early)
  · rcases List.mem_cons.mp here with rfl | late
    · exact le_refl _
    · exact later y late

theorem FirstBest.better (best : FirstBest merit xs x) (more : merit x < merit y) : FirstBest merit (xs ++ [y]) y :=
  ⟨xs,[],rfl,fun b member => lt_of_le_of_lt (best.greatest b member) more,by simp⟩

theorem FirstBest.worse (best : FirstBest merit xs x) (less : merit y ≤ merit x) : FirstBest merit (xs ++ [y]) x := by
  obtain ⟨before,after,rfl,earlier,later⟩ := best
  refine ⟨before,after ++ [y],by simp,earlier,fun a member => ?_⟩
  rcases List.mem_append.mp member with old | new
  · exact later a old
  · rw [List.mem_singleton.mp new]
    exact less

theorem scanSnoc (merit : A → K) (xs : List A) (y : A) : scan merit (xs ++ [y]) = keep merit (scan merit xs) y := by
  rw [scan, List.foldl_append]
  rfl

theorem scanBest (merit : A → K) {xs : List A} (some' : xs ≠ []) : ∃ x, scan merit xs = some x ∧ FirstBest merit xs x := by
  induction xs using List.reverseRecOn with
  | nil => exact absurd rfl some'
  | append_singleton xs y ih =>
    cases xs with
    | nil => exact ⟨y,rfl,firstBestSingle y⟩
    | cons first rest =>
      obtain ⟨x,found,best⟩ := ih (by simp)
      rw [scanSnoc, found, keep]
      split
      · exact ⟨y,rfl,best.better ‹_›⟩
      · exact ⟨x,rfl,best.worse (not_lt.mp ‹_›)⟩

end OpenPulse.Scans
