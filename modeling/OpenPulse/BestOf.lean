import Mathlib.Order.Lattice
import Mathlib.Logic.Function.Basic

/-! The best value found under each key: a row of values that starts at a floor and is raised
by one candidate after the other, some of them passed over. -/
namespace OpenPulse.BestOf

section
variable {E K F : Type} [DecidableEq K] [LinearOrder F]

def raise (row : K → F) (key : K) (value : F) : K → F := if row key < value then Function.update row key value else row

def offer (skip : E → Bool) (key : E → K) (value : E → F) (row : K → F) (e : E) : K → F :=
  if skip e then row else raise row (key e) (value e)

def bestOf (skip : E → Bool) (key : E → K) (value : E → F) (row : K → F) (candidates : List E) : K → F :=
  candidates.foldl (offer skip key value) row

theorem raiseGrows (row : K → F) (key : K) (value : F) (k : K) : row k ≤ raise row key value k := by
  unfold raise
  split
  · rename_i lower
    by_cases here : k = key
    · rw [here, Function.update_self]
      exact le_of_lt lower
    · rw [Function.update_of_ne here]
  · exact le_refl _

theorem raiseReaches (row : K → F) (key : K) (value : F) : value ≤ raise row key value key := by
  unfold raise
  split
  · rw [Function.update_self]
  · rename_i reached
    exact not_lt.mp reached

theorem raiseBound {row : K → F} {bound value : F} (below : ∀ k, row k ≤ bound) (fits : value ≤ bound) (key k : K) :
    raise row key value k ≤ bound := by
  unfold raise
  split
  · by_cases here : k = key
    · rw [here, Function.update_self]
      exact fits
    · rw [Function.update_of_ne here]
      exact below k
  · exact below k

variable {skip : E → Bool} {key : E → K} {value : E → F}

theorem bestGrows (row : K → F) (candidates : List E) (k : K) : row k ≤ bestOf skip key value row candidates k := by
  induction candidates generalizing row with
  | nil => exact le_refl _
  | cons e candidates ih =>
    refine le_trans ?_ (ih _)
    unfold offer
    split
    · exact le_refl _
    · exact raiseGrows row (key e) (value e) k

theorem bestReaches (row : K → F) {candidates : List E} {e : E} (member : e ∈ candidates) (counts : skip e = false) :
    value e ≤ bestOf skip key value row candidates (key e) := by
  induction candidates generalizing row with
  | nil => cases member
  | cons first candidates ih =>
    rcases List.mem_cons.mp member with rfl | later
    · refine le_trans ?_ (bestGrows _ candidates (key e))
      rw [offer, counts, if_neg Bool.false_ne_true]
      exact raiseReaches row (key e) (value e)
    · exact ih _ later

theorem bestBound {row : K → F} {bound : F} {candidates : List E} (below : ∀ k, row k ≤ bound)
    (fits : ∀ e ∈ candidates, skip e = false → value e ≤ bound) (k : K) : bestOf skip key value row candidates k ≤ bound := by
  induction candidates generalizing row with
  | nil => exact below k
  | cons e candidates ih =>
    obtain ⟨first,rest⟩ := List.forall_mem_cons.mp fits
    refine ih (fun k => ?_) rest
    unfold offer
    cases skipped : skip e with
    | true => exact below k
    | false => exact raiseBound below (first skipped) (key e) k

theorem bestIs {row : K → F} {bound : F} {candidates : List E} (below : ∀ k, row k ≤ bound)
    (fits : ∀ e ∈ candidates, skip e = false → value e ≤ bound) {e : E} (member : e ∈ candidates) (counts : skip e = false)
    (best : value e = bound) : bestOf skip key value row candidates (key e) = bound :=
  le_antisymm (bestBound below fits (key e)) (best ▸ bestReaches row member counts)

end

end OpenPulse.BestOf
