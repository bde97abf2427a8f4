import Mathlib.Order.MinMax
import Mathlib.Data.List.Basic

/-! Walking on the rungs of a ladder inside bounds. The rungs are an ascending list
over any linear order; the bounds need not be rungs, and need not leave any. -/
namespace OpenPulse.Ladders

variable {α : Type} [LinearOrder α]

/-- The rung in bounds at or below `a`, else the lowest in bounds, else `a` in bounds. -/
def snap (rungs : List α) (lo hi a : α) : α :=
  let bounded := min (max a lo) hi
  if bounded ∈ rungs then bounded else
    ((rungs.reverse.find? (fun l => l ≤ bounded ∧ lo ≤ l)).or (rungs.find? (fun l => lo ≤ l ∧ l ≤ hi))).getD bounded

def above (rungs : List α) (lo hi a : α) : α := (rungs.find? (fun l => a < l ∧ l ≤ hi)).getD (snap rungs lo hi a)

def below (rungs : List α) (lo hi a : α) : α := (rungs.reverse.find? (fun l => l < a ∧ lo ≤ l)).getD (snap rungs lo hi a)

structure Inside (rungs : List α) (lo hi x : α) : Prop where
  member : x ∈ rungs
  low : lo ≤ x
  high : x ≤ hi

structure NextRung (rungs : List α) (a b : α) : Prop where
  member : b ∈ rungs
  up : a < b
  least : ∀ l ∈ rungs, a < l → b ≤ l

def OneStep (rungs : List α) (a b : α) : Prop := b ≤ a ∨ NextRung rungs a b

theorem oneStepAmong {rungs : List α} {a b : α} (member : b ∈ rungs) : OneStep rungs a b ↔ ∀ l ∈ rungs, a < l → b ≤ l := by
  constructor
  · rintro (down | step) l inside up
    · exact le_trans down (le_of_lt up)
    · exact step.least l inside up
  · intro least
    rcases le_or_gt b a with down | up
    · exact .inl down
    · exact .inr ⟨member,up,least⟩

section Searches

variable {rungs : List α} {q : α → Bool} {x y : α}

theorem findLeast (ascending : rungs.Pairwise (· < ·)) (found : rungs.find? q = some x) (member : y ∈ rungs) (meets : q y = true) :
    x ≤ y := by
  obtain ⟨-,before,after,split,skipped⟩ := List.find?_eq_some_iff_append.mp found
  rw [split] at member ascending
  rcases List.mem_append.mp member with earlier | later
  · have refused := skipped y earlier
    rw [meets] at refused
    cases refused
  · rcases List.mem_cons.mp later with rfl | behind
    · exact le_refl _
    · exact le_of_lt ((List.pairwise_cons.mp (List.pairwise_append.mp ascending).2.1).1 y behind)

theorem findGreatest (ascending : rungs.Pairwise (· < ·)) (found : rungs.reverse.find? q = some x) (member : y ∈ rungs)
    (meets : q y = true) : y ≤ x := by
  obtain ⟨-,before,after,split,skipped⟩ := List.find?_eq_some_iff_append.mp found
  have descending : rungs.reverse.Pairwise (· > ·) := List.pairwise_reverse.mpr ascending
  have reversed : y ∈ rungs.reverse := List.mem_reverse.mpr member
  rw [split] at reversed descending
  rcases List.mem_append.mp reversed with earlier | later
  · have refused := skipped y earlier
    rw [meets] at refused
    cases refused
  · rcases List.mem_cons.mp later with rfl | behind
    · exact le_refl _
    · exact le_of_lt ((List.pairwise_cons.mp (List.pairwise_append.mp descending).2.1).1 y behind)

end Searches

section Bounds

variable {rungs : List α} {lo hi a b x : α}

inductive Snapped (rungs : List α) (lo hi a : α) : α → Prop where
  | bounded (member : min (max a lo) hi ∈ rungs) : Snapped rungs lo hi a (min (max a lo) hi)
  | under {l} (member : l ∈ rungs) (low : lo ≤ l) (under : l ≤ min (max a lo) hi)
      (greatest : ∀ y ∈ rungs, lo ≤ y → y ≤ min (max a lo) hi → y ≤ l) : Snapped rungs lo hi a l
  | lowest {l} (member : l ∈ rungs) (low : lo ≤ l) (high : l ≤ hi) (over' : ∀ y ∈ rungs, lo ≤ y → ¬ y ≤ min (max a lo) hi)
      (least : ∀ y ∈ rungs, lo ≤ y → y ≤ hi → l ≤ y) : Snapped rungs lo hi a l
  | outside (none' : ∀ y ∈ rungs, lo ≤ y → ¬ y ≤ hi) (away : min (max a lo) hi ∉ rungs) :
      Snapped rungs lo hi a (min (max a lo) hi)

theorem snapped (ascending : rungs.Pairwise (· < ·)) (lo hi a : α) : Snapped rungs lo hi a (snap rungs lo hi a) := by
  simp only [snap]
  by_cases member : min (max a lo) hi ∈ rungs
  · rw [if_pos member]
    exact .bounded member
  · rw [if_neg member]
    cases under : rungs.reverse.find? (fun l => l ≤ min (max a lo) hi ∧ lo ≤ l) with
    | some l =>
      have meets := List.find?_some under
      simp only [decide_eq_true_eq] at meets
      refine .under (List.mem_reverse.mp (List.mem_of_find?_eq_some under)) meets.2 meets.1 ?_
      intro y inside low high
      exact findGreatest ascending under inside (by simp [low, high])
    | none =>
      have over' : ∀ y ∈ rungs, lo ≤ y → ¬ y ≤ min (max a lo) hi := by
        intro y inside low high
        have refused := List.find?_eq_none.mp under y (List.mem_reverse.mpr inside)
        simp [low, high] at refused
      cases lowest : rungs.find? (fun l => lo ≤ l ∧ l ≤ hi) with
      | some l =>
        have meets := List.find?_some lowest
        simp only [decide_eq_true_eq] at meets
        refine .lowest (List.mem_of_find?_eq_some lowest) meets.1 meets.2 over' ?_
        intro y inside low high
        exact findLeast ascending lowest inside (by simp [low, high])
      | none =>
        refine .outside ?_ member
        intro y inside low high
        have refused := List.find?_eq_none.mp lowest y inside
        simp [low, high] at refused

theorem snapInside (inside : Inside rungs lo hi x) : snap rungs lo hi x = x := by
  have bounded : min (max x lo) hi = x := by rw [max_eq_left inside.low, min_eq_left inside.high]
  simp [snap, bounded, inside.member]

theorem snapCrossed (crossed : hi < lo) : snap rungs lo hi a = hi := by
  have bounded : min (max a lo) hi = hi := min_eq_right (le_trans (le_of_lt crossed) (le_max_right _ _))
  have none1 : rungs.reverse.find? (fun l => l ≤ hi ∧ lo ≤ l) = none := by
    refine List.find?_eq_none.mpr fun l _ => ?_
    simp only [decide_eq_true_eq, not_and, not_le]
    exact fun high => lt_of_le_of_lt high crossed
  have none2 : rungs.find? (fun l => lo ≤ l ∧ l ≤ hi) = none := by
    refine List.find?_eq_none.mpr fun l _ => ?_
    simp only [decide_eq_true_eq, not_and, not_le]
    exact fun low => lt_of_lt_of_le crossed low
  simp only [snap, bounded, none1, none2, Option.or_none, Option.getD_none, ite_self]

variable (ascending : rungs.Pairwise (· < ·))
include ascending

theorem snapHigh : snap rungs lo hi a ≤ hi := by
  have high : min (max a lo) hi ≤ hi := min_le_right _ _
  generalize landed : snap rungs lo hi a = l
  have shape := snapped ascending lo hi a
  rw [landed] at shape
  cases shape with
  | bounded => exact high
  | under _ _ under => exact le_trans under high
  | lowest _ _ high => exact high
  | outside => exact high

theorem snapLow (order : lo ≤ hi) : lo ≤ snap rungs lo hi a := by
  have low : lo ≤ min (max a lo) hi := le_min (le_max_right _ _) order
  generalize landed : snap rungs lo hi a = l
  have shape := snapped ascending lo hi a
  rw [landed] at shape
  cases shape with
  | bounded => exact low
  | under _ low => exact low
  | lowest _ low => exact low
  | outside => exact low

theorem snapLands (some : Inside rungs lo hi x) : Inside rungs lo hi (snap rungs lo hi a) := by
  have order : lo ≤ hi := le_trans some.low some.high
  have low : lo ≤ min (max a lo) hi := le_min (le_max_right _ _) order
  have high : min (max a lo) hi ≤ hi := min_le_right _ _
  generalize landed : snap rungs lo hi a = l
  have shape := snapped ascending lo hi a
  rw [landed] at shape
  cases shape with
  | bounded member => exact ⟨member,low,high⟩
  | under member low under => exact ⟨member,low,le_trans under high⟩
  | lowest member low high => exact ⟨member,low,high⟩
  | outside none' => exact absurd some.high (none' x some.member some.low)

theorem leSnap (inside : Inside rungs lo hi x) (up : x ≤ a) : x ≤ snap rungs lo hi a := by
  have below : x ≤ min (max a lo) hi := le_min (le_trans up (le_max_left _ _)) inside.high
  generalize landed : snap rungs lo hi a = l
  have shape := snapped ascending lo hi a
  rw [landed] at shape
  cases shape with
  | bounded => exact below
  | under _ _ _ greatest => exact greatest x inside.member inside.low below
  | lowest _ _ _ over' => exact absurd below (over' x inside.member inside.low)
  | outside => exact below

theorem snapLe (inside : Inside rungs lo hi x) (down : a ≤ x) : snap rungs lo hi a ≤ x := by
  have bounded : min (max a lo) hi ≤ x := le_trans (min_le_left _ _) (max_le down inside.low)
  generalize landed : snap rungs lo hi a = l
  have shape := snapped ascending lo hi a
  rw [landed] at shape
  cases shape with
  | bounded => exact bounded
  | under _ _ under => exact le_trans under bounded
  | lowest _ _ _ _ least => exact least x inside.member inside.low inside.high
  | outside => exact bounded

theorem snapEmpty (away : ∀ l, ¬ Inside rungs lo hi l) : snap rungs lo hi a = min (max a lo) hi := by
  generalize landed : snap rungs lo hi a = l
  have shape := snapped ascending lo hi a
  rw [landed] at shape
  cases shape with
  | bounded => rfl
  | under member low under => exact absurd ⟨member,low,le_trans under (min_le_right _ _)⟩ (away _)
  | lowest member low high => exact absurd ⟨member,low,high⟩ (away _)
  | outside => rfl

theorem snapStays (low : lo ≤ a) (high : a ≤ hi) : snap rungs lo hi a = a ↔ a ∈ rungs ∨ ∀ l ∈ rungs, lo ≤ l → ¬ l ≤ hi := by
  constructor
  · intro stays
    by_cases some : ∃ l, Inside rungs lo hi l
    · obtain ⟨l,inside⟩ := some
      have landed := snapLands ascending (a := a) inside
      rw [stays] at landed
      exact .inl landed.member
    · exact .inr fun l member low high => some ⟨l,member,low,high⟩
  · rintro (member | away)
    · exact snapInside ⟨member,low,high⟩
    · rw [snapEmpty ascending (fun l inside => away l inside.member inside.low inside.high), max_eq_left low, min_eq_left high]

theorem snapTwice : snap rungs lo hi (snap rungs lo hi a) = snap rungs lo hi a := by
  rcases lt_or_ge hi lo with crossed | order
  · rw [snapCrossed crossed, snapCrossed crossed]
  · refine (snapStays ascending (snapLow ascending order) (snapHigh ascending)).mpr ?_
    by_cases some : ∃ l, Inside rungs lo hi l
    · obtain ⟨l,inside⟩ := some
      exact .inl (snapLands ascending inside).member
    · exact .inr fun l member low high => some ⟨l,member,low,high⟩

theorem snapOneStep (some : Inside rungs lo hi x) (step : ∀ l ∈ rungs, a < l → b ≤ l) :
    OneStep rungs (snap rungs lo hi a) (snap rungs lo hi b) := by
  have landed : Inside rungs lo hi (snap rungs lo hi b) := snapLands ascending some
  refine (oneStepAmong landed.member).mpr fun l member up => ?_
  rcases le_or_gt l hi with high | beyond
  · have inside : Inside rungs lo hi l := ⟨member,le_trans (snapLands ascending some).low (le_of_lt up),high⟩
    have passed : a < l := lt_of_not_ge fun under => not_le_of_gt up (leSnap ascending inside under)
    exact snapLe ascending inside (step l member passed)
  · exact le_trans landed.high (le_of_lt beyond)

theorem aboveStep (settled : snap rungs lo hi a = a) : above rungs lo hi a = a ∨ NextRung rungs a (above rungs lo hi a) := by
  simp only [above]
  cases found : rungs.find? (fun l => a < l ∧ l ≤ hi) with
  | none => exact .inl settled
  | some l =>
    have meets := List.find?_some found
    simp only [decide_eq_true_eq] at meets
    refine .inr ⟨List.mem_of_find?_eq_some found,meets.1,fun y member up => ?_⟩
    rcases le_or_gt y hi with high | beyond
    · exact findLeast ascending found member (by simp [up, high])
    · exact le_trans meets.2 (le_of_lt beyond)

theorem aboveInside (inside : Inside rungs lo hi a) : Inside rungs lo hi (above rungs lo hi a) := by
  simp only [above]
  cases found : rungs.find? (fun l => a < l ∧ l ≤ hi) with
  | none => exact snapLands ascending inside
  | some l =>
    have meets := List.find?_some found
    simp only [decide_eq_true_eq] at meets
    exact ⟨List.mem_of_find?_eq_some found,le_trans inside.low (le_of_lt meets.1),meets.2⟩

theorem belowInside (inside : Inside rungs lo hi a) : Inside rungs lo hi (below rungs lo hi a) := by
  simp only [below]
  cases found : rungs.reverse.find? (fun l => l < a ∧ lo ≤ l) with
  | none => exact snapLands ascending inside
  | some l =>
    have meets := List.find?_some found
    simp only [decide_eq_true_eq] at meets
    exact ⟨List.mem_reverse.mp (List.mem_of_find?_eq_some found),meets.2,le_trans (le_of_lt meets.1) inside.high⟩

theorem belowLeIff (settled : snap rungs lo hi a = a) : below rungs lo hi a ≤ b ↔
    (∀ l ∈ rungs, lo ≤ l → l < a → l ≤ b) ∧ (a ≤ b ∨ ∃ l ∈ rungs, lo ≤ l ∧ l < a) := by
  simp only [below]
  cases found : rungs.reverse.find? (fun l => l < a ∧ lo ≤ l) with
  | none =>
    have bottom : ∀ l ∈ rungs, lo ≤ l → ¬ l < a := by
      intro l member low down
      have refused := List.find?_eq_none.mp found l (List.mem_reverse.mpr member)
      simp [low, down] at refused
    rw [Option.getD_none, settled]
    constructor
    · intro under
      exact ⟨fun l member low down => absurd down (bottom l member low),.inl under⟩
    · rintro ⟨-,under | ⟨l,member,low,down⟩⟩
      · exact under
      · exact absurd down (bottom l member low)
  | some x =>
    have meets := List.find?_some found
    simp only [decide_eq_true_eq] at meets
    have member : x ∈ rungs := List.mem_reverse.mp (List.mem_of_find?_eq_some found)
    rw [Option.getD_some]
    constructor
    · intro under
      refine ⟨fun l inside low down => ?_,.inr ⟨x,member,meets.2,meets.1⟩⟩
      exact le_trans (findGreatest ascending found inside (by simp [low, down])) under
    · rintro ⟨between,-⟩
      exact between x member meets.2 meets.1

theorem belowSettled (settled : snap rungs lo hi a = a) : snap rungs lo hi (below rungs lo hi a) = below rungs lo hi a := by
  simp only [below]
  cases found : rungs.reverse.find? (fun l => l < a ∧ lo ≤ l) with
  | none => rw [Option.getD_none, settled, settled]
  | some x =>
    have meets := List.find?_some found
    simp only [decide_eq_true_eq] at meets
    have high : a ≤ hi := le_of_eq_of_le settled.symm (snapHigh ascending)
    exact snapInside ⟨List.mem_reverse.mp (List.mem_of_find?_eq_some found),meets.2,le_trans (le_of_lt meets.1) high⟩

end Bounds

end OpenPulse.Ladders
