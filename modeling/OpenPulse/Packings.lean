import Mathlib.Data.List.Basic

/-! A list cut into consecutive groups. Where a group that fits still fits without its first entries, taking as much as fits each
time makes no more groups than any other way of cutting. -/
namespace OpenPulse.Packings

variable {α : Type} (fits : List α → Prop)

structure Packing (l : List α) (groups : List (List α)) : Prop where
  whole : groups.flatten = l
  filled : ∀ g ∈ groups, g ≠ [] ∧ fits g

inductive Greedy : List α → List (List α) → Prop
  | nil : Greedy [] []
  | cons {g rest : List α} {groups : List (List α)} (filled : g ≠ []) (fit : fits g)
      (most : ∀ p, p <+: g ++ rest → fits p → p.length ≤ g.length) (later : Greedy rest groups) : Greedy (g ++ rest) (g::groups)

variable {fits}

theorem greedyPacking {l : List α} {groups : List (List α)} (greedy : Greedy fits l groups) : Packing fits l groups := by
  induction greedy with
  | nil => exact ⟨rfl,fun _ member => by cases member⟩
  | cons filled fit _ _ ih =>
    refine ⟨by rw [List.flatten_cons, ih.whole],fun g member => ?_⟩
    rcases List.mem_cons.mp member with rfl | later
    · exact ⟨filled,fit⟩
    · exact ih.filled g later

theorem greedyAhead (shorter : ∀ {p q : List α}, q <:+ p → fits p → fits q) {others : List (List α)} {l : List α}
    {groups : List (List α)} (filled : ∀ g ∈ others, fits g) (greedy : Greedy fits l groups) (behind : l <:+ others.flatten) :
    groups.length ≤ others.length := by
  induction others generalizing l groups with
  | nil =>
    cases greedy with
    | nil => exact Nat.le_refl 0
    | cons some _ _ _ =>
      have none := List.suffix_nil.mp behind
      exact absurd (List.append_eq_nil_iff.mp none).1 some
  | cons other others ih =>
    have rest := fun g member => filled g (List.mem_cons_of_mem other member)
    obtain ⟨t,cut⟩ := behind
    rw [List.flatten_cons, List.append_eq_append_iff] at cut
    rcases cut with ⟨a,here,below⟩ | ⟨c,-,below⟩
    · cases greedy with
      | nil => exact Nat.zero_le _
      | @cons g left later _ _ most next =>
        have fit : fits a := shorter ⟨t,here.symm⟩ (filled other List.mem_cons_self)
        have most := most a ⟨_,below.symm⟩ fit
        obtain ⟨c,-,end_⟩ : ∃ c, g = a ++ c ∧ others.flatten = c ++ left := by
          rcases List.append_eq_append_iff.mp below with ⟨c,longer,whole⟩ | ⟨c,same,whole⟩
          · have none : c = [] := by
              rw [longer, List.length_append] at most
              exact List.eq_nil_of_length_eq_zero (by omega)
            subst none
            exact ⟨[],by simpa using longer.symm,by simpa using whole.symm⟩
          · exact ⟨c,same,whole⟩
        exact Nat.succ_le_succ (ih rest next ⟨c,end_.symm⟩)
    · exact Nat.le_succ_of_le (ih rest greedy ⟨c,below.symm⟩)

theorem greedyFewest (shorter : ∀ {p q : List α}, q <:+ p → fits p → fits q) {l : List α} {groups others : List (List α)}
    (greedy : Greedy fits l groups) (other : Packing fits l others) : groups.length ≤ others.length :=
  greedyAhead shorter (fun g member => (other.filled g member).2) greedy (other.whole ▸ List.suffix_refl _)

end OpenPulse.Packings
