import OpenPulse.Tables

/-! Sums over the rows of a table, and what they are after an insertion, an erasure or the removal of
many rows at once. -/
namespace OpenPulse.Tables

variable {K V : Type} {f : K → V → Nat} {t : Table K V}

def total (f : K → V → Nat) (t : Table K V) : Nat := (t.entries.map fun e => f e.1 e.2).sum

def keepUnless (drop : K → Bool) (k : K) (v : V) : Option V := if drop k then none else some v

theorem totalDropped (f : K → V → Nat) (drop : K → Bool) (t : Table K V) :
    total f (retain (keepUnless drop) t) + total (fun k v => if drop k then f k v else 0) t = total f t := by
  change ((rows (keepUnless drop) t.entries).map fun e => f e.1 e.2).sum + (t.entries.map fun e => if drop e.1 then f e.1 e.2 else 0).sum =
    (t.entries.map fun e => f e.1 e.2).sum
  induction t.entries with
  | nil => simp [rows]
  | cons e es ih =>
    cases gone : drop e.1 with
    | true =>
      simp only [rows, keepUnless, List.filterMap_cons, gone, if_true, Option.map_none, List.map_cons, List.sum_cons] at ih ⊢
      omega
    | false =>
      simp only [rows, keepUnless, List.filterMap_cons, gone, Bool.false_eq_true, if_false, Option.map_some, List.map_cons,
        List.sum_cons] at ih ⊢
      omega

variable [DecidableEq K]

theorem totalErase (f : K → V → Nat) (t : Table K V) (k : K) : total f (t.erase k) + (t.lookup k).elim 0 (f k) = total f t := by
  cases found : t.lookup k with
  | none =>
    have absent : k ∉ t.keys := fun inside => AList.lookup_eq_none.mp found (AList.mem_keys.mpr inside)
    simp [total, AList.erase, List.kerase_of_notMem_keys absent]
  | some v =>
    have here : k ∈ t.entries.keys := AList.mem_keys.mp (AList.lookup_isSome.mp (by simp [found]))
    obtain ⟨v',before,after,fresh,split,rest⟩ := List.exists_of_kerase here
    have same : t.lookup k = some v' := by
      rw [AList.lookup, split, List.dlookup_append, List.dlookup_eq_none.mpr fresh]
      simp
    cases same.symm.trans found
    simp only [total, AList.erase, rest, Option.elim_some]
    simp only [split, List.map_append, List.map_cons, List.sum_append, List.sum_cons]
    omega

theorem totalInsert (f : K → V → Nat) (t : Table K V) (k : K) (v : V) :
    total f (t.insert k v) + (t.lookup k).elim 0 (f k) = total f t + f k v := by
  rw [← totalErase f t k]
  simp only [total, AList.insert, AList.erase, List.kinsert, List.map_cons, List.sum_cons]
  omega

theorem totalKeys (f : K → V → Nat) {ks : List K} (different : ks.Nodup) (t : Table K V) :
    (ks.map fun k => (t.lookup k).elim 0 (f k)).sum ≤ total f t := by
  induction ks generalizing t with
  | nil => simp
  | cons k ks ih =>
    obtain ⟨fresh,rest⟩ := List.nodup_cons.mp different
    have others : (ks.map fun l => ((t.erase k).lookup l).elim 0 (f l)) = ks.map fun l => (t.lookup l).elim 0 (f l) := by
      refine List.map_congr_left fun l member => ?_
      have apart : l ≠ k := by
        rintro rfl
        exact fresh member
      rw [AList.lookup_erase_ne apart]
    have later := ih rest (t.erase k)
    rw [others] at later
    have whole := totalErase f t k
    simp only [List.map_cons, List.sum_cons]
    omega

end OpenPulse.Tables
