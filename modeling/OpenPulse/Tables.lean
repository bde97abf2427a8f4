import Mathlib.Algebra.Ring.Nat
import Mathlib.Data.Finmap

/-! Hash tables as association lists without duplicate keys. `retain` is the
bulk filter that may also rewrite the values it keeps. -/
namespace OpenPulse.Tables

abbrev Table (K V : Type) := AList (fun _ : K => V)

variable {K V : Type}

/-- A hash map hands out its values in an order of its own. -/
structure ValueOrder (K V : Type) where
  values : Table K V → List V
  perm : ∀ t, (values t).Perm (t.entries.map (fun row => row.2))

def newestFirst : ValueOrder K V := ⟨fun t => t.entries.map (fun row => row.2),fun _ => .refl _⟩

def rows (keep : K → V → Option V) (es : List (Sigma fun _ : K => V)) : List (Sigma fun _ : K => V) :=
  es.filterMap (fun e => (keep e.1 e.2).map (Sigma.mk e.1))

theorem rowsKeys (keep : K → V → Option V) (es : List (Sigma fun _ : K => V)) :
    (rows keep es).keys.Sublist es.keys := by
  induction es with
  | nil => simp [rows]
  | cons e es ih =>
    cases kept : keep e.1 e.2 with
    | none => simpa [rows, kept] using ih.cons e.1
    | some v => simpa [rows, kept] using ih.cons_cons e.1

def retain (keep : K → V → Option V) (t : Table K V) : Table K V :=
  ⟨rows keep t.entries,List.Nodup.sublist (rowsKeys keep t.entries) t.nodupKeys⟩

def size (t : Table K V) : Nat := t.entries.length

theorem sizeKeys (t : Table K V) : size t = t.keys.length := by
  rw [AList.keys, List.keys, List.length_map, size]

theorem sizeRetain (keep : K → V → Option V) (t : Table K V) : size (retain keep t) ≤ size t :=
  List.length_filterMap_le _ _

theorem retainTwice {keep : K → V → Option V} (settled : ∀ k v w, keep k v = some w → keep k w = some w) (t : Table K V) :
    retain keep (retain keep t) = retain keep t := by
  apply AList.ext
  simp only [retain, rows, List.filterMap_filterMap]
  congr 1
  funext row
  cases kept : keep row.1 row.2 with
  | none => rfl
  | some w => simp [settled _ _ _ kept]

@[simp] theorem sizeEmpty : size (∅ : Table K V) = 0 := rfl

def weight (w : V → Nat) (t : Table K V) : Nat := (t.entries.map (fun e => w e.2)).sum

@[simp] theorem weightEmpty (w : V → Nat) : weight w (∅ : Table K V) = 0 := rfl

variable [DecidableEq K]

theorem rowsLookup (keep : K → V → Option V) {es : List (Sigma fun _ : K => V)} (nodup : es.NodupKeys) (k : K) :
    List.dlookup k (rows keep es) = (List.dlookup k es).bind (keep k) := by
  induction es with
  | nil => rfl
  | cons e es ih =>
    obtain ⟨a,v⟩ := e
    have ih := ih (List.nodupKeys_cons.mp nodup).2
    have fresh := (List.nodupKeys_cons.mp nodup).1
    by_cases same : k = a
    · subst same
      have gone : List.dlookup k es = none := List.dlookup_eq_none.mpr fresh
      cases kept : keep k v with
      | none => simpa [rows, kept, gone] using ih
      | some w => simp [rows, kept]
    · have skip : ∀ w rest, List.dlookup k (⟨a,w⟩::rest : List (Sigma fun _ : K => V)) = List.dlookup k rest :=
        fun w rest => List.dlookup_cons_ne rest ⟨a,w⟩ same
      cases kept : keep a v with
      | none => simpa [rows, kept, skip] using ih
      | some w => simpa [rows, kept, skip] using ih

@[simp] theorem lookupRetain (keep : K → V → Option V) (t : Table K V) (k : K) :
    (retain keep t).lookup k = (t.lookup k).bind (keep k) := rowsLookup keep t.nodupKeys k

def touch (lru : List K) (k : K) : List K := lru.filter (fun l => l ≠ k) ++ [k]

def evictOver (capacity : Nat) : Table K V → List K → Table K V × List K
  | t, [] => (t, [])
  | t, oldest::lru => if capacity < size t then evictOver capacity (t.erase oldest) lru else (t, oldest::lru)

theorem sizeInsert (t : Table K V) (k : K) (v : V) (absent : t.lookup k = none) :
    size (t.insert k v) = size t + 1 := by
  have fresh : k ∉ t := AList.lookup_eq_none.mp absent
  simp only [size, AList.entries_insert_of_notMem fresh, List.length_cons]

theorem sizeKnown {t : Table K V} {k : K} {v : V} (known : (t.lookup k).isSome) : size (t.insert k v) = size t := by
  have here : k ∈ t.keys := AList.mem_keys.mp (AList.lookup_isSome.mp known)
  have some := List.length_pos_of_mem here
  rw [sizeKeys, sizeKeys, AList.keys_insert, List.length_cons, List.length_erase_of_mem here]
  omega

theorem lookupInsert (t : Table K V) (k l : K) (v : V) :
    (t.insert k v).lookup l = if l = k then some v else t.lookup l := by
  by_cases same : l = k
  · subst same
    simp
  · simp [same, AList.lookup_insert_ne same]

theorem lookupErase (t : Table K V) (k l : K) :
    (t.erase k).lookup l = if l = k then none else t.lookup l := by
  by_cases same : l = k
  · subst same
    simp
  · simp [same, AList.lookup_erase_ne same]

theorem weightErase (w : V → Nat) (t : Table K V) (k : K) :
    weight w (t.erase k) + (t.lookup k).elim 0 w = weight w t := by
  cases found : t.lookup k with
  | none =>
    have absent : k ∉ t.keys := fun inside => AList.lookup_eq_none.mp found (AList.mem_keys.mpr inside)
    simp [weight, AList.erase, List.kerase_of_notMem_keys absent]
  | some v =>
    have here : k ∈ t.entries.keys := AList.mem_keys.mp (AList.lookup_isSome.mp (by simp [found]))
    obtain ⟨v',before,after,fresh,split,rest⟩ := List.exists_of_kerase here
    have same : t.lookup k = some v' := by
      rw [AList.lookup, split, List.dlookup_append, List.dlookup_eq_none.mpr fresh]
      simp
    cases same.symm.trans found
    simp only [weight, AList.erase, rest, Option.elim_some]
    simp only [split, List.map_append, List.map_cons, List.sum_append, List.sum_cons]
    omega

theorem weightInsert (w : V → Nat) (t : Table K V) (k : K) (v : V) :
    weight w (t.insert k v) + (t.lookup k).elim 0 w = weight w t + w v := by
  rw [← weightErase w t k]
  simp only [weight, AList.insert, AList.erase, List.kinsert, List.map_cons, List.sum_cons]
  omega

end OpenPulse.Tables
