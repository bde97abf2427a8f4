import Mathlib.Data.List.Perm.Subperm
import Mathlib.Tactic.ByContra
import OpenPulse.Tables

/-! Bounded tables whose keys queue up by age. The queue of such a table lists
its keys once each, so that storing one more key over the capacity gives up
exactly the key at the front. -/
namespace OpenPulse.Lru
open Tables

variable {K V : Type}

variable [DecidableEq K] {t : Table K V} {lru : List K}

structure Ordered (t : Table K V) (lru : List K) : Prop where
  nodup : lru.Nodup
  member : ∀ k, k ∈ lru ↔ (t.lookup k).isSome

theorem orderedEmpty : Ordered (∅ : Table K V) [] := ⟨List.nodup_nil,by simp⟩

theorem Ordered.perm (ordered : Ordered t lru) : lru.Perm t.keys :=
  (List.perm_ext_iff_of_nodup ordered.nodup t.keys_nodup).mpr fun k => by
    rw [ordered.member, AList.lookup_isSome, AList.mem_keys]

theorem Ordered.length (ordered : Ordered t lru) : lru.length = size t := by
  rw [ordered.perm.length_eq, sizeKeys]

theorem touchMember (lru : List K) (k l : K) : l ∈ touch lru k ↔ l ∈ lru ∨ l = k := by
  by_cases same : l = k <;> simp [touch, same]

theorem touchNodup (nodup : lru.Nodup) (k : K) : (touch lru k).Nodup := by
  rw [touch, List.nodup_append]
  refine ⟨nodup.filter _,List.nodup_singleton k,?_⟩
  rintro a old b here rfl
  have away := (List.mem_filter.mp old).2
  simp [List.mem_singleton.mp here] at away

theorem touchFresh {k : K} (fresh : k ∉ lru) : touch lru k = lru ++ [k] := by
  rw [touch, List.filter_eq_self.mpr]
  intro l member
  simpa using fun same : l = k => fresh (same ▸ member)

theorem Ordered.insert (ordered : Ordered t lru) (k : K) (v : V) : Ordered (t.insert k v) (touch lru k) := by
  refine ⟨touchNodup ordered.nodup k,fun l => ?_⟩
  rw [touchMember, ordered.member, lookupInsert]
  by_cases same : l = k <;> simp [same]

theorem Ordered.overwrite (ordered : Ordered t lru) {k : K} (known : (t.lookup k).isSome) (v : V) : Ordered (t.insert k v) lru := by
  refine ⟨ordered.nodup,fun l => ?_⟩
  rw [ordered.member, lookupInsert]
  by_cases same : l = k
  · subst same
    simp [known]
  · simp [same]

theorem Ordered.touch (ordered : Ordered t lru) {k : K} (known : (t.lookup k).isSome) : Ordered t (Tables.touch lru k) := by
  refine ⟨touchNodup ordered.nodup k,fun l => ?_⟩
  rw [touchMember, ordered.member]
  by_cases same : l = k
  · subst same
    simp [known]
  · simp [same]

theorem Ordered.erase (ordered : Ordered t lru) (k : K) :
    Ordered (t.erase k) (lru.filter (fun l => l ≠ k)) := by
  refine ⟨ordered.nodup.filter _,fun l => ?_⟩
  rw [List.mem_filter, ordered.member, lookupErase]
  by_cases same : l = k <;> simp [same]

theorem Ordered.retain (ordered : Ordered t lru) (keep : K → V → Option V) :
    Ordered (retain keep t) (lru.filter (fun k => ((Tables.retain keep t).lookup k).isSome)) := by
  refine ⟨ordered.nodup.filter _,fun k => ?_⟩
  rw [List.mem_filter, ordered.member]
  refine ⟨And.right,fun kept => ⟨?_,kept⟩⟩
  rw [lookupRetain] at kept
  cases held : t.lookup k with
  | none => simp [held] at kept
  | some v => rfl

theorem evictOverWithin {capacity : Nat} (within : size t ≤ capacity) : evictOver capacity t lru = (t, lru) := by
  cases lru with
  | nil => rfl
  | cons oldest lru => simp [evictOver, Nat.not_lt.mpr within]

theorem evictOverLookup {capacity : Nat} {k : K} {v : V}
    (held : (evictOver capacity t lru).1.lookup k = some v) : t.lookup k = some v := by
  induction lru generalizing t with
  | nil => exact held
  | cons oldest lru ih =>
    unfold evictOver at held
    split at held
    · have before := ih held
      rw [lookupErase] at before
      split at before
      · cases before
      · exact before
    · exact held

theorem evictOverQueue {capacity : Nat} (ordered : Ordered t lru) :
    (evictOver capacity t lru).2 = lru.drop (size t - capacity) ∧
      Ordered (evictOver capacity t lru).1 (evictOver capacity t lru).2 ∧ size (evictOver capacity t lru).1 ≤ capacity := by
  induction lru generalizing t with
  | nil =>
    have empty := ordered.length
    refine ⟨by simp [evictOver],ordered,?_⟩
    simp only [evictOver]
    rw [← empty]
    exact Nat.zero_le _
  | cons oldest lru ih =>
    by_cases full : capacity < size t
    · have apart := (List.nodup_cons.mp ordered.nodup).1
      have rest : Ordered (t.erase oldest) lru := by
        have kept := ordered.erase oldest
        rw [List.filter_cons_of_neg (by simp), List.filter_eq_self.mpr] at kept
        · exact kept
        · intro l member
          simpa using fun same : l = oldest => apart (same ▸ member)
      have fewer : size t - capacity = size (t.erase oldest) - capacity + 1 := by
        have before := ordered.length
        have after := rest.length
        rw [List.length_cons] at before
        omega
      obtain ⟨queue,order,bound⟩ := ih rest
      simp only [evictOver, full, if_true]
      exact ⟨by rw [queue, fewer, List.drop_succ_cons],order,bound⟩
    · simp only [evictOver, full, if_false]
      exact ⟨by rw [Nat.sub_eq_zero_of_le (Nat.not_lt.mp full), List.drop_zero],ordered,Nat.not_lt.mp full⟩

theorem storeKnown {capacity : Nat} {k : K} (v : V) (within : size t ≤ capacity) (known : (t.lookup k).isSome) :
    evictOver capacity (t.insert k v) (touch lru k) = (t.insert k v, touch lru k) := by
  apply evictOverWithin
  rwa [sizeKnown known]

theorem storeRoom {capacity : Nat} {k : K} (v : V) (unknown : t.lookup k = none) (room : size t < capacity) :
    evictOver capacity (t.insert k v) (touch lru k) = (t.insert k v, touch lru k) := by
  apply evictOverWithin
  rw [sizeInsert t k v unknown]
  exact room

theorem storedOrdered {k oldest : K} {rest : List K} (v : V) (ordered : Ordered t (oldest::rest))
    (unknown : t.lookup k = none) : Ordered ((t.insert k v).erase oldest) (rest ++ [k]) := by
  have fresh : k ∉ oldest::rest := by simp [ordered.member, unknown]
  have kept := (ordered.insert k v).erase oldest
  have apart := (List.nodup_cons.mp (touchFresh fresh ▸ touchNodup ordered.nodup k)).1
  rw [touchFresh fresh, List.cons_append, List.filter_cons_of_neg (by simp), List.filter_eq_self.mpr] at kept
  · exact kept
  · intro l member
    simpa using fun same : l = oldest => apart (same ▸ member)

theorem storeFull {k oldest : K} {rest : List K} (v : V) (ordered : Ordered t (oldest::rest))
    (unknown : t.lookup k = none) :
    evictOver (size t) (t.insert k v) (touch (oldest::rest) k) = ((t.insert k v).erase oldest, rest ++ [k]) := by
  have fresh : k ∉ oldest::rest := by simp [ordered.member, unknown]
  have full : size t < size (t.insert k v) := by
    rw [sizeInsert t k v unknown]
    exact Nat.lt_succ_self _
  rw [touchFresh fresh, List.cons_append]
  simp only [evictOver, full, if_true]
  apply evictOverWithin
  rw [← (storedOrdered v ordered unknown).length, ← ordered.length]
  simp

theorem storeHere {capacity : Nat} {k : K} (v : V) (ordered : Ordered t lru) (within : size t ≤ capacity) (room : 0 < capacity) :
    (evictOver capacity (t.insert k v) (touch lru k)).1.lookup k = some v := by
  have here : (t.insert k v).lookup k = some v := by rw [lookupInsert, if_pos rfl]
  cases known : t.lookup k with
  | some old => rw [storeKnown v within (by rw [known]; rfl), here]
  | none =>
    by_cases less : size t < capacity
    · rw [storeRoom v known less, here]
    · have full : size t = capacity := Nat.le_antisymm within (Nat.not_lt.mp less)
      subst full
      cases lru with
      | nil => rw [← ordered.length] at room; cases room
      | cons oldest rest =>
        have apart : k ≠ oldest := by
          rintro rfl
          have queued := (ordered.member k).mp List.mem_cons_self
          rw [known] at queued
          cases queued
        rw [storeFull v ordered known, lookupErase, if_neg apart, here]

def lastTouch : List K → K → Nat
  | [], _ => 0
  | touched::log, k => if touched = k then log.length + 1 else lastTouch log k

def Aged (log lru : List K) : Prop := lru.Pairwise (fun a b => lastTouch log a < lastTouch log b)

variable {log : List K}

theorem lastTouchLe (log : List K) (k : K) : lastTouch log k ≤ log.length := by
  induction log with
  | nil => exact Nat.le_refl _
  | cons touched log ih =>
    rw [lastTouch, List.length_cons]
    split <;> omega

theorem agedEmpty : Aged log ([] : List K) := .nil

theorem Aged.sublist {less : List K} (aged : Aged log lru) (sub : less.Sublist lru) : Aged log less := List.Pairwise.sublist sub aged

theorem Aged.touch (aged : Aged log lru) (k : K) : Aged (k::log) (touch lru k) := by
  have older : ∀ l, l ≠ k → lastTouch (k::log) l = lastTouch log l := fun l other => by rw [lastTouch, if_neg (Ne.symm other)]
  have newest : lastTouch (k::log) k = log.length + 1 := by rw [lastTouch, if_pos rfl]
  refine List.pairwise_append.mpr ⟨?_,List.pairwise_singleton _ k,?_⟩
  · refine List.Pairwise.imp_of_mem ?_ (aged.sublist List.filter_sublist)
    intro a b left right before
    rw [older a (by simpa using (List.mem_filter.mp left).2), older b (by simpa using (List.mem_filter.mp right).2)]
    exact before
  · intro a left b right
    rw [List.mem_singleton.mp right, newest, older a (by simpa using (List.mem_filter.mp left).2)]
    exact Nat.lt_succ_of_le (lastTouchLe log a)

theorem Aged.front {oldest l : K} (aged : Aged log (oldest::lru)) (behind : l ∈ lru) :
    lastTouch log oldest < lastTouch log l := (List.pairwise_cons.mp aged).1 l behind

theorem storeGives {capacity : Nat} {k l : K} {v : V} (ordered : Ordered t lru) (aged : Aged log lru) (within : size t ≤ capacity)
    (held : (t.lookup l).isSome) (other : l ≠ k)
    (gone : (evictOver capacity (t.insert k v) (Tables.touch lru k)).1.lookup l = none) :
    t.lookup k = none ∧ size t = capacity ∧ ∀ m, (t.lookup m).isSome → m ≠ l → lastTouch log l < lastTouch log m := by
  have stays : (t.insert k v).lookup l = t.lookup l := by rw [lookupInsert, if_neg other]
  have queued := (ordered.member l).mpr held
  cases known : t.lookup k with
  | some old =>
    rw [storeKnown v within (by rw [known]; rfl), stays] at gone
    rw [gone] at held
    cases held
  | none =>
    by_cases room : size t < capacity
    · rw [storeRoom v known room, stays] at gone
      rw [gone] at held
      cases held
    · have full : size t = capacity := Nat.le_antisymm within (Nat.not_lt.mp room)
      subst full
      cases lru with
      | nil => cases queued
      | cons oldest rest =>
        rw [storeFull v ordered known, lookupErase] at gone
        have front : l = oldest := by
          by_contra behind
          rw [if_neg behind, stays] at gone
          rw [gone] at held
          cases held
        refine ⟨rfl,rfl,fun m stored apart => ?_⟩
        rw [front] at apart ⊢
        exact aged.front ((List.mem_cons.mp ((ordered.member m).mpr stored)).resolve_left apart)

end OpenPulse.Lru
