import Mathlib.Data.List.Basic

/-! Buffers overwritten in place by patches, one after the other. A cell holds
what the last patch over it wrote, and its old value when there is none. -/
namespace OpenPulse.Patches

structure Patch (α : Type) where
  start : Nat
  data : List α
  deriving DecidableEq, Repr

variable {α : Type}

def Patch.stop (p : Patch α) : Nat := p.start + p.data.length

def Patch.covers (p : Patch α) (i : Nat) : Prop := p.start ≤ i ∧ i < p.stop

instance (p : Patch α) (i : Nat) : Decidable (p.covers i) := inferInstanceAs (Decidable (_ ∧ _))

def overwrite (buffer : List α) (p : Patch α) : List α := buffer.take p.start ++ p.data ++ buffer.drop p.stop

def overwriteAll (buffer : List α) (ps : List (Patch α)) : List α := ps.foldl overwrite buffer

def Within (room : Nat) (ps : List (Patch α)) : Prop := ∀ p ∈ ps, p.stop ≤ room

instance (room : Nat) (ps : List (Patch α)) : Decidable (Within room ps) := inferInstanceAs (Decidable (∀ p ∈ ps, _))

def lastWrite : List (Patch α) → Nat → Option α
  | [], _ => none
  | p::ps, i => (lastWrite ps i).or (if p.covers i then p.data[i - p.start]? else none)

@[simp] theorem overwriteAllNil (buffer : List α) : overwriteAll buffer [] = buffer := rfl

@[simp] theorem overwriteAllCons (buffer : List α) (p : Patch α) (ps : List (Patch α)) :
    overwriteAll buffer (p::ps) = overwriteAll (overwrite buffer p) ps := rfl

theorem withinCons {room : Nat} {p : Patch α} {ps : List (Patch α)} :
    Within room (p::ps) ↔ p.stop ≤ room ∧ Within room ps := List.forall_mem_cons

theorem overwriteLength {buffer : List α} {p : Patch α} (inside : p.stop ≤ buffer.length) :
    (overwrite buffer p).length = buffer.length := by
  unfold Patch.stop at inside
  simp only [overwrite, Patch.stop, List.length_append, List.length_take, List.length_drop]
  omega

theorem overwriteGet {buffer : List α} {p : Patch α} (inside : p.stop ≤ buffer.length) (i : Nat) :
    (overwrite buffer p)[i]? = if p.covers i then p.data[i - p.start]? else buffer[i]? := by
  have front : (buffer.take p.start).length = p.start := by
    unfold Patch.stop at inside
    rw [List.length_take]
    omega
  rw [overwrite, List.append_assoc]
  by_cases before : i < p.start
  · rw [if_neg (fun covered => absurd covered.1 (by omega)), List.getElem?_append_left (by omega),
      List.getElem?_take_of_lt before]
  · rw [List.getElem?_append_right (by omega), front]
    by_cases within : i < p.stop
    · rw [if_pos ⟨by omega,within⟩, List.getElem?_append_left (by unfold Patch.stop at within; omega)]
    · rw [if_neg (fun covered => within covered.2)]
      unfold Patch.stop at within ⊢
      rw [List.getElem?_append_right (by omega), List.getElem?_drop]
      congr 1
      omega

theorem overwriteAllLength {buffer : List α} {ps : List (Patch α)} (inside : Within buffer.length ps) :
    (overwriteAll buffer ps).length = buffer.length := by
  induction ps generalizing buffer with
  | nil => rfl
  | cons p ps ih =>
    obtain ⟨first,rest⟩ := withinCons.mp inside
    have length := overwriteLength first
    rw [overwriteAllCons, ih (by rwa [length]), length]

theorem overwriteAllGet {buffer : List α} {ps : List (Patch α)} (inside : Within buffer.length ps) (i : Nat) :
    (overwriteAll buffer ps)[i]? = (lastWrite ps i).or buffer[i]? := by
  induction ps generalizing buffer with
  | nil => rfl
  | cons p ps ih =>
    obtain ⟨first,rest⟩ := withinCons.mp inside
    rw [overwriteAllCons, ih (by rwa [overwriteLength first]), overwriteGet first, lastWrite, Option.or_assoc]
    congr 1
    by_cases covered : p.covers i
    · have bound : i - p.start < p.data.length := by
        obtain ⟨low,high⟩ := covered
        unfold Patch.stop at high
        omega
      simp [covered, List.getElem?_eq_getElem bound]
    · simp [covered]

theorem overwriteAllSame {buffer : List α} {ps : List (Patch α)} (inside : Within buffer.length ps) :
    overwriteAll buffer ps = buffer ↔ ∀ i b, lastWrite ps i = some b → buffer[i]? = some b := by
  constructor
  · intro same i b written
    rw [← same, overwriteAllGet inside, written, Option.some_or]
  · intro held
    refine List.ext_getElem? (fun i => ?_)
    rw [overwriteAllGet inside]
    cases written : lastWrite ps i with
    | none => rfl
    | some b => rw [Option.some_or, held i b written]

theorem lastWriteCut {source : List α} {ps : List (Patch α)}
    (cut : ∀ p ∈ ps, p.data = (source.drop p.start).take p.data.length) (i : Nat) :
    lastWrite ps i = if ∃ p ∈ ps, p.covers i then source[i]? else none := by
  induction ps with
  | nil => simp [lastWrite]
  | cons p ps ih =>
    rw [lastWrite, ih (fun q member => cut q (List.mem_cons_of_mem p member))]
    have own : p.covers i → p.data[i - p.start]? = source[i]? := by
      intro ⟨low,high⟩
      unfold Patch.stop at high
      rw [cut p List.mem_cons_self, List.getElem?_take_of_lt (by omega), List.getElem?_drop, Nat.add_sub_cancel' low]
    by_cases later : ∃ q ∈ ps, q.covers i
    · by_cases first : p.covers i
      · rw [if_pos later, if_pos first, own first, if_pos ⟨p,List.mem_cons_self,first⟩, Option.or_self]
      · obtain ⟨q,member,covers⟩ := later
        rw [if_pos ⟨q,member,covers⟩, if_neg first, if_pos ⟨q,List.mem_cons_of_mem p member,covers⟩, Option.or_none]
    · by_cases first : p.covers i
      · rw [if_neg later, if_pos first, own first, if_pos ⟨p,List.mem_cons_self,first⟩, Option.none_or]
      · have none : ¬ ∃ q ∈ p::ps, q.covers i := by
          rintro ⟨q,member,covers⟩
          rcases List.mem_cons.mp member with rfl | member
          · exact first covers
          · exact later ⟨q,member,covers⟩
        rw [if_neg later, if_neg first, if_neg none, Option.none_or]

def placeAll (buffer : List α) (writes : List (Nat × α)) : List α := writes.foldl (fun buffer w => buffer.set w.1 w.2) buffer

@[simp] theorem placeAllNil (buffer : List α) : placeAll buffer [] = buffer := rfl

@[simp] theorem placeAllCons (buffer : List α) (w : Nat × α) (writes : List (Nat × α)) :
    placeAll buffer (w::writes) = placeAll (buffer.set w.1 w.2) writes := rfl

@[simp] theorem placeAllLength (buffer : List α) (writes : List (Nat × α)) : (placeAll buffer writes).length = buffer.length := by
  induction writes generalizing buffer with
  | nil => rfl
  | cons w writes ih => rw [placeAllCons, ih, List.length_set]

theorem placeAllOther (buffer : List α) {writes : List (Nat × α)} {i : Nat} (apart : i ∉ writes.map (·.1)) :
    (placeAll buffer writes)[i]? = buffer[i]? := by
  induction writes generalizing buffer with
  | nil => rfl
  | cons w writes ih =>
    obtain ⟨other,rest⟩ := not_or.mp (List.mem_cons.not.mp apart)
    rw [placeAllCons, ih _ rest, List.getElem?_set_ne (Ne.symm other)]

theorem placeAllGet {buffer : List α} {writes : List (Nat × α)} (once : (writes.map (·.1)).Nodup) {i : Nat} {a : α}
    (member : (i,a) ∈ writes) (inside : i < buffer.length) : (placeAll buffer writes)[i]? = some a := by
  induction writes generalizing buffer with
  | nil => cases member
  | cons w writes ih =>
    obtain ⟨apart,once⟩ := List.nodup_cons.mp once
    rw [placeAllCons]
    rcases List.mem_cons.mp member with rfl | member
    · rw [placeAllOther _ apart, List.getElem?_set_self inside]
    · exact ih once member (by rwa [List.length_set])

theorem placeAllOrder {buffer values : List α} {order : List Nat} (once : order.Nodup) (same : order.length = values.length)
    (inside : ∀ p ∈ order, p < buffer.length) {i : Nat} (bound : i < order.length) (p : Nat) (d : α) :
    (placeAll buffer (order.zip values)).getD (order.getD i p) d = values.getD i d := by
  have positions : (order.zip values).map (·.1) = order := List.map_fst_zip (Nat.le_of_eq same)
  have bound' : i < values.length := by omega
  have member : (order[i],values[i]) ∈ order.zip values :=
    List.mem_iff_getElem.mpr ⟨i,by rw [List.length_zip]; omega,List.getElem_zip⟩
  have written := placeAllGet (positions.symm ▸ once) member (inside _ (List.getElem_mem bound))
  simp only [List.getD_eq_getElem?_getD, List.getElem?_eq_getElem bound, Option.getD_some, written, List.getElem?_eq_getElem bound']

end OpenPulse.Patches
