import Mathlib.Algebra.Order.BigOperators.Group.List
import Mathlib.Algebra.Ring.Nat
import OpenPulse.Selects

/-! What a loop that gathers bytes to messages loses to its events. A message weighs the bytes it was
made of, and the loop holds the bytes of the message it is in. -/
namespace OpenPulse.Selects

variable {State Byte Out : Type} {loop : Loop State Byte Out} {good : State → Prop} {held : State → Nat} {weight : Out → Nat}

structure Weighed (loop : Loop State Byte Out) (good : State → Prop) (held : State → Nat) (weight : Out → Nat) : Prop where
  step : ∀ s b, good s → good (loop.step s b).1 ∧ held (loop.step s b).1 + ((loop.step s b).2.map weight).sum ≤ held s + 1
  cancel : ∀ s, good s → good (loop.cancel s) ∧ held (loop.cancel s) = 0
  still : ∀ s, good s → held s = 0 → loop.cancel s = s

def EventsBetween (items : List (List Byte)) (inputs : List (Input Byte)) : Prop :=
  ∀ before after, inputs = before ++ .event::after → ∃ k, bytesOf before = (items.take k).flatten

theorem Weighed.run (weighed : Weighed loop good held weight) {s : State} (fine : good s) (inputs : List (Input Byte)) :
    good (run loop s inputs).1 ∧
      held (run loop s inputs).1 + ((run loop s inputs).2.map weight).sum ≤ held s + (bytesOf inputs).length := by
  induction inputs generalizing s with
  | nil => exact ⟨fine,Nat.le_refl _⟩
  | cons input rest ih =>
    cases input with
    | byte b =>
      obtain ⟨onward,stepped⟩ := weighed.step s b fine
      obtain ⟨ends,later⟩ := ih onward
      refine ⟨ends,?_⟩
      simp only [Selects.run, bytesOf, List.map_append, List.sum_append, List.length_cons]
      omega
    | event =>
      obtain ⟨onward,dropped⟩ := weighed.cancel s fine
      obtain ⟨ends,later⟩ := ih onward
      refine ⟨ends,?_⟩
      simp only [Selects.run, bytesOf]
      omega

theorem Weighed.feed (weighed : Weighed loop good held weight) {s : State} (fine : good s) (raw : List Byte) :
    good (feed loop s raw).1 ∧ held (feed loop s raw).1 + ((feed loop s raw).2.map weight).sum ≤ held s + raw.length := by
  have ran := weighed.run fine (raw.map .byte)
  rwa [runBytes, bytesOfBytes] at ran

theorem Weighed.undisturbed (weighed : Weighed loop good held weight) {s : State} (fine : good s) {inputs : List (Input Byte)}
    (full : held s + (bytesOf inputs).length ≤ held (Selects.run loop s inputs).1 + ((Selects.run loop s inputs).2.map weight).sum) :
    Undisturbed loop s inputs := by
  induction inputs generalizing s with
  | nil => trivial
  | cons input rest ih =>
    cases input with
    | byte b =>
      obtain ⟨onward,stepped⟩ := weighed.step s b fine
      refine ih onward ?_
      simp only [Selects.run, bytesOf, List.map_append, List.sum_append, List.length_cons] at full
      omega
    | event =>
      obtain ⟨onward,dropped⟩ := weighed.cancel s fine
      have later := (weighed.run onward rest).2
      simp only [Selects.run, bytesOf] at full
      have kept := weighed.still s fine (by omega)
      refine ⟨kept,?_⟩
      rw [kept] at full onward
      exact ih onward full

theorem undisturbedAt {s : State} {before after : List (Input Byte)} (quiet : Undisturbed loop s (before ++ .event::after)) :
    loop.cancel (feed loop s (bytesOf before)).1 = (feed loop s (bytesOf before)).1 := by
  induction before generalizing s with
  | nil => exact quiet.1
  | cons input rest ih =>
    cases input with
    | byte b => exact ih quiet
    | event => exact ih quiet.2

theorem undisturbedOf {s : State} {inputs : List (Input Byte)}
    (quiet : ∀ before after, inputs = before ++ .event::after →
      loop.cancel (feed loop s (bytesOf before)).1 = (feed loop s (bytesOf before)).1) : Undisturbed loop s inputs := by
  induction inputs generalizing s with
  | nil => trivial
  | cons input rest ih =>
    cases input with
    | byte b => exact ih fun before after split => quiet (.byte b::before) after (congrArg (.byte b :: ·) split)
    | event =>
      refine ⟨quiet [] rest rfl,ih fun before after split => ?_⟩
      exact quiet (.event::before) after (congrArg (.event :: ·) split)

theorem cutItems {items : List (List Byte)} {raw rest : List Byte} (whole : items.flatten = raw ++ rest) :
    (∃ k, raw = (items.take k).flatten) ∨
      ∃ k part more, items[k]? = some (part ++ more) ∧ part ≠ [] ∧ raw = (items.take k).flatten ++ part ∧ more ≠ [] ∧
        rest = more ++ (items.drop (k + 1)).flatten := by
  induction items generalizing raw with
  | nil => exact .inl ⟨0,(List.append_eq_nil_iff.mp whole.symm).1⟩
  | cons item items ih =>
    rw [List.flatten_cons, List.append_eq_append_iff] at whole
    rcases whole with ⟨further,begun,ends⟩ | ⟨more,inside,later⟩
    · rcases ih ends with ⟨k,between⟩ | ⟨k,part,more,found,some',begins,short,behind⟩
      · exact .inl ⟨k + 1,by rw [begun, between, List.take_succ_cons, List.flatten_cons]⟩
      · refine .inr ⟨k + 1,part,more,found,some',?_,short,behind⟩
        rw [begun, begins, List.take_succ_cons, List.flatten_cons, List.append_assoc]
    · by_cases first : raw = []
      · exact .inl ⟨0,first⟩
      · by_cases last : more = []
        · exact .inl ⟨1,by simp [inside, last]⟩
        · exact .inr ⟨0,raw,more,by simp [inside],first,by simp,last,by simp [later]⟩

section
variable {s : State} {items : List (List Byte)} {msgs : List Out}

theorem Weighed.holds (weighed : Weighed loop good held weight) (fine : good s) (empty : held s = 0)
    (fed : ∀ k, (Selects.feed loop s (items.take k).flatten).2 = msgs.take k) (weights : msgs.map weight = items.map List.length)
    {k : Nat} {part more : List Byte} (found : items[k]? = some (part ++ more)) (short : more ≠ []) :
    part.length ≤ held (Selects.feed loop s ((items.take k).flatten ++ part)).1 := by
  obtain ⟨inside,item⟩ := List.getElem?_eq_some_iff.mp found
  have same : msgs.length = items.length := by simpa using congrArg List.length weights
  have within : k < msgs.length := by omega
  have weighs : weight msgs[k] = (part ++ more).length := by
    have there := congrArg (fun l => l[k]?) weights
    simpa [List.getElem?_map, found, List.getElem?_eq_getElem within] using there
  have earlier : ((msgs.take k).map weight).sum = ((items.take k).flatten).length := by
    rw [List.length_flatten, List.map_take, List.map_take, weights]
  have next : (items.take (k + 1)).flatten = ((items.take k).flatten ++ part) ++ more := by
    rw [List.take_add_one, found, List.flatten_append]
    simp
  have begun : (Selects.feed loop s ((items.take k).flatten ++ part)).2 =
      msgs.take k ++ (Selects.feed loop (Selects.feed loop s (items.take k).flatten).1 part).2 := by
    rw [feedAppend, fed k]
  have whole := fed (k + 1)
  rw [next, feedAppend, begun, List.take_succ_eq_append_getElem within, List.append_assoc,
    List.append_cancel_left_eq] at whole
  obtain ⟨fine',most⟩ := weighed.feed fine ((items.take k).flatten ++ part)
  have rest := (weighed.feed fine' more).2
  rw [begun, List.map_append, List.sum_append, earlier, List.length_append] at most
  have positive := List.length_pos_of_ne_nil short
  rw [List.length_append] at weighs
  -- Nothing of the item is out before its last byte: it would weigh more than the bytes there were.
  rcases List.append_eq_singleton_iff.mp whole with ⟨_,one⟩ | ⟨one,_⟩
  · rw [one, List.map_singleton, List.sum_singleton, weighs] at rest
    omega
  · rw [one, List.map_singleton, List.sum_singleton, weighs] at most
    omega

theorem Weighed.lostNothingIff (weighed : Weighed loop good held weight) (fine : good s) (empty : held s = 0)
    (fed : ∀ k, (Selects.feed loop s (items.take k).flatten).2 = msgs.take k) (weights : msgs.map weight = items.map List.length)
    {inputs : List (Input Byte)} (sent : bytesOf inputs = items.flatten) :
    (Selects.run loop s inputs).2 = msgs ↔ EventsBetween items inputs := by
  have same : msgs.length = items.length := by simpa using congrArg List.length weights
  constructor
  · intro all before after split
    have quiet : Undisturbed loop s inputs := weighed.undisturbed fine (by
      rw [all, weights, sent, List.length_flatten, empty]
      omega)
    rw [split] at quiet sent
    rw [bytesOfAppend] at sent
    rcases cutItems sent.symm with between | ⟨k,part,more,found,some',begun,short,_⟩
    · exact between
    · have holding := weighed.holds fine empty fed weights found short
      have still := undisturbedAt quiet
      rw [begun] at still
      have dropped := (weighed.cancel _ (weighed.feed fine ((items.take k).flatten ++ part)).1).2
      rw [still] at dropped
      have positive := List.length_pos_of_ne_nil some'
      omega
  · intro between
    have quiet : Undisturbed loop s inputs := undisturbedOf fun before after split => by
      obtain ⟨k,whole⟩ := between before after split
      obtain ⟨fine',most⟩ := weighed.feed fine (bytesOf before)
      refine weighed.still _ fine' ?_
      have out : ((Selects.feed loop s (bytesOf before)).2.map weight).sum = (bytesOf before).length := by
        rw [whole, fed k, List.length_flatten, List.map_take, weights, List.map_take]
      omega
    have all := fed items.length
    rw [List.take_length] at all
    rw [runUndisturbed loop quiet, sent, all, ← same, List.take_length]

end

end OpenPulse.Selects
