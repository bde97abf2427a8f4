import Mathlib.Data.List.Basic

/-! Loops that wait for the next byte of a stream or for an event, whichever comes first.
A read under way when an event comes is dropped with all it has taken out of the stream. -/
namespace OpenPulse.Selects

inductive Input (Byte : Type) where
  | byte (b : Byte)
  | event
  deriving DecidableEq, Repr

structure Loop (State Byte Out : Type) where
  step : State → Byte → State × List Out
  cancel : State → State

variable {State Byte Out : Type}

def feed (loop : Loop State Byte Out) : State → List Byte → State × List Out
  | s, [] => (s,[])
  | s, b::rest =>
    let after := loop.step s b
    let later := feed loop after.1 rest
    (later.1,after.2 ++ later.2)

theorem feedCons (loop : Loop State Byte Out) (s : State) (b : Byte) (rest : List Byte) :
    feed loop s (b::rest) = ((feed loop (loop.step s b).1 rest).1,(loop.step s b).2 ++ (feed loop (loop.step s b).1 rest).2) := rfl

def run (loop : Loop State Byte Out) : State → List (Input Byte) → State × List Out
  | s, [] => (s,[])
  | s, .byte b::rest =>
    let after := loop.step s b
    let later := run loop after.1 rest
    (later.1,after.2 ++ later.2)
  | s, .event::rest => run loop (loop.cancel s) rest

theorem runByte (loop : Loop State Byte Out) (s : State) (b : Byte) (rest : List (Input Byte)) :
    run loop s (Input.byte b::rest) = ((run loop (loop.step s b).1 rest).1,(loop.step s b).2 ++ (run loop (loop.step s b).1 rest).2) := rfl

theorem runEvent (loop : Loop State Byte Out) (s : State) (rest : List (Input Byte)) :
    run loop s (Input.event::rest) = run loop (loop.cancel s) rest := rfl

def bytesOf : List (Input Byte) → List Byte
  | [] => []
  | .byte b::rest => b :: bytesOf rest
  | .event::rest => bytesOf rest

theorem bytesOfByte (b : Byte) (rest : List (Input Byte)) : bytesOf (Input.byte b::rest) = b :: bytesOf rest := rfl

theorem bytesOfEvent (rest : List (Input Byte)) : bytesOf (Input.event::rest) = bytesOf rest := rfl

def Undisturbed (loop : Loop State Byte Out) : State → List (Input Byte) → Prop
  | _, [] => True
  | s, .byte b::rest => Undisturbed loop (loop.step s b).1 rest
  | s, .event::rest => loop.cancel s = s ∧ Undisturbed loop s rest

instance decidableUndisturbed [DecidableEq State] (loop : Loop State Byte Out) :
    (s : State) → (inputs : List (Input Byte)) → Decidable (Undisturbed loop s inputs)
  | _, [] => isTrue trivial
  | s, .byte b::rest => decidableUndisturbed loop (loop.step s b).1 rest
  | s, .event::rest => @instDecidableAnd _ _ (inferInstanceAs (Decidable (loop.cancel s = s))) (decidableUndisturbed loop s rest)

@[simp] theorem bytesOfBytes (raw : List Byte) : bytesOf (raw.map .byte) = raw := by
  induction raw with
  | nil => rfl
  | cons b rest ih => rw [List.map_cons, bytesOfByte, ih]

@[simp] theorem bytesOfAppend (a b : List (Input Byte)) : bytesOf (a ++ b) = bytesOf a ++ bytesOf b := by
  induction a with
  | nil => rfl
  | cons input rest ih =>
    cases input with
    | byte x => rw [List.cons_append, bytesOfByte, bytesOfByte, ih, List.cons_append]
    | event => rw [List.cons_append, bytesOfEvent, bytesOfEvent, ih]

theorem runUndisturbed (loop : Loop State Byte Out) {s : State} {inputs : List (Input Byte)}
    (quiet : Undisturbed loop s inputs) : run loop s inputs = feed loop s (bytesOf inputs) := by
  induction inputs generalizing s with
  | nil => rfl
  | cons input rest ih =>
    cases input with
    | byte b => rw [runByte, bytesOfByte, feedCons, ih quiet]
    | event =>
      obtain ⟨kept,later⟩ := quiet
      rw [runEvent, kept, bytesOfEvent]
      exact ih later

theorem runAppend (loop : Loop State Byte Out) (s : State) (a b : List (Input Byte)) :
    run loop s (a ++ b) = ((run loop (run loop s a).1 b).1,(run loop s a).2 ++ (run loop (run loop s a).1 b).2) := by
  induction a generalizing s with
  | nil => rfl
  | cons input rest ih =>
    cases input with
    | byte x => simp only [List.cons_append, runByte, ih, List.append_assoc]
    | event => rw [List.cons_append, runEvent, runEvent, ih]

theorem runBytes (loop : Loop State Byte Out) (s : State) (raw : List Byte) :
    run loop s (raw.map .byte) = feed loop s raw := by
  induction raw generalizing s with
  | nil => rfl
  | cons b rest ih => rw [List.map_cons, runByte, feedCons, ih]

theorem feedAppend (loop : Loop State Byte Out) (s : State) (a b : List Byte) :
    feed loop s (a ++ b) = ((feed loop (feed loop s a).1 b).1,(feed loop s a).2 ++ (feed loop (feed loop s a).1 b).2) := by
  induction a generalizing s with
  | nil => rfl
  | cons x rest ih => simp only [List.cons_append, feedCons, ih, List.append_assoc]

theorem disturbedShows (loop : Loop State Byte Out) {s : State} {before : List (Input Byte)} {rest : List Byte}
    (quiet : Undisturbed loop s before)
    (shows : (feed loop (loop.cancel (run loop s before).1) rest).2 ≠ (feed loop (run loop s before).1 rest).2) :
    (run loop s (before ++ Input.event::rest.map Input.byte)).2 ≠ (feed loop s (bytesOf before ++ rest)).2 := by
  intro same
  rw [runAppend, feedAppend, ← runUndisturbed loop quiet, runEvent, runBytes] at same
  exact shows (List.append_cancel_left same)

end OpenPulse.Selects
