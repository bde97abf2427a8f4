import Mathlib.Data.List.Induction

/-! Runs of a deterministic step function over a list of events. The start
state is not part of `reached`: a run is judged by the states it moves into.
`EveryStep` speaks about the state before a step together with its event. -/
namespace OpenPulse.Runs

variable {S E : Type}

def run (step : S → E → S) (s : S) (es : List E) : S := es.foldl step s

def reached (step : S → E → S) : S → List E → List S
  | _, [] => []
  | s, e::es => step s e :: reached step (step s e) es

def EveryStep (step : S → E → S) (P : S → E → Prop) : S → List E → Prop
  | _, [] => True
  | s, e::es => P s e ∧ EveryStep step P (step s e) es

instance decidableEveryStep {step : S → E → S} {P : S → E → Prop} [∀ s e, Decidable (P s e)] :
    ∀ s es, Decidable (EveryStep step P s es)
  | _, [] => isTrue trivial
  | s, e::es =>
    have : Decidable (EveryStep step P (step s e) es) := decidableEveryStep (step s e) es
    inferInstanceAs (Decidable (P s e ∧ EveryStep step P (step s e) es))

@[simp] theorem runNil (step : S → E → S) (s : S) : run step s [] = s := rfl

@[simp] theorem runCons (step : S → E → S) (s : S) (e : E) (es : List E) :
    run step s (e::es) = run step (step s e) es := rfl

theorem runAppend (step : S → E → S) (s : S) (xs ys : List E) :
    run step s (xs ++ ys) = run step (run step s xs) ys := List.foldl_append

theorem everyStepAppend {step : S → E → S} {P : S → E → Prop} {s : S} {xs ys : List E} :
    EveryStep step P s (xs ++ ys) ↔ EveryStep step P s xs ∧ EveryStep step P (run step s xs) ys := by
  induction xs generalizing s with
  | nil => simp [EveryStep]
  | cons e xs ih => simp only [List.cons_append, EveryStep, runCons, ih, and_assoc]

theorem everyStepBoth {step : S → E → S} {P Q : S → E → Prop} {s : S} {es : List E} (left : EveryStep step P s es)
    (right : EveryStep step Q s es) : EveryStep step (fun s e => P s e ∧ Q s e) s es := by
  induction es generalizing s with
  | nil => trivial
  | cons e es ih => exact ⟨⟨left.1,right.1⟩,ih left.2 right.2⟩

/- A step that keeps `I` whenever the event is admitted keeps it along every
run of admitted events. The second conclusion lets an invariant strengthen a
per-step property. -/
theorem everyStepInvariant {step : S → E → S} {I : S → Prop} {P Q : S → E → Prop}
    (keeps : ∀ s e, I s → P s e → I (step s e)) (gives : ∀ s e, I s → P s e → Q s e)
    {s : S} {es : List E} (start : I s) (admitted : EveryStep step P s es) :
    I (run step s es) ∧ EveryStep step Q s es := by
  induction es generalizing s with
  | nil => exact ⟨start,trivial⟩
  | cons e es ih =>
    obtain ⟨first,rest⟩ := admitted
    obtain ⟨last,tail⟩ := ih (keeps s e start first) rest
    exact ⟨last,gives s e start first,tail⟩

theorem reachedInvariant {step : S → E → S} {I : S → Prop} {P : S → E → Prop} (keeps : ∀ s e, I s → P s e → I (step s e))
    {s : S} {es : List E} (start : I s) (admitted : EveryStep step P s es) : ∀ t ∈ reached step s es, I t := by
  induction es generalizing s with
  | nil => simp [reached]
  | cons e es ih =>
    have first := keeps s e start admitted.1
    intro t member
    rcases List.mem_cons.mp member with rfl | later
    · exact first
    · exact ih first admitted.2 t later

theorem runInvariant {step : S → E → S} {I : S → Prop}
    (keeps : ∀ s e, I s → I (step s e)) {s : S} (start : I s) (es : List E) : I (run step s es) := by
  induction es generalizing s with
  | nil => exact start
  | cons e es ih => exact ih (keeps s e start)

theorem everyStepAlways {step : S → E → S} {I : S → Prop} {Q : S → E → Prop} (keeps : ∀ s e, I s → I (step s e))
    (gives : ∀ s e, I s → Q s e) {s : S} (start : I s) (es : List E) : EveryStep step Q s es := by
  induction es generalizing s with
  | nil => trivial
  | cons e es ih => exact ⟨gives s e start,ih (keeps s e start)⟩

theorem everyStepIff {step : S → E → S} {I : S → Prop} {P Q : S → E → Prop} (keeps : ∀ s e, I s → I (step s e))
    (same : ∀ s e, I s → (P s e ↔ Q s e)) {s : S} (start : I s) (es : List E) :
    EveryStep step P s es ↔ EveryStep step Q s es := by
  induction es generalizing s with
  | nil => exact Iff.rfl
  | cons e es ih => exact and_congr (same s e start) (ih (keeps s e start))

/- The exact form: when, inside the invariant `I`, the property `J` survives a
step exactly for the events `P` admits, it holds in every state of a run
exactly when every step of the run is admitted. `A` is what the run's events are
known to be beforehand. -/
theorem reachedIffAmong {step : S → E → S} {I J : S → Prop} {P : S → E → Prop} {A : E → Prop}
    (keeps : ∀ s e, I s → A e → I (step s e))
    (exact : ∀ s e, I s → J s → A e → (J (step s e) ↔ P s e))
    {s : S} {es : List E} (inside : I s) (start : J s) (known : ∀ e ∈ es, A e) :
    (∀ t ∈ reached step s es, J t) ↔ EveryStep step P s es := by
  induction es generalizing s with
  | nil => simp [reached, EveryStep]
  | cons e es ih =>
    have admits : A e := known e (by simp)
    have next := exact s e inside start admits
    have rest : ∀ e ∈ es, A e := fun x member => known x (by simp [member])
    constructor
    · intro all
      have first : J (step s e) := all (step s e) (by simp [reached])
      refine ⟨next.mp first,(ih (keeps s e inside admits) first rest).mp ?_⟩
      intro t member
      exact all t (by simp [reached, member])
    · intro admitted t member
      have first : J (step s e) := next.mpr admitted.1
      rcases List.mem_cons.mp member with rfl | later
      · exact first
      · exact (ih (keeps s e inside admits) first rest).mpr admitted.2 t later

theorem reachedIff {step : S → E → S} {I J : S → Prop} {P : S → E → Prop}
    (keeps : ∀ s e, I s → I (step s e))
    (exact : ∀ s e, I s → J s → (J (step s e) ↔ P s e))
    {s : S} {es : List E} (inside : I s) (start : J s) :
    (∀ t ∈ reached step s es, J t) ↔ EveryStep step P s es :=
  reachedIffAmong (A := fun _ => True) (fun s e inside _ => keeps s e inside) (fun s e inside start _ => exact s e inside start) inside start fun _ _ => trivial

theorem everyStepEvents {step : S → E → S} {P : E → Prop} {s : S} {es : List E} :
    EveryStep step (fun _ e => P e) s es ↔ ∀ e ∈ es, P e := by
  induction es generalizing s with
  | nil => simp [EveryStep]
  | cons e es ih => simp only [EveryStep, ih, List.forall_mem_cons]

theorem firstMoment {P : List E → Prop} {es : List E} (empty : ¬ P []) (whole : P es) :
    ∃ before last after, es = before ++ last::after ∧ ¬ P before ∧ P (before ++ [last]) := by
  induction es using List.reverseRecOn with
  | nil => exact absurd whole empty
  | append_singleton es e ih =>
    by_cases earlier : P es
    · obtain ⟨before,last,after,split,no,yes⟩ := ih earlier
      exact ⟨before,last,after ++ [e],by simp [split],no,yes⟩
    · exact ⟨es,e,[],rfl,earlier,whole⟩

variable {A : Type}

def outputs (call : S → E → List A × S) : S → List E → List A
  | _, [] => []
  | s, e::es => (call s e).1 ++ outputs call (call s e).2 es

theorem outputsAppend (call : S → E → List A × S) (s : S) (xs ys : List E) :
    outputs call s (xs ++ ys) = outputs call s xs ++ outputs call (run (fun s e => (call s e).2) s xs) ys := by
  induction xs generalizing s with
  | nil => rfl
  | cons e xs ih => simp only [List.cons_append, outputs, runCons, ih, List.append_assoc]

def EndsOnce (final : A → Bool) (actions : List A) : Prop :=
  ∀ before a after, actions = before ++ a::after → final a = true → after = []

theorem endsOnceQuiet {final : A → Bool} {xs : List A} (quiet : ∀ a ∈ xs, final a = false) (ys : List A) :
    EndsOnce final (xs ++ ys) ↔ EndsOnce final ys := by
  constructor
  · intro once before a after split ends
    exact once (xs ++ before) a after (by simp [split]) ends
  · intro once before a after split ends
    rcases List.append_eq_append_iff.mp split with ⟨more,first,rest⟩ | ⟨more,first,rest⟩
    · exact once more a after rest ends
    · cases more with
      | nil => exact once [] a after (by simpa using rest.symm) ends
      | cons b more =>
        obtain ⟨rfl,-⟩ := List.cons.inj rest
        have member : a ∈ xs := by simp [first]
        rw [quiet a member] at ends
        cases ends

theorem endsOnceFinal {final : A → Bool} {xs : List A} {a : A} (quiet : ∀ b ∈ xs, final b = false) (ends : final a = true)
    (ys : List A) : EndsOnce final ((xs ++ [a]) ++ ys) ↔ ys = [] := by
  rw [List.append_assoc, endsOnceQuiet quiet]
  constructor
  · intro once
    exact once [] a ys rfl ends
  · rintro rfl before b after split -
    have length := congrArg List.length split
    simp only [List.length_append, List.length_cons, List.length_nil] at length
    exact List.eq_nil_of_length_eq_zero (by omega)

def Closes (closed : S → Bool) (final : A → Bool) (out : List A × S) : Prop :=
  (∀ a ∈ out.1, final a = false) ∧ closed out.2 = false ∨
    ∃ before a, out.1 = before ++ [a] ∧ (∀ b ∈ before, final b = false) ∧ final a = true ∧ closed out.2 = true

theorem outputsClosed {call : S → E → List A × S} {closed : S → Bool}
    (stays : ∀ s e, closed s = true → closed (call s e).2 = true) {s : S} {es : List E} (shut : closed s = true) :
    outputs call s es = [] ↔ EveryStep (fun s e => (call s e).2) (fun s e => closed s = true → (call s e).1 = []) s es := by
  induction es generalizing s with
  | nil => simp [outputs, EveryStep]
  | cons e es ih => simp [outputs, EveryStep, shut, ih (stays s e shut)]

/- The exact form: a machine that closes with its final action ends once exactly
when it says nothing in a closed state. -/
theorem outputsEndOnce {call : S → E → List A × S} {closed : S → Bool} {final : A → Bool}
    (closes : ∀ s e, closed s = false → Closes closed final (call s e))
    (stays : ∀ s e, closed s = true → closed (call s e).2 = true) {s : S} {es : List E} (opened : closed s = false) :
    EndsOnce final (outputs call s es) ↔
      EveryStep (fun s e => (call s e).2) (fun s e => closed s = true → (call s e).1 = []) s es := by
  induction es generalizing s with
  | nil => simp [outputs, EveryStep, EndsOnce]
  | cons e es ih =>
    simp only [outputs, EveryStep, opened, Bool.false_eq_true, false_implies, true_and]
    rcases closes s e opened with ⟨quiet,still⟩ | ⟨before,a,split,quiet,ends,shut⟩
    · rw [endsOnceQuiet quiet, ih still]
    · rw [split, endsOnceFinal quiet ends, outputsClosed stays shut]

end OpenPulse.Runs
