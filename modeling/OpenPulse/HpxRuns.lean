import Mathlib.Data.List.Induction
import OpenPulse.Hpx

/-! Runs of the reactor. A session's log tells its whole story: the transitions
chain from Idle to the current state, the wire identifier names the place in the
log where the session last left Idle, and the recovery counter counts the
recoveries logged since then. Sessions do not touch each other. -/
namespace OpenPulse.HpxRuns
open Tables Hpx

inductive Edge : HpxState → HpxState → Prop where
  | start : Edge .idle .discovery
  | discovered : Edge .discovery .training
  | trained : Edge .training .activeTransfer
  | relayed {s : HpxState} (routable : s = .training ∨ s = .activeTransfer ∨ s = .recovery) : Edge s .relayActive
  | confirmed : Edge .relayActive .activeTransfer
  | recovered : Edge .recovery .activeTransfer
  | degraded {s : HpxState} (carrying : s = .activeTransfer ∨ s = .relayActive) : Edge s .recovery
  | leaving {s : HpxState} (running : s ≠ .idle ∧ s ≠ .teardown ∧ s ≠ .failed) : Edge s .teardown
  | finished : Edge .teardown .idle
  | broken {s : HpxState} (running : s ≠ .idle ∧ s ≠ .failed) : Edge s .failed

theorem handleEdge {s target : HpxState} {event : HpxEvent} {code : HpxReasonCode} {reason : String}
    (accepted : handle s event = .ok (target,code,reason)) : Edge s target ∧ (event = .startSession ↔ s = .idle) := by
  cases s <;> cases event <;> cases accepted <;>
    exact ⟨by constructor <;> decide,by decide⟩

structure Moved (s : SessionState) (timestampMs : UInt64) (t : HpxTransition) (s' : SessionState) : Prop where
  log : s'.transitions = s.transitions ++ [t]
  source : t.fromState = s.state
  target : t.toState = s'.state
  edge : Edge s.state s'.state
  left : s.state = .idle → s.sessionId = none → s'.sessionId = some (wireId timestampMs s.transitions.length)
  closed : s'.state = .idle → s'.sessionId = none
  carried : s.state ≠ .idle → s'.state ≠ .idle → s'.sessionId = s.sessionId
  cleared : s'.state = .idle → s'.recoveryAttempts = 0
  entered : s'.state = .recovery → s'.recoveryAttempts = saturatingSucc s.recoveryAttempts ∧ s'.recoveryAttempts ≤ 4
  uncounted : s'.state ≠ .idle → s'.state ≠ .recovery → s'.state ≠ .failed → s'.recoveryAttempts = s.recoveryAttempts

theorem edgeIdle {s : HpxState} (edge : Edge s .idle) : s = .teardown := by
  cases edge
  rfl

theorem edgeRecovery {s : HpxState} (edge : Edge s .recovery) : s = .activeTransfer ∨ s = .relayActive := by
  cases edge with
  | degraded carrying => exact carrying

theorem edgeAlive {a b : HpxState} (edge : Edge a b) : a ≠ .failed := by
  cases edge with
  | relayed routable => rcases routable with rfl | rfl | rfl <;> decide
  | degraded carrying => rcases carrying with rfl | rfl <;> decide
  | leaving running => exact running.2.2
  | broken running => exact running.2
  | _ => decide

theorem startedElsewhere {s : SessionState} {event : HpxEvent} (other : event ≠ .startSession) (timestampMs : UInt64) :
    s.started event timestampMs = s.sessionId :=
  if_neg fun both => other both.1

theorem advanceMoved {s : SessionState} {event : HpxEvent} {timestampMs : UInt64} {target : HpxState} {code : HpxReasonCode}
    {reason : String} (accepted : handle s.state event = .ok (target,code,reason)) :
    Moved s timestampMs (s.advance event timestampMs target code reason).1
      (s.advance event timestampMs target code reason).2 := by
  obtain ⟨edge,starts⟩ := handleEdge accepted
  have left : s.state = .idle → s.sessionId = none →
      s.started event timestampMs = some (wireId timestampMs s.transitions.length) := by
    intro idle unnamed
    simp [SessionState.started, starts.mpr idle, unnamed]
  have carried : s.state ≠ .idle → s.started event timestampMs = s.sessionId :=
    fun away => startedElsewhere (fun start => away (starts.mp start)) timestampMs
  unfold SessionState.advance
  by_cases entered : target = .recovery ∧ s.state ≠ .recovery
  · obtain ⟨into,apart⟩ := entered
    subst into
    have running : s.state ≠ .idle ∧ s.state ≠ .failed := by
      rcases edgeRecovery edge with carrying | carrying <;> simp [carrying]
    simp only [ne_eq, apart, not_false_eq_true, and_self, if_true, true_and]
    by_cases exhausted : maxRecoveryAttempts < saturatingSucc s.recoveryAttempts
    · rw [if_pos exhausted]
      exact ⟨rfl,rfl,rfl,.broken running,left,nofun,fun away _ => carried away,nofun,nofun,
        fun _ _ other => absurd rfl other⟩
    · rw [if_neg exhausted]
      have bounded : saturatingSucc s.recoveryAttempts ≤ 4 := UInt8.not_lt.mp exhausted
      exact ⟨rfl,rfl,rfl,edge,left,nofun,fun away _ => carried away,nofun,fun _ => ⟨rfl,bounded⟩,
        fun _ other => absurd rfl other⟩
  · simp only [entered, if_false, false_and]
    have notRecovery : target ≠ .recovery := by
      rintro rfl
      rcases edgeRecovery edge with carrying | carrying <;> simp [carrying] at entered
    refine ⟨rfl,rfl,rfl,edge,?_,?_,?_,?_,fun into => absurd into notRecovery,?_⟩
    · intro idle unnamed
      have away : target ≠ .idle := by
        rintro rfl
        rw [edgeIdle edge] at idle
        cases idle
      simp only [away, if_false]
      exact left idle unnamed
    · intro home
      exact if_pos home
    · intro away other
      exact (if_neg other).trans (carried away)
    · intro home
      exact if_pos home
    · intro other _ _
      exact if_neg other

def Chained : HpxState → List HpxTransition → HpxState → Prop
  | start, [], last => start = last
  | start, t::ts, last => t.fromState = start ∧ Chained t.toState ts last

theorem chainedSnoc {start last : HpxState} {ts : List HpxTransition} (chained : Chained start ts last) {t : HpxTransition}
    (joined : t.fromState = last) : Chained start (ts ++ [t]) t.toState := by
  induction ts generalizing start with
  | nil => exact ⟨joined.trans chained.symm,rfl⟩
  | cons t' ts ih => exact ⟨chained.1,ih chained.2⟩

def recoveries (ts : List HpxTransition) : Nat :=
  ts.foldl (fun n t => if t.toState = .idle then 0 else if t.toState = .recovery then n + 1 else n) 0

theorem recoveriesSnoc (ts : List HpxTransition) (t : HpxTransition) : recoveries (ts ++ [t]) =
    if t.toState = .idle then 0 else if t.toState = .recovery then recoveries ts + 1 else recoveries ts := by
  simp [recoveries]

def entries (ts : List HpxTransition) : Nat := ts.countP (fun t => t.toState = .recovery)

theorem entriesWithin (before : List HpxTransition) {between : List HpxTransition}
    (away : ∀ t ∈ between, t.toState ≠ .idle) : entries between ≤ recoveries (before ++ between) := by
  induction between using List.reverseRecOn with
  | nil => exact Nat.zero_le _
  | append_singleton between t ih =>
    have earlier := ih (fun x member => away x (List.mem_append_left _ member))
    have here := away t (by simp)
    rw [← List.append_assoc, recoveriesSnoc, if_neg here, entries, List.countP_append]
    unfold entries at earlier
    by_cases recovery : t.toState = .recovery
    · simp only [recovery, if_true, List.countP_singleton, decide_true]
      omega
    · simp only [recovery, if_false, List.countP_singleton, decide_false, Bool.false_eq_true]
      omega

theorem wireIdPlace {a b : UInt64} {m n : Nat} (same : wireId a m = wireId b n) : m = n := by
  have texts := String.ofList_injective same
  have parts := (List.append_cons_inj_of_notMem (Hex.dashAbsent 16 _) (Hex.dashAbsent 4 _)).mp texts
  exact Hex.paddedInj parts.2.2

/- The invariant of a session: it is what its log says. -/
structure Told (s : SessionState) : Prop where
  chained : Chained .idle s.transitions s.state
  edges : ∀ t ∈ s.transitions, Edge t.fromState t.toState
  named : s.sessionId.isSome = true ↔ s.state ≠ .idle
  placed : ∀ a, s.sessionId = some a → ∃ ts n, n < s.transitions.length ∧ a = wireId ts n
  counted : s.state ≠ .failed → s.recoveryAttempts.toNat = recoveries s.transitions
  bounded : ∀ before, before <+: s.transitions → recoveries before ≤ 4

theorem newTold : Told .new where
  chained := rfl
  edges := fun _ member => absurd member List.not_mem_nil
  named := by decide
  placed := fun _ id => absurd id.symm (Option.some_ne_none _)
  counted := fun _ => rfl
  bounded := by
    intro before within
    rw [List.prefix_nil.mp within]
    decide

section Step
variable {s s' : SessionState} {timestampMs : UInt64} {t : HpxTransition} (told : Told s) (moved : Moved s timestampMs t s')
include told

theorem unnamedIdle : s.sessionId = none ↔ s.state = .idle := by
  have named := told.named
  cases id : s.sessionId with
  | none => simpa [id] using named
  | some a => simpa [id] using named

include moved

theorem movedNamed : s'.sessionId.isSome = true ↔ s'.state ≠ .idle := by
  by_cases home : s'.state = .idle
  · simp [home, moved.closed home]
  · by_cases idle : s.state = .idle
    · simp [home, moved.left idle ((unnamedIdle told).mpr idle)]
    · simp only [moved.carried idle home, told.named]
      exact ⟨fun _ => home,fun _ => idle⟩

theorem movedPlaced {a : String} (id : s'.sessionId = some a) : s.sessionId = some a ∧ s.state ≠ .idle ∨
    a = wireId timestampMs s.transitions.length := by
  by_cases home : s'.state = .idle
  · rw [moved.closed home] at id
    cases id
  · by_cases idle : s.state = .idle
    · rw [moved.left idle ((unnamedIdle told).mpr idle)] at id
      exact .inr (Option.some.inj id).symm
    · exact .inl ⟨(moved.carried idle home).symm.trans id,idle⟩

theorem movedCounted (running : s'.state ≠ .failed) : s'.recoveryAttempts.toNat = recoveries s'.transitions := by
  have before := told.counted (edgeAlive moved.edge)
  rw [moved.log, recoveriesSnoc, moved.target]
  by_cases home : s'.state = .idle
  · rw [if_pos home, moved.cleared home]
    rfl
  · rw [if_neg home]
    by_cases into : s'.state = .recovery
    · obtain ⟨count,bounded⟩ := moved.entered into
      have small : recoveries s.transitions ≤ 4 := told.bounded _ (List.prefix_refl _)
      have below : s.recoveryAttempts ≠ 255 := by
        intro full
        rw [full] at before
        have value : (255 : UInt8).toNat = 255 := rfl
        omega
      rw [if_pos into, count, saturatingSucc, if_neg below, UInt8.toNat_add, before]
      have one : (1 : UInt8).toNat = 1 := rfl
      omega
    · rw [if_neg into, moved.uncounted home into running, before]

theorem movedBounded : ∀ before, before <+: s'.transitions → recoveries before ≤ 4 := by
  intro before within
  rw [moved.log] at within
  rcases List.prefix_concat_iff.mp within with whole | earlier
  · have earlier := told.bounded _ (List.prefix_refl _)
    rw [whole, recoveriesSnoc, moved.target]
    by_cases home : s'.state = .idle
    · rw [if_pos home]
      omega
    · rw [if_neg home]
      by_cases into : s'.state = .recovery
      · have count := movedCounted told moved (by simp [into])
        have bounded := UInt8.le_iff_toNat_le.mp (moved.entered into).2
        rw [moved.log, recoveriesSnoc, moved.target, if_neg home] at count
        rw [← count]
        exact bounded
      · rw [if_neg into]
        exact earlier
  · exact told.bounded _ earlier

theorem movedTold : Told s' where
  chained := by
    rw [moved.log, ← moved.target]
    exact chainedSnoc told.chained moved.source
  edges := by
    intro x member
    rw [moved.log] at member
    rcases List.mem_append.mp member with earlier | last
    · exact told.edges x earlier
    · rw [List.mem_singleton.mp last, moved.source, moved.target]
      exact moved.edge
  named := movedNamed told moved
  placed := by
    intro a id
    have longer : s'.transitions.length = s.transitions.length + 1 := by rw [moved.log, List.length_append]; rfl
    rcases movedPlaced told moved id with ⟨old,-⟩ | fresh
    · obtain ⟨ts,n,place,same⟩ := told.placed a old
      exact ⟨ts,n,by omega,same⟩
    · exact ⟨timestampMs,_,by omega,fresh⟩
  counted := movedCounted told moved
  bounded := movedBounded told moved

end Step

theorem keptTold {s : SessionState} (told : Told s) (n : UInt8) : Told { s with arqRetriesForChunk := n } :=
  ⟨told.chained,told.edges,told.named,told.placed,told.counted,told.bounded⟩

inductive Progress : SessionState → SessionState → Prop where
  | kept (s : SessionState) (n : UInt8) : Progress s { s with arqRetriesForChunk := n }
  | moved {s s' : SessionState} {timestampMs : UInt64} {t : HpxTransition} (step : Moved s timestampMs t s') : Progress s s'

theorem progressTold {s s' : SessionState} (told : Told s) (progress : Progress s s') : Told s' := by
  cases progress with
  | kept n => exact keptTold told n
  | moved step => exact movedTold told step

structure Since (s s' : SessionState) (more : List HpxTransition) : Prop where
  log : s'.transitions = s.transitions ++ more
  kept : (∀ t ∈ more, t.toState ≠ .idle) → s.state ≠ .idle → s'.sessionId = s.sessionId
  renewed : ∀ t ∈ more, t.toState = .idle → ∀ a, s'.sessionId = some a →
    ∃ ts n, s.transitions.length ≤ n ∧ a = wireId ts n
  absorbed : s.state = .failed → s'.state = .failed ∧ more = []

theorem sinceNow (s : SessionState) : Since s s [] :=
  ⟨(List.append_nil _).symm,fun _ _ => rfl,fun _ member => absurd member List.not_mem_nil,fun failed => ⟨failed,rfl⟩⟩

theorem sinceMoved {s s' s'' : SessionState} {more : List HpxTransition} {timestampMs : UInt64} {t : HpxTransition}
    (told : Told s) (toldNow : Told s') (since : Since s s' more) (step : Moved s' timestampMs t s'') :
    Since s s'' (more ++ [t]) where
  log := by rw [step.log, since.log, List.append_assoc]
  kept := by
    intro away running
    have same := since.kept (fun x member => away x (List.mem_append_left _ member)) running
    have still : s'.state ≠ .idle := by
      rw [← toldNow.named, same]
      exact told.named.mpr running
    have next : s''.state ≠ .idle := by
      rw [← step.target]
      exact away t (by simp)
    rw [step.carried still next, same]
  renewed := by
    intro x member home a id
    rcases movedPlaced toldNow step id with ⟨old,still⟩ | fresh
    · rcases List.mem_append.mp member with earlier | last
      · exact since.renewed x earlier home a old
      · rw [List.mem_singleton.mp last, step.target] at home
        rw [step.closed home] at id
        cases id
    · exact ⟨timestampMs,_,by rw [since.log, List.length_append]; omega,fresh⟩
  absorbed := by
    intro failed
    exact absurd (since.absorbed failed).1 (edgeAlive step.edge)

theorem sinceProgress {s s' s'' : SessionState} {more : List HpxTransition} (told : Told s) (toldNow : Told s')
    (since : Since s s' more) (progress : Progress s' s'') : ∃ more', Since s s'' more' := by
  cases progress with
  | kept n => exact ⟨more,since.log,since.kept,since.renewed,since.absorbed⟩
  | moved step => exact ⟨more ++ [_],sinceMoved told toldNow since step⟩

theorem sinceSame {s s' : SessionState} {more : List HpxTransition} (told : Told s) (since : Since s s' more) {a b : String}
    (before : s.sessionId = some a) (after : s'.sessionId = some b) : a = b ↔ ∀ t ∈ more, t.toState ≠ .idle := by
  constructor
  · intro same t member home
    obtain ⟨ts,m,early,place⟩ := told.placed a before
    obtain ⟨ts',n,late,place'⟩ := since.renewed t member home b after
    rw [← same, place] at place'
    have position := wireIdPlace place'
    omega
  · intro away
    have running : s.state ≠ .idle := told.named.mp (by simp [before])
    have kept := since.kept away running
    rw [before, after] at kept
    exact (Option.some.inj kept).symm

inductive Call where
  | createSession
  | dispatch (key : String) (event : HpxEvent) (timestampMs : UInt64)
  | recordArqRetry (key : String)
  | resetArqRetryCounter (key : String)
  deriving DecidableEq, Repr

def Call.target : Call → Option String
  | createSession => none
  | dispatch key _ _ => some key
  | recordArqRetry key => some key
  | resetArqRetryCounter key => some key

def step (r : HpxReactor) : Call → Option HpxReactor
  | .createSession => r.createSession.map Prod.snd
  | .dispatch key event timestampMs => some (r.dispatch key event timestampMs).2
  | .recordArqRetry key => some (r.recordArqRetry key).2
  | .resetArqRetryCounter key => some (r.resetArqRetryCounter key)

def run : HpxReactor → List Call → Option HpxReactor
  | r, [] => some r
  | r, call::calls => (step r call).bind fun r' => run r' calls

structure Sound (r : HpxReactor) : Prop where
  told : ∀ key s, r.sessions.lookup key = some s → Told s
  numbered : Tables.size r.sessions = r.nextId.toNat
  issued : ∀ key s, r.sessions.lookup key = some s → ∃ id, id < r.nextId ∧ key = HpxReactor.sessionKey id

theorem newSound : Sound .new :=
  ⟨fun _ _ held => absurd held.symm (Option.some_ne_none _),rfl,fun _ _ held => absurd held.symm (Option.some_ne_none _)⟩

theorem sessionKeyInj {a b : UInt64} (same : HpxReactor.sessionKey a = HpxReactor.sessionKey b) : a = b :=
  UInt64.toNat_inj.mp (Hex.paddedInj (List.cons.inj (String.ofList_injective same)).2)

theorem createFresh {r : HpxReactor} (sound : Sound r) : r.sessions.lookup (HpxReactor.sessionKey r.nextId) = none := by
  cases held : r.sessions.lookup (HpxReactor.sessionKey r.nextId) with
  | none => rfl
  | some s =>
    obtain ⟨id,earlier,same⟩ := sound.issued _ s held
    rw [sessionKeyInj same] at earlier
    exact absurd earlier (UInt64.lt_irrefl _)

theorem createSound {r r' : HpxReactor} (sound : Sound r) (made : step r .createSession = some r') : Sound r' := by
  have fresh := createFresh sound
  simp only [step, HpxReactor.createSession] at made
  split at made
  · rename_i room
    cases made
    have next : (r.nextId + 1).toNat = r.nextId.toNat + 1 := by
      have small := sound.numbered
      unfold maxEntries at room
      rw [UInt64.toNat_add]
      have one : (1 : UInt64).toNat = 1 := rfl
      omega
    have later : ∀ id : UInt64, id.toNat ≤ r.nextId.toNat → id < r.nextId + 1 :=
      fun id order => UInt64.lt_iff_toNat_lt.mpr (by omega)
    refine ⟨fun key s held => ?_,?_,fun key s held => ?_⟩
    · rw [lookupInsert] at held
      split at held
      · cases held
        exact newTold
      · exact sound.told key s held
    · rw [sizeInsert _ _ _ fresh, sound.numbered, next]
    · rw [lookupInsert] at held
      split at held
      · rename_i same
        exact ⟨r.nextId,later _ (Nat.le_refl _),same⟩
      · obtain ⟨id,earlier,same⟩ := sound.issued key s held
        exact ⟨id,later id (Nat.le_of_lt (UInt64.lt_iff_toNat_lt.mp earlier)),same⟩
  · cases made

theorem stepOther {r r' : HpxReactor} {call : Call} {key : String} (target : call.target = some key) (made : step r call = some r') :
    r' = r ∨ ∃ s s', r.sessions.lookup key = some s ∧ Progress s s' ∧ r' = { r with sessions := r.sessions.insert key s' } := by
  cases call with
  | createSession => cases target
  | dispatch k event timestampMs =>
    cases target
    simp only [step, HpxReactor.dispatch, Option.some.injEq] at made
    cases held : r.sessions.lookup key with
    | none => exact .inl (by simp [held] at made; exact made.symm)
    | some s =>
      simp only [held, SessionState.dispatch] at made
      cases accepted : handle s.state event with
      | error err => exact .inl (by simp [accepted] at made; exact made.symm)
      | ok out =>
        obtain ⟨target,code,reason⟩ := out
        simp only [accepted] at made
        exact .inr ⟨s,_,rfl,.moved (advanceMoved accepted),made.symm⟩
  | recordArqRetry k =>
    cases target
    simp only [step, HpxReactor.recordArqRetry, Option.some.injEq] at made
    cases held : r.sessions.lookup key with
    | none => exact .inl (by simp [held] at made; exact made.symm)
    | some s =>
      simp only [held] at made
      refine .inr ⟨s,_,rfl,.kept s (saturatingSucc s.arqRetriesForChunk),?_⟩
      split at made <;> exact made.symm
  | resetArqRetryCounter k =>
    cases target
    simp only [step, HpxReactor.resetArqRetryCounter, Option.some.injEq] at made
    cases held : r.sessions.lookup key with
    | none => exact .inl (by simp [held] at made; exact made.symm)
    | some s =>
      simp only [held] at made
      exact .inr ⟨s,_,rfl,.kept s 0,made.symm⟩

theorem stepSession {r r' : HpxReactor} (sound : Sound r) {call : Call} (made : step r call = some r') {key : String}
    {s : SessionState} (held : r.sessions.lookup key = some s) :
    ∃ s', r'.sessions.lookup key = some s' ∧ Progress s s' ∧ (call.target ≠ some key → s' = s) := by
  cases target : call.target with
  | none =>
    cases call with
    | createSession =>
      have fresh := createFresh sound
      simp only [step, HpxReactor.createSession] at made
      split at made
      · cases made
        have apart : key ≠ HpxReactor.sessionKey r.nextId := by
          rintro rfl
          rw [fresh] at held
          cases held
        exact ⟨s,by rw [lookupInsert, if_neg apart, held],.kept s s.arqRetriesForChunk,fun _ => rfl⟩
      · cases made
    | _ => cases target
  | some named =>
    rcases stepOther target made with rfl | ⟨t,t',found,progress,rfl⟩
    · exact ⟨s,held,.kept s s.arqRetriesForChunk,fun _ => rfl⟩
    · by_cases same : key = named
      · subst same
        cases held.symm.trans found
        exact ⟨t',by simp,progress,fun other => absurd rfl other⟩
      · exact ⟨s,by rw [lookupInsert, if_neg same, held],.kept s s.arqRetriesForChunk,fun _ => rfl⟩

theorem stepSound {r r' : HpxReactor} (sound : Sound r) {call : Call} (made : step r call = some r') : Sound r' := by
  cases target : call.target with
  | none =>
    cases call with
    | createSession => exact createSound sound made
    | _ => cases target
  | some named =>
    rcases stepOther target made with rfl | ⟨t,t',found,progress,rfl⟩
    · exact sound
    · refine ⟨fun key s held => ?_,?_,fun key s held => ?_⟩
      · rw [lookupInsert] at held
        split at held
        · cases held
          exact progressTold (sound.told named t found) progress
        · exact sound.told key s held
      · rw [sizeKnown (by simp [found])]
        exact sound.numbered
      · rw [lookupInsert] at held
        split at held
        · rename_i same
          subst same
          exact sound.issued key t found
        · exact sound.issued key s held

theorem runSound {r r' : HpxReactor} (sound : Sound r) {calls : List Call} (reached : run r calls = some r') : Sound r' := by
  induction calls generalizing r with
  | nil => exact Option.some.inj reached ▸ sound
  | cons call calls ih =>
    obtain ⟨next,made,rest⟩ := Option.bind_eq_some_iff.mp reached
    exact ih (stepSound sound made) rest

theorem runSince {r r' : HpxReactor} {calls : List Call} {key : String} {start s : SessionState} {more : List HpxTransition}
    (told : Told start) (sound : Sound r) (held : r.sessions.lookup key = some s) (since : Since start s more)
    (reached : run r calls = some r') : ∃ s' more', r'.sessions.lookup key = some s' ∧ Since start s' more' := by
  induction calls generalizing r s more with
  | nil => exact ⟨s,more,Option.some.inj reached ▸ held,since⟩
  | cons call calls ih =>
    obtain ⟨next,made,rest⟩ := Option.bind_eq_some_iff.mp reached
    obtain ⟨s',held',progress,-⟩ := stepSession sound made held
    obtain ⟨more',since'⟩ := sinceProgress told (sound.told key s held) since progress
    exact ih (stepSound sound made) held' since' rest

theorem dispatchRefused {r : HpxReactor} {key : String} {event : HpxEvent} {timestampMs : UInt64} {err : HpxStateError}
    (refused : (r.dispatch key event timestampMs).1 = .error err) : (r.dispatch key event timestampMs).2 = r := by
  unfold HpxReactor.dispatch at *
  split
  · rfl
  · rename_i s held
    simp only [held] at refused
    split
    · rfl
    · rename_i accepted
      simp only [accepted] at refused
      cases refused

theorem dispatchAccepted {r : HpxReactor} {key : String} {s : SessionState} (held : r.sessions.lookup key = some s)
    {event : HpxEvent} {target : HpxState} {code : HpxReasonCode} {reason : String}
    (accepted : handle s.state event = .ok (target,code,reason)) (timestampMs : UInt64) :
    r.dispatch key event timestampMs = (.ok (s.advance event timestampMs target code reason).1,
      { r with sessions := r.sessions.insert key (s.advance event timestampMs target code reason).2 }) := by
  simp only [HpxReactor.dispatch, held, SessionState.dispatch, accepted]

theorem dispatchRecovery {r : HpxReactor} {key : String} {s : SessionState} (told : Told s)
    (held : r.sessions.lookup key = some s) {event : HpxEvent} {code : HpxReasonCode} {reason : String}
    (into : handle s.state event = .ok (.recovery,code,reason)) (timestampMs : UInt64) :
    ∃ t, (r.dispatch key event timestampMs).1 = .ok t ∧
      t.toState = if recoveries s.transitions = 4 then .failed else .recovery := by
  obtain ⟨edge,-⟩ := handleEdge into
  have apart : s.state ≠ .recovery := by rcases edgeRecovery edge with carrying | carrying <;> simp [carrying]
  have count := told.counted (edgeAlive edge)
  have small : recoveries s.transitions ≤ 4 := told.bounded _ (List.prefix_refl _)
  have below : s.recoveryAttempts ≠ 255 := by
    intro full
    rw [full] at count
    have value : (255 : UInt8).toNat = 255 := rfl
    omega
  have next : (saturatingSucc s.recoveryAttempts).toNat = recoveries s.transitions + 1 := by
    rw [saturatingSucc, if_neg below, UInt8.toNat_add, count]
    have one : (1 : UInt8).toNat = 1 := rfl
    omega
  have limit : maxRecoveryAttempts.toNat = 4 := rfl
  have exhausted : maxRecoveryAttempts < saturatingSucc s.recoveryAttempts ↔ recoveries s.transitions = 4 := by
    rw [UInt8.lt_iff_toNat_lt]
    omega
  refine ⟨(s.advance event timestampMs .recovery code reason).1,?_,?_⟩
  · rw [dispatchAccepted held into]
  · simp only [SessionState.advance, ne_eq, apart, not_false_eq_true, and_self, if_true, true_and, exhausted]
    split <;> rfl

theorem edgeActive {s : HpxState} (edge : Edge s .activeTransfer) : s = .training ∨ s = .relayActive ∨ s = .recovery := by
  cases edge <;> simp

theorem sessionRuns {calls : List Call} {r : HpxReactor} (reached : run .new calls = some r) {key : String}
    {s : SessionState} (held : r.sessions.lookup key = some s) :
    Chained .idle s.transitions s.state ∧
    (∀ event timestampMs err, (r.dispatch key event timestampMs).1 = .error err →
      (r.dispatch key event timestampMs).2 = r) ∧
    (s.sessionId.isSome = true ↔ s.state ≠ .idle) ∧
    (∀ later r', run r later = some r' → ∃ s' more, r'.sessions.lookup key = some s' ∧
      s'.transitions = s.transitions ++ more ∧ (s.state = .failed → s'.state = .failed ∧ more = []) ∧
      ∀ a b, s.sessionId = some a → s'.sessionId = some b → (a = b ↔ ∀ t ∈ more, t.toState ≠ .idle)) ∧
    (∀ before between after, s.transitions = before ++ between ++ after → (∀ t ∈ between, t.toState ≠ .idle) →
      entries between ≤ 4) ∧
    (∀ event timestampMs code reason, handle s.state event = .ok (.recovery,code,reason) →
      ∃ t, (r.dispatch key event timestampMs).1 = .ok t ∧
        t.toState = if recoveries s.transitions = 4 then .failed else .recovery) ∧
    (∀ t ∈ s.transitions, t.toState = .activeTransfer →
      t.fromState = .training ∨ t.fromState = .relayActive ∨ t.fromState = .recovery) ∧
    (∀ call r', step r call = some r' → call.target ≠ some key → r'.sessions.lookup key = some s) := by
  have sound := runSound newSound reached
  have told := sound.told key s held
  refine ⟨told.chained,fun _ _ _ => dispatchRefused,told.named,?_,?_,?_,?_,?_⟩
  · intro later r' further
    obtain ⟨s',more,held',since⟩ := runSince told sound held (sinceNow s) further
    exact ⟨s',more,held',since.log,since.absorbed,fun a b => sinceSame told since⟩
  · intro before between after whole away
    have within := told.bounded (before ++ between) (whole ▸ List.prefix_append _ _)
    exact Nat.le_trans (entriesWithin before away) within
  · intro event timestampMs code reason into
    exact dispatchRecovery told held into timestampMs
  · intro t member active
    exact edgeActive (active ▸ told.edges t member)
  · intro call r' made other
    obtain ⟨s',held',-,untouched⟩ := stepSession sound made held
    rw [held', untouched other]

theorem startedTold : ∃ r s, run .new [.createSession,.dispatch (HpxReactor.sessionKey 0) .startSession 5] = some r ∧
    r.sessions.lookup (HpxReactor.sessionKey 0) = some s ∧ s.state = .discovery ∧ s.sessionId = some (wireId 5 0) ∧
    Chained .idle s.transitions s.state := by
  have created : step .new .createSession = some ⟨AList.insert (HpxReactor.sessionKey 0) .new ∅,1⟩ := rfl
  have reached : run .new [.createSession,.dispatch (HpxReactor.sessionKey 0) .startSession 5] =
      some ⟨(AList.insert (HpxReactor.sessionKey 0) SessionState.new ∅).insert (HpxReactor.sessionKey 0)
        (SessionState.new.advance .startSession 5 .discovery .success "Session started").2,1⟩ := by
    have held : (AList.insert (HpxReactor.sessionKey 0) SessionState.new ∅ : Table String SessionState).lookup
      (HpxReactor.sessionKey 0) = some .new := AList.lookup_insert ∅
    rw [run, created, Option.bind_some, run, step, dispatchAccepted held rfl]
    rfl
  exact ⟨_,_,reached,AList.lookup_insert _,rfl,rfl,(sessionRuns reached (AList.lookup_insert _)).1⟩

end OpenPulse.HpxRuns
