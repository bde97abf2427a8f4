import OpenPulse.Runs

/-! The inactivity disconnect of the ARDOP TNC: the ARQTIMEOUT part of `worker_loop` in
`openpulse-ardop/src/bridge.rs` beside the host commands of `openpulse-ardop/src/command.rs`.
Every access of a shared lock is a step of its own. Time is in nanoseconds. -/
namespace OpenPulse.ArdopTimeout
open Runs

inductive TncState where
  | disc
  | listen
  | connecting (peer : String)
  | connected (peer : String)
  | disconnecting
  deriving DecidableEq, Repr

def TncState.isConnected : TncState → Bool
  | .connected _ => true
  | _ => false

inductive Command where
  | listen (on : Bool)
  | connect (peer : String)
  | disconnect
  | abort
  | arqTimeout (secs : Nat)
  | state
  deriving DecidableEq, Repr

inductive HostStep where
  | write (s : TncState)
  | ifListen
  | setTimeout (secs : Nat)
  | read
  deriving DecidableEq, Repr

def dispatch : Command → List HostStep
  | .listen true => [.write .listen]
  | .listen false => [.ifListen]
  | .connect peer => [.write (.connecting peer),.write (.connected peer)]
  | .disconnect => [.write .disconnecting,.write .disc]
  | .abort => [.write .disc]
  | .arqTimeout secs => if 30 ≤ secs ∧ secs ≤ 600 then [.setTimeout secs] else []
  | .state => [.read]

def second : Nat := 1000000000

inductive Phase where
  | idle
  | timeoutRead (secs : Nat)
  | sawConnected (secs : Nat)
  | expired (secs : Nat)
  | written (secs : Nat)
  | emitted
  deriving DecidableEq, Repr

/- What comes of an exchange: an acknowledged ARQ frame, a frame received while listening, or a
reply received right after a transmission at a fixed mode; each may fail. -/
inductive Exchange where
  | acked | received | reply | failed
  deriving DecidableEq, Repr

def Exchange.restarts : Exchange → Bool
  | .acked | .received => true
  | .reply | .failed => false

def Exchange.succeeds : Exchange → Bool
  | .acked | .received | .reply => true
  | .failed => false

structure Tnc where
  state : TncState
  arqTimeout : Nat
  tasks : List (List HostStep)
  clock : Nat
  lastActivity : Nat
  worker : Phase
  deriving DecidableEq, Repr

def Tnc.start : Tnc := ⟨.disc,120,[],0,0,.idle⟩

/- `free` tells whether a `try_read` or a `try_write` gets the lock. -/
inductive Event where
  | advance (by' : Nat)
  | command (c : Command)
  | host (task : Nat)
  | readTimeout (free : Bool)
  | readState (free : Bool)
  | check
  | tryWrite (free : Bool)
  | emit
  | restart
  | exchange (x : Exchange)
  deriving DecidableEq, Repr

def hostStep (s : Tnc) (i : Nat) (rest : List HostStep) : HostStep → Tnc
  | .write st => { s with state := st, tasks := s.tasks.set i rest }
  | .ifListen => { s with tasks := s.tasks.set i (if s.state = .listen then .write .disc::rest else rest) }
  | .setTimeout secs => { s with arqTimeout := secs, tasks := s.tasks.set i rest }
  | .read => { s with tasks := s.tasks.set i rest }

def nextHostStep (s : Tnc) (i : Nat) : Option (HostStep × List HostStep) :=
  match s.tasks[i]? with
  | some (first::rest) => some (first,rest)
  | _ => none

def step (s : Tnc) : Event → Tnc
  | .advance by' => { s with clock := s.clock + by' }
  | .command c => { s with tasks := s.tasks ++ [dispatch c] }
  | .host i =>
    match nextHostStep s i with
    | some (first,rest) => hostStep s i rest first
    | none => s
  | .readTimeout free =>
    if s.worker = .idle ∧ free then { s with worker := .timeoutRead s.arqTimeout } else s
  | .readState free =>
    match s.worker with
    | .timeoutRead secs => { s with worker := if free && s.state.isConnected then .sawConnected secs else .idle }
    | _ => s
  | .check =>
    match s.worker with
    | .sawConnected secs =>
      { s with worker := if secs * second ≤ s.clock - s.lastActivity then .expired secs else .idle }
    | _ => s
  | .tryWrite free =>
    match s.worker with
    | .expired secs => { s with state := if free then .disc else s.state, worker := .written secs }
    | _ => s
  | .emit =>
    match s.worker with
    | .written _ => { s with worker := .emitted }
    | _ => s
  | .restart => if s.worker = .emitted then { s with lastActivity := s.clock, worker := .idle } else s
  | .exchange x => if s.worker = .idle ∧ x.restarts then { s with lastActivity := s.clock } else s

structure Watched where
  tnc : Tnc
  idleSince : Option Nat
  ended : Option (Nat × Nat)
  deriving DecidableEq, Repr

def Watched.start : Watched := ⟨.start,none,none⟩

def happens (s : Tnc) : Event → Bool
  | .exchange x => decide (s.worker = .idle) && x.succeeds
  | _ => false

def watch (w : Watched) (e : Event) : Watched :=
  let after := step w.tnc e
  if after.state.isConnected then
    match w.idleSince with
    | some since => ⟨after,some (if happens w.tnc e then after.clock else since),none⟩
    | none => ⟨after,some after.clock,none⟩
  else
    match w.idleSince with
    | some since => ⟨after,none,some (since,after.clock)⟩
    | none => ⟨after,none,w.ended⟩

/- At an emission: the last connection was idle for the timeout in force when it ended, and the
TNC is disconnected right after. -/
def EmitsIdle (w : Watched) (e : Event) : Prop :=
  e = .emit → ∀ secs, w.tnc.worker = .written secs →
    (∃ since till, w.ended = some (since,till) ∧ since + w.tnc.arqTimeout * second ≤ till) ∧ (watch w e).tnc.state = .disc

/- After a check that fires: a host step that makes the TNC connected before the worker's write or
anything but disconnected after it, or that raises the timeout over the one the worker read. -/
def interferes : Phase → HostStep → Bool
  | .expired _, .write st => st.isConnected
  | .written _, .write st => st ≠ .disc
  | .expired secs, .setTimeout new | .written secs, .setTimeout new => secs < new
  | _, _ => false

/- What the worker read must hold when its check fires, and its clock must not be older than the
connection and the last exchange. A check that does not fire may find anything. -/
def Admitted (w : Watched) : Event → Prop
  | .host i => ∀ first rest, nextHostStep w.tnc i = some (first,rest) → interferes w.tnc.worker first = false
  | .check => ∀ secs, w.tnc.worker = .sawConnected secs → secs * second ≤ w.tnc.clock - w.tnc.lastActivity →
      w.tnc.state.isConnected = true ∧ w.tnc.arqTimeout ≤ secs ∧
        ∀ since, w.idleSince = some since → since ≤ w.tnc.lastActivity ∨ since + secs * second ≤ w.tnc.clock
  | .tryWrite free => ∀ secs, w.tnc.worker = .expired secs → free = true
  | _ => True

theorem watchTnc (w : Watched) (e : Event) : (watch w e).tnc = step w.tnc e := by
  unfold watch
  simp only
  split
  · split <;> rfl
  · split <;> rfl

theorem watchStretch (w : Watched) (e : Event) :
    (watch w e).tnc.state.isConnected = (watch w e).idleSince.isSome := by
  unfold watch
  simp only
  split
  · rename_i up
    split <;> exact up
  · rename_i down
    rw [Bool.not_eq_true] at down
    split <;> exact down

def LongIdle (w : Watched) (secs : Nat) : Prop :=
  (∃ since, w.idleSince = some since ∧ since + secs * second ≤ w.tnc.clock) ∨
    w.idleSince = none ∧ ∃ since till, w.ended = some (since,till) ∧ since + secs * second ≤ till

def PhaseSound (w : Watched) : Prop :=
  match w.tnc.worker with
  | .idle | .timeoutRead _ | .sawConnected _ | .emitted => True
  | .expired secs => w.tnc.arqTimeout ≤ secs ∧ LongIdle w secs
  | .written secs => w.tnc.arqTimeout ≤ secs ∧ w.tnc.state = .disc ∧ LongIdle w secs

structure Sound (w : Watched) : Prop where
  stretch : w.tnc.state.isConnected = w.idleSince.isSome
  clock : w.tnc.lastActivity ≤ w.tnc.clock
  phase : PhaseSound w

theorem LongIdle.watch {w : Watched} {e : Event} {secs : Nat} (long : LongIdle w secs)
    (stretch : w.tnc.state.isConnected = w.idleSince.isSome) (later : w.tnc.clock ≤ (step w.tnc e).clock)
    (quiet : happens w.tnc e = false) (calm : (step w.tnc e).state.isConnected = true → w.tnc.state.isConnected = true) :
    LongIdle (watch w e) secs := by
  unfold LongIdle ArdopTimeout.watch
  simp only [quiet]
  obtain ⟨since,running,idle⟩ | ⟨past,since,till,ended,idle⟩ := long
  · simp only [running]
    split
    · exact .inl ⟨since,rfl,Nat.le_trans idle later⟩
    · exact .inr ⟨rfl,since,_,rfl,Nat.le_trans idle later⟩
  · have down : (step w.tnc e).state.isConnected = false := by
      cases up : (step w.tnc e).state.isConnected with
      | false => rfl
      | true => simp [calm up, past] at stretch
    simp only [past, down, Bool.false_eq_true, if_false]
    exact .inr ⟨trivial,since,till,ended,idle⟩

theorem Sound.aside {w : Watched} {e : Event} (sound : Sound w) {clock : Nat} {tasks : List (List HostStep)}
    (made : step w.tnc e = { w.tnc with clock := clock, tasks := tasks }) (later : w.tnc.clock ≤ clock)
    (quiet : happens w.tnc e = false) : Sound (watch w e) := by
  have stays : ∀ secs, LongIdle w secs → LongIdle (watch w e) secs := fun secs long =>
    long.watch sound.stretch (by rw [made]; exact later) quiet (by rw [made]; exact id)
  refine ⟨watchStretch w e,?_,?_⟩
  · rw [watchTnc, made]
    exact Nat.le_trans sound.clock later
  · have before := sound.phase
    unfold PhaseSound at before ⊢
    rw [watchTnc, made]
    simp only
    cases here : w.tnc.worker with
    | expired secs =>
      rw [here] at before
      exact ⟨before.1,stays secs before.2⟩
    | written secs =>
      rw [here] at before
      exact ⟨before.1,before.2.1,stays secs before.2.2⟩
    | _ => trivial

theorem Sound.done {w : Watched} {e : Event} (clock : (step w.tnc e).lastActivity ≤ (step w.tnc e).clock)
    (out : (step w.tnc e).worker = .idle ∨ (step w.tnc e).worker = .emitted) : Sound (watch w e) := by
  refine ⟨watchStretch w e,by rw [watchTnc]; exact clock,?_⟩
  unfold PhaseSound
  rw [watchTnc]
  rcases out with idle | emitted
  · rw [idle]
    trivial
  · rw [emitted]
    trivial

theorem Sound.still {w : Watched} {e : Event} (sound : Sound w) (made : step w.tnc e = w.tnc)
    (quiet : happens w.tnc e = false) : Sound (watch w e) :=
  @Sound.aside w e sound w.tnc.clock w.tnc.tasks made (Nat.le_refl _) quiet

theorem checkAside (s : Tnc) : ((∀ secs, s.worker ≠ .timeoutRead secs) → ∀ free, step s (.readState free) = s) ∧
    ((∀ secs, s.worker ≠ .sawConnected secs) → step s .check = s) ∧
    ((∀ secs, s.worker ≠ .expired secs) → ∀ free, step s (.tryWrite free) = s) ∧
    ((∀ secs, s.worker ≠ .written secs) → step s .emit = s) := by
  cases here : s.worker <;> simp [step, here]

theorem Sound.hostTimeout {w : Watched} {i new : Nat} {rest : List HostStep} (sound : Sound w)
    (made : step w.tnc (.host i) = hostStep w.tnc i rest (.setTimeout new))
    (clear : interferes w.tnc.worker (.setTimeout new) = false) : Sound (watch w (.host i)) := by
  have stays : ∀ secs, LongIdle w secs → LongIdle (watch w (.host i)) secs := fun secs long =>
    long.watch sound.stretch (Nat.le_of_eq (congrArg Tnc.clock made).symm) rfl (by rw [made]; exact id)
  refine ⟨watchStretch w _,by rw [watchTnc, made]; exact sound.clock,?_⟩
  have before := sound.phase
  unfold PhaseSound at before ⊢
  rw [watchTnc, made]
  simp only [hostStep]
  cases here : w.tnc.worker with
  | expired secs =>
    rw [here] at before clear
    exact ⟨by simpa [interferes] using clear,stays secs before.2⟩
  | written secs =>
    rw [here] at before clear
    exact ⟨by simpa [interferes] using clear,before.2.1,stays secs before.2.2⟩
  | _ => trivial

theorem Sound.hostWrite {w : Watched} {i : Nat} {st : TncState} {rest : List HostStep} (sound : Sound w)
    (made : step w.tnc (.host i) = hostStep w.tnc i rest (.write st))
    (clear : interferes w.tnc.worker (.write st) = false) : Sound (watch w (.host i)) := by
  have stays : ∀ secs, st.isConnected = false → LongIdle w secs → LongIdle (watch w (.host i)) secs := fun secs down long =>
    long.watch sound.stretch (Nat.le_of_eq (congrArg Tnc.clock made).symm) rfl (by
      rw [made]
      intro up
      rw [hostStep, down] at up
      cases up)
  refine ⟨watchStretch w _,by rw [watchTnc, made]; exact sound.clock,?_⟩
  have before := sound.phase
  unfold PhaseSound at before ⊢
  rw [watchTnc, made]
  simp only [hostStep]
  cases here : w.tnc.worker with
  | expired secs =>
    rw [here] at before clear
    exact ⟨before.1,stays secs clear before.2⟩
  | written secs =>
    rw [here] at before clear
    have disc : st = .disc := by simpa [interferes] using clear
    exact ⟨before.1,disc,stays secs (by rw [disc]; rfl) before.2.2⟩
  | _ => trivial

theorem Sound.host {w : Watched} {i : Nat} (sound : Sound w) (admitted : Admitted w (.host i)) : Sound (watch w (.host i)) := by
  cases next : nextHostStep w.tnc i with
  | none => exact sound.still (by simp only [step, next]) rfl
  | some found =>
    obtain ⟨first,rest⟩ := found
    have clear := admitted first rest next
    have made : step w.tnc (.host i) = hostStep w.tnc i rest first := by simp only [step, next]
    cases first with
    | ifListen => exact sound.aside made (Nat.le_refl _) rfl
    | read => exact sound.aside made (Nat.le_refl _) rfl
    | setTimeout secs => exact sound.hostTimeout made clear
    | write st => exact sound.hostWrite made clear

theorem Sound.reading {w : Watched} {e : Event} (sound : Sound w) {worker : Phase}
    (made : step w.tnc e = { w.tnc with worker := worker })
    (early : ∀ secs, worker ≠ .expired secs ∧ worker ≠ .written secs) : Sound (watch w e) := by
  refine ⟨watchStretch w e,by rw [watchTnc, made]; exact sound.clock,?_⟩
  unfold PhaseSound
  rw [watchTnc, made]
  cases worker with
  | expired secs => exact absurd rfl (early secs).1
  | written secs => exact absurd rfl (early secs).2
  | _ => trivial

theorem Sound.readState {w : Watched} {free : Bool} (sound : Sound w) : Sound (watch w (.readState free)) := by
  by_cases phase : ∃ secs, w.tnc.worker = .timeoutRead secs
  · obtain ⟨secs,here⟩ := phase
    have made : step w.tnc (.readState free) =
        { w.tnc with worker := if free && w.tnc.state.isConnected then .sawConnected secs else .idle } := by
      simp only [step, here]
    refine sound.reading made fun secs => ?_
    split <;> simp
  · exact sound.still ((checkAside w.tnc).1 (not_exists.mp phase) free) rfl

theorem Sound.check {w : Watched} (sound : Sound w) (admitted : Admitted w .check) : Sound (watch w .check) := by
  by_cases phase : ∃ secs, w.tnc.worker = .sawConnected secs
  · obtain ⟨secs,here⟩ := phase
    have made : step w.tnc .check =
        { w.tnc with worker := if secs * second ≤ w.tnc.clock - w.tnc.lastActivity then .expired secs else .idle } := by
      simp only [step, here]
    by_cases fires : secs * second ≤ w.tnc.clock - w.tnc.lastActivity
    · rw [if_pos fires] at made
      obtain ⟨up,inForce,old⟩ := admitted secs here fires
      obtain ⟨since,running⟩ := Option.isSome_iff_exists.mp (sound.stretch.symm.trans up)
      have idleLong : since + secs * second ≤ w.tnc.clock := by
        have clock := sound.clock
        rcases old since running with restarted | past
        · omega
        · exact past
      have long : LongIdle w secs := .inl ⟨since,running,idleLong⟩
      refine ⟨watchStretch w _,by rw [watchTnc, made]; exact sound.clock,?_⟩
      have stays := @LongIdle.watch w .check secs long sound.stretch (Nat.le_of_eq (congrArg Tnc.clock made).symm) rfl
        (by rw [made]; exact id)
      unfold PhaseSound
      rw [watchTnc, made]
      exact ⟨inForce,stays⟩
    · rw [if_neg fires] at made
      exact sound.reading made fun secs => by simp
  · exact sound.still ((checkAside w.tnc).2.1 (not_exists.mp phase)) rfl

theorem Sound.tryWrite {w : Watched} {free : Bool} (sound : Sound w) (admitted : Admitted w (.tryWrite free)) :
    Sound (watch w (.tryWrite free)) := by
  have before := sound.phase
  unfold PhaseSound at before
  by_cases phase : ∃ secs, w.tnc.worker = .expired secs
  · obtain ⟨secs,here⟩ := phase
    rw [here] at before
    cases admitted secs here
    have made : step w.tnc (.tryWrite true) = { w.tnc with state := .disc, worker := .written secs } := by
      simp only [step, here, if_true]
    have stays := @LongIdle.watch w (.tryWrite true) secs before.2 sound.stretch
      (Nat.le_of_eq (congrArg Tnc.clock made).symm) rfl (by rw [made]; exact fun up => by cases up)
    refine ⟨watchStretch w _,by rw [watchTnc, made]; exact sound.clock,?_⟩
    unfold PhaseSound
    rw [watchTnc, made]
    exact ⟨before.1,rfl,stays⟩
  · exact sound.still ((checkAside w.tnc).2.2.1 (not_exists.mp phase) free) rfl

theorem soundStep (w : Watched) (e : Event) (sound : Sound w) (admitted : Admitted w e) : Sound (watch w e) := by
  cases e with
  | advance by' => exact @Sound.aside w (.advance by') sound (w.tnc.clock + by') w.tnc.tasks rfl (Nat.le_add_right _ _) rfl
  | command c => exact @Sound.aside w (.command c) sound w.tnc.clock (w.tnc.tasks ++ [dispatch c]) rfl (Nat.le_refl _) rfl
  | host i => exact sound.host admitted
  | readTimeout free =>
    by_cases starts : w.tnc.worker = .idle ∧ free = true
    · have made : step w.tnc (.readTimeout free) = { w.tnc with worker := .timeoutRead w.tnc.arqTimeout } := by
        simp only [step, if_pos starts]
      exact sound.reading made fun secs => by simp
    · exact sound.still (by simp only [step, if_neg starts]) rfl
  | readState free => exact sound.readState
  | check => exact sound.check admitted
  | tryWrite free => exact sound.tryWrite admitted
  | emit =>
    by_cases phase : ∃ secs, w.tnc.worker = .written secs
    · obtain ⟨secs,here⟩ := phase
      have made : step w.tnc .emit = { w.tnc with worker := .emitted } := by simp only [step, here]
      exact .done (by rw [made]; exact sound.clock) (.inr (by rw [made]))
    · exact sound.still ((checkAside w.tnc).2.2.2 (not_exists.mp phase)) rfl
  | restart =>
    by_cases told : w.tnc.worker = .emitted
    · have made : step w.tnc .restart = { w.tnc with lastActivity := w.tnc.clock, worker := .idle } := by
        simp only [step, if_pos told]
      exact .done (Nat.le_of_eq (by rw [made])) (.inl (by rw [made]))
    · exact sound.still (by simp only [step, if_neg told]) rfl
  | exchange x =>
    by_cases idle : w.tnc.worker = .idle
    · refine .done ?_ (.inl ?_)
      · simp only [step]
        split
        · exact Nat.le_refl _
        · exact sound.clock
      · simp only [step]
        split <;> exact idle
    · refine sound.still ?_ ?_
      · simp only [step, idle, false_and, if_false]
      · simp only [happens, idle, decide_false, Bool.false_and]

/- The idle clock belongs to the worker: CONNECT does not restart it, nor does a reply to a
fixed-mode transmission. And the worker reports a disconnect it could not make. In every run that
keeps clear of these, and of host writes between the worker's reads and its report, what is
dropped was idle. -/
theorem onlyIdleDropped (es : List Event) (admitted : EveryStep watch Admitted Watched.start es) :
    EveryStep watch EmitsIdle Watched.start es := by
  have start : Sound Watched.start := ⟨rfl,Nat.le_refl _,trivial⟩
  refine (everyStepInvariant soundStep ?_ start admitted).2
  intro w e sound _ here secs written
  subst here
  have phase := sound.phase
  unfold PhaseSound at phase
  rw [written] at phase
  obtain ⟨inForce,down,long⟩ := phase
  have made : step w.tnc .emit = { w.tnc with worker := .emitted } := by simp only [step, written]
  refine ⟨?_,by rw [watchTnc, made]; exact down⟩
  obtain ⟨since,running,-⟩ | ⟨-,since,till,ended,idle⟩ := long
  · have stretch := sound.stretch
    rw [down, running] at stretch
    cases stretch
  · exact ⟨since,till,ended,Nat.le_trans (Nat.add_le_add_left (Nat.mul_le_mul_right _ inForce) _) idle⟩

def connectNow : List Event := [.command (.connect "W1AW"),.host 0,.host 0]

def checkNow (free : Bool) : List Event := [.readTimeout true,.readState true,.check,.tryWrite free,.emit]

def idleRun : List Event :=
  .advance (10 * second) :: (connectNow ++ ([.readTimeout true,.readState true,.check,.advance (120 * second)] ++ checkNow true))

theorem onlyIdleDroppedRun : EveryStep watch EmitsIdle Watched.start idleRun :=
  onlyIdleDropped idleRun (by
    refine ⟨trivial,trivial,?_,?_,trivial,trivial,?_,trivial,trivial,trivial,?_,?_,trivial,trivial⟩
    · intro first rest next
      cases Option.some.inj next
      rfl
    · intro first rest next
      cases Option.some.inj next
      rfl
    · intro secs here fires
      cases here
      revert fires
      decide +kernel
    · intro secs here fires
      cases here
      refine ⟨rfl,by decide +kernel,fun since running => ?_⟩
      have same := Option.some.inj running
      subst same
      right
      decide +kernel
    · exact fun _ _ => rfl)

/- A station that was up for two minutes drops a connection the moment it is made; and one that
cannot get the lock says so all the same. -/
theorem freshConnectionDropped :
    ¬ EveryStep watch EmitsIdle Watched.start (.advance (120 * second) :: (connectNow ++ checkNow true)) ∧
    ¬ EveryStep watch EmitsIdle Watched.start (connectNow ++ (.advance (120 * second) :: checkNow false)) := by
  constructor
  · intro all
    obtain ⟨-,-,-,-,-,-,-,-,last,-⟩ := all
    obtain ⟨⟨since,till,ended,long⟩,-⟩ := last rfl 120 rfl
    cases Option.some.inj ended
    revert long
    decide +kernel
  · intro all
    obtain ⟨-,-,-,-,-,-,-,-,last,-⟩ := all
    obtain ⟨-,down⟩ := last rfl 120 rfl
    revert down
    decide +kernel

end OpenPulse.ArdopTimeout
