import OpenPulse.Runs

/-! The discovery state machine: `openpulse-discovery/src/discovery_sm.rs`. Times
are `u64` milliseconds of any clock, and the one sum of two of them wraps. -/
namespace OpenPulse.Discovery
open Runs

inductive DiscoveryState where
  | inactive | activating | dwelling
  deriving DecidableEq, Repr

inductive DiscoveryEvent where
  | tick (idle clockOk : Bool) (nowMs : UInt64)
  | qsyComplete (ok : Bool)
  | slotElapsed (nowMs : UInt64)
  | preempt
  deriving DecidableEq, Repr

inductive DiscoveryAction where
  | saveHomeAndTune
  | restoreHome
  | decodeSlot
  | stateChanged (state : DiscoveryState)
  deriving DecidableEq, Repr

structure DiscoverySm where
  state : DiscoveryState
  enabled : Bool
  idleGraceMs : UInt64
  dwellMs : UInt64
  idleSinceMs : Option UInt64
  dwellDeadlineMs : Option UInt64
  deriving DecidableEq, Repr

inductive Call where
  | setEnabled (on : Bool)
  | step (ev : DiscoveryEvent)
  deriving DecidableEq, Repr

namespace DiscoverySm

def new (enabled : Bool) (idleGraceMs dwellMs : UInt64) : DiscoverySm :=
  ⟨.inactive,enabled,idleGraceMs,dwellMs,none,none⟩

variable (sm : DiscoverySm)

def standDown : List DiscoveryAction × DiscoverySm :=
  ([.restoreHome,.stateChanged .inactive],{ sm with state := .inactive, idleSinceMs := none, dwellDeadlineMs := none })

def setEnabled (on : Bool) : List DiscoveryAction × DiscoverySm :=
  let sm := { sm with enabled := on }
  if !on && sm.state != .inactive then sm.standDown else ([],sm)

def trackIdle (idle clockOk : Bool) (nowMs : UInt64) : DiscoverySm :=
  { sm with idleSinceMs := if idle && clockOk && sm.enabled then some (sm.idleSinceMs.getD nowMs) else none }

/- `saturating_sub` of two `u64`. -/
def heldFor (nowMs since : UInt64) : Nat := nowMs.toNat - since.toNat

def overdue (nowMs : UInt64) : Bool := sm.dwellDeadlineMs.any fun deadline => deadline ≤ nowMs

def onTick (idle clockOk : Bool) (nowMs : UInt64) : List DiscoveryAction × DiscoverySm :=
  let sm := sm.trackIdle idle clockOk nowMs
  match sm.state with
  | .inactive =>
    if sm.idleSinceMs.any (fun since => sm.idleGraceMs.toNat ≤ heldFor nowMs since) then
      ([.saveHomeAndTune,.stateChanged .activating],{ sm with state := .activating, idleSinceMs := none })
    else ([],sm)
  | .dwelling => if sm.overdue nowMs then sm.standDown else ([],sm)
  | .activating => ([],sm)

def onQsy (ok : Bool) : List DiscoveryAction × DiscoverySm :=
  if sm.state ≠ .activating then ([],sm)
  else if ok then ([.stateChanged .dwelling],{ sm with state := .dwelling, dwellDeadlineMs := none })
  else sm.standDown

def arm (nowMs : UInt64) : DiscoverySm :=
  if 0 < sm.dwellMs ∧ sm.dwellDeadlineMs = none then { sm with dwellDeadlineMs := some (nowMs + sm.dwellMs) } else sm

def onSlot (nowMs : UInt64) : List DiscoveryAction × DiscoverySm :=
  if sm.state ≠ .dwelling then ([],sm)
  else
    let sm := sm.arm nowMs
    if sm.overdue nowMs then (.decodeSlot :: sm.standDown.1,sm.standDown.2) else ([.decodeSlot],sm)

def step : DiscoveryEvent → List DiscoveryAction × DiscoverySm
  | .preempt => if sm.state ≠ .inactive then sm.standDown else ([],sm)
  | .tick idle clockOk nowMs => sm.onTick idle clockOk nowMs
  | .qsyComplete ok => sm.onQsy ok
  | .slotElapsed nowMs => sm.onSlot nowMs

def call : Call → List DiscoveryAction × DiscoverySm
  | .setEnabled on => sm.setEnabled on
  | .step ev => sm.step ev

def next (c : Call) : DiscoverySm := (sm.call c).2

end DiscoverySm

def Armed (sm : DiscoverySm) : Prop := sm.dwellDeadlineMs ≠ none → sm.state = .dwelling

inductive Went (sm : DiscoverySm) (c : Call) : List DiscoveryAction → DiscoverySm → Prop where
  | quiet {sm'} (state : sm'.state = sm.state) (deadline : sm'.dwellDeadlineMs = sm.dwellDeadlineMs) : Went sm c [] sm'
  | left {sm' nowMs} (called : c = .step (.tick true true nowMs)) (home : sm.state = .inactive)
      (enabled : sm.enabled = true) (held : sm.idleGraceMs.toNat ≤ DiscoverySm.heldFor nowMs (sm.idleSinceMs.getD nowMs))
      (state : sm'.state = .activating) (deadline : sm'.dwellDeadlineMs = sm.dwellDeadlineMs) :
      Went sm c [.saveHomeAndTune,.stateChanged .activating] sm'
  | arrived {sm'} (away : sm.state = .activating) (state : sm'.state = .dwelling) : Went sm c [.stateChanged .dwelling] sm'
  | decoded {sm'} (dwelling : sm.state = .dwelling) (state : sm'.state = .dwelling) : Went sm c [.decodeSlot] sm'
  | returned {sm'} (away : sm.state ≠ .inactive) (state : sm'.state = .inactive) (deadline : sm'.dwellDeadlineMs = none) :
      Went sm c [.restoreHome,.stateChanged .inactive] sm'
  | lastSlot {sm'} (dwelling : sm.state = .dwelling) (state : sm'.state = .inactive) (deadline : sm'.dwellDeadlineMs = none) :
      Went sm c [.decodeSlot,.restoreHome,.stateChanged .inactive] sm'

variable (sm : DiscoverySm)

theorem standDownWent {c : Call} (away : sm.state ≠ .inactive) : Went sm c sm.standDown.1 sm.standDown.2 := .returned away rfl rfl

theorem tickWent (idle clockOk : Bool) (nowMs : UInt64) :
    Went sm (.step (.tick idle clockOk nowMs)) (sm.onTick idle clockOk nowMs).1 (sm.onTick idle clockOk nowMs).2 := by
  unfold DiscoverySm.onTick
  cases place : sm.state with
  | inactive =>
    simp only [DiscoverySm.trackIdle, place]
    by_cases tracked : (idle && clockOk && sm.enabled) = true
    · simp only [Bool.and_eq_true] at tracked
      obtain ⟨⟨rfl,rfl⟩,on⟩ := tracked
      simp only [on, Bool.and_self, if_true, Option.any_some]
      split
      · rename_i held
        exact .left rfl place on (of_decide_eq_true held) rfl rfl
      · exact .quiet place.symm rfl
    · simp only [if_neg tracked, Option.any_none, Bool.false_eq_true, if_false]
      exact .quiet place.symm rfl
  | activating =>
    have tracked : (sm.trackIdle idle clockOk nowMs).state = .activating := place
    simp only [tracked]
    exact .quiet rfl rfl
  | dwelling =>
    have tracked : (sm.trackIdle idle clockOk nowMs).state = .dwelling := place
    simp only [tracked]
    cases (sm.trackIdle idle clockOk nowMs).overdue nowMs with
    | true => exact .returned (by simp [place]) rfl rfl
    | false => exact .quiet rfl rfl

theorem slotWent (nowMs : UInt64) : Went sm (.step (.slotElapsed nowMs)) (sm.onSlot nowMs).1 (sm.onSlot nowMs).2 := by
  unfold DiscoverySm.onSlot
  by_cases dwelling : sm.state = .dwelling
  · have same : (sm.arm nowMs).state = .dwelling := by
      unfold DiscoverySm.arm
      split <;> exact dwelling
    simp only [dwelling, ne_eq, not_true_eq_false, if_false]
    split
    · exact .lastSlot dwelling rfl rfl
    · exact .decoded dwelling same
  · simp only [ne_eq, dwelling, not_false_eq_true, if_true]
    exact .quiet rfl rfl

theorem callWent (c : Call) : Went sm c (sm.call c).1 (sm.next c) := by
  cases c with
  | setEnabled on =>
    simp only [DiscoverySm.next, DiscoverySm.call, DiscoverySm.setEnabled]
    split
    · rename_i off
      exact .returned (by simpa using And.right (by simpa using off)) rfl rfl
    · exact .quiet rfl rfl
  | step ev =>
    cases ev with
    | tick idle clockOk nowMs => exact tickWent sm idle clockOk nowMs
    | slotElapsed nowMs => exact slotWent sm nowMs
    | preempt =>
      simp only [DiscoverySm.next, DiscoverySm.call, DiscoverySm.step]
      split
      · rename_i away
        exact standDownWent sm away
      · exact .quiet rfl rfl
    | qsyComplete ok =>
      simp only [DiscoverySm.next, DiscoverySm.call, DiscoverySm.step, DiscoverySm.onQsy]
      by_cases away : sm.state = .activating
      · cases ok with
        | true =>
          simp only [away, ne_eq, not_true_eq_false, if_false, if_true]
          exact .arrived away rfl
        | false =>
          simp only [away, ne_eq, not_true_eq_false, if_false, Bool.false_eq_true]
          exact standDownWent sm (by simp [away])
      · simp only [ne_eq, away, not_false_eq_true, if_true]
        exact .quiet rfl rfl

theorem armedNext {sm : DiscoverySm} (armed : Armed sm) (c : Call) : Armed (sm.next c) := by
  intro pending
  have went := callWent sm c
  generalize (sm.call c).1 = actions at went
  generalize sm.next c = sm' at went pending ⊢
  cases went with
  | quiet state deadline => exact state.trans (armed (deadline ▸ pending))
  | left called home enabled held state deadline =>
    have dwelling := armed (deadline ▸ pending)
    rw [home] at dwelling
    cases dwelling
  | arrived away state => exact state
  | decoded dwelling state => exact state
  | returned away state deadline => exact absurd deadline pending
  | lastSlot dwelling state deadline => exact absurd deadline pending

def Call.clock : Call → Option UInt64
  | .step (.tick _ _ nowMs) | .step (.slotElapsed nowMs) => some nowMs
  | _ => none

theorem overdueReturns {sm : DiscoverySm} (armed : Armed sm) {c : Call} {nowMs : UInt64} (timed : c.clock = some nowMs)
    (late : sm.overdue nowMs = true) : (sm.next c).state = .inactive := by
  have pending : sm.dwellDeadlineMs ≠ none := by
    intro none'
    simp [DiscoverySm.overdue, none'] at late
  have dwelling := armed pending
  match c, timed with
  | .step (.tick idle clockOk _), rfl =>
    have still : (sm.trackIdle idle clockOk nowMs).state = .dwelling := dwelling
    have due : (sm.trackIdle idle clockOk nowMs).overdue nowMs = true := late
    simp only [DiscoverySm.next, DiscoverySm.call, DiscoverySm.step, DiscoverySm.onTick, still, due, if_true]
    rfl
  | .step (.slotElapsed _), rfl =>
    have before : sm.arm nowMs = sm := by
      rw [DiscoverySm.arm, if_neg]
      exact fun fresh => pending fresh.2
    simp only [DiscoverySm.next, DiscoverySm.call, DiscoverySm.step, DiscoverySm.onSlot, dwelling, before, late, ne_eq,
      not_true_eq_false, if_false, if_true]
    rfl

theorem slotArms {sm : DiscoverySm} (budget : 0 < sm.dwellMs) (dwelling : sm.state = .dwelling) (nowMs : UInt64)
    (stays : (sm.next (.step (.slotElapsed nowMs))).state = .dwelling) :
    (sm.next (.step (.slotElapsed nowMs))).dwellDeadlineMs = some (sm.dwellDeadlineMs.getD (nowMs + sm.dwellMs)) := by
  have set : (sm.arm nowMs).dwellDeadlineMs = some (sm.dwellDeadlineMs.getD (nowMs + sm.dwellMs)) := by
    cases known : sm.dwellDeadlineMs with
    | none => simp [DiscoverySm.arm, budget, known]
    | some deadline => simp [DiscoverySm.arm, known]
  simp only [DiscoverySm.next, DiscoverySm.call, DiscoverySm.step, DiscoverySm.onSlot, dwelling, ne_eq, not_true_eq_false,
    if_false] at stays ⊢
  cases late : (sm.arm nowMs).overdue nowMs with
  | true => simp [late, DiscoverySm.standDown] at stays
  | false => simpa using set

theorem stepEnabled (sm : DiscoverySm) (ev : DiscoveryEvent) : (sm.step ev).2.enabled = sm.enabled := by
  unfold DiscoverySm.step DiscoverySm.onTick DiscoverySm.onQsy DiscoverySm.onSlot DiscoverySm.arm DiscoverySm.trackIdle
  dsimp only
  repeat' split
  all_goals rfl

structure CallKeeps (sm : DiscoverySm) (c : Call) : Prop where
  restores : .restoreHome ∈ (sm.call c).1 ↔ sm.state ≠ .inactive ∧ (sm.next c).state = .inactive
  decodes : .decodeSlot ∈ (sm.call c).1 → sm.state = .dwelling
  leaves : .saveHomeAndTune ∈ (sm.call c).1 → sm.enabled = true ∧ (sm.next c).enabled = true
  ends : ∀ nowMs, c.clock = some nowMs → sm.overdue nowMs = true → (sm.next c).state = .inactive
  arms : ∀ nowMs, c = .step (.slotElapsed nowMs) → 0 < sm.dwellMs → sm.state = .dwelling → (sm.next c).state = .dwelling →
    (sm.next c).dwellDeadlineMs = some (sm.dwellDeadlineMs.getD (nowMs + sm.dwellMs))

theorem callKeeps {sm : DiscoverySm} (armed : Armed sm) (c : Call) : CallKeeps sm c where
  ends := fun _ timed late => overdueReturns armed timed late
  arms := by
    rintro nowMs rfl budget dwelling stays
    exact slotArms budget dwelling nowMs stays
  leaves := by
    intro leaving
    have went := callWent sm c
    generalize actions : (sm.call c).1 = as at went leaving
    generalize next : sm.next c = sm' at went
    cases went with
    | left called home enabled held state deadline =>
      rw [← next, called]
      exact ⟨enabled,(stepEnabled sm _).trans enabled⟩
    | quiet | arrived | decoded | returned | lastSlot => simp at leaving
  restores := by
    have went := callWent sm c
    generalize (sm.call c).1 = actions at went ⊢
    generalize sm.next c = sm' at went ⊢
    cases went with
    | quiet state deadline => simp [state]
    | left called home enabled held state deadline => simp [home]
    | arrived away state => simp [state]
    | decoded dwelling state => simp [state]
    | returned away state deadline => simp [away, state]
    | lastSlot dwelling state deadline => simp [dwelling, state]
  decodes := by
    have went := callWent sm c
    generalize (sm.call c).1 = actions at went ⊢
    generalize sm.next c = sm' at went
    cases went with
    | decoded dwelling state => exact fun _ => dwelling
    | lastSlot dwelling state deadline => exact fun _ => dwelling
    | quiet | left | arrived | returned => simp

inductive Trip : Bool → List DiscoveryAction → Prop where
  | home : Trip false []
  | leave {actions} (before : Trip false actions) : Trip true (actions ++ [.saveHomeAndTune])
  | back {actions} (before : Trip true actions) : Trip false (actions ++ [.restoreHome])

def travels : DiscoveryAction → Bool
  | .saveHomeAndTune | .restoreHome => true
  | _ => false

def DiscoverySm.away (sm : DiscoverySm) : Bool := sm.state != .inactive

theorem tripCall {sm : DiscoverySm} {before : List DiscoveryAction} (trip : Trip sm.away before) (c : Call) :
    Trip (sm.next c).away (before ++ (sm.call c).1.filter travels) := by
  have went := callWent sm c
  unfold DiscoverySm.away at trip ⊢
  generalize (sm.call c).1 = actions at went ⊢
  generalize sm.next c = sm' at went ⊢
  cases went with
  | quiet state deadline => simpa [state] using trip
  | left called home enabled held state deadline =>
    rw [state]
    rw [home] at trip
    exact .leave trip
  | arrived away state =>
    rw [away] at trip
    rw [state]
    show Trip true (before ++ [])
    rw [List.append_nil]
    exact trip
  | decoded dwelling state =>
    rw [dwelling] at trip
    rw [state]
    simpa [travels] using trip
  | returned away state deadline =>
    rw [state]
    rw [bne_iff_ne.mpr away] at trip
    exact .back trip
  | lastSlot dwelling state deadline =>
    rw [state]
    rw [dwelling] at trip
    exact .back trip

theorem tripRun {sm : DiscoverySm} {before : List DiscoveryAction} (trip : Trip sm.away before) (calls : List Call) :
    Trip (run DiscoverySm.next sm calls).away (before ++ (outputs DiscoverySm.call sm calls).filter travels) := by
  induction calls generalizing sm before with
  | nil => simpa [outputs] using trip
  | cons c calls ih =>
    have rest := ih (tripCall trip c)
    rw [runCons, outputs, List.filter_append, ← List.append_assoc]
    exact rest

def Call.tickAt : Call → Option (Bool × UInt64)
  | .step (.tick idle clockOk nowMs) => some (idle && clockOk,nowMs)
  | _ => none

def ticks (calls : List Call) : List (Bool × UInt64) := calls.filterMap Call.tickAt

theorem ticksUntimed {c : Call} (untimed : c.tickAt = none) (calls : List Call) : ticks (calls ++ [c]) = ticks calls := by
  simp [ticks, untimed]

theorem ticksTimed {c : Call} {t : Bool × UInt64} (timed : c.tickAt = some t) (calls : List Call) :
    ticks (calls ++ [c]) = ticks calls ++ [t] := by
  simp [ticks, timed]

def IdleSince (since : UInt64) (heard : List (Bool × UInt64)) : Prop :=
  ∃ before stretch, heard = before ++ (true,since)::stretch ∧ ∀ t ∈ stretch, t.1 = true

theorem idleGrows {since : UInt64} {heard : List (Bool × UInt64)} (idle : IdleSince since heard) (nowMs : UInt64) :
    IdleSince since (heard ++ [(true,nowMs)]) := by
  obtain ⟨before,stretch,rfl,all⟩ := idle
  refine ⟨before,stretch ++ [(true,nowMs)],by simp,?_⟩
  intro t member
  rcases List.mem_append.mp member with old | new
  · exact all t old
  · rw [List.mem_singleton.mp new]

def Tracked (heard : List (Bool × UInt64)) (sm : DiscoverySm) : Prop := ∀ since, sm.idleSinceMs = some since → IdleSince since heard

theorem trackedTick {sm : DiscoverySm} {heard : List (Bool × UInt64)} (tracked : Tracked heard sm) (nowMs : UInt64) :
    IdleSince (sm.idleSinceMs.getD nowMs) (heard ++ [(true,nowMs)]) := by
  cases known : sm.idleSinceMs with
  | none => exact ⟨heard,[],rfl,by simp⟩
  | some since => exact idleGrows (tracked since known) nowMs

theorem idleNext {sm : DiscoverySm} {c : Call} {since : UInt64} (known : (sm.next c).idleSinceMs = some since) :
    c.tickAt = none ∧ sm.idleSinceMs = some since ∨
      ∃ nowMs, c.tickAt = some (true,nowMs) ∧ sm.idleSinceMs.getD nowMs = since := by
  cases c with
  | setEnabled on =>
    refine .inl ⟨rfl,?_⟩
    simp only [DiscoverySm.next, DiscoverySm.call, DiscoverySm.setEnabled] at known
    split at known
    · cases known
    · exact known
  | step ev =>
    simp only [DiscoverySm.next, DiscoverySm.call] at known
    cases ev with
    | tick idle clockOk nowMs =>
      refine .inr ⟨nowMs,?_⟩
      have tracked : (sm.trackIdle idle clockOk nowMs).idleSinceMs = some since := by
        simp only [DiscoverySm.step, DiscoverySm.onTick] at known
        repeat' split at known
        all_goals first | exact known | cases known
      simp only [DiscoverySm.trackIdle] at tracked
      split at tracked
      · rename_i idling
        simp only [Bool.and_eq_true] at idling
        exact ⟨by simp [Call.tickAt, idling.1],Option.some.inj tracked⟩
      · cases tracked
    | preempt =>
      refine .inl ⟨rfl,?_⟩
      simp only [DiscoverySm.step] at known
      split at known
      · cases known
      · exact known
    | qsyComplete ok =>
      refine .inl ⟨rfl,?_⟩
      simp only [DiscoverySm.step, DiscoverySm.onQsy] at known
      repeat' split at known
      all_goals first | exact known | cases known
    | slotElapsed nowMs =>
      refine .inl ⟨rfl,?_⟩
      simp only [DiscoverySm.step, DiscoverySm.onSlot, DiscoverySm.arm] at known
      repeat' split at known
      all_goals first | exact known | cases known

theorem trackedNext {sm : DiscoverySm} {calls : List Call} (tracked : Tracked (ticks calls) sm) (c : Call) :
    Tracked (ticks (calls ++ [c])) (sm.next c) := by
  intro since known
  rcases idleNext known with ⟨untimed,still⟩ | ⟨nowMs,timed,rfl⟩
  · rw [ticksUntimed untimed]
    exact tracked since still
  · rw [ticksTimed timed]
    exact trackedTick tracked nowMs

def IdleHeld (graceMs : UInt64) (heard : List (Bool × UInt64)) : Prop :=
  ∃ since nowMs, IdleSince since heard ∧ heard.getLast? = some (true,nowMs) ∧ graceMs.toNat ≤ nowMs.toNat - since.toNat

theorem leftHeld {sm : DiscoverySm} {calls : List Call} (tracked : Tracked (ticks calls) sm) {c : Call}
    (leaving : .saveHomeAndTune ∈ (sm.call c).1) : IdleHeld sm.idleGraceMs (ticks (calls ++ [c])) := by
  have went := callWent sm c
  generalize (sm.call c).1 = actions at went leaving
  generalize sm.next c = sm' at went
  cases went with
  | @left sm' nowMs called home enabled held state deadline =>
    have timed : c.tickAt = some (true,nowMs) := by
      rw [called]
      rfl
    rw [ticksTimed timed]
    exact ⟨_,nowMs,trackedTick tracked nowMs,by simp,held⟩
  | quiet | arrived | decoded | returned | lastSlot => simp at leaving

theorem graceNext (sm : DiscoverySm) (c : Call) : (sm.next c).idleGraceMs = sm.idleGraceMs := by
  unfold DiscoverySm.next DiscoverySm.call DiscoverySm.setEnabled DiscoverySm.step DiscoverySm.onTick DiscoverySm.onQsy
    DiscoverySm.onSlot DiscoverySm.arm DiscoverySm.trackIdle
  dsimp only
  repeat' split
  all_goals rfl

structure Sound (graceMs : UInt64) (calls : List Call) (sm : DiscoverySm) : Prop where
  armed : Armed sm
  tracked : Tracked (ticks calls) sm
  grace : sm.idleGraceMs = graceMs

theorem soundRun (enabled : Bool) (graceMs dwellMs : UInt64) (calls : List Call) :
    Sound graceMs calls (run DiscoverySm.next (.new enabled graceMs dwellMs) calls) := by
  induction calls using List.reverseRecOn with
  | nil => exact ⟨fun pending => absurd rfl pending,nofun,rfl⟩
  | append_singleton calls c ih =>
    rw [runAppend]
    exact ⟨armedNext ih.armed c,trackedNext ih.tracked c,(graceNext _ c).trans ih.grace⟩

theorem alwaysReturnsHome (enabled : Bool) (graceMs dwellMs : UInt64) (calls : List Call) :
    Trip (run DiscoverySm.next (.new enabled graceMs dwellMs) calls).away
      ((outputs DiscoverySm.call (.new enabled graceMs dwellMs) calls).filter travels) ∧
    ∀ before c after, calls = before ++ c::after → ∀ sm, sm = run DiscoverySm.next (.new enabled graceMs dwellMs) before →
      CallKeeps sm c ∧ (.saveHomeAndTune ∈ (sm.call c).1 → IdleHeld graceMs (ticks (before ++ [c]))) := by
  constructor
  · have start : Trip (DiscoverySm.new enabled graceMs dwellMs).away [] := .home
    exact tripRun start calls
  · rintro before c after - sm rfl
    have sound := soundRun enabled graceMs dwellMs before
    refine ⟨callKeeps sound.armed c,fun leaving => ?_⟩
    rw [← sound.grace]
    exact leftHeld sound.tracked leaving

example : outputs DiscoverySm.call (.new true 0 30000) [.step (.tick true true 0),.step (.qsyComplete true),
      .step (.slotElapsed 15000),.step (.slotElapsed 30000),.step (.slotElapsed 45000)] =
    [.saveHomeAndTune,.stateChanged .activating,.stateChanged .dwelling,.decodeSlot,.decodeSlot,.decodeSlot,.restoreHome,
      .stateChanged .inactive] := by
  decide

end OpenPulse.Discovery
