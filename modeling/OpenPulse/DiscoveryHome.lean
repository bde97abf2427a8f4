import OpenPulse.DiscoveryTick
import OpenPulse.Runs

/-! The home frequency of a station that goes discovering and is left alone: nobody tunes
it, and no rendezvous takes it away. -/
namespace OpenPulse.DiscoveryHome
open Discovery DiscoverySlots DiscoveryTick Runs

inductive Event where
  | tick (i : Tick)
  | setEnabled (on : Bool)
  deriving DecidableEq

structure Watched where
  station : Station
  home : Option UInt64
  deriving DecidableEq

def begin (s : Station) : Watched := ⟨s,s.rig⟩

def step (w : Watched) : Event → Watched
  | .tick i => ⟨(w.station.discoveryTick i).2,if w.station.setsOut i then w.station.rig else w.home⟩
  | .setEnabled on => ⟨w.station.setDiscoveryEnabled on,w.home⟩

def Recovers (w : Watched) : Prop := ∃ ticks : List Tick, (run step w (ticks.map Event.tick)).station.rig = w.home

/-- Where discovery is not at work, the rig is home, or its home is kept and a tick goes back to it. -/
def Home (w : Watched) : Prop :=
  w.station.state = .inactive →
    w.station.rig = w.home ∨ w.station.rs.discoveryHomeFreqHz = w.home ∧ Recovers w

def Unagreed (w : Watched) : Event → Prop
  | .tick i => w.station.rs.dueNow i.nowMs = none
  | .setEnabled _ => True

/- Where there is a rig: discovery sets out from the frequency the daemon believes it to be
on, and comes back by a tick, with a retune that the rig takes. -/
def Returns (w : Watched) : Event → Prop
  | .tick i => ∀ dial, w.station.rig = some dial →
      (w.station.setsOut i = true → w.station.rs.lastFreqHz = some dial) ∧
        (w.station.state = .dwelling → w.station.rs.discovery.endsDwell i.nowMs i.modem.idle = true → i.catOk = true)
  | .setEnabled on => on = false → w.station.state = .dwelling → w.station.rig = none

structure Kept (w : Watched) : Prop where
  settled : w.station.state ≠ .activating
  there : w.station.state = .inactive → w.station.rig = w.home
  away : w.station.state = .dwelling → ∀ home, w.home = some home → w.station.rs.discoveryHomeFreqHz = some home
  rigged : w.station.rig.isSome = w.home.isSome

theorem keptBegin {s : Station} (home : s.state = .inactive) : Kept (begin s) where
  settled := by simp [begin, home]
  there _ := rfl
  away dwelling := by
    rw [begin, home] at dwelling
    cases dwelling
  rigged := rfl

theorem staysHome {s : Station} {i : Tick} (home : s.state = .inactive → s.rs.tuned.setsOut i.nowMs i.modem.idle = false)
    (elsewhere : s.state ≠ .activating) : s.setsOut i = false := by
  have place : s.rs.tuned.state = s.state := congrArg DiscoverySm.state (Station.tunedMachine s.rs)
  cases here : s.state with
  | inactive => simp [Station.setsOut, home here]
  | activating => exact absurd here elsewhere
  | dwelling => simp [Station.setsOut, DiscoveryRuntime.setsOut, place, here]

theorem keptLeaves {s : Station} {catOk : Bool} {hz : UInt64} (out : s.state = .activating)
    (known : ∀ dial, s.rig = some dial → s.rs.lastFreqHz = some dial) : Kept ⟨s.leaveHome catOk hz,s.rig⟩ := by
  have state : ∀ ok, (s.rs.discovery.qsyComplete ok).2.state = if ok then .dwelling else .inactive :=
    fun ok => DiscoveryRuntime.qsyState s.rs.discovery ok out
  cases rig : s.rig with
  | none =>
    have there : (s.leaveHome catOk hz).state = .dwelling := by
      simp [Station.leaveHome, Station.state, Station.withRuntime, Station.tune, discoveryRetune, rig, state]
    have bare : (s.leaveHome catOk hz).rig = none := by
      simp [Station.leaveHome, Station.withRuntime, Station.tune, discoveryRetune, rig]
    refine ⟨by simp [there],fun home => ?_,fun _ home none' => ?_,by simp [bare]⟩
    · rw [there] at home
      cases home
    · cases none'
  | some dial =>
    cases catOk with
    | true =>
      have there : (s.leaveHome true hz).state = .dwelling := by
        simp [Station.leaveHome, Station.state, Station.withRuntime, Station.tune, discoveryRetune, rig, state]
      refine ⟨by simp [there],fun home => ?_,fun _ home kept => ?_,?_⟩
      · rw [there] at home
        cases home
      · cases kept
        simp [Station.leaveHome, Station.withRuntime, Station.tune, known dial rig]
      · simp [Station.leaveHome, Station.withRuntime, Station.tune, discoveryRetune, rig]
    | false =>
      have back : (s.leaveHome false hz).state = .inactive := by
        simp [Station.leaveHome, Station.state, Station.withRuntime, Station.tune, discoveryRetune, rig, state]
      have still : (s.leaveHome false hz).rig = some dial := by
        simp [Station.leaveHome, Station.withRuntime, Station.tune, discoveryRetune, rig]
      refine ⟨by simp [back],fun _ => still,fun away => ?_,by simp [still]⟩
      rw [back] at away
      cases away

theorem keptReturns {s : Station} {home : Option UInt64} {catOk : Bool} (back : s.state = .inactive)
    (kept : ∀ hz, home = some hz → s.rs.discoveryHomeFreqHz = some hz) (rigged : s.rig.isSome = home.isSome)
    (takes : s.rig.isSome = true → catOk = true) : Kept ⟨s.restoreHome catOk,home⟩ := by
  have state : (s.restoreHome catOk).state = .inactive := by
    unfold Station.restoreHome
    split <;> exact back
  have there : (s.restoreHome catOk).rig = home := by
    cases rig : s.rig with
    | none =>
      rw [rig] at rigged
      cases home with
      | some hz => cases rigged
      | none => cases field : s.rs.discoveryHomeFreqHz <;> simp [Station.restoreHome, field, Station.tune, discoveryRetune, rig]
    | some dial =>
      rw [rig] at rigged takes
      cases home with
      | none => cases rigged
      | some hz => simp [Station.restoreHome, kept hz rfl, Station.tune, discoveryRetune, rig, takes]
  refine ⟨by simp [state],fun _ => there,fun away => ?_,by simp [there]⟩
  rw [state] at away
  cases away

theorem keptTick {w : Watched} {i : Tick} (kept : Kept w) (unagreed : Unagreed w (.tick i)) (returns : Returns w (.tick i)) :
    Kept (step w (.tick i)) := by
  obtain ⟨s,home⟩ := w
  obtain ⟨settled,there,away,rigged⟩ := kept
  have passed := Station.tickPasses s i
  simp only [step]
  generalize s.discoveryTick i = out at passed ⊢
  have place : s.rs.tuned.state = s.state := congrArg DiscoverySm.state (Station.tunedMachine s.rs)
  cases passed with
  | handsOff due =>
    rw [show s.rs.dueNow i.nowMs = none from unagreed] at due
    cases due
  | rests free elsewhere still =>
    have stays : s.setsOut i = false := by
      refine staysHome (fun inactive => ?_) settled
      simp [DiscoveryRuntime.setsOut, still, inactive]
    rw [stays]
    exact ⟨fun state => settled (still.symm.trans state),fun state => there (still.symm.trans state),
      fun state => absurd (still.symm.trans state) elsewhere,rigged⟩
  | leaves free inactive out =>
    have sets : s.setsOut i = true := by simp [Station.setsOut, free, out]
    rw [sets]
    have activating : (s.rs.tuned.ticked i.nowMs i.modem.idle).state = .activating := by
      simp only [DiscoveryRuntime.setsOut, Bool.and_eq_true, beq_iff_eq] at out
      exact out.2
    exact keptLeaves (s := s.withRuntime _) activating fun dial rig => (returns dial rig).1 sets
  | stays due free dwelling still slot =>
    have stays : s.setsOut i = false := staysHome (fun inactive => by rw [dwelling] at inactive; cases inactive) settled
    rw [stays]
    refine ⟨fun state => ?_,fun state => ?_,fun _ => away dwelling,rigged⟩
    · cases still.symm.trans state
    · cases still.symm.trans state
  | returns due free dwelling ends back slot =>
    have stays : s.setsOut i = false := staysHome (fun inactive => by rw [dwelling] at inactive; cases inactive) settled
    rw [stays]
    refine keptReturns (s := (s.withRuntime _).schedule due) back (away dwelling) rigged fun some' => ?_
    obtain ⟨dial,rig⟩ := Option.isSome_iff_exists.mp some'
    exact (returns dial rig).2 dwelling ends

theorem keptEnabled {w : Watched} {on : Bool} (kept : Kept w) (returns : Returns w (.setEnabled on)) :
    Kept (step w (.setEnabled on)) := by
  have state : (step w (.setEnabled on)).station.state = if on = false then .inactive else w.station.state :=
    DiscoveryRuntime.enableState w.station.rs.discovery on
  cases on with
  | true => exact ⟨fun here => kept.settled (state.symm.trans here),fun here => kept.there (state.symm.trans here),
      fun here => kept.away (state.symm.trans here),kept.rigged⟩
  | false =>
    refine ⟨by simp [state],fun _ => ?_,fun here => ?_,kept.rigged⟩
    · cases place : w.station.state with
      | inactive => exact kept.there place
      | activating => exact absurd place kept.settled
      | dwelling =>
        have bare : w.station.rig = none := returns rfl place
        have rigged := kept.rigged
        rw [bare] at rigged
        have none' : w.home = none := by simpa using rigged.symm
        exact bare.trans none'.symm
    · rw [state] at here
      cases here

/-- A station that begins at home and returns like this is home whenever discovery is inactive. -/
theorem homeKept {s : Station} {es : List Event} (inactive : s.state = .inactive)
    (left : EveryStep step (fun w e => Unagreed w e ∧ Returns w e) (begin s) es) :
    ∀ w ∈ reached step (begin s) es, Home w := by
  have keeps : ∀ w e, Kept w → Unagreed w e ∧ Returns w e → Kept (step w e) := by
    rintro w (i | on) kept ⟨unagreed,returns⟩
    · exact keptTick kept unagreed returns
    · exact keptEnabled kept returns
  intro w member here
  exact .inl ((reachedInvariant keeps (keptBegin inactive) left w member).there here)

def quietParams : DiscoveryParams where
  enabled := true
  idleGraceMs := 0
  dwellMs := 1
  submode := .normal
  callingFreqHz := 14078000
  txMode := .rxOnly
  callsign := []
  grid := []
  hint := none
  heartbeatIntervalSlots := 8
  hintIntervalBeacons := 3
  maxClockSkewMs := 2000
  packs := rfl

def quietStation : Station where
  rs := { discovery := .new quietParams, lastFreqHz := some 14074000, discoveryHomeFreqHz := none,
          discoveryCallingFreqsHz := [], discoveryRendezvousChannelsHz := [], rendezvousQsyDue := none,
          rendezvousConnectReady := none }
  rig := some 14074000

def quietTick (nowMs : UInt64) (catOk : Bool) : Tick := ⟨⟨.idle,false,false,false,false⟩,false,[],catOk,nowMs⟩

def thereAndBack (catOk : Bool) : List Event :=
  [.tick (quietTick 1000 true),.tick (quietTick 1000 true),.tick (quietTick 15000 true),.tick (quietTick 15001 catOk)]

theorem returnsOf {w : Watched} {i : Tick} (known : w.station.setsOut i = true → w.station.rs.lastFreqHz = w.station.rig)
    (takes : i.catOk = true) : Returns w (.tick i) :=
  fun _ rig => ⟨fun out => (known out).trans rig,fun _ _ => takes⟩

theorem homeKeptThereAndBack : (∀ w ∈ reached step (begin quietStation) (thereAndBack true), Home w) ∧
    (run step (begin quietStation) ((thereAndBack true).take 1)).station.rig = some 14078000 := by
  refine ⟨homeKept rfl ⟨?_,?_,?_,?_,trivial⟩,by decide⟩
  · exact ⟨rfl,returnsOf (by decide) rfl⟩
  · exact ⟨rfl,returnsOf (by decide) rfl⟩
  · exact ⟨rfl,returnsOf (by decide) rfl⟩
  · exact ⟨rfl,returnsOf (by decide) rfl⟩

structure Off (s : Station) : Prop where
  inactive : s.state = .inactive
  disabled : s.rs.discovery.sm.enabled = false
  unagreed : s.rs.rendezvousQsyDue = none

theorem offTick {s : Station} (off : Off s) (i : Tick) : Off (s.discoveryTick i).2 ∧ (s.discoveryTick i).2.rig = s.rig := by
  obtain ⟨inactive,disabled,unagreed⟩ := off
  have sm := Station.tunedMachine s.rs
  have rests : ∀ clockOk, s.rs.discovery.sm.next (.step (.tick i.modem.idle clockOk i.nowMs)) =
      { s.rs.discovery.sm with idleSinceMs := none } := by
    intro clockOk
    have place : s.rs.discovery.sm.state = .inactive := inactive
    simp [DiscoverySm.next, DiscoverySm.call, DiscoverySm.step, DiscoverySm.onTick, DiscoverySm.trackIdle, place, disabled]
  have passed := Station.tickPasses s i
  generalize s.discoveryTick i = out at passed ⊢
  cases passed with
  | handsOff due => simp [RuntimeControlState.dueNow, unagreed] at due
  | rests free elsewhere still =>
    refine ⟨⟨still.trans inactive,?_,unagreed⟩,rfl⟩
    simp [Station.withRuntime, DiscoveryRuntime.ticked, sm, rests, disabled]
  | leaves free home out =>
    have place : s.rs.discovery.sm.state = .inactive := inactive
    simp [DiscoveryRuntime.setsOut, DiscoveryRuntime.state, DiscoveryRuntime.ticked, sm, rests, place] at out
  | stays due free dwelling still slot =>
    rw [inactive] at dwelling
    cases dwelling
  | returns due free dwelling ends back slot =>
    rw [inactive] at dwelling
    cases dwelling

theorem offForever {w : Watched} (off : Off w.station) (ticks : List Tick) :
    (run step w (ticks.map Event.tick)).station.rig = w.station.rig := by
  induction ticks generalizing w with
  | nil => rfl
  | cons i ticks ih =>
    obtain ⟨stays,rig⟩ := offTick off i
    exact (ih (w := step w (.tick i)) stays).trans rig

/- Two ways to stay on the calling channel: the rig refuses the retune home, and the home is
forgotten; or the operator switches discovery off, and the retune is never asked for. -/
theorem homeForgotten : ¬ Home (run step (begin quietStation) (thereAndBack false)) ∧
    ¬ Home (run step (begin quietStation) [.tick (quietTick 1000 true),.setEnabled false]) := by
  constructor
  · intro home
    rcases home (by decide) with stays | ⟨kept,-⟩
    · revert stays
      decide
    · revert kept
      decide
  · intro home
    rcases home (by decide) with stays | ⟨-,ticks,back⟩
    · revert stays
      decide
    · rw [offForever ⟨by decide,by decide,by decide⟩ ticks] at back
      revert back
      decide

end OpenPulse.DiscoveryHome
