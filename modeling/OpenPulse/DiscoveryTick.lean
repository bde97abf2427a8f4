import OpenPulse.Bandplan
import OpenPulse.DiscoverySlots
import OpenPulse.HpxRuns

/-! The daemon around its discovery runtime: `discovery_tick` and the handoff of
`openpulse-daemon/src/server.rs`, and the discovery commands of `openpulse-daemon/src/lib.rs`,
for a daemon that has discovery configured. Events are left out; the rig answers for itself. -/
namespace OpenPulse.DiscoveryTick
open Bandplan Discovery DiscoverySlots Hpx Js8 Rendezvous

abbrev QsyDue := List Char × UInt64 × UInt64

structure RuntimeControlState where
  discovery : DiscoveryRuntime
  lastFreqHz : Option UInt64
  discoveryHomeFreqHz : Option UInt64
  discoveryCallingFreqsHz : List (String × UInt64)
  discoveryRendezvousChannelsHz : List (String × List UInt64)
  rendezvousQsyDue : Option QsyDue
  rendezvousConnectReady : Option (List Char × UInt64)
  deriving DecidableEq

structure Station where
  rs : RuntimeControlState
  rig : Option UInt64
  deriving DecidableEq

structure Modem where
  hpxState : HpxState
  pendingHandshake : Bool
  fileRx : Bool
  fileTx : Bool
  otaActive : Bool
  deriving DecidableEq, Repr

def Modem.idle (m : Modem) : Bool :=
  m.hpxState == .idle && !m.pendingHandshake && !m.fileRx && !m.fileTx && !m.otaActive

/- What one tick meets: `catOk` is the rig's answer to the one retune a tick can ask for. -/
structure Tick where
  modem : Modem
  busy : Bool
  decoded : List Decode
  catOk : Bool
  nowMs : UInt64
  deriving DecidableEq

def js8NormalSlotMs : UInt64 := 15000

def discoveryRetune (rig : Option UInt64) (catOk : Bool) (hz : UInt64) : Bool × Option UInt64 :=
  match rig with
  | none => (true,none)
  | some dial => if catOk then (true,some hz) else (false,some dial)

def channelIndices (channels : List UInt64) : List UInt8 := (List.range (min channels.length 255)).map UInt8.ofNat

namespace RuntimeControlState

variable (rs : RuntimeControlState)

def homeBand : Option String := if rs.discovery.state = .inactive then rs.lastFreqHz.bind bandLabelForHz else none

def perBandFreq : Option UInt64 := rs.homeBand.bind fun label => rs.discoveryCallingFreqsHz.lookup label

def perBandChannels : Option (List UInt8) :=
  rs.homeBand.map fun label => channelIndices ((rs.discoveryRendezvousChannelsHz.lookup label).getD [])

def channelsAt (dialFreqHz : UInt64) : Option (List UInt64) :=
  (bandLabelForHz dialFreqHz).bind fun label => rs.discoveryRendezvousChannelsHz.lookup label

def dwellChannels : Option (List UInt64) := rs.channelsAt rs.discovery.dialFreqHz

def tuned : DiscoveryRuntime :=
  let dialed := rs.perBandFreq.elim rs.discovery rs.discovery.setDialFreqHz
  rs.perBandChannels.elim dialed dialed.setRendezvousChannels

def dueNow (nowMs : UInt64) : Option (List Char × UInt64) :=
  (rs.rendezvousQsyDue.filter fun due => decide (due.2.2 ≤ nowMs)).map fun due => (due.1,due.2.1)

def takeRendezvousConnect : Option (List Char) × RuntimeControlState :=
  (rs.rendezvousConnectReady.map (·.1),{ rs with rendezvousConnectReady := none })

end RuntimeControlState

namespace Station

variable (s : Station)

def state : DiscoveryState := s.rs.discovery.state

def withRuntime (rt : DiscoveryRuntime) : Station := { s with rs := { s.rs with discovery := rt } }

def schedule (due : Option QsyDue) : Station := { s with rs := { s.rs with rendezvousQsyDue := due } }

def tune (catOk : Bool) (hz : UInt64) : Station :=
  ⟨{ s.rs with lastFreqHz := if (discoveryRetune s.rig catOk hz).1 then some hz else s.rs.lastFreqHz },
    (discoveryRetune s.rig catOk hz).2⟩

/- A due rendezvous. Nothing is asked of the modem, and the retune may have failed. -/
def handOff (catOk : Bool) (peer : List Char) (freqHz : UInt64) : Station :=
  let s := s.tune catOk freqHz
  let s := { s with rs := { s.rs with rendezvousQsyDue := none, discoveryHomeFreqHz := none } }
  { s with rs := { s.rs with discovery := s.rs.discovery.preempt.2, rendezvousConnectReady := some (peer,freqHz) } }

def leaveHome (catOk : Bool) (dialFreqHz : UInt64) : Station :=
  let home := s.rs.lastFreqHz
  let ok := (discoveryRetune s.rig catOk dialFreqHz).1
  let s := s.tune catOk dialFreqHz
  let s := { s with rs := { s.rs with discoveryHomeFreqHz := home } }
  s.withRuntime (s.rs.discovery.qsyComplete ok).2

/- The home is taken before the retune is tried. -/
def restoreHome (catOk : Bool) : Station :=
  match s.rs.discoveryHomeFreqHz with
  | none => s
  | some home =>
    let s := s.tune catOk home
    { s with rs := { s.rs with discoveryHomeFreqHz := none } }

def agree (channels : Option (List UInt64)) (nowMs : UInt64) (peer : List Char) (channel switchInSlots : UInt8) : Station :=
  match channels.bind fun channels => channels[channel.toNat]? with
  | none => s
  | some freqHz => s.schedule (some (peer,freqHz,nowMs + switchInSlots.toUInt64 * js8NormalSlotMs))

abbrev Due := Option (BeaconFrame × String) × Station

def perform (i : Tick) (channels : Option (List UInt64)) (out : Due) : DiscoveryOutcome → Due
  | .transmitBeacon frame mode => if i.busy then out else (some (frame,mode),out.2)
  | .retune dialFreqHz => (out.1,out.2.leaveHome i.catOk dialFreqHz)
  | .restoreHome => (out.1,out.2.restoreHome i.catOk)
  | .rendezvousAgreed peer channel switchInSlots => (out.1,out.2.agree channels i.nowMs peer channel switchInSlots)
  | .stateChanged _ | .stationHeard _ _ _ | .rendezvousRejected _ _ | .rendezvousTimedOut _ => out

def performAll (i : Tick) (channels : Option (List UInt64)) (out : Due) (outcomes : List DiscoveryOutcome) : Due :=
  outcomes.foldl (perform i channels) out

def runtimeTick (i : Tick) : List DiscoveryOutcome × DiscoveryRuntime := s.rs.tuned.tick i.nowMs i.modem.idle i.decoded

/-- The frame to key, if there is one, and the station afterwards. -/
def discoveryTick (i : Tick) : Due :=
  match s.rs.dueNow i.nowMs with
  | some (peer,freqHz) => (none,s.handOff i.catOk peer freqHz)
  | none => performAll i s.rs.dwellChannels (none,s.withRuntime (s.runtimeTick i).2) (s.runtimeTick i).1

def setsOut (i : Tick) : Bool := (s.rs.dueNow i.nowMs).isNone && s.rs.tuned.setsOut i.nowMs i.modem.idle

def sendsOver (i : Tick) : Bool := (s.rs.dueNow i.nowMs).isNone && s.rs.tuned.sendsOver i.nowMs i.modem.idle

/- What the runtime asks for is dropped here. -/
def setDiscoveryEnabled (on : Bool) : Station := s.withRuntime (s.rs.discovery.setEnabled on).2

def rendezvousTimeoutSlots : Nat := 16

def rendezvousToken (nowMs : UInt64) : List Char :=
  let v := nowMs.toNat % (36 * 36)
  [Hint.base36.getD (v / 36) '0',Hint.base36.getD (v % 36) '0']

def startRendezvousCmd (peer : List Char) (nowMs : UInt64) : Station :=
  let channels := channelIndices (s.rs.dwellChannels.getD [])
  if channels.isEmpty then s
  else s.withRuntime (s.rs.discovery.startRendezvous peer (rendezvousToken nowMs) channels rendezvousTimeoutSlots)

def setFreq (catOk : Bool) (freqHz : UInt64) : Station :=
  match s.rig with
  | none => s
  | some _ => s.tune catOk freqHz

end Station

inductive Command where
  | setEnabled (on : Bool)
  | rendezvousWith (peer : List Char) (nowMs : UInt64)
  | setFreq (freqHz : UInt64) (catOk : Bool)
  deriving DecidableEq

def Station.command (s : Station) : Command → Station
  | .setEnabled on => s.setDiscoveryEnabled on
  | .rendezvousWith peer nowMs => s.startRendezvousCmd peer nowMs
  | .setFreq freqHz catOk => s.setFreq catOk freqHz

namespace Station

variable (i : Tick) (channels : Option (List UInt64))

theorem performStill {outcomes : List DiscoveryOutcome} (still : Still outcomes) (sent : Option (BeaconFrame × String)) (s : Station) :
    ∃ due, performAll i channels (sent,s) outcomes = (sent,s.schedule due) := by
  induction outcomes generalizing s with
  | nil => exact ⟨s.rs.rendezvousQsyDue,rfl⟩
  | cons o outcomes ih =>
    have rest : Still outcomes := fun o member => still o (by simp [member])
    have quiet : moves o = false := still o (by simp)
    have first : ∃ due, perform i channels (sent,s) o = (sent,s.schedule due) := by
      cases o with
      | retune dial => cases quiet
      | restoreHome => cases quiet
      | stateChanged state => cases quiet
      | transmitBeacon frame mode => cases quiet
      | rendezvousAgreed peer channel switchInSlots =>
        simp only [perform, agree]
        split
        · exact ⟨s.rs.rendezvousQsyDue,rfl⟩
        · exact ⟨_,rfl⟩
      | stationHeard callsign grid isNew => exact ⟨s.rs.rendezvousQsyDue,rfl⟩
      | rendezvousRejected peer reason => exact ⟨s.rs.rendezvousQsyDue,rfl⟩
      | rendezvousTimedOut peer => exact ⟨s.rs.rendezvousQsyDue,rfl⟩
    obtain ⟨due,first⟩ := first
    obtain ⟨due',last⟩ := ih rest (s.schedule due)
    refine ⟨due',?_⟩
    rw [performAll, List.foldl_cons, first]
    exact last

theorem performSend {outcomes : List DiscoveryOutcome} (still : Still outcomes) (s : Station) (frame : BeaconFrame) (mode : String) :
    ∃ due, performAll i channels (none,s) (outcomes ++ [.transmitBeacon frame mode]) =
      (if i.busy then none else some (frame,mode),s.schedule due) := by
  obtain ⟨due,first⟩ := performStill i channels still none s
  refine ⟨due,?_⟩
  rw [performAll, List.foldl_append]
  rw [performAll] at first
  rw [first]
  cases busy : i.busy <;> simp [perform, busy]

theorem performReturn {outcomes : List DiscoveryOutcome} (still : Still outcomes) (s : Station) :
    ∃ due, performAll i channels (none,s) (outcomes ++ [.restoreHome,.stateChanged .inactive]) =
      (none,(s.schedule due).restoreHome i.catOk) := by
  obtain ⟨due,first⟩ := performStill i channels still none s
  refine ⟨due,?_⟩
  rw [performAll, List.foldl_append]
  rw [performAll] at first
  rw [first]
  rfl

inductive Slot (rt : DiscoveryRuntime) (i : Tick) : Option (BeaconFrame × String) → DiscoveryRuntime → Prop where
  | waits {sm slots} (within : rt.atBoundary i.nowMs i.modem.idle = false) : Slot rt i none { rt with sm, slots }
  | sends {frame next mode} (boundary : rt.atBoundary i.nowMs i.modem.idle = true)
      (sent : (rt.entered i.nowMs i.modem.idle).slotOpens.2.maybeTransmit = (some frame,next)) :
      Slot rt i (if i.busy then none else some (frame,mode)) next
  | hears {next} (boundary : rt.atBoundary i.nowMs i.modem.idle = true)
      (silent : (rt.entered i.nowMs i.modem.idle).slotOpens.2.maybeTransmit = (none,next)) :
      Slot rt i none (DiscoveryRuntime.decodeSlot { next with sm := rt.slotMachine i.nowMs i.modem.idle } i.nowMs i.decoded).2

inductive Passed (s : Station) (i : Tick) : Due → Prop where
  | handsOff {peer freqHz} (due : s.rs.dueNow i.nowMs = some (peer,freqHz)) : Passed s i (none,s.handOff i.catOk peer freqHz)
  | rests (free : s.rs.dueNow i.nowMs = none) (away : s.state ≠ .dwelling)
      (still : (s.rs.tuned.ticked i.nowMs i.modem.idle).state = s.state) :
      Passed s i (none,s.withRuntime (s.rs.tuned.ticked i.nowMs i.modem.idle))
  | leaves (free : s.rs.dueNow i.nowMs = none) (home : s.state = .inactive)
      (out : s.rs.tuned.setsOut i.nowMs i.modem.idle = true) :
      Passed s i (none,(s.withRuntime (s.rs.tuned.ticked i.nowMs i.modem.idle)).leaveHome i.catOk s.rs.tuned.dialFreqHz)
  | stays {sent rt} (due : Option QsyDue) (free : s.rs.dueNow i.nowMs = none) (dwelling : s.state = .dwelling) (still : rt.state = .dwelling)
      (slot : Slot s.rs.discovery i sent rt) : Passed s i (sent,(s.withRuntime rt).schedule due)
  | returns {rt} (due : Option QsyDue) (free : s.rs.dueNow i.nowMs = none) (dwelling : s.state = .dwelling)
      (ends : s.rs.discovery.endsDwell i.nowMs i.modem.idle = true) (back : rt.state = .inactive)
      (slot : Slot s.rs.discovery i none rt) : Passed s i (none,((s.withRuntime rt).schedule due).restoreHome i.catOk)

theorem tunedMachine (rs : RuntimeControlState) : rs.tuned.sm = rs.discovery.sm := by
  unfold RuntimeControlState.tuned
  cases rs.perBandChannels <;> cases rs.perBandFreq <;> rfl

theorem tunedAway {rs : RuntimeControlState} (away : rs.discovery.state ≠ .inactive) : rs.tuned = rs.discovery := by
  simp [RuntimeControlState.tuned, RuntimeControlState.perBandChannels, RuntimeControlState.perBandFreq,
    RuntimeControlState.homeBand, if_neg away]

theorem slotState {rt : DiscoveryRuntime} {nowMs : UInt64} {idle : Bool} (boundary : rt.atBoundary nowMs idle = true) :
    (rt.ticked nowMs idle).state = .dwelling := by
  simp only [DiscoveryRuntime.atBoundary, Bool.and_eq_true, beq_iff_eq] at boundary
  exact boundary.1

theorem heardStill (rt next : DiscoveryRuntime) (nowMs : UInt64) (idle : Bool) (sm : DiscoverySm) (decoded : List Decode) :
    Still ((rt.entered nowMs idle).slotOpens.1 ++ (DiscoveryRuntime.decodeSlot { next with sm } nowMs decoded).1) ∧
      (DiscoveryRuntime.decodeSlot { next with sm } nowMs decoded).2.sm = sm := by
  have opens := (DiscoveryRuntime.slotOpensKeeps (rt.entered nowMs idle)).2
  have hears := DiscoveryRuntime.decodeKeeps { next with sm } nowMs decoded
  exact ⟨stillAppend opens hears.2,hears.1.sm⟩

theorem Slot.params {rt rt' : DiscoveryRuntime} {i : Tick} {sent : Option (BeaconFrame × String)} (slot : Slot rt i sent rt') :
    rt'.params = rt.params := by
  cases slot with
  | waits within => rfl
  | sends boundary turn => exact (DiscoveryRuntime.turnKeeps turn).params
  | hears boundary turn =>
    exact (DiscoveryRuntime.decodeKeeps _ i.nowMs i.decoded).1.params.trans (DiscoveryRuntime.turnKeeps turn).params

theorem tickPasses (s : Station) (i : Tick) : Passed s i (s.discoveryTick i) := by
  unfold discoveryTick
  cases free : s.rs.dueNow i.nowMs with
  | some due => exact .handsOff free
  | none =>
    have place : s.rs.tuned.state = s.state := congrArg DiscoverySm.state (tunedMachine s.rs)
    have went := DiscoveryRuntime.tickWent s.rs.tuned i.nowMs i.modem.idle i.decoded
    have same : s.state = .dwelling → s.rs.tuned = s.rs.discovery := fun dwelling => tunedAway (by
      intro home
      rw [state, home] at dwelling
      cases dwelling)
    dsimp only [runtimeTick]
    generalize (s.rs.tuned.tick i.nowMs i.modem.idle i.decoded).1 = outcomes at went ⊢
    generalize (s.rs.tuned.tick i.nowMs i.modem.idle i.decoded).2 = rt at went ⊢
    cases went with
    | rests away still => exact .rests free (place ▸ away) (still.trans place)
    | leaves home state => exact .leaves free (place.symm.trans home) (by simp [DiscoveryRuntime.setsOut, home, state])
    | returns dwelling late state =>
      have dwelling := place.symm.trans dwelling
      rw [same dwelling] at late state ⊢
      have within : s.rs.discovery.atBoundary i.nowMs i.modem.idle = false := by simp [DiscoveryRuntime.atBoundary, state]
      exact .returns s.rs.rendezvousQsyDue free dwelling (by simp [DiscoveryRuntime.endsDwell, late]) state (.waits within)
    | waits dwelling state within =>
      have dwelling := place.symm.trans dwelling
      rw [same dwelling] at state within ⊢
      have within : s.rs.discovery.atBoundary i.nowMs i.modem.idle = false := by simp [DiscoveryRuntime.atBoundary, within]
      exact .stays s.rs.rendezvousQsyDue free dwelling state (.waits within)
    | @sends frame next dwelling boundary sent =>
      have dwelling := place.symm.trans dwelling
      rw [same dwelling] at boundary sent ⊢
      have keeps := (DiscoveryRuntime.turnKeeps sent).sm
      have opens := (DiscoveryRuntime.slotOpensKeeps (s.rs.discovery.entered i.nowMs i.modem.idle)).2
      obtain ⟨due,performed⟩ := performSend i s.rs.dwellChannels opens (s.withRuntime rt) frame
        (js8ModeLabel s.rs.discovery.params.submode)
      rw [performed]
      exact .stays due free dwelling ((congrArg DiscoverySm.state keeps).trans (slotState boundary)) (.sends boundary sent)
    | @hears next dwelling boundary silent state =>
      have dwelling := place.symm.trans dwelling
      rw [same dwelling] at boundary silent state ⊢
      obtain ⟨still,sm⟩ := heardStill s.rs.discovery next i.nowMs i.modem.idle (s.rs.discovery.slotMachine i.nowMs i.modem.idle) i.decoded
      obtain ⟨due,performed⟩ := performStill i s.rs.dwellChannels still none (s.withRuntime _)
      rw [performed]
      exact .stays due free dwelling ((congrArg DiscoverySm.state sm).trans state) (.hears boundary silent)
    | @lastSlot next dwelling boundary silent late state =>
      have dwelling := place.symm.trans dwelling
      rw [same dwelling] at boundary silent late state ⊢
      obtain ⟨still,sm⟩ := heardStill s.rs.discovery next i.nowMs i.modem.idle (s.rs.discovery.slotMachine i.nowMs i.modem.idle) i.decoded
      obtain ⟨due,performed⟩ := performReturn i s.rs.dwellChannels still (s.withRuntime _)
      rw [performed]
      have ends : s.rs.discovery.endsDwell i.nowMs i.modem.idle = true := by
        simp [DiscoveryRuntime.endsDwell, boundary, silent, late]
      exact .returns due free dwelling ends ((congrArg DiscoverySm.state sm).trans state) (.hears boundary silent)

end Station

namespace Bench

def params : DiscoveryParams where
  enabled := true
  idleGraceMs := 0
  dwellMs := 0
  submode := .normal
  callingFreqHz := 14078000
  txMode := .full
  callsign := "DC0SK".toList
  grid := "JN58".toList
  hint := none
  heartbeatIntervalSlots := 100
  hintIntervalBeacons := 0
  maxClockSkewMs := 2000
  packs := by decide

def station : Station where
  rs := { discovery := .new params, lastFreqHz := some 14074000, discoveryHomeFreqHz := none,
          discoveryCallingFreqsHz := [("20m",14078000),("40m",7078000)],
          discoveryRendezvousChannelsHz := [("20m",[14101000]),("40m",[7047000])],
          rendezvousQsyDue := none, rendezvousConnectReady := none }
  rig := some 14074000

def free : Modem := ⟨.idle,false,false,false,false⟩

def slot (n : UInt64) (busy : Bool) (decoded : List Decode) : Tick := ⟨free,busy,decoded,true,n * js8NormalSlotMs⟩

def proposal : Decode := ⟨0,none,some ("W1AW".toList,.propose "R7".toList [0]),none⟩

def meeting (busy : Bool) : List Tick :=
  [slot 0 false [],slot 0 false [],slot 1 false [proposal],slot 2 busy [],slot 3 busy [],slot 4 busy [],slot 5 busy [],
    slot 6 false []]

end Bench

end OpenPulse.DiscoveryTick
