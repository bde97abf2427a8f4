import OpenPulse.Discovery
import OpenPulse.Hint
import OpenPulse.RendezvousSession
import OpenPulse.Tables

/-! The discovery runtime: `openpulse-discovery/src/runtime.rs`, with the clock and the slot
tracker of `scheduler.rs`. The dwell audio and the table of stations are left out: what a
slot decodes to, and whether a station is new, is given with the tick. The audio of a frame
is the frame. -/
namespace OpenPulse.DiscoverySlots
open Discovery Hint Js8 Rendezvous Tables Words
open B2f (trim)

/- None where the source panics, as `packGrid` does. -/
def packHeartbeatFrame (callsign grid : List Char) : Option (Option Payload) :=
  (if (trim grid).length = 4 then packGrid grid else some gridInvalid).map (packCompoundFrame callsign .heartbeat · 0)

def heartbeat (callsign grid : List Char) : Option (List BeaconFrame) :=
  (packHeartbeatFrame callsign grid).map fun packed => packed.toList.map (⟨·,0⟩)

inductive Submode where
  | slow | normal | fast | turbo | ultra
  deriving DecidableEq, Repr

def Submode.slotSecs : Submode → UInt64
  | slow => 30
  | normal => 15
  | fast => 10
  | turbo => 6
  | ultra => 4

def js8ModeLabel : Submode → String
  | .slow => "JS8-SLOW"
  | .normal => "JS8-NORMAL"
  | .fast => "JS8-FAST"
  | .turbo => "JS8-TURBO"
  | .ultra => "JS8-ULTRA"

structure Js8Clock where
  slotLenMs : UInt64
  driftBiasMs : Int
  deriving DecidableEq, Repr

namespace Js8Clock

def new (submode : Submode) : Js8Clock := ⟨submode.slotSecs * 1000,0⟩

variable (c : Js8Clock)

def corrected (nowMs : UInt64) : UInt64 := UInt64.ofNat (min (nowMs.toNat + c.driftBiasMs).toNat (2 ^ 64 - 1))

def slotIndex (nowMs : UInt64) : UInt64 := c.corrected nowMs / c.slotLenMs

def observeDtMs (dtMs : Int) : Js8Clock := { c with driftBiasMs := c.driftBiasMs + (dtMs - c.driftBiasMs).tdiv 8 }

def txAllowed (maxSkewMs : UInt64) : Bool := decide (c.driftBiasMs.natAbs ≤ maxSkewMs.toNat)

end Js8Clock

structure SlotTracker where
  lastSlot : Option UInt64
  deriving DecidableEq, Repr

def SlotTracker.advance (t : SlotTracker) (currentSlot : UInt64) : Option UInt64 × SlotTracker :=
  ((t.lastSlot.filter (· < currentSlot)).map fun _ => currentSlot - 1,⟨some currentSlot⟩)

inductive TxMode where
  | rxOnly | beacon | full
  deriving DecidableEq, Repr

/-- What stays as configured; a grid on which the source panics is no configuration. -/
structure DiscoveryParams where
  enabled : Bool
  idleGraceMs : UInt64
  dwellMs : UInt64
  submode : Submode
  callingFreqHz : UInt64
  txMode : TxMode
  callsign : List Char
  grid : List Char
  hint : Option HintPayload
  heartbeatIntervalSlots : UInt64
  hintIntervalBeacons : UInt64
  maxClockSkewMs : UInt64
  packs : (packGrid grid).isSome = true
  deriving DecidableEq

inductive DiscoveryOutcome where
  | retune (dialFreqHz : UInt64)
  | restoreHome
  | stateChanged (state : DiscoveryState)
  | stationHeard (callsign : List Char) (grid : Option (List Char)) (isNew : Bool)
  | transmitBeacon (frame : BeaconFrame) (mode : String)
  | rendezvousAgreed (peer : List Char) (channel switchInSlots : UInt8)
  | rendezvousRejected (peer : List Char) (reason : RejectReason)
  | rendezvousTimedOut (peer : List Char)
  deriving DecidableEq

def responderCooldownMs : Nat := 120000

def maxTrackedResponders : Nat := 512

def defaultSwitchSlots : UInt8 := 4

abbrev Agreement := List Char × UInt8 × UInt8

structure DiscoveryRuntime where
  params : DiscoveryParams
  sm : DiscoverySm
  clock : Js8Clock
  slots : SlotTracker
  rendezvousChannels : List UInt8
  initiator : Option RendezvousInitiator
  rendezvousTx : List BeaconFrame
  lastResponseMs : Table (List Char) UInt64
  pendingResponderAgreement : Option Agreement
  beaconQueue : List BeaconFrame
  slotsSinceBeacon : UInt64
  beaconsSent : UInt64
  deriving DecidableEq

structure StationSeen where
  callsign : List Char
  grid : Option (List Char)
  isNew : Bool
  deriving DecidableEq

structure Decode where
  dtMs : Int
  hinted : Option StationSeen
  message : Option (List Char × RendezvousMsg)
  heartbeat : Option StationSeen
  deriving DecidableEq

def StationSeen.outcome (s : StationSeen) : DiscoveryOutcome := .stationHeard s.callsign s.grid s.isNew

def moves : DiscoveryOutcome → Bool
  | .retune _ | .restoreHome | .stateChanged _ | .transmitBeacon _ _ => true
  | _ => false

def Still (outcomes : List DiscoveryOutcome) : Prop := ∀ o ∈ outcomes, moves o = false

theorem stillNil : Still [] := by simp [Still]

theorem stillAppend {xs ys : List DiscoveryOutcome} (left : Still xs) (right : Still ys) : Still (xs ++ ys) := by
  intro o member
  rcases List.mem_append.mp member with here | there
  · exact left o here
  · exact right o there

theorem stillOne {o : DiscoveryOutcome} (still : moves o = false) : Still [o] := by
  intro o' member
  rw [List.mem_singleton.mp member]
  exact still

namespace DiscoveryRuntime

def new (params : DiscoveryParams) : DiscoveryRuntime where
  params := params
  sm := .new params.enabled params.idleGraceMs params.dwellMs
  clock := .new params.submode
  slots := ⟨none⟩
  rendezvousChannels := []
  initiator := none
  rendezvousTx := []
  lastResponseMs := ∅
  pendingResponderAgreement := none
  beaconQueue := []
  slotsSinceBeacon := 0
  beaconsSent := 0

variable (rt : DiscoveryRuntime)

def state : DiscoveryState := rt.sm.state

def dialFreqHz : UInt64 := rt.params.callingFreqHz

def setDialFreqHz (hz : UInt64) : DiscoveryRuntime := { rt with params := { rt.params with callingFreqHz := hz } }

def setRendezvousChannels (channels : List UInt8) : DiscoveryRuntime := { rt with rendezvousChannels := channels }

def directedFrames (to' : List Char) (msg : RendezvousMsg) : List BeaconFrame :=
  (directed rt.params.callsign rt.params.grid to' msg.encode).getD []

def enqueueDirected (to' : List Char) (msg : RendezvousMsg) : DiscoveryRuntime :=
  { rt with rendezvousTx := rt.rendezvousTx ++ rt.directedFrames to' msg }

def startRendezvous (peer token : List Char) (channels : List UInt8) (timeoutSlots : Nat) : DiscoveryRuntime :=
  if (trim rt.params.callsign).isEmpty || rt.params.txMode == .rxOnly then rt
  else
    let started := RendezvousInitiator.start peer token channels timeoutSlots
    { rt.enqueueDirected started.1.peer started.2 with initiator := some started.1 }

def rendezvousActive : Bool := rt.initiator.isSome

/- The earliest answer; of two at one time, the one whose key sorts first. -/
def oldestResponse : Option (List Char) :=
  (rt.lastResponseMs.entries.foldl (fun best row => match best with
    | none => some row
    | some b => if row.2 < b.2 ∨ row.2 = b.2 ∧ row.1 < b.1 then some row else some b) none).map (·.1)

def noteResponse (peer : List Char) (nowMs : UInt64) : DiscoveryRuntime :=
  let full := maxTrackedResponders ≤ size rt.lastResponseMs ∧ rt.lastResponseMs.lookup peer = none
  let kept := if full then rt.oldestResponse.elim rt.lastResponseMs rt.lastResponseMs.erase else rt.lastResponseMs
  { rt with lastResponseMs := kept.insert peer nowMs }

def cooling (peer : List Char) (nowMs : UInt64) : Bool :=
  (rt.lastResponseMs.lookup peer).any fun last => nowMs.toNat - last.toNat < responderCooldownMs

def reply (from' : List Char) (msg : RendezvousMsg) (nowMs : UInt64) : Option RendezvousMsg :=
  match msg with
  | .propose _ _ =>
    if rt.params.txMode ≠ .full ∨ rt.cooling (toUpper (trim from')) nowMs = true then none
    else
      match respond msg rt.rendezvousChannels defaultSwitchSlots with
      | .send reply => some reply
      | _ => none
  | _ => none

def withhold (from' : List Char) (msg : RendezvousMsg) : DiscoveryRuntime :=
  match msg with
  | .accept _ channel switchInSlots => { rt with pendingResponderAgreement := some (from',channel,switchInSlots) }
  | _ => rt

def answer (from' : List Char) (msg : RendezvousMsg) (nowMs : UInt64) : DiscoveryRuntime :=
  match rt.reply from' msg nowMs with
  | none => rt
  | some reply => ((rt.noteResponse (toUpper (trim from')) nowMs).enqueueDirected from' reply).withhold from' reply

def proposalTo (from' : List Char) : Option RendezvousInitiator :=
  rt.initiator.filter fun init => eqIgnoreAsciiCase init.peer (trim from')

def handleRendezvous (from' : List Char) (msg : RendezvousMsg) (nowMs : UInt64) : List DiscoveryOutcome × DiscoveryRuntime :=
  match rt.proposalTo from' with
  | none => ([],rt.answer from' msg nowMs)
  | some init =>
    match init.onMessage msg with
    | (some (.qsy channel switchInSlots),_) =>
      ([.rendezvousAgreed from' channel switchInSlots],{ rt with initiator := none })
    | (some (.rejected reason),_) => ([.rendezvousRejected from' reason],{ rt with initiator := none })
    | (_,init) => ([],{ rt with initiator := some init })

def hearOver (message : Option (List Char × RendezvousMsg)) (nowMs : UInt64) : List DiscoveryOutcome × DiscoveryRuntime :=
  match message with
  | none => ([],rt)
  | some (from',msg) => rt.handleRendezvous from' msg nowMs

def observe (d : Decode) : DiscoveryRuntime := { rt with clock := rt.clock.observeDtMs d.dtMs }

def hear (d : Decode) (nowMs : UInt64) : List DiscoveryOutcome × DiscoveryRuntime :=
  let heard := (rt.observe d).hearOver d.message nowMs
  (d.hinted.toList.map StationSeen.outcome ++ heard.1 ++ d.heartbeat.toList.map StationSeen.outcome,heard.2)

def decodeSlot (rt : DiscoveryRuntime) (nowMs : UInt64) : List Decode → List DiscoveryOutcome × DiscoveryRuntime
  | [] => ([],rt)
  | d::decoded =>
    let rest := decodeSlot (rt.hear d nowMs).2 nowMs decoded
    ((rt.hear d nowMs).1 ++ rest.1,rest.2)

def mayTransmit : Bool :=
  !(trim rt.params.callsign).isEmpty && rt.clock.txAllowed rt.params.maxClockSkewMs && rt.params.txMode != .rxOnly

def beaconFrames : List BeaconFrame :=
  match rt.params.hint with
  | some hint =>
    if 0 < rt.params.hintIntervalBeacons ∧ rt.beaconsSent % rt.params.hintIntervalBeacons = 0 then
      (opulseHint rt.params.callsign rt.params.grid (encodeHint hint rt.params.callsign)).getD []
    else (heartbeat rt.params.callsign rt.params.grid).getD []
  | none => (heartbeat rt.params.callsign rt.params.grid).getD []

def popBeacon : Option BeaconFrame × DiscoveryRuntime := (rt.beaconQueue.head?,{ rt with beaconQueue := rt.beaconQueue.tail })

def beacon : Option BeaconFrame × DiscoveryRuntime :=
  if rt.beaconQueue.isEmpty then
    if rt.slotsSinceBeacon + 1 < rt.params.heartbeatIntervalSlots then
      (none,{ rt with slotsSinceBeacon := rt.slotsSinceBeacon + 1 })
    else popBeacon { rt with slotsSinceBeacon := 0, beaconsSent := rt.beaconsSent + 1, beaconQueue := rt.beaconFrames }
  else rt.popBeacon

def maybeTransmit : Option BeaconFrame × DiscoveryRuntime :=
  if rt.mayTransmit then
    match rt.rendezvousTx with
    | frame::rest => (some frame,{ rt with rendezvousTx := rest })
    | [] => rt.beacon
  else (none,rt)

def runAction (nowMs : UInt64) (decoded : List Decode) : DiscoveryAction → List DiscoveryOutcome × DiscoveryRuntime
  | .saveHomeAndTune => ([.retune rt.params.callingFreqHz],rt)
  | .restoreHome => ([.restoreHome],rt)
  | .stateChanged s => ([.stateChanged s],rt)
  | .decodeSlot => rt.decodeSlot nowMs decoded

def runActions (rt : DiscoveryRuntime) (nowMs : UInt64) (decoded : List Decode) :
    List DiscoveryAction → List DiscoveryOutcome × DiscoveryRuntime
  | [] => ([],rt)
  | a::actions =>
    let rest := runActions (rt.runAction nowMs decoded a).2 nowMs decoded actions
    ((rt.runAction nowMs decoded a).1 ++ rest.1,rest.2)

def feed (nowMs : UInt64) (decoded : List Decode) (c : Call) : List DiscoveryOutcome × DiscoveryRuntime :=
  runActions { rt with sm := rt.sm.next c } nowMs decoded (rt.sm.call c).1

def setEnabled (on : Bool) : List DiscoveryOutcome × DiscoveryRuntime := rt.feed 0 [] (.setEnabled on)

def qsyComplete (ok : Bool) : List DiscoveryOutcome × DiscoveryRuntime := rt.feed 0 [] (.step (.qsyComplete ok))

def preempt : List DiscoveryOutcome × DiscoveryRuntime := rt.feed 0 [] (.step .preempt)

def surface : List DiscoveryOutcome × DiscoveryRuntime :=
  match rt.pendingResponderAgreement with
  | none => ([],rt)
  | some (peer,channel,switchInSlots) =>
    ([.rendezvousAgreed peer channel switchInSlots],{ rt with pendingResponderAgreement := none })

def age : List DiscoveryOutcome × DiscoveryRuntime :=
  match rt.initiator with
  | none => ([],rt)
  | some init =>
    match init.onSlot with
    | (some .timedOut,init) => ([.rendezvousTimedOut init.peer],{ rt with initiator := none })
    | (_,init) => ([],{ rt with initiator := some init })

def slotOpens : List DiscoveryOutcome × DiscoveryRuntime :=
  if rt.rendezvousTx.isEmpty then (rt.surface.1 ++ rt.surface.2.age.1,rt.surface.2.age.2) else ([],rt)

def crossSlot (nowMs : UInt64) (decoded : List Decode) : List DiscoveryOutcome × DiscoveryRuntime :=
  match rt.slotOpens.2.maybeTransmit with
  | (some frame,next) => (rt.slotOpens.1 ++ [.transmitBeacon frame (js8ModeLabel rt.params.submode)],next)
  | (none,next) =>
    (rt.slotOpens.1 ++ (next.feed nowMs decoded (.step (.slotElapsed nowMs))).1,
      (next.feed nowMs decoded (.step (.slotElapsed nowMs))).2)

def crosses (nowMs : UInt64) : Bool := (rt.slots.advance (rt.clock.slotIndex nowMs)).1.isSome

def advanceSlot (nowMs : UInt64) : DiscoveryRuntime :=
  { rt with slots := (rt.slots.advance (rt.clock.slotIndex nowMs)).2 }

def slotWork (nowMs : UInt64) (decoded : List Decode) : List DiscoveryOutcome × DiscoveryRuntime :=
  if rt.state = .dwelling then
    if rt.crosses nowMs then (rt.advanceSlot nowMs).crossSlot nowMs decoded else ([],rt.advanceSlot nowMs)
  else ([],rt)

def clockOk : Bool := rt.clock.txAllowed (UInt64.ofNat (2 ^ 64 - 1))

def tick (nowMs : UInt64) (idle : Bool) (decoded : List Decode) : List DiscoveryOutcome × DiscoveryRuntime :=
  let ticked := rt.feed nowMs decoded (.step (.tick idle rt.clockOk nowMs))
  (ticked.1 ++ (ticked.2.slotWork nowMs decoded).1,(ticked.2.slotWork nowMs decoded).2)

structure Keeps (rt rt' : DiscoveryRuntime) : Prop where
  params : rt'.params = rt.params
  sm : rt'.sm = rt.sm
  slots : rt'.slots = rt.slots

theorem Keeps.refl (rt : DiscoveryRuntime) : Keeps rt rt := ⟨rfl,rfl,rfl⟩

theorem Keeps.trans {a b c : DiscoveryRuntime} (first : Keeps a b) (second : Keeps b c) : Keeps a c :=
  ⟨second.params.trans first.params,second.sm.trans first.sm,second.slots.trans first.slots⟩

theorem answerKeeps (from' : List Char) (msg : RendezvousMsg) (nowMs : UInt64) : Keeps rt (rt.answer from' msg nowMs) := by
  unfold answer
  cases rt.reply from' msg nowMs with
  | none => exact .refl rt
  | some reply => cases reply <;> exact ⟨rfl,rfl,rfl⟩

theorem handleKeeps (from' : List Char) (msg : RendezvousMsg) (nowMs : UInt64) :
    Keeps rt (rt.handleRendezvous from' msg nowMs).2 ∧ Still (rt.handleRendezvous from' msg nowMs).1 := by
  unfold handleRendezvous
  cases rt.proposalTo from' with
  | none => exact ⟨answerKeeps rt from' msg nowMs,stillNil⟩
  | some init =>
    dsimp only
    split
    · exact ⟨⟨rfl,rfl,rfl⟩,stillOne rfl⟩
    · exact ⟨⟨rfl,rfl,rfl⟩,stillOne rfl⟩
    · exact ⟨⟨rfl,rfl,rfl⟩,stillNil⟩

theorem hearOverKeeps (message : Option (List Char × RendezvousMsg)) (nowMs : UInt64) :
    Keeps rt (rt.hearOver message nowMs).2 ∧ Still (rt.hearOver message nowMs).1 := by
  rcases message with _ | ⟨from',msg⟩
  · exact ⟨.refl rt,stillNil⟩
  · exact handleKeeps rt from' msg nowMs

theorem seenStill (seen : Option StationSeen) : Still (seen.toList.map StationSeen.outcome) := by
  cases seen with
  | none => exact stillNil
  | some seen => exact stillOne rfl

theorem hearKeeps (d : Decode) (nowMs : UInt64) : Keeps rt (rt.hear d nowMs).2 ∧ Still (rt.hear d nowMs).1 := by
  obtain ⟨keeps,still⟩ := hearOverKeeps (rt.observe d) d.message nowMs
  have observed : Keeps rt (rt.observe d) := ⟨rfl,rfl,rfl⟩
  exact ⟨observed.trans keeps,stillAppend (stillAppend (seenStill d.hinted) still) (seenStill d.heartbeat)⟩

theorem decodeKeeps (nowMs : UInt64) (decoded : List Decode) :
    Keeps rt (rt.decodeSlot nowMs decoded).2 ∧ Still (rt.decodeSlot nowMs decoded).1 := by
  induction decoded generalizing rt with
  | nil => exact ⟨.refl rt,stillNil⟩
  | cons d decoded ih =>
    obtain ⟨first,quiet⟩ := hearKeeps rt d nowMs
    obtain ⟨rest,still⟩ := ih (rt.hear d nowMs).2
    exact ⟨first.trans rest,stillAppend quiet still⟩

theorem surfaceKeeps : Keeps rt rt.surface.2 ∧ Still rt.surface.1 := by
  unfold surface
  split
  · exact ⟨.refl rt,stillNil⟩
  · exact ⟨⟨rfl,rfl,rfl⟩,stillOne rfl⟩

theorem ageKeeps : Keeps rt rt.age.2 ∧ Still rt.age.1 := by
  unfold age
  split
  · exact ⟨.refl rt,stillNil⟩
  · split
    · exact ⟨⟨rfl,rfl,rfl⟩,stillOne rfl⟩
    · exact ⟨⟨rfl,rfl,rfl⟩,stillNil⟩

theorem slotOpensKeeps : Keeps rt rt.slotOpens.2 ∧ Still rt.slotOpens.1 := by
  unfold slotOpens
  split
  · exact ⟨(surfaceKeeps rt).1.trans (ageKeeps rt.surface.2).1,stillAppend (surfaceKeeps rt).2 (ageKeeps rt.surface.2).2⟩
  · exact ⟨.refl rt,stillNil⟩

theorem maybeTransmitKeeps : Keeps rt rt.maybeTransmit.2 := by
  unfold maybeTransmit
  split
  · split
    · exact ⟨rfl,rfl,rfl⟩
    · unfold beacon
      split
      · split <;> exact ⟨rfl,rfl,rfl⟩
      · exact ⟨rfl,rfl,rfl⟩
  · exact .refl rt

variable (nowMs : UInt64) (idle : Bool)

def ticked : DiscoveryRuntime := { rt with sm := rt.sm.next (.step (.tick idle rt.clockOk nowMs)) }

def entered : DiscoveryRuntime := (rt.ticked nowMs idle).advanceSlot nowMs

def atBoundary : Bool := (rt.ticked nowMs idle).state == .dwelling && rt.crosses nowMs

def slotMachine : DiscoverySm := (rt.ticked nowMs idle).sm.next (.step (.slotElapsed nowMs))

inductive Ticked (decoded : List Decode) : List DiscoveryOutcome → DiscoveryRuntime → Prop where
  | rests (away : rt.state ≠ .dwelling) (still : (rt.ticked nowMs idle).state = rt.state) : Ticked decoded [] (rt.ticked nowMs idle)
  | leaves (home : rt.state = .inactive) (state : (rt.ticked nowMs idle).state = .activating) :
      Ticked decoded [.retune rt.dialFreqHz,.stateChanged .activating] (rt.ticked nowMs idle)
  | returns (dwelling : rt.state = .dwelling) (late : rt.sm.overdue nowMs = true)
      (state : (rt.ticked nowMs idle).state = .inactive) :
      Ticked decoded [.restoreHome,.stateChanged .inactive] (rt.ticked nowMs idle)
  | waits (dwelling : rt.state = .dwelling) (state : (rt.ticked nowMs idle).state = .dwelling)
      (within : rt.crosses nowMs = false) : Ticked decoded [] (rt.entered nowMs idle)
  | sends {frame next} (dwelling : rt.state = .dwelling) (boundary : rt.atBoundary nowMs idle = true)
      (sent : (rt.entered nowMs idle).slotOpens.2.maybeTransmit = (some frame,next)) :
      Ticked decoded ((rt.entered nowMs idle).slotOpens.1 ++ [.transmitBeacon frame (js8ModeLabel rt.params.submode)]) next
  | hears {next} (dwelling : rt.state = .dwelling) (boundary : rt.atBoundary nowMs idle = true)
      (silent : (rt.entered nowMs idle).slotOpens.2.maybeTransmit = (none,next))
      (state : (rt.slotMachine nowMs idle).state = .dwelling) :
      Ticked decoded ((rt.entered nowMs idle).slotOpens.1 ++ (decodeSlot { next with sm := rt.slotMachine nowMs idle } nowMs decoded).1)
        (decodeSlot { next with sm := rt.slotMachine nowMs idle } nowMs decoded).2
  | lastSlot {next} (dwelling : rt.state = .dwelling) (boundary : rt.atBoundary nowMs idle = true)
      (silent : (rt.entered nowMs idle).slotOpens.2.maybeTransmit = (none,next))
      (late : ((rt.ticked nowMs idle).sm.arm nowMs).overdue nowMs = true)
      (state : (rt.slotMachine nowMs idle).state = .inactive) :
      Ticked decoded ((rt.entered nowMs idle).slotOpens.1 ++
          (decodeSlot { next with sm := rt.slotMachine nowMs idle } nowMs decoded).1 ++ [.restoreHome,.stateChanged .inactive])
        (decodeSlot { next with sm := rt.slotMachine nowMs idle } nowMs decoded).2

inductive Machine : DiscoveryRuntime → List DiscoveryOutcome → Prop where
  | rests (still : (rt.ticked nowMs idle).state = rt.state) : Machine (rt.ticked nowMs idle) []
  | leaves (home : rt.state = .inactive) (state : (rt.ticked nowMs idle).state = .activating) :
      Machine (rt.ticked nowMs idle) [.retune rt.dialFreqHz,.stateChanged .activating]
  | returns (dwelling : rt.state = .dwelling) (late : rt.sm.overdue nowMs = true)
      (state : (rt.ticked nowMs idle).state = .inactive) :
      Machine (rt.ticked nowMs idle) [.restoreHome,.stateChanged .inactive]

theorem feedTick (decoded : List Decode) {actions : List DiscoveryAction} {sm : DiscoverySm}
    (went : rt.sm.onTick idle rt.clockOk nowMs = (actions,sm)) :
    rt.feed nowMs decoded (.step (.tick idle rt.clockOk nowMs)) = runActions (rt.ticked nowMs idle) nowMs decoded actions ∧
      (rt.ticked nowMs idle).state = sm.state := by
  have call : rt.sm.call (.step (.tick idle rt.clockOk nowMs)) = (actions,sm) := went
  have next : rt.sm.next (.step (.tick idle rt.clockOk nowMs)) = sm := congrArg Prod.snd went
  constructor
  · rw [feed, call]
    rfl
  · exact congrArg DiscoverySm.state next

theorem machine (decoded : List Decode) :
    Machine rt nowMs idle (rt.feed nowMs decoded (.step (.tick idle rt.clockOk nowMs))).2
      (rt.feed nowMs decoded (.step (.tick idle rt.clockOk nowMs))).1 := by
  have kept : (rt.sm.trackIdle idle rt.clockOk nowMs).state = rt.sm.state := rfl
  cases place : rt.sm.state with
  | inactive =>
    by_cases held : (rt.sm.trackIdle idle rt.clockOk nowMs).idleSinceMs.any
        (fun since => (rt.sm.trackIdle idle rt.clockOk nowMs).idleGraceMs.toNat ≤ DiscoverySm.heldFor nowMs since) = true
    · have went : rt.sm.onTick idle rt.clockOk nowMs = ([.saveHomeAndTune,.stateChanged .activating],
          { rt.sm.trackIdle idle rt.clockOk nowMs with state := .activating, idleSinceMs := none }) := by
        simp only [DiscoverySm.onTick, kept, place, held, if_true]
      obtain ⟨fed,state⟩ := feedTick rt nowMs idle decoded went
      rw [fed]
      exact .leaves place state
    · have went : rt.sm.onTick idle rt.clockOk nowMs = ([],rt.sm.trackIdle idle rt.clockOk nowMs) := by
        simp only [DiscoverySm.onTick, kept, place, if_neg held]
      obtain ⟨fed,state⟩ := feedTick rt nowMs idle decoded went
      rw [fed]
      exact .rests state
  | activating =>
    have went : rt.sm.onTick idle rt.clockOk nowMs = ([],rt.sm.trackIdle idle rt.clockOk nowMs) := by
      simp only [DiscoverySm.onTick, kept, place]
    obtain ⟨fed,state⟩ := feedTick rt nowMs idle decoded went
    rw [fed]
    exact .rests state
  | dwelling =>
    cases late : rt.sm.overdue nowMs with
    | true =>
      have due : (rt.sm.trackIdle idle rt.clockOk nowMs).overdue nowMs = true := late
      have went : rt.sm.onTick idle rt.clockOk nowMs = (rt.sm.trackIdle idle rt.clockOk nowMs).standDown := by
        simp only [DiscoverySm.onTick, kept, place, due, if_true]
      obtain ⟨fed,state⟩ := feedTick rt nowMs idle decoded went
      rw [fed]
      exact .returns place late state
    | false =>
      have due : (rt.sm.trackIdle idle rt.clockOk nowMs).overdue nowMs = false := late
      have went : rt.sm.onTick idle rt.clockOk nowMs = ([],rt.sm.trackIdle idle rt.clockOk nowMs) := by
        simp only [DiscoverySm.onTick, kept, place, due, Bool.false_eq_true, if_false]
      obtain ⟨fed,state⟩ := feedTick rt nowMs idle decoded went
      rw [fed]
      exact .rests state

/- No tick arrives: a rig only arrives with a retune. -/
theorem tickedDwelling (there : (rt.ticked nowMs idle).state = .dwelling) : rt.state = .dwelling := by
  have first := machine rt nowMs idle []
  generalize (rt.feed nowMs [] (.step (.tick idle rt.clockOk nowMs))).1 = out at first
  generalize (rt.feed nowMs [] (.step (.tick idle rt.clockOk nowMs))).2 = next at first
  cases first with
  | rests still => exact still.symm.trans there
  | leaves home state => exact absurd (state.symm.trans there) (by decide)
  | returns dwelling late state => exact dwelling

theorem feedSlot (next : DiscoveryRuntime) (decoded : List Decode) (dwelling : next.sm.state = .dwelling) :
    let sm := next.sm.next (.step (.slotElapsed nowMs))
    let heard := decodeSlot { next with sm } nowMs decoded
    next.feed nowMs decoded (.step (.slotElapsed nowMs)) = heard ∧ sm.state = .dwelling ∨
      next.feed nowMs decoded (.step (.slotElapsed nowMs)) = (heard.1 ++ [.restoreHome,.stateChanged .inactive],heard.2) ∧
        (next.sm.arm nowMs).overdue nowMs = true ∧ sm.state = .inactive := by
  intro sm heard
  have armed : (next.sm.arm nowMs).state = .dwelling := by
    unfold DiscoverySm.arm
    split <;> exact dwelling
  cases late : (next.sm.arm nowMs).overdue nowMs with
  | true =>
    have went : next.sm.onSlot nowMs = (.decodeSlot :: (next.sm.arm nowMs).standDown.1,(next.sm.arm nowMs).standDown.2) := by
      simp only [DiscoverySm.onSlot, dwelling, late, ne_eq, not_true_eq_false, if_false, if_true]
    have call : next.sm.call (.step (.slotElapsed nowMs)) =
        ([.decodeSlot,.restoreHome,.stateChanged .inactive],(next.sm.arm nowMs).standDown.2) := went
    have state : sm.state = .inactive := congrArg (fun went => went.2.state) call
    refine .inr ⟨?_,rfl,state⟩
    rw [feed, call]
    rfl
  | false =>
    have went : next.sm.onSlot nowMs = ([.decodeSlot],next.sm.arm nowMs) := by
      simp only [DiscoverySm.onSlot, dwelling, late, ne_eq, not_true_eq_false, if_false, Bool.false_eq_true]
    have call : next.sm.call (.step (.slotElapsed nowMs)) = ([.decodeSlot],next.sm.arm nowMs) := went
    have state : sm.state = .dwelling := (congrArg (fun went => went.2.state) call).trans armed
    refine .inl ⟨?_,state⟩
    rw [feed, call]
    exact Prod.ext (List.append_nil heard.1) rfl

theorem crossSent {frame : BeaconFrame} {next : DiscoveryRuntime} (decoded : List Decode)
    (sent : rt.slotOpens.2.maybeTransmit = (some frame,next)) :
    rt.crossSlot nowMs decoded = (rt.slotOpens.1 ++ [.transmitBeacon frame (js8ModeLabel rt.params.submode)],next) := by
  simp only [crossSlot, sent]

theorem crossSilent {next : DiscoveryRuntime} (decoded : List Decode) (silent : rt.slotOpens.2.maybeTransmit = (none,next)) :
    rt.crossSlot nowMs decoded = (rt.slotOpens.1 ++ (next.feed nowMs decoded (.step (.slotElapsed nowMs))).1,
      (next.feed nowMs decoded (.step (.slotElapsed nowMs))).2) := by
  simp only [crossSlot, silent]

theorem turnKeeps {rt next : DiscoveryRuntime} {nowMs : UInt64} {idle : Bool} {sent : Option BeaconFrame}
    (turn : (rt.entered nowMs idle).slotOpens.2.maybeTransmit = (sent,next)) : Keeps (rt.entered nowMs idle) next := by
  have keeps := (slotOpensKeeps (rt.entered nowMs idle)).1.trans (maybeTransmitKeeps (rt.entered nowMs idle).slotOpens.2)
  rw [turn] at keeps
  exact keeps

theorem tickWent (decoded : List Decode) :
    Ticked rt nowMs idle decoded (rt.tick nowMs idle decoded).1 (rt.tick nowMs idle decoded).2 := by
  have first := machine rt nowMs idle decoded
  unfold tick
  dsimp only
  generalize (rt.feed nowMs decoded (.step (.tick idle rt.clockOk nowMs))).1 = out at first ⊢
  generalize (rt.feed nowMs decoded (.step (.tick idle rt.clockOk nowMs))).2 = next at first ⊢
  have away : (rt.ticked nowMs idle).state ≠ .dwelling →
      (rt.ticked nowMs idle).slotWork nowMs decoded = ([],rt.ticked nowMs idle) := fun away => if_neg away
  cases first with
  | leaves home state =>
    rw [away (by simp [state])]
    exact .leaves home state
  | returns dwelling late state =>
    rw [away (by simp [state])]
    exact .returns dwelling late state
  | rests still =>
    rw [List.nil_append]
    by_cases dwelling : rt.state = .dwelling
    · have there : (rt.ticked nowMs idle).state = .dwelling := still.trans dwelling
      cases within : rt.crosses nowMs with
      | false =>
        have waited : (rt.ticked nowMs idle).slotWork nowMs decoded = ([],rt.entered nowMs idle) := by
          rw [slotWork, if_pos there]
          exact if_neg (Bool.eq_false_iff.mp within)
        rw [waited]
        exact .waits dwelling there within
      | true =>
        have boundary : rt.atBoundary nowMs idle = true := by simp [atBoundary, there, within]
        have crossed : (rt.ticked nowMs idle).slotWork nowMs decoded = (rt.entered nowMs idle).crossSlot nowMs decoded := by
          rw [slotWork, if_pos there]
          exact if_pos within
        rw [crossed]
        cases sent : (rt.entered nowMs idle).slotOpens.2.maybeTransmit with
        | mk frame next =>
          have sm : next.sm = (rt.ticked nowMs idle).sm := (turnKeeps sent).sm
          cases frame with
          | some frame =>
            rw [crossSent _ nowMs decoded sent]
            exact .sends dwelling boundary sent
          | none =>
            rw [crossSilent _ nowMs decoded sent]
            have machine : next.sm.next (.step (.slotElapsed nowMs)) = rt.slotMachine nowMs idle := by rw [slotMachine, sm]
            rcases feedSlot nowMs next decoded (sm ▸ there) with ⟨fed,state⟩ | ⟨fed,late,state⟩
            · rw [fed, machine]
              exact .hears dwelling boundary sent (machine ▸ state)
            · rw [fed, machine]
              dsimp only
              rw [← List.append_assoc]
              rw [sm] at late
              exact .lastSlot dwelling boundary sent late (machine ▸ state)
    · rw [away (by rw [still]; exact dwelling)]
      exact .rests dwelling still

def setsOut : Bool := rt.state == .inactive && (rt.ticked nowMs idle).state == .activating

def sendsOver : Bool := rt.atBoundary nowMs idle && !rt.rendezvousTx.isEmpty && rt.mayTransmit

def endsDwell : Bool :=
  rt.sm.overdue nowMs ||
    rt.atBoundary nowMs idle && (rt.entered nowMs idle).slotOpens.2.maybeTransmit.1.isNone &&
      ((rt.ticked nowMs idle).sm.arm nowMs).overdue nowMs

theorem runActionsIdle (actions : List DiscoveryAction) : (runActions rt nowMs [] actions).2 = rt := by
  induction actions with
  | nil => rfl
  | cons a actions ih =>
    have first : (rt.runAction nowMs [] a).2 = rt := by cases a <;> rfl
    rw [runActions, first]
    exact ih

theorem feedIdle (c : Call) : (rt.feed nowMs [] c).2 = { rt with sm := rt.sm.next c } := runActionsIdle _ nowMs _

theorem qsyState (ok : Bool) (activating : rt.state = .activating) :
    (rt.qsyComplete ok).2.state = if ok then .dwelling else .inactive := by
  have place : rt.sm.state = .activating := activating
  rw [qsyComplete, feedIdle]
  cases ok <;> simp [state, DiscoverySm.next, DiscoverySm.call, DiscoverySm.step, DiscoverySm.onQsy, place, DiscoverySm.standDown]

theorem enableState (on : Bool) :
    (rt.setEnabled on).2.state = if on = false then .inactive else rt.state := by
  rw [setEnabled, feedIdle]
  cases on with
  | true => simp [state, DiscoverySm.next, DiscoverySm.call, DiscoverySm.setEnabled]
  | false =>
    cases place : rt.sm.state <;>
      simp [state, DiscoverySm.next, DiscoverySm.call, DiscoverySm.setEnabled, place, DiscoverySm.standDown]

theorem preemptState : rt.preempt.2.state = .inactive := by
  rw [preempt, feedIdle]
  cases place : rt.sm.state <;> simp [state, DiscoverySm.next, DiscoverySm.call, DiscoverySm.step, place, DiscoverySm.standDown]

end DiscoveryRuntime

end OpenPulse.DiscoverySlots
