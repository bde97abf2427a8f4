import OpenPulse.B2f
import OpenPulse.Runs
import OpenPulse.SharedPtt

/-! The cross-band repeater: `openpulse-repeater/src/lib.rs`, with the identification timer of
`openpulse-core/src/station_id.rs`. What the engines, the sensor, the hardware and the clock
answer during a call comes with the call; the watchdog may take the lock between any two of the
repeater's own acquisitions. -/
namespace OpenPulse.Repeater
open ByteCodec Runs SharedPtt

structure StationIdTimer where
  intervalMs : Nat
  lastIdMs : Nat
  lastTxMs : Nat
  txSinceId : Bool
  deriving DecidableEq, Repr

namespace StationIdTimer

def new (intervalMs nowMs : Nat) : StationIdTimer := ⟨intervalMs,nowMs,nowMs,false⟩

def isEnabled (t : StationIdTimer) : Bool := decide (0 < t.intervalMs)

def noteTx (t : StationIdTimer) (nowMs : Nat) : StationIdTimer :=
  if t.isEnabled then { t with txSinceId := true, lastTxMs := nowMs } else t

def idDue (t : StationIdTimer) (nowMs : Nat) : Bool :=
  t.isEnabled && t.txSinceId && decide (t.intervalMs ≤ nowMs - t.lastIdMs)

def markIdentified (t : StationIdTimer) (nowMs : Nat) : StationIdTimer := { t with lastIdMs := nowMs, txSinceId := false }

end StationIdTimer

structure RepeaterConfig where
  txHangMs : Nat
  fullDuplex : Bool
  callsign : String
  idIntervalSecs : Nat
  carrierSense : Bool
  deriving DecidableEq, Repr

inductive RepeaterError where
  | modem (text : String)
  | ptt (error : PttError)
  deriving DecidableEq, Repr

inductive Sense where
  | clear | busy | unreadable
  deriving DecidableEq, Repr

inductive Action where
  | sensed (s : Sense)
  | asserted
  deriving DecidableEq, Repr

def senseTicks : Nat := 4
def maxSenseFaults : Nat := 10

def maxU32 : Nat := 4294967295
def maxU64 : Nat := 18446744073709551615

structure CrossBandRepeater where
  station : Station
  sessionGuard : Option PttKeyGuard
  config : RepeaterConfig
  idTimer : Option StationIdTimer
  senseFaults : Nat
  burstsDeferred : Nat
  deriving DecidableEq, Repr

def new (config : RepeaterConfig) (maxDuration : Nat) : CrossBandRepeater where
  station := SharedPtt.new true maxDuration
  sessionGuard := none
  config := config
  idTimer := if B2f.trim config.callsign.toList ≠ [] ∧ 0 < config.idIntervalSecs then
      some (StationIdTimer.new (min (config.idIntervalSecs * 1000) maxU64) 0) else none
  senseFaults := 0
  burstsDeferred := 0

/- What the capture reads at each tick of a sense, and what the engine then thinks of the channel. -/
structure Sensor where
  reads : Nat → Bool
  busy : Nat → Bool
  faulted : Bool

def senseFrom (sensor : Sensor) (readAnything : Bool) (tick : Nat) : Nat → Sense
  | 0 => if sensor.faulted || !readAnything then .unreadable else .clear
  | left + 1 =>
    if sensor.busy tick then .busy else senseFrom sensor (readAnything || sensor.reads tick) (tick + 1) left

def senseOutputBand (config : RepeaterConfig) : Option Sensor → Sense
  | none => if config.carrierSense then .unreadable else .clear
  | some sensor => if config.carrierSense then senseFrom sensor false 0 senseTicks else .clear

abbrev Ticks := List (Nat × Bool)

/- One call of `relay_burst_at` with everything it asks for: the decoded burst, the sensor, the
engines' errors, the hardware's answers, the instants of its own lock acquisitions and the
watchdog's ticks before, between and after them. -/
structure Call where
  decoded : Option Bytes
  nowMs : Nat
  sensor : Option Sensor
  transmitError : Option String
  identifyError : Option String
  extendAt : Nat
  keyAt : Nat
  restampAt : Nat
  assertWorks : Bool
  releaseWorks : Bool
  beforeExtend : Ticks
  beforeKey : Ticks
  beforeGeneration : Ticks
  whileKeyed : Ticks
  beforeUnkey : Ticks

def watchdog (ticks : Ticks) (s : Station) : Station :=
  ticks.foldl (fun s tick => (s.forceReleaseIfExpired false tick.1 tick.2).2) s

/- `release_inner`: the check of `unkey_owned`, then `unkey`. -/
def releaseGuard (g : PttKeyGuard) (ticks : Ticks) (works : Bool) (s : Station) : Station :=
  if g.released then s
  else if s.owns g.generation then ((watchdog ticks s).unkey g.observer works).2
  else s

abbrev Acquired := Except RepeaterError PttKeyGuard × Station × List Action

def keyed (c : Call) (s : Station) : Acquired :=
  let s := watchdog c.beforeKey s
  let log := if s.armed then [] else [.asserted]
  match s.keyAs "automatic" false c.keyAt c.assertWorks with
  | (.error e,s) => (.error (.ptt e),s,log)
  | (.ok (),s) =>
    let s := watchdog c.beforeGeneration s
    (.ok ⟨false,false,s.generation⟩,s,log)

/- A stored guard that no longer owns the key is dropped, and the rig keyed again. -/
def acquireKey (guard : Option PttKeyGuard) (c : Call) (s : Station) : Acquired :=
  match guard with
  | none => keyed c s
  | some g =>
    let (live,s) := g.extend (watchdog c.beforeExtend s) c.extendAt
    if live then (.ok g,s,[]) else keyed c (releaseGuard g [] c.releaseWorks s)

def blindMessage : String :=
  "cannot read rig_b's band after 10 consecutive attempts; refusing to keep transmitting blind on an unattended " ++
  "station. Check [repeater] tx_device, or set carrier_sense = false to accept the risk deliberately"

abbrev Relayed := Except RepeaterError (Option Nat) × CrossBandRepeater × List Action

def emit (r : CrossBandRepeater) (c : Call) : Except RepeaterError Unit × CrossBandRepeater :=
  let r := { r with idTimer := r.idTimer.map (·.noteTx c.nowMs) }
  match c.transmitError with
  | some text => (.error (.modem text),r)
  | none =>
    if r.idTimer.any (·.idDue c.nowMs) then
      match c.identifyError with
      | some text => (.error (.modem text),r)
      | none => (.ok (),{ r with idTimer := r.idTimer.map (·.markIdentified c.nowMs) })
    else (.ok (),r)

def relayKeyed (r : CrossBandRepeater) (c : Call) (n : Nat) : Relayed :=
  match acquireKey r.sessionGuard c r.station with
  | (.error e,s,log) => (.error e,{ r with station := s, sessionGuard := none },log)
  | (.ok g,s,log) =>
    let s := watchdog c.whileKeyed s
    match emit { r with station := s, sessionGuard := none } c with
    | (.error e,r) => (.error e,{ r with station := releaseGuard g c.beforeUnkey c.releaseWorks s },log)
    | (.ok (),r) =>
      if r.config.fullDuplex then
        (.ok (some n),{ r with station := (g.extend s c.restampAt).2, sessionGuard := some g },log)
      else (.ok (some n),{ r with station := releaseGuard g c.beforeUnkey c.releaseWorks s },log)

def relayBurstAt (r : CrossBandRepeater) (c : Call) : Relayed :=
  match c.decoded with
  | none => (.ok none,r,[])
  | some bytes =>
    if bytes = [] then (.ok none,r,[])
    else if r.sessionGuard.isSome then relayKeyed r c bytes.length
    else match senseOutputBand r.config c.sensor with
      | .clear =>
        let (result,after,log) := relayKeyed { r with senseFaults := 0 } c bytes.length
        (result,after,.sensed .clear::log)
      | .busy => (.ok none,{ r with senseFaults := 0, burstsDeferred := min (r.burstsDeferred + 1) maxU64 },[.sensed .busy])
      | .unreadable =>
        let r := { r with senseFaults := min (r.senseFaults + 1) maxU32, burstsDeferred := min (r.burstsDeferred + 1) maxU64 }
        if maxSenseFaults ≤ r.senseFaults then (.error (.modem blindMessage),r,[.sensed .unreadable])
        else (.ok none,r,[.sensed .unreadable])

inductive Event where
  | relay (c : Call)
  | tick (now : Nat) (works : Bool)

def step (r : CrossBandRepeater) : Event → CrossBandRepeater
  | .relay c => (relayBurstAt r c).2.1
  | .tick now works => { r with station := (r.station.forceReleaseIfExpired false now works).2 }

def Owning (g : PttKeyGuard) (s : Station) : Prop := g.released = false ∧ (s.armed = true → s.owns g.generation = true)

theorem notArmed {s : Station} : s.armed = false ↔ s.inner.assertedAt = none := by
  rw [Station.armed, Option.isSome_eq_false_iff, Option.isNone_iff_eq_none]

theorem watchdogIdle {s : Station} (ticks : Ticks) (idle : s.armed = false) : (watchdog ticks s).armed = false := by
  unfold watchdog
  induction ticks generalizing s with
  | nil => exact idle
  | cons tick rest ih => exact ih (notArmed.mpr (expiredIdle false tick.1 tick.2 (notArmed.mp idle)))

theorem tickOwning {g : PttKeyGuard} {s : Station} (owning : Owning g s) (now : Nat) (works : Bool) :
    Owning g (s.forceReleaseIfExpired false now works).2 := by
  refine ⟨owning.1,?_⟩
  intro armed
  unfold Station.forceReleaseIfExpired at armed ⊢
  by_cases late : s.expired now = true
  · rw [if_pos late] at armed ⊢
    have inner := releasePttInner s works
    cases call : s.releasePtt works with
    | mk ok t =>
      rw [call] at inner armed
      cases ok with
      | false =>
        dsimp only at inner armed ⊢
        rw [Station.owns, Station.armed] at *
        rw [inner] at armed ⊢
        exact owning.2 armed
      | true =>
        dsimp only at armed
        rw [Station.armed, pttChangedInner] at armed
        cases armed
  · rw [if_neg late] at armed ⊢
    exact owning.2 armed

theorem watchdogOwning {g : PttKeyGuard} {s : Station} (ticks : Ticks) (owning : Owning g s) : Owning g (watchdog ticks s) := by
  unfold watchdog
  induction ticks generalizing s with
  | nil => exact owning
  | cons tick rest ih => exact ih (tickOwning owning tick.1 tick.2)

theorem extendLive {g : PttKeyGuard} {s : Station} (owning : Owning g s) (now : Nat) :
    (g.extend s now).1 = s.armed ∧ (s.armed = false → (g.extend s now).2 = s) ∧ Owning g (g.extend s now).2 := by
  obtain ⟨kept,owns⟩ := owning
  rw [PttKeyGuard.extend, if_neg (by rw [kept]; exact Bool.false_ne_true), Station.extendOwned]
  cases armed : s.armed with
  | true =>
    have owner := owns armed
    rw [if_pos owner]
    refine ⟨rfl,nofun,kept,?_⟩
    intro _
    simp only [Station.owns, Bool.and_eq_true] at owner ⊢
    exact ⟨owner.1,rfl⟩
  | false =>
    have stranger : ¬ s.owns g.generation = true := by
      rw [Station.owns, armed, Bool.and_false]
      exact Bool.false_ne_true
    rw [if_neg stranger]
    exact ⟨rfl,fun _ => rfl,kept,fun live => by rw [armed] at live; cases live⟩

theorem releaseIdle {g : PttKeyGuard} {s : Station} (ticks : Ticks) (works : Bool) (idle : s.armed = false) :
    releaseGuard g ticks works s = s := by
  rw [releaseGuard]
  split
  · rfl
  · rw [Station.owns, idle, Bool.and_false, if_neg Bool.false_ne_true]

theorem unkeyWorks (s : Station) (observer : Bool) : (s.unkey observer true).2.armed = false := by
  unfold Station.unkey Station.releasePtt
  split
  · rename_i failed
    split at failed <;> cases failed
  · dsimp only
    split
    · rw [Station.armed, pttChangedInner]
      rfl
    · rfl

theorem releaseWorks {g : PttKeyGuard} {s : Station} (ticks : Ticks) (owning : Owning g s) :
    (releaseGuard g ticks true s).armed = false := by
  cases armed : s.armed with
  | false => rw [releaseIdle ticks true armed, armed]
  | true =>
    rw [releaseGuard, if_neg (by rw [owning.1]; exact Bool.false_ne_true), if_pos (owning.2 armed)]
    exact unkeyWorks _ _

theorem keyAsRefused {s t : Station} {who : String} {observer works : Bool} {now : Nat} {e : PttError} (idle : s.armed = false)
    (call : s.keyAs who observer now works = (.error e,t)) : t.armed = false := by
  rw [Station.keyAs, if_neg (by rw [idle]; exact Bool.false_ne_true)] at call
  have inner := assertPttInner s works
  cases asserted : s.assertPtt works with
  | mk ok u =>
    rw [asserted] at call inner
    cases ok with
    | false =>
      cases call
      dsimp only at inner
      rw [Station.armed, inner]
      exact idle
    | true => cases call

theorem keyedIdle {c : Call} {s : Station} (idle : s.armed = false) :
    (keyed c s).2.2 = [.asserted] ∧ (∀ e, (keyed c s).1 = .error e → (keyed c s).2.1.armed = false) := by
  have before := watchdogIdle c.beforeKey idle
  unfold keyed
  simp only [before]
  cases call : (watchdog c.beforeKey s).keyAs "automatic" false c.keyAt c.assertWorks with
  | mk result t =>
    cases result with
    | error e => exact ⟨rfl,fun _ _ => keyAsRefused before call⟩
    | ok done => exact ⟨rfl,nofun⟩

theorem keyedGuard {c : Call} {s : Station} {g : PttKeyGuard} (ok : (keyed c s).1 = .ok g) : Owning g (keyed c s).2.1 := by
  unfold keyed at ok ⊢
  simp only at ok ⊢
  cases call : (watchdog c.beforeKey s).keyAs "automatic" false c.keyAt c.assertWorks with
  | mk result t =>
    rw [call] at ok
    cases result with
    | error e => cases ok
    | ok done =>
      cases Except.ok.inj ok
      refine ⟨rfl,?_⟩
      intro armed
      dsimp only
      rw [Station.owns, armed, Station.generation, beq_self_eq_true, Bool.and_true]

theorem acquireStored {g : PttKeyGuard} {c : Call} {s : Station} (owning : Owning g s) :
    ((watchdog c.beforeExtend s).armed = true → ∃ t, acquireKey (some g) c s = (.ok g,t,[]) ∧ Owning g t) ∧
    ((watchdog c.beforeExtend s).armed = false →
      acquireKey (some g) c s = keyed c (watchdog c.beforeExtend s)) := by
  have before := watchdogOwning c.beforeExtend owning
  obtain ⟨live,same,after⟩ := extendLive before c.extendAt
  constructor
  · intro armed
    refine ⟨_,?_,after⟩
    rw [acquireKey]
    simp only [live, armed, if_true]
  · intro idle
    rw [acquireKey]
    simp only [live, idle, Bool.false_eq_true, if_false]
    rw [same idle, releaseIdle [] c.releaseWorks idle]

structure Sound (r : CrossBandRepeater) : Prop where
  owning : ∀ g, r.sessionGuard = some g → Owning g r.station
  half : r.config.fullDuplex = false → r.sessionGuard = none

theorem acquired {r : CrossBandRepeater} (sound : Sound r) {c : Call} {g : PttKeyGuard}
    (ok : (acquireKey r.sessionGuard c r.station).1 = .ok g) : Owning g (acquireKey r.sessionGuard c r.station).2.1 := by
  cases stored : r.sessionGuard with
  | none =>
    rw [stored] at ok
    exact keyedGuard ok
  | some g' =>
    rw [stored] at ok
    have spec := @acquireStored g' c r.station (sound.owning g' stored)
    cases armed : (watchdog c.beforeExtend r.station).armed with
    | true =>
      obtain ⟨t,here,owning⟩ := spec.1 armed
      rw [here] at ok ⊢
      cases Except.ok.inj ok
      exact owning
    | false =>
      rw [spec.2 armed] at ok ⊢
      exact keyedGuard ok

def Unstuck (r : CrossBandRepeater) : Prop := r.station.armed = true → r.sessionGuard.isSome = true

theorem acquireRefused {r : CrossBandRepeater} (sound : Sound r) (free : Unstuck r) {c : Call} {e : RepeaterError}
    (failed : (acquireKey r.sessionGuard c r.station).1 = .error e) :
    (acquireKey r.sessionGuard c r.station).2.1.armed = false := by
  cases stored : r.sessionGuard with
  | none =>
    have idle : r.station.armed = false := by
      rw [Unstuck, stored] at free
      simpa using free
    rw [stored] at failed
    exact (keyedIdle idle).2 e failed
  | some g =>
    rw [stored] at failed
    have spec := @acquireStored g c r.station (sound.owning g stored)
    cases armed : (watchdog c.beforeExtend r.station).armed with
    | true =>
      obtain ⟨t,here,-⟩ := spec.1 armed
      rw [here] at failed
      cases failed
    | false =>
      rw [spec.2 armed] at failed ⊢
      exact (keyedIdle armed).2 e failed

theorem emitKeeps (r : CrossBandRepeater) (c : Call) :
    (emit r c).2.station = r.station ∧ (emit r c).2.sessionGuard = r.sessionGuard ∧ (emit r c).2.config = r.config := by
  unfold emit
  simp only
  split
  · exact ⟨rfl,rfl,rfl⟩
  · split
    · split <;> exact ⟨rfl,rfl,rfl⟩
    · exact ⟨rfl,rfl,rfl⟩

/- After a call that failed, and after any half-duplex call, no guard is kept, and the rig is
unkeyed if its release works. -/
def LetsGo (r : CrossBandRepeater) (c : Call) (out : Relayed) : Prop :=
  ((∃ e, out.1 = .error e) ∨ r.config.fullDuplex = false) →
    out.2.1.sessionGuard = none ∧ (Unstuck r → c.releaseWorks = true → out.2.1.station.armed = false)

structure RelaySpec (r : CrossBandRepeater) (c : Call) (out : Relayed) : Prop where
  config : out.2.1.config = r.config
  sound : Sound out.2.1
  letsGo : LetsGo r c out

theorem relayKeyedSpec {r : CrossBandRepeater} (sound : Sound r) (c : Call) (n : Nat) :
    RelaySpec r c (relayKeyed r c n) ∧ (relayKeyed r c n).2.2 = (acquireKey r.sessionGuard c r.station).2.2 := by
  unfold relayKeyed
  have owner := @acquired r sound c
  have refused := @acquireRefused r sound
  cases call : acquireKey r.sessionGuard c r.station with
  | mk result rest =>
    obtain ⟨s,log⟩ := rest
    rw [call] at owner
    cases result with
    | error e =>
      refine ⟨⟨rfl,⟨nofun,fun _ => rfl⟩,?_⟩,rfl⟩
      intro _
      refine ⟨rfl,?_⟩
      intro free _
      have down := refused free (by rw [call])
      rw [call] at down
      exact down
    | ok g =>
      have owning := watchdogOwning c.whileKeyed (owner rfl)
      dsimp only at owning ⊢
      obtain ⟨station,guard,config⟩ := emitKeeps { r with station := watchdog c.whileKeyed s, sessionGuard := none } c
      cases sent : emit { r with station := watchdog c.whileKeyed s, sessionGuard := none } c with
      | mk outcome after =>
        rw [sent] at station guard config
        dsimp only at station guard config
        cases outcome with
        | error e =>
          refine ⟨⟨config,⟨fun _ here => ?_,fun _ => guard⟩,?_⟩,rfl⟩
          · rw [guard] at here
            cases here
          · intro _
            exact ⟨guard,fun _ works => by dsimp only; rw [works]; exact releaseWorks c.beforeUnkey owning⟩
        | ok done =>
          dsimp only
          cases duplex : after.config.fullDuplex with
          | true =>
            rw [if_pos rfl]
            have kept := (extendLive owning c.restampAt).2.2
            have full : r.config.fullDuplex = true := by rw [← config, duplex]
            refine ⟨⟨config,⟨fun g' here => ?_,fun half => ?_⟩,?_⟩,rfl⟩
            · cases Option.some.inj here
              exact kept
            · rw [show after.config.fullDuplex = false from half] at duplex
              cases duplex
            · rintro (⟨e,failed⟩ | half)
              · cases failed
              · rw [full] at half
                cases half
          | false =>
            rw [if_neg Bool.false_ne_true]
            refine ⟨⟨config,⟨fun _ here => ?_,fun _ => guard⟩,?_⟩,rfl⟩
            · rw [show after.sessionGuard = none from guard] at here
              cases here
            · intro _
              exact ⟨guard,fun _ works => by dsimp only; rw [works]; exact releaseWorks c.beforeUnkey owning⟩

theorem unchangedSpec {r after : CrossBandRepeater} (sound : Sound r) {c : Call} {result : Except RepeaterError (Option Nat)}
    {log : List Action} (config : after.config = r.config) (station : after.station = r.station)
    (guard : after.sessionGuard = r.sessionGuard) (none : (∃ e, result = .error e) → r.sessionGuard = none) :
    RelaySpec r c (result,after,log) := by
  refine ⟨config,⟨?_,?_⟩,?_⟩
  · intro g stored
    rw [station]
    exact sound.owning g (guard.symm.trans stored)
  · intro half
    rw [guard]
    exact sound.half (config ▸ half)
  · intro failedOrHalf
    have empty : r.sessionGuard = Option.none := by
      rcases failedOrHalf with failed | half
      · exact none failed
      · exact sound.half half
    refine ⟨guard.trans empty,?_⟩
    intro free _
    dsimp only
    rw [station]
    rw [Unstuck, empty] at free
    simpa using free

theorem relayBurstSpec {r : CrossBandRepeater} (sound : Sound r) (c : Call) : RelaySpec r c (relayBurstAt r c) := by
  unfold relayBurstAt
  split
  · exact unchangedSpec sound rfl rfl rfl nofun
  · rename_i bytes _
    split
    · exact unchangedSpec sound rfl rfl rfl nofun
    · split
      · exact (relayKeyedSpec sound c bytes.length).1
      · rename_i stored
        have empty : r.sessionGuard = none := by simpa using stored
        split
        · have spec := (@relayKeyedSpec { r with senseFaults := 0 } ⟨sound.owning,sound.half⟩ c bytes.length).1
          exact ⟨spec.config,spec.sound,spec.letsGo⟩
        · exact unchangedSpec sound rfl rfl rfl nofun
        · dsimp only
          split
          · exact unchangedSpec sound rfl rfl rfl fun _ => empty
          · exact unchangedSpec sound rfl rfl rfl nofun

theorem stepSound (r : CrossBandRepeater) (e : Event) (sound : Sound r) : Sound (step r e) := by
  cases e with
  | relay c => exact (relayBurstSpec sound c).sound
  | tick now works => exact ⟨fun g stored => tickOwning (sound.owning g stored) now works,sound.half⟩

def Sensed (log : List Action) : Prop := ∀ before after, log = before ++ .asserted::after → .sensed .clear ∈ before

def AssertsSensed (r : CrossBandRepeater) : Event → Prop
  | .relay c => Sensed (relayBurstAt r c).2.2
  | .tick _ _ => True

/- A frame to relay under a stored guard finds the guard's key still live. -/
def KeyKept (r : CrossBandRepeater) : Event → Prop
  | .relay c => (∃ bytes, c.decoded = some bytes ∧ bytes ≠ []) → r.sessionGuard.isSome = true →
      (watchdog c.beforeExtend r.station).armed = true
  | .tick _ _ => True

def LetsGoAfter (r : CrossBandRepeater) : Event → Prop
  | .relay c => LetsGo r c (relayBurstAt r c)
  | .tick _ _ => True

theorem sensedNil : Sensed [] := by
  intro before after split
  cases before <;> cases split

theorem sensedOther {s : Sense} : Sensed [.sensed s] := by
  intro before after split
  cases before with
  | nil => cases split
  | cons a rest =>
    obtain ⟨-,later⟩ := List.cons.inj split
    exact absurd later (by simp)

theorem sensedFirst (log : List Action) : Sensed (.sensed .clear::log) := by
  intro before after split
  cases before with
  | nil => cases split
  | cons a rest =>
    cases (List.cons.inj split).1
    exact List.mem_cons_self

theorem notSensed : ¬ Sensed [.asserted] := fun sensed => absurd (sensed [] [] rfl) List.not_mem_nil

theorem assertsSensedStep (r : CrossBandRepeater) (e : Event) (sound : Sound r) : AssertsSensed r e ↔ KeyKept r e := by
  cases e with
  | tick now works => exact Iff.rfl
  | relay c =>
    rw [AssertsSensed, KeyKept]
    unfold relayBurstAt
    split
    · rename_i undecoded
      refine ⟨fun _ found => ?_,fun _ => sensedNil⟩
      obtain ⟨bytes,here,-⟩ := found
      rw [undecoded] at here
      cases here
    · rename_i bytes decoded
      split
      · rename_i empty
        refine ⟨fun _ found => ?_,fun _ => sensedNil⟩
        obtain ⟨bytes',here,some⟩ := found
        cases Option.some.inj (decoded.symm.trans here)
        exact absurd empty some
      · rename_i some
        split
        · rename_i stored
          obtain ⟨g,held⟩ := Option.isSome_iff_exists.mp stored
          have spec := @acquireStored g c r.station (sound.owning g held)
          rw [(relayKeyedSpec sound c bytes.length).2, held]
          cases armed : (watchdog c.beforeExtend r.station).armed with
          | true =>
            obtain ⟨t,here,-⟩ := spec.1 armed
            rw [here]
            exact ⟨fun _ _ _ => rfl,fun _ => sensedNil⟩
          | false =>
            rw [spec.2 armed, (keyedIdle armed).1]
            exact ⟨fun sensed => absurd sensed notSensed,fun kept => by cases kept ⟨bytes,decoded,some⟩ rfl⟩
        · rename_i empty
          refine ⟨fun _ _ stored => absurd stored empty,fun _ => ?_⟩
          split
          · exact sensedFirst _
          · exact sensedOther
          · dsimp only
            split <;> exact sensedOther

theorem senseFromClear {sensor : Sensor} {heard : Bool} {tick left : Nat} (clear : senseFrom sensor heard tick left = .clear) :
    sensor.faulted = false ∧ (∀ i < left, sensor.busy (tick + i) = false) ∧
      (heard = true ∨ ∃ i < left, sensor.reads (tick + i) = true) := by
  induction left generalizing heard tick with
  | zero =>
    rw [senseFrom] at clear
    split at clear
    · cases clear
    · rename_i works
      simp only [Bool.or_eq_true, Bool.not_eq_true', not_or, Bool.not_eq_true, Bool.not_eq_false] at works
      exact ⟨works.1,nofun,.inl works.2⟩
  | succ left ih =>
    rw [senseFrom] at clear
    split at clear
    · cases clear
    · rename_i quiet
      obtain ⟨works,later,read⟩ := ih clear
      refine ⟨works,?_,?_⟩
      · intro i inside
        cases i with
        | zero => simpa using quiet
        | succ i =>
          have next := later i (by omega)
          rwa [show tick + 1 + i = tick + (i + 1) by omega] at next
      · rcases read with now | ⟨i,inside,read⟩
        · rw [Bool.or_eq_true] at now
          rcases now with before | here
          · exact .inl before
          · exact .inr ⟨0,by omega,by simpa using here⟩
        · exact .inr ⟨i + 1,by omega,by rwa [show tick + 1 + i = tick + (i + 1) by omega] at read⟩

theorem clearHeard {config : RepeaterConfig} {sensor : Option Sensor} (on : config.carrierSense = true)
    (clear : senseOutputBand config sensor = .clear) :
    ∃ heard, sensor = some heard ∧ heard.faulted = false ∧ (∀ i < senseTicks, heard.busy i = false) ∧
      ∃ i < senseTicks, heard.reads i = true := by
  cases sensor with
  | none =>
    rw [senseOutputBand, if_pos on] at clear
    cases clear
  | some heard =>
    rw [senseOutputBand, if_pos on] at clear
    obtain ⟨works,quiet,read⟩ := senseFromClear clear
    refine ⟨heard,rfl,works,?_,?_⟩
    · simpa using quiet
    · rcases read with impossible | ⟨i,inside,read⟩
      · cases impossible
      · exact ⟨i,inside,by simpa using read⟩

/- Whether to sense is decided by the guard that is stored, whether to key by the key it names.
The two differ exactly when the watchdog has taken the key from under the guard; then the rig is
keyed on a band nobody listened to. What the repeater lets go of does not depend on it. -/
theorem assertsSensedIff (config : RepeaterConfig) (maxDuration : Nat) (es : List Event)
    (on : config.carrierSense = true) :
    (EveryStep step AssertsSensed (new config maxDuration) es ↔ EveryStep step KeyKept (new config maxDuration) es) ∧
    EveryStep step LetsGoAfter (new config maxDuration) es ∧
    ∀ sensor, senseOutputBand config sensor = .clear → ∃ heard, sensor = some heard ∧ heard.faulted = false ∧
      (∀ i < senseTicks, heard.busy i = false) ∧ ∃ i < senseTicks, heard.reads i = true := by
  have start : Sound (new config maxDuration) := ⟨nofun,fun _ => rfl⟩
  refine ⟨everyStepIff stepSound assertsSensedStep start es,?_,fun _ => clearHeard on⟩
  refine everyStepAlways stepSound ?_ start es
  intro r e sound
  cases e with
  | relay c => exact (relayBurstSpec sound c).letsGo
  | tick now works => trivial

def unattended : RepeaterConfig := ⟨0,true,"",600,true⟩

def quietBand : Sensor := ⟨fun _ => true,fun _ => false,false⟩

def relayAt (now : Nat) (sensor : Option Sensor) : Event :=
  .relay ⟨some [0x48],now,sensor,none,none,now,now,now,true,true,[],[],[],[],[]⟩

theorem assertsSensedIffSteady :
    EveryStep step AssertsSensed (new unattended 180000) [relayAt 0 (some quietBand),relayAt 1000 none] :=
  ((assertsSensedIff unattended 180000 [relayAt 0 (some quietBand),relayAt 1000 none] rfl).1).mpr
    ⟨nofun,fun _ _ => by decide +kernel,trivial⟩

/- The watchdog drops a silent full-duplex key; the next frame keys the rig though its band cannot
even be read. -/
theorem rekeysUnsensed :
    ¬ EveryStep step AssertsSensed (new unattended 180000) [relayAt 0 (some quietBand),.tick 200000 true,relayAt 300000 none] := by
  intro all
  obtain ⟨-,-,last,-⟩ := all
  have log : (relayBurstAt (step (step (new unattended 180000) (relayAt 0 (some quietBand))) (.tick 200000 true))
      ⟨some [0x48],300000,none,none,none,300000,300000,300000,true,true,[],[],[],[],[]⟩).2.2 = [.asserted] := by
    decide +kernel
  change Sensed (relayBurstAt _ _).2.2 at last
  rw [log] at last
  exact notSensed last

end OpenPulse.Repeater
