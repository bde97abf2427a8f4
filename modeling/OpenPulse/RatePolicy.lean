import OpenPulse.OtaRate
import OpenPulse.Ladders
import OpenPulse.Runs

/-! Sender-side rate adaptation: the adapter of `rate.rs` for one direction, the pair
of them, and the policy of `rate_policy.rs` over a session profile. A threshold the
profile leaves out stands for an infinite one, so a reading is never below an absent
floor nor above an absent ceiling; nothing else is known of the comparison. -/
namespace OpenPulse.RatePolicy
open OtaRate (SpeedLevel AckType saturatingInc)

structure SessionProfile (Snr : Type) extends OtaRate.SessionProfile Snr where
  ackUpRequiresSnrCandidateAt : Option SpeedLevel

def hpx500 : SessionProfile Int := { OtaRate.hpx500 with ackUpRequiresSnrCandidateAt := none }

/- The wideband ladder of `profile.rs`: no rung below SL8 and none at SL10. -/
def hpxWideband : SessionProfile Int where
  modes
    | .sl8 => some "QPSK500"
    | .sl9 => some "QPSK1000"
    | .sl11 => some "8PSK1000"
    | _ => none
  initialLevel := .sl8
  nackThreshold := 3
  snrFloors
    | .sl8 => some 11
    | .sl9 => some 14
    | .sl11 => some 18
    | _ => none
  snrCeilings
    | .sl8 => some 18
    | .sl9 => some 22
    | _ => none
  fecModes := fun _ => none
  ackUpRequiresSnrCandidateAt := none

inductive RateEvent where
  | maintained | increased (level : SpeedLevel) | decreased (level : SpeedLevel) | retransmit
  | nackDecrement (level : SpeedLevel) | chirpFallback | breakRequested | req | qrt | abort
  deriving DecidableEq, Repr

def RateEvent.steppedDown : RateEvent → Bool
  | .decreased _ | .nackDecrement _ | .chirpFallback => true
  | _ => false

inductive RateTrigger where
  | ackUp | ackDown | nackDecrement | chirpFallback | snrFloor | snrCeiling
  deriving DecidableEq, Repr

inductive RateDirection where
  | tx | rx
  deriving DecidableEq, Repr

def stepUp : SpeedLevel → SpeedLevel
  | .sl1 => .sl2 | .sl2 => .sl3 | .sl3 => .sl4 | .sl4 => .sl5 | .sl5 => .sl6 | .sl6 => .sl7 | .sl7 => .sl8
  | .sl8 => .sl9 | .sl9 => .sl10 | .sl10 => .sl11 | .sl11 => .sl12 | .sl12 => .sl13 | .sl13 => .sl14
  | .sl14 => .sl15 | .sl15 => .sl16 | .sl16 => .sl17 | .sl17 => .sl18 | .sl18 => .sl19 | .sl19 => .sl20
  | .sl20 => .sl20

def stepDown : SpeedLevel → SpeedLevel
  | .sl1 => .sl1 | .sl2 => .sl1 | .sl3 => .sl2 | .sl4 => .sl3 | .sl5 => .sl4 | .sl6 => .sl5 | .sl7 => .sl6
  | .sl8 => .sl7 | .sl9 => .sl8 | .sl10 => .sl9 | .sl11 => .sl10 | .sl12 => .sl11 | .sl13 => .sl12
  | .sl14 => .sl13 | .sl15 => .sl14 | .sl16 => .sl15 | .sl17 => .sl16 | .sl18 => .sl17 | .sl19 => .sl18
  | .sl20 => .sl19

structure RateAdapter where
  current : SpeedLevel
  consecutiveNack : Nat
  nackThreshold : Nat
  snrUpgradeCandidate : Bool
  deriving DecidableEq, Repr

namespace RateAdapter

def new (initial : SpeedLevel) : RateAdapter :=
  { current := initial, consecutiveNack := 0, nackThreshold := 3, snrUpgradeCandidate := false }

variable (a : RateAdapter)

def applyAck : AckType → RateEvent × RateAdapter
  | .ackOk => (.maintained, { a with consecutiveNack := 0 })
  | .ackUp =>
    let a := { a with consecutiveNack := 0, snrUpgradeCandidate := false }
    let next := stepUp a.current
    if next ≠ a.current then (.increased next, { a with current := next }) else (.maintained, a)
  | .ackDown =>
    let a := { a with consecutiveNack := 0 }
    -- SL1 is only reached through a full NACK count.
    if .sl2 < a.current then (.decreased (stepDown a.current), { a with current := stepDown a.current })
    else (.maintained, a)
  | .nack =>
    let a := { a with consecutiveNack := saturatingInc a.consecutiveNack }
    if a.consecutiveNack < a.nackThreshold then (.retransmit, a)
    else
      let a := { a with consecutiveNack := 0 }
      if a.current = .sl2 then (.chirpFallback, { a with current := .sl1 })
      else if .sl1 < a.current then (.nackDecrement (stepDown a.current), { a with current := stepDown a.current })
      else (.retransmit, a)
  | .break => (.breakRequested, a)
  | .req => (.req, a)
  | .qrt => (.qrt, a)
  | .abort => (.abort, a)

def clampTo (max : SpeedLevel) : Bool × RateAdapter := if max < a.current then (true, { a with current := max }) else (false, a)

variable {Snr : Type} [LT Snr] [DecidableLT Snr]

def applySnrHint (snrDb : Snr) (floorDb ceilingDb : Option Snr) : Option RateEvent × RateAdapter :=
  if floorDb.any (fun floor => snrDb < floor) then
    let a := { a with consecutiveNack := 0, snrUpgradeCandidate := false }
    if a.current = .sl2 then (some .chirpFallback, { a with current := .sl1 })
    else if .sl1 < a.current then (some (.decreased (stepDown a.current)), { a with current := stepDown a.current })
    else (none, a)
  else if ceilingDb.any (fun ceiling => ceiling < snrDb) then (none, { a with snrUpgradeCandidate := true })
  else (none, a)

end RateAdapter

structure BiDirRateAdapter where
  tx : RateAdapter
  rx : RateAdapter
  deriving DecidableEq, Repr

namespace BiDirRateAdapter

def new (initial : SpeedLevel) (nackThreshold : Nat) : BiDirRateAdapter :=
  let make := { RateAdapter.new initial with nackThreshold }
  ⟨make,make⟩

variable (a : BiDirRateAdapter)

def applyAck (ack : AckType) : RateEvent × BiDirRateAdapter := ((a.tx.applyAck ack).1, { a with tx := (a.tx.applyAck ack).2 })
def applyReverseAck (ack : AckType) : RateEvent × BiDirRateAdapter := ((a.rx.applyAck ack).1, { a with rx := (a.rx.applyAck ack).2 })
def txLevel : SpeedLevel := a.tx.current
def rxLevel : SpeedLevel := a.rx.current

def clampTo (max : SpeedLevel) : Bool × BiDirRateAdapter :=
  ((a.tx.clampTo max).1 || (a.rx.clampTo max).1, ⟨(a.tx.clampTo max).2,(a.rx.clampTo max).2⟩)

end BiDirRateAdapter

structure RateChangePayload where
  event : RateEvent
  speedLevel : SpeedLevel
  mode : String
  direction : Option RateDirection
  trigger : Option RateTrigger
  deriving DecidableEq, Repr

structure RateAdaptationPolicy (Snr : Type) where
  rateAdapter : Option BiDirRateAdapter
  sessionProfile : Option (SessionProfile Snr)
  minBacklogForUpgrade : Nat
  txBacklogBytes : Nat
  upgradeHoldFrames : Nat
  upgradeHoldRemaining : Nat
  maxTxLevel : Option SpeedLevel

namespace RateAdaptationPolicy
variable {Snr : Type}

def new : RateAdaptationPolicy Snr :=
  { rateAdapter := none, sessionProfile := none, minBacklogForUpgrade := 0, txBacklogBytes := 0, upgradeHoldFrames := 0,
    upgradeHoldRemaining := 0, maxTxLevel := none }

variable (s : RateAdaptationPolicy Snr)

def setMaxTxLevel (max : Option SpeedLevel) : RateAdaptationPolicy Snr :=
  { s with
    maxTxLevel := max
    rateAdapter := match max, s.rateAdapter with
      | some m, some adapter => some (adapter.clampTo m).2
      | _, adapter => adapter }

def definedModes : List (SpeedLevel × String) :=
  (s.sessionProfile.map (fun p => p.definedLevels.filterMap (fun l => (p.modeFor l).map (fun m => (l, m))))).getD []

def setMinBacklogForUpgrade (bytes : Nat) : RateAdaptationPolicy Snr := { s with minBacklogForUpgrade := bytes }
def setTxBacklog (bytes : Nat) : RateAdaptationPolicy Snr := { s with txBacklogBytes := bytes }
def setUpgradeHoldFrames (frames : Nat) : RateAdaptationPolicy Snr := { s with upgradeHoldFrames := frames }

def startSession (profile : SessionProfile Snr) : RateAdaptationPolicy Snr :=
  { s with rateAdapter := some (.new profile.initialLevel profile.nackThreshold), sessionProfile := some profile }

/- The probing loop of `next_mapped_level_above`. It steps at most nineteen times. -/
def probeAbove (profile : SessionProfile Snr) : Nat → SpeedLevel → Option SpeedLevel
  | 0, _ => none
  | fuel + 1, probe =>
    let next := stepUp probe
    if next = probe then none
    else if (profile.modeFor next).isSome then some next
    else probeAbove profile fuel next

def nextMappedLevelAbove (profile : SessionProfile Snr) (current : SpeedLevel) : Option SpeedLevel := probeAbove profile 20 current

def climbTo (target : SpeedLevel) : Nat → RateEvent → BiDirRateAdapter → RateEvent × BiDirRateAdapter
  | 0, lastEvent, adapter => (lastEvent, adapter)
  | fuel + 1, lastEvent, adapter =>
    if adapter.txLevel < target then
      let (event, adapter) := adapter.applyAck .ackUp
      if event = .maintained then (event, adapter) else climbTo target fuel event adapter
    else (lastEvent, adapter)

def shouldHoldAckUpWithoutSnrCandidate (ack : AckType) : Bool :=
  match ack, s.sessionProfile, s.rateAdapter with
  | .ackUp, some profile, some adapter =>
    decide (profile.ackUpRequiresSnrCandidateAt = some adapter.txLevel) && !adapter.tx.snrUpgradeCandidate
  | _, _, _ => false

/- What the adapter does once the hold and the backlog gate have let the ACK through. -/
def move (profile : Option (SessionProfile Snr)) (adapter : BiDirRateAdapter) (ack : AckType) (holdAckUp : Bool) :
    RateEvent × BiDirRateAdapter :=
  if holdAckUp then (.maintained, adapter)
  else match ack, profile with
    | .ackUp, some profile =>
      match nextMappedLevelAbove profile adapter.txLevel with
      | none => (.maintained, adapter)
      | some target =>
        let (lastEvent, adapter) := climbTo target 20 .maintained adapter
        match lastEvent with
        | .increased _ => (.increased adapter.txLevel, adapter)
        | other => (other, adapter)
    | ack, _ => adapter.applyAck ack

def decideRateChange (ack : AckType) (holdAckUp : Bool) : RateEvent × RateAdaptationPolicy Snr :=
  if ack = .ackUp ∧ 0 < s.upgradeHoldRemaining then (.maintained, { s with upgradeHoldRemaining := s.upgradeHoldRemaining - 1 })
  else if ack = .ackUp ∧ 0 < s.minBacklogForUpgrade ∧ s.txBacklogBytes < s.minBacklogForUpgrade then (.maintained, s)
  else match s.rateAdapter with
    | none => (.maintained, s)
    | some adapter =>
      let (event, adapter) := move s.sessionProfile adapter ack holdAckUp
      let s := { s with rateAdapter := some adapter }
      (event, if 0 < s.upgradeHoldFrames ∧ event.steppedDown = true then { s with upgradeHoldRemaining := s.upgradeHoldFrames } else s)

def currentAdaptiveMode : Option String := s.sessionProfile.bind (fun p => s.rateAdapter.bind (fun a => p.modeFor a.txLevel))
def currentRxMode : Option String := s.sessionProfile.bind (fun p => s.rateAdapter.bind (fun a => p.modeFor a.rxLevel))
def currentTxLevel : Option SpeedLevel := s.rateAdapter.map (·.txLevel)

def applyAckInternal (ack : AckType) (direction : Option RateDirection) :
    (RateEvent × Option RateChangePayload) × RateAdaptationPolicy Snr :=
  let holdAckUp := s.shouldHoldAckUpWithoutSnrCandidate ack
  let (rateEvent, s) := s.decideRateChange ack holdAckUp
  -- An AckUp must not raise TX above the cap.
  let (rateEvent, s) : RateEvent × RateAdaptationPolicy Snr :=
    match s.maxTxLevel, s.rateAdapter with
    | some max, some adapter =>
      (match (adapter.tx.clampTo max).1, rateEvent with
        | true, .increased _ => .maintained
        | _, event => event,
      { s with rateAdapter := some ⟨(adapter.tx.clampTo max).2,(adapter.rx.clampTo max).2⟩ })
    | _, _ => (rateEvent, s)
  let speedLevel := (s.rateAdapter.map (·.txLevel)).getD .sl2
  let mode := s.currentAdaptiveMode.getD "unknown"
  let payload := if s.rateAdapter.isSome then some ⟨rateEvent,speedLevel,mode,direction,none⟩ else none
  ((rateEvent, payload), s)

def applyAck (ack : AckType) : (RateEvent × Option RateChangePayload) × RateAdaptationPolicy Snr := s.applyAckInternal ack none

def applyAckFrame (ackType : AckType) (reverseAck : Option AckType) :
    (RateEvent × List RateChangePayload) × RateAdaptationPolicy Snr :=
  let ((txEvent, txPayload), s) := s.applyAckInternal ackType (some .tx)
  match reverseAck, s.rateAdapter with
  | some rev, some adapter =>
    let (rxEvent, adapter) := adapter.applyReverseAck rev
    let mode := (s.sessionProfile.bind (fun p => p.modeFor adapter.rxLevel)).getD "unknown"
    ((txEvent, txPayload.toList ++ [⟨rxEvent,adapter.rxLevel,mode,some .rx,none⟩]), { s with rateAdapter := some adapter })
  | _, _ => ((txEvent, txPayload.toList), s)

variable [LT Snr] [DecidableLT Snr]

def applySnrHint (snrDb : Snr) : Option RateChangePayload × RateAdaptationPolicy Snr :=
  match s.rateAdapter, s.sessionProfile with
  | some adapter, some profile =>
    let (event, tx) := adapter.tx.applySnrHint snrDb (profile.snrFloorForLevel adapter.txLevel) (profile.snrCeilingForLevel adapter.txLevel)
    let s := { s with rateAdapter := some { adapter with tx } }
    (event.map (fun event => ⟨event,tx.current,(profile.modeFor tx.current).getD "unknown",some .tx,some .snrFloor⟩), s)
  | _, _ => (none, s)

def selectRxAckType (snrDb : Snr) : AckType × RateAdaptationPolicy Snr :=
  match s.rateAdapter, s.sessionProfile with
  | some adapter, some profile =>
    let (event, rx) := adapter.rx.applySnrHint snrDb (profile.snrFloorForLevel adapter.rxLevel) (profile.snrCeilingForLevel adapter.rxLevel)
    let s := { s with rateAdapter := some { adapter with rx } }
    (if event.isSome then .ackDown else if rx.snrUpgradeCandidate then .ackUp else .ackOk, s)
  | _, _ => (.ackOk, s)

end RateAdaptationPolicy

theorem levelBounds (l : SpeedLevel) : 1 ≤ l.discriminant ∧ l.discriminant ≤ 20 := by cases l <;> decide

theorem levelLt {a b : SpeedLevel} : a < b ↔ a.discriminant < b.discriminant := Iff.rfl

theorem levelLe {a b : SpeedLevel} : a ≤ b ↔ a.discriminant ≤ b.discriminant := Iff.rfl

theorem stepUpDiscriminant (l : SpeedLevel) : (stepUp l).discriminant = min (l.discriminant + 1) 20 := by cases l <;> rfl

theorem stepDownDiscriminant (l : SpeedLevel) : (stepDown l).discriminant = max (l.discriminant - 1) 1 := by cases l <;> rfl

theorem stepDownLe (l : SpeedLevel) : stepDown l ≤ l := by
  have bounds := levelBounds l
  rw [levelLe, stepDownDiscriminant]
  omega

theorem leStepUp (l : SpeedLevel) : l ≤ stepUp l := by
  have bounds := levelBounds l
  rw [levelLe, stepUpDiscriminant]
  omega

theorem stepUpTop {l : SpeedLevel} : stepUp l = l ↔ l.discriminant = 20 := by
  have bounds := levelBounds l
  constructor
  · intro same
    have index := congrArg SpeedLevel.discriminant same
    rw [stepUpDiscriminant] at index
    omega
  · intro top
    apply OtaRate.discriminantInjective
    rw [stepUpDiscriminant]
    omega

section Probe
variable {Snr : Type} {profile : SessionProfile Snr}
open RateAdaptationPolicy
open Ladders (NextRung)

theorem mappedListed {l : SpeedLevel} : l ∈ profile.definedLevels ↔ (profile.modeFor l).isSome = true := by
  have listed : l ∈ [SpeedLevel.sl1, .sl2, .sl3, .sl4, .sl5, .sl6, .sl7, .sl8, .sl9, .sl10, .sl11, .sl12, .sl13, .sl14, .sl15,
      .sl16, .sl17, .sl18, .sl19, .sl20] := by cases l <;> decide
  simp only [OtaRate.SessionProfile.definedLevels, OtaRate.SessionProfile.modeFor, List.mem_filter, listed, true_and]

theorem probeFinds {fuel : Nat} {l target : SpeedLevel} (found : probeAbove profile fuel l = some target) :
    NextRung profile.definedLevels l target := by
  induction fuel generalizing l with
  | zero => cases found
  | succ fuel ih =>
    have bounds := levelBounds l
    have up := stepUpDiscriminant l
    simp only [probeAbove] at found
    split at found
    · cases found
    · rename_i moved
      rw [stepUpTop] at moved
      split at found
      · rename_i mapped
        cases found
        refine ⟨mappedListed.mpr mapped,?_,fun y member above => ?_⟩
        · rw [levelLt]
          omega
        · rw [levelLt] at above
          rw [levelLe]
          omega
      · rename_i unmapped
        have step := ih found
        refine ⟨step.member,lt_of_le_of_lt (leStepUp l) step.up,fun y member above => step.least y member ?_⟩
        rw [levelLt] at above ⊢
        have other : y ≠ stepUp l := fun same => unmapped (mappedListed.mp (same ▸ member))
        have apart : y.discriminant ≠ (stepUp l).discriminant := fun same => other (OtaRate.discriminantInjective same)
        omega

theorem nextMappedRung {l target : SpeedLevel} (found : nextMappedLevelAbove profile l = some target) :
    NextRung profile.definedLevels l target := probeFinds found

end Probe

def Lowers (a : RateAdapter) (ack : AckType) : Prop :=
  ack = .ackDown ∧ .sl2 < a.current ∨ ack = .nack ∧ a.nackThreshold ≤ saturatingInc a.consecutiveNack ∧ .sl1 < a.current

instance (a : RateAdapter) (ack : AckType) : Decidable (Lowers a ack) := inferInstanceAs (Decidable (_ ∨ _))

theorem ackLevel (a : RateAdapter) (ack : AckType) :
    (a.applyAck ack).2.current = if ack = .ackUp then stepUp a.current else if Lowers a ack then stepDown a.current else a.current := by
  cases ack with
  | ackUp =>
    simp only [RateAdapter.applyAck]
    split
    · rfl
    · rename_i still
      simpa using (not_not.mp still).symm
  | ackDown => by_cases above : .sl2 < a.current <;> simp [RateAdapter.applyAck, Lowers, above]
  | nack =>
    by_cases counting : saturatingInc a.consecutiveNack < a.nackThreshold
    · simp [RateAdapter.applyAck, Lowers, counting, not_le.mpr counting]
    · have full := not_lt.mp counting
      by_cases second : a.current = .sl2
      · have above : SpeedLevel.sl1 < .sl2 := by decide
        simp [RateAdapter.applyAck, Lowers, counting, second, above, full, stepDown]
      · by_cases above : .sl1 < a.current <;> simp [RateAdapter.applyAck, Lowers, counting, second, above, full]
  | ackOk => simp [RateAdapter.applyAck, Lowers]
  | «break» => simp [RateAdapter.applyAck, Lowers]
  | req => simp [RateAdapter.applyAck, Lowers]
  | qrt => simp [RateAdapter.applyAck, Lowers]
  | abort => simp [RateAdapter.applyAck, Lowers]

theorem hintLevel {Snr : Type} [LT Snr] [DecidableLT Snr] (a : RateAdapter) (snr : Snr) (floorDb ceilingDb : Option Snr) :
    (a.applySnrHint snr floorDb ceilingDb).2.current =
      if floorDb.any (fun floor => snr < floor) = true ∧ .sl1 < a.current then stepDown a.current else a.current := by
  simp only [RateAdapter.applySnrHint]
  cases floorDb.any (fun floor => snr < floor) with
  | true =>
    by_cases second : a.current = .sl2
    · have above : SpeedLevel.sl1 < .sl2 := by decide
      simp [second, above, stepDown]
    · by_cases above : .sl1 < a.current <;> simp [second, above]
  | false =>
    simp only [Bool.false_eq_true, false_and, if_false]
    split <;> rfl

theorem clampLevel (a : RateAdapter) (max : SpeedLevel) : (a.clampTo max).2.current = min a.current max := by
  simp only [RateAdapter.clampTo]
  split
  · exact (min_eq_right (le_of_lt ‹_›)).symm
  · exact (min_eq_left (not_lt.mp ‹_›)).symm

section Asked
variable {Snr : Type} {s : RateAdaptationPolicy Snr} {profile : SessionProfile Snr} {adapter : BiDirRateAdapter}
open RateAdaptationPolicy

structure InSession (profile : SessionProfile Snr) (adapter : BiDirRateAdapter) (s : RateAdaptationPolicy Snr) : Prop where
  profile : s.sessionProfile = some profile
  adapter : s.rateAdapter = some adapter

def UpHeld (s : RateAdaptationPolicy Snr) (profile : SessionProfile Snr) (adapter : BiDirRateAdapter) : Prop :=
  0 < s.upgradeHoldRemaining ∨ (0 < s.minBacklogForUpgrade ∧ s.txBacklogBytes < s.minBacklogForUpgrade) ∨
    (profile.ackUpRequiresSnrCandidateAt = some adapter.txLevel ∧ adapter.tx.snrUpgradeCandidate = false)

instance (s : RateAdaptationPolicy Snr) (profile : SessionProfile Snr) (adapter : BiDirRateAdapter) :
    Decidable (UpHeld s profile adapter) := inferInstanceAs (Decidable (_ ∨ _))

/-- The TX level an ACK leads to before the cap: a gated AckUp goes to the next mapped level, the rest goes down one level or stays. -/
def asked (s : RateAdaptationPolicy Snr) (profile : SessionProfile Snr) (adapter : BiDirRateAdapter) (ack : AckType) : SpeedLevel :=
  if ack = .ackUp then
    if UpHeld s profile adapter then adapter.txLevel else (nextMappedLevelAbove profile adapter.txLevel).getD adapter.txLevel
  else if Lowers adapter.tx ack then stepDown adapter.txLevel
  else adapter.txLevel

theorem climbReaches {target : SpeedLevel} {fuel : Nat} {event : RateEvent} (under : adapter.txLevel ≤ target)
    (enough : target.discriminant ≤ adapter.txLevel.discriminant + fuel) :
    (climbTo target fuel event adapter).2.txLevel = target ∧ (climbTo target fuel event adapter).2.rx = adapter.rx := by
  induction fuel generalizing event adapter with
  | zero =>
    rw [levelLe] at under
    exact ⟨OtaRate.discriminantInjective (by simp only [climbTo]; omega),rfl⟩
  | succ fuel ih =>
    simp only [climbTo]
    split
    · rename_i short
      have raised : (adapter.applyAck .ackUp).2.txLevel = stepUp adapter.txLevel := by
        simp [BiDirRateAdapter.applyAck, BiDirRateAdapter.txLevel, ackLevel]
      have up := stepUpDiscriminant adapter.txLevel
      have top := levelBounds target
      rw [levelLt] at short
      have moved : (adapter.applyAck .ackUp).1 ≠ .maintained := by
        have apart : stepUp adapter.tx.current ≠ adapter.tx.current := fun same => by
          rw [stepUpTop] at same
          simp only [BiDirRateAdapter.txLevel] at short
          omega
        simp [BiDirRateAdapter.applyAck, RateAdapter.applyAck, apart]
      simp only [moved, if_false]
      have still : (adapter.applyAck .ackUp).2.txLevel ≤ target := by
        rw [raised, levelLe]
        omega
      exact ih still (by rw [raised]; omega)
    · rename_i reached
      exact ⟨le_antisymm under (not_lt.mp reached),rfl⟩

theorem moveUp : (move (some profile) adapter .ackUp false).2.txLevel =
      (nextMappedLevelAbove profile adapter.txLevel).getD adapter.txLevel ∧
    (move (some profile) adapter .ackUp false).2.rx = adapter.rx := by
  simp only [move, Bool.false_eq_true, if_false]
  cases found : nextMappedLevelAbove profile adapter.txLevel with
  | none => exact ⟨rfl,rfl⟩
  | some target =>
    have rung := nextMappedRung found
    have top := levelBounds target
    have bottom := levelBounds adapter.txLevel
    have climbed : (climbTo target 20 .maintained adapter).2.txLevel = target ∧ (climbTo target 20 .maintained adapter).2.rx = adapter.rx :=
      climbReaches (le_of_lt rung.up) (by omega)
    dsimp only
    generalize climbTo target 20 .maintained adapter = reached at climbed
    split <;> exact climbed

theorem moveOther {ack : AckType} (other : ack ≠ .ackUp) :
    (move (some profile) adapter ack false).2.txLevel = (if Lowers adapter.tx ack then stepDown adapter.txLevel else adapter.txLevel) ∧
    (move (some profile) adapter ack false).2.rx = adapter.rx := by
  have plain : move (some profile) adapter ack false = adapter.applyAck ack := by
    cases ack <;> first | exact absurd rfl other | rfl
  rw [plain]
  refine ⟨?_,rfl⟩
  simp only [BiDirRateAdapter.applyAck, BiDirRateAdapter.txLevel, ackLevel, other, if_false]

structure Decided (s : RateAdaptationPolicy Snr) (profile : SessionProfile Snr) (adapter : BiDirRateAdapter) (level : SpeedLevel)
    (t : RateAdaptationPolicy Snr) (moved : BiDirRateAdapter) : Prop where
  session : InSession profile moved t
  level : moved.txLevel = level
  reverse : moved.rx = adapter.rx
  cap : t.maxTxLevel = s.maxTxLevel

theorem openDecides (session : InSession profile adapter s) {ack : AckType} {holdAckUp : Bool}
    (free : ¬ (ack = .ackUp ∧ 0 < s.upgradeHoldRemaining))
    (queued : ¬ (ack = .ackUp ∧ 0 < s.minBacklogForUpgrade ∧ s.txBacklogBytes < s.minBacklogForUpgrade))
    {level : SpeedLevel} (moves : (move (some profile) adapter ack holdAckUp).2.txLevel = level ∧
      (move (some profile) adapter ack holdAckUp).2.rx = adapter.rx) :
    ∃ moved, Decided s profile adapter level (s.decideRateChange ack holdAckUp).2 moved := by
  refine ⟨(move (some profile) adapter ack holdAckUp).2,?_⟩
  simp only [decideRateChange, free, queued, if_false, session.adapter, session.profile]
  generalize move (some profile) adapter ack holdAckUp = answer at moves
  split
  · exact ⟨⟨rfl,rfl⟩,moves.1,moves.2,rfl⟩
  · exact ⟨⟨rfl,rfl⟩,moves.1,moves.2,rfl⟩

theorem decided (session : InSession profile adapter s) (ack : AckType) :
    ∃ moved, Decided s profile adapter (asked s profile adapter ack)
      (s.decideRateChange ack (s.shouldHoldAckUpWithoutSnrCandidate ack)).2 moved := by
  by_cases up : ack = .ackUp
  · subst up
    by_cases hold : 0 < s.upgradeHoldRemaining
    · have held : UpHeld s profile adapter := .inl hold
      refine ⟨adapter,?_⟩
      simp only [decideRateChange, hold, and_self, if_true, asked, held]
      exact ⟨⟨session.profile,session.adapter⟩,rfl,rfl,rfl⟩
    · by_cases gate : 0 < s.minBacklogForUpgrade ∧ s.txBacklogBytes < s.minBacklogForUpgrade
      · have held : UpHeld s profile adapter := .inr (.inl gate)
        refine ⟨adapter,?_⟩
        simp only [decideRateChange, hold, gate, and_false, and_self, if_true, if_false, asked, held]
        exact ⟨session,rfl,rfl,rfl⟩
      · by_cases candidate : profile.ackUpRequiresSnrCandidateAt = some adapter.txLevel ∧ adapter.tx.snrUpgradeCandidate = false
        · have held : UpHeld s profile adapter := .inr (.inr candidate)
          have holds : s.shouldHoldAckUpWithoutSnrCandidate .ackUp = true := by
            simp [shouldHoldAckUpWithoutSnrCandidate, session.profile, session.adapter, candidate]
          simp only [asked, held, if_true, holds]
          exact openDecides session (by simp [hold]) (by simp [gate]) ⟨rfl,rfl⟩
        · have passes : ¬ UpHeld s profile adapter := by
            rintro (first | second | third)
            · exact hold first
            · exact gate second
            · exact candidate third
          have holds : s.shouldHoldAckUpWithoutSnrCandidate .ackUp = false := by
            simpa [shouldHoldAckUpWithoutSnrCandidate, session.profile, session.adapter] using candidate
          simp only [asked, passes, if_true, if_false, holds]
          exact openDecides session (by simp [hold]) (by simp [gate]) moveUp
  · have holds : s.shouldHoldAckUpWithoutSnrCandidate ack = false := by
      cases ack <;> first | exact absurd rfl up | rfl
    simp only [asked, up, if_false, holds]
    exact openDecides session (by simp [up]) (by simp [up]) (moveOther up)

def underCap (max : Option SpeedLevel) (level : SpeedLevel) : SpeedLevel := max.elim level (min level)

structure Applied (s : RateAdaptationPolicy Snr) (profile : SessionProfile Snr) (adapter : BiDirRateAdapter) (ack : AckType)
    (t : RateAdaptationPolicy Snr) (moved : BiDirRateAdapter) : Prop where
  session : InSession profile moved t
  level : moved.txLevel = underCap s.maxTxLevel (asked s profile adapter ack)
  reverse : moved.rxLevel = underCap s.maxTxLevel adapter.rxLevel
  cap : t.maxTxLevel = s.maxTxLevel

theorem applied (session : InSession profile adapter s) (ack : AckType) (direction : Option RateDirection) :
    ∃ moved, Applied s profile adapter ack (s.applyAckInternal ack direction).2 moved := by
  obtain ⟨moved,chosen⟩ := decided session ack
  simp only [applyAckInternal]
  generalize s.decideRateChange ack (s.shouldHoldAckUpWithoutSnrCandidate ack) = answer at chosen
  cases cap : s.maxTxLevel with
  | none =>
    have open' : answer.2.maxTxLevel = none := chosen.cap.trans cap
    refine ⟨moved,?_⟩
    simp only [open']
    exact ⟨chosen.session,by simp [chosen.level, underCap, cap],by simp [BiDirRateAdapter.rxLevel, chosen.reverse, underCap, cap],chosen.cap⟩
  | some max =>
    have capped : answer.2.maxTxLevel = some max := chosen.cap.trans cap
    refine ⟨⟨(moved.tx.clampTo max).2,(moved.rx.clampTo max).2⟩,?_⟩
    simp only [capped, chosen.session.adapter]
    refine ⟨⟨chosen.session.profile,rfl⟩,?_,?_,cap.symm⟩
    · have level := chosen.level
      simp only [BiDirRateAdapter.txLevel] at level
      simp [BiDirRateAdapter.txLevel, clampLevel, level, underCap, cap]
    · simp [BiDirRateAdapter.rxLevel, clampLevel, chosen.reverse, underCap, cap]

end Asked

end OpenPulse.RatePolicy
