import Mathlib.Order.MinMax
import Mathlib.Data.Nat.Basic
import Mathlib.Data.List.Basic

/-! Receiver-led rate control: `openpulse-core/src/ota_rate.rs` with the parts of
`rate.rs`, `profile.rs` and `ack.rs` it reads. A signal-to-noise reading is an
element of a type with a decidable comparison and no law at all, so the model
also covers an `f32` that is not a number. Counters are `u8` with saturation. -/
namespace OpenPulse.OtaRate

inductive SpeedLevel where
  | sl1 | sl2 | sl3 | sl4 | sl5 | sl6 | sl7 | sl8 | sl9 | sl10
  | sl11 | sl12 | sl13 | sl14 | sl15 | sl16 | sl17 | sl18 | sl19 | sl20
  deriving DecidableEq, Repr

def SpeedLevel.discriminant (l : SpeedLevel) : Nat := l.ctorIdx + 1

theorem discriminantInjective : Function.Injective SpeedLevel.discriminant := by
  intro a b same
  have index : a.ctorIdx = b.ctorIdx := Nat.succ.inj same
  rw [← SpeedLevel.ofNat_ctorIdx a, ← SpeedLevel.ofNat_ctorIdx b, index]

instance : LinearOrder SpeedLevel := LinearOrder.lift' SpeedLevel.discriminant discriminantInjective

inductive FecMode where
  | none | rs | rsInterleaved | concatenated | shortRs | rsStrong | softConcatenated
  | ldpc | ldpcHighRate | turbo
  deriving DecidableEq, Repr

inductive AckType where
  | ackOk | ackUp | ackDown | nack | break | req | qrt | abort
  deriving DecidableEq, Repr

structure SessionProfile (Snr : Type) where
  modes : SpeedLevel → Option String
  initialLevel : SpeedLevel
  nackThreshold : Nat
  snrFloors : SpeedLevel → Option Snr
  snrCeilings : SpeedLevel → Option Snr
  fecModes : SpeedLevel → Option FecMode

namespace SessionProfile
variable {Snr : Type} (p : SessionProfile Snr)

def modeFor (level : SpeedLevel) : Option String := p.modes level
def snrFloorForLevel (level : SpeedLevel) : Option Snr := p.snrFloors level
def snrCeilingForLevel (level : SpeedLevel) : Option Snr := p.snrCeilings level
def fecFor (level : SpeedLevel) : FecMode := (p.fecModes level).getD .none

def definedLevels : List SpeedLevel :=
  [.sl1, .sl2, .sl3, .sl4, .sl5, .sl6, .sl7, .sl8, .sl9, .sl10, .sl11, .sl12, .sl13, .sl14, .sl15,
    .sl16, .sl17, .sl18, .sl19, .sl20].filter (fun l => (p.modes l).isSome)

theorem definedLevelsAscending : p.definedLevels.Pairwise (· < ·) :=
  List.Pairwise.filter _ (by decide)

end SessionProfile

/- The 500 Hz ladder of `profile.rs`. Its thresholds are whole decibels. -/
def hpx500 : SessionProfile Int where
  modes
    | .sl2 => some "BPSK31"
    | .sl3 => some "BPSK63"
    | .sl4 => some "BPSK250"
    | .sl5 => some "QPSK250"
    | .sl6 => some "QPSK500"
    | _ => none
  initialLevel := .sl2
  nackThreshold := 3
  snrFloors
    | .sl2 => some 3
    | .sl3 => some 4
    | .sl4 => some 5
    | .sl5 => some 9
    | .sl6 => some 11
    | _ => none
  snrCeilings
    | .sl2 => some 8
    | .sl3 => some 9
    | .sl4 => some 11
    | .sl5 => some 14
    | .sl6 => some 18
    | _ => none
  fecModes := fun _ => none

def ackClimbThreshold : Nat := 3

inductive RxOutcome where
  | decoded (level : SpeedLevel)
  | failed
  deriving DecidableEq, Repr

inductive RateDecision where
  | locked | fastDownshift | nackHold | nackStepDown | climbOnSnr | climbOnEvidence | hold
  deriving DecidableEq, Repr

structure RxAck where
  ackType : AckType
  recommendedLevel : SpeedLevel
  decision : RateDecision
  deriving DecidableEq, Repr

structure OtaRateController (Snr : Type) where
  profile : SessionProfile Snr
  levels : List SpeedLevel
  rxRecommended : SpeedLevel
  rxConfirmed : SpeedLevel
  rxConsecutiveNack : Nat
  rxConsecutiveOk : Nat
  txLevel : SpeedLevel
  minLevel : Option SpeedLevel
  maxLevel : Option SpeedLevel
  locked : Option SpeedLevel

def saturatingInc (n : Nat) : Nat := min (n + 1) 255

namespace OtaRateController
variable {Snr : Type}

def new (profile : SessionProfile Snr) : OtaRateController Snr :=
  let levels := profile.definedLevels
  let initial := if profile.initialLevel ∈ levels then profile.initialLevel
    else levels.head?.getD .sl1
  { profile, levels, rxRecommended := initial, rxConfirmed := initial, rxConsecutiveNack := 0,
    rxConsecutiveOk := 0, txLevel := initial, minLevel := none, maxLevel := none, locked := none }

variable (c : OtaRateController Snr)

def lo : SpeedLevel := c.minLevel.getD (c.levels.head?.getD .sl1)
def hi : SpeedLevel := c.maxLevel.getD (c.levels.getLast?.getD .sl1)

def clampMapped (level : SpeedLevel) : SpeedLevel :=
  let bounded := min (max level c.lo) c.hi
  if bounded ∈ c.levels then bounded else
    ((c.levels.reverse.find? (fun l => l ≤ bounded ∧ c.lo ≤ l)).or
      (c.levels.find? (fun l => c.lo ≤ l ∧ l ≤ c.hi))).getD bounded

def nextMapped (level : SpeedLevel) : SpeedLevel :=
  (c.levels.find? (fun l => level < l ∧ l ≤ c.hi)).getD (c.clampMapped level)

def prevMapped (level : SpeedLevel) : SpeedLevel :=
  (c.levels.reverse.find? (fun l => l < level ∧ c.lo ≤ l)).getD (c.clampMapped level)

def setLevelBounds (min max : Option SpeedLevel) : OtaRateController Snr :=
  let c := { c with minLevel := min, maxLevel := max }
  { c with rxRecommended := c.clampMapped c.rxRecommended, rxConfirmed := c.clampMapped c.rxConfirmed,
           txLevel := c.clampMapped c.txLevel }

def lockLevel (level : SpeedLevel) : OtaRateController Snr :=
  let l := c.clampMapped level
  { c with locked := some l, txLevel := l, rxRecommended := l, rxConfirmed := l }

def unlock : OtaRateController Snr := { c with locked := none }

def adoptRecommendation (level : SpeedLevel) : OtaRateController Snr :=
  if c.locked.isSome then c else { c with txLevel := c.clampMapped level }

def rxCandidates : List (SpeedLevel × String × FecMode) :=
  let out := match c.profile.modeFor c.rxRecommended with
    | some m => [(c.rxRecommended, m, c.profile.fecFor c.rxRecommended)]
    | none => []
  if c.rxConfirmed ≠ c.rxRecommended then
    match c.profile.modeFor c.rxConfirmed with
    | some m =>
      if out.any (fun entry => entry.1 = c.rxConfirmed) then out
      else out ++ [(c.rxConfirmed, m, c.profile.fecFor c.rxConfirmed)]
    | none => out
  else out

variable [LE Snr] [DecidableLE Snr]

def levelForSnr (snrDb : Snr) : SpeedLevel :=
  ((c.levels.filter (fun l => c.lo ≤ l ∧ l ≤ c.hi)).filter
    (fun l => (c.profile.snrFloorForLevel l).all (fun f => f ≤ snrDb))).max?.getD c.lo

/- The `Failed` arm. Without a reading, or with one that does not explain the
failure, the consecutive-NACK count decides. -/
def onRxFailed (snrDb : Option Snr) : RxAck × OtaRateController Snr :=
  let c := { c with rxConsecutiveOk := 0 }
  let snrLevel := snrDb.map c.levelForSnr
  let (decision, c) : RateDecision × OtaRateController Snr :=
    match snrLevel.filter (fun l => l < c.rxRecommended) with
    | some l => (.fastDownshift, { c with rxConsecutiveNack := 0, rxRecommended := l })
    | none =>
      let c := { c with rxConsecutiveNack := saturatingInc c.rxConsecutiveNack }
      if c.profile.nackThreshold ≤ c.rxConsecutiveNack then
        let below := c.prevMapped c.rxConfirmed
        (.nackStepDown, { c with rxConsecutiveNack := 0, rxConfirmed := below, rxRecommended := below })
      else (.nackHold, c)
  (⟨.nack,c.rxRecommended,decision⟩, c)

/- The `Decoded` arm. The streak counts clean decodes at one level and is spent
when it buys a step up. -/
def onRxDecoded (level : SpeedLevel) (snrDb : Option Snr) : RxAck × OtaRateController Snr :=
  let confirmed := c.clampMapped level
  let streak := if confirmed = c.rxConfirmed then saturatingInc c.rxConsecutiveOk else 1
  let c := { c with rxConsecutiveNack := 0, rxConfirmed := confirmed, rxConsecutiveOk := streak }
  let snrClearsCeiling := snrDb.any
    (fun s => (c.profile.snrCeilingForLevel c.rxConfirmed).any (fun ceiling => ceiling ≤ s))
  let provenBySuccess := decide (ackClimbThreshold ≤ c.rxConsecutiveOk)
  let decision : RateDecision :=
    if !(snrClearsCeiling || provenBySuccess) then .hold
    else if snrClearsCeiling then .climbOnSnr else .climbOnEvidence
  let c : OtaRateController Snr := if snrClearsCeiling || provenBySuccess then
      let next := c.nextMapped c.rxConfirmed
      { c with rxConsecutiveOk := if next ≠ c.rxConfirmed then 0 else c.rxConsecutiveOk,
               rxRecommended := next }
    else { c with rxRecommended := c.rxConfirmed }
  let ackType : AckType :=
    if c.rxConfirmed < c.rxRecommended then .ackUp
    else if c.rxRecommended < c.rxConfirmed then .ackDown else .ackOk
  (⟨ackType,c.rxRecommended,decision⟩, c)

def onRxFrame (outcome : RxOutcome) (snrDb : Option Snr) : RxAck × OtaRateController Snr :=
  match c.locked with
  | some l =>
    (⟨match outcome with | .failed => .nack | .decoded _ => .ackOk,l,.locked⟩, c)
  | none =>
    match outcome with
    | .failed => c.onRxFailed snrDb
    | .decoded level => c.onRxDecoded level snrDb

end OtaRateController

def OtaRateController.setup {Snr : Type} (c : OtaRateController Snr) :=
  (c.profile, c.levels, c.minLevel, c.maxLevel, c.locked)

def Adapting {Snr : Type} (p : SessionProfile Snr) (c : OtaRateController Snr) : Prop :=
  c.setup = (p, p.definedLevels, none, none, none)

def Rung {Snr : Type} (p : SessionProfile Snr) (l : SpeedLevel) : Prop :=
  l ∈ p.definedLevels ∨ (p.definedLevels = [] ∧ l = .sl1)

section Ladder
variable {Snr : Type} {p : SessionProfile Snr} {c : OtaRateController Snr}

theorem Adapting.profile (a : Adapting p c) : c.profile = p := congrArg (·.1) a
theorem Adapting.levels (a : Adapting p c) : c.levels = p.definedLevels := congrArg (·.2.1) a
theorem Adapting.minLevel (a : Adapting p c) : c.minLevel = none := congrArg (·.2.2.1) a
theorem Adapting.maxLevel (a : Adapting p c) : c.maxLevel = none := congrArg (·.2.2.2.1) a
theorem Adapting.locked (a : Adapting p c) : c.locked = none := congrArg (·.2.2.2.2) a

theorem newAdapting (p : SessionProfile Snr) : Adapting p (.new p) := rfl

theorem newRung (p : SessionProfile Snr) : Rung p (OtaRateController.new p).txLevel := by
  simp only [OtaRateController.new, Rung]
  split
  · exact .inl ‹_›
  · cases empty : p.definedLevels with
    | nil => exact .inr ⟨rfl,rfl⟩
    | cons l rest => exact .inl (by simp)

theorem loLeRung (a : Adapting p c) {l} (member : l ∈ p.definedLevels) : c.lo ≤ l := by
  have ascending := p.definedLevelsAscending
  simp only [OtaRateController.lo, a.minLevel, a.levels, Option.getD_none]
  cases shape : p.definedLevels with
  | nil => simp [shape] at member
  | cons x rest =>
    rw [shape] at member ascending
    rcases List.mem_cons.mp member with rfl | later
    · exact le_refl _
    · exact le_of_lt ((List.pairwise_cons.mp ascending).1 l later)

theorem rungLeHi (a : Adapting p c) {l} (member : l ∈ p.definedLevels) : l ≤ c.hi := by
  have ascending := p.definedLevelsAscending
  simp only [OtaRateController.hi, a.maxLevel, a.levels, Option.getD_none]
  cases final : p.definedLevels.getLast? with
  | none => rw [List.getLast?_eq_none_iff.mp final] at member; simp at member
  | some x =>
    obtain ⟨front,shape⟩ := List.getLast?_eq_some_iff.mp final
    rw [shape] at member ascending
    rcases List.mem_append.mp member with earlier | same
    · exact le_of_lt ((List.pairwise_append.mp ascending).2.2 l earlier x (by simp))
    · rw [List.mem_singleton.mp same]; exact le_refl _

theorem loRung (a : Adapting p c) : Rung p c.lo := by
  simp only [OtaRateController.lo, a.minLevel, a.levels, Option.getD_none, Rung]
  cases p.definedLevels with
  | nil => exact .inr ⟨rfl,rfl⟩
  | cons x rest => exact .inl (by simp)

theorem clampRung (a : Adapting p c) {l} (rung : Rung p l) : c.clampMapped l = l := by
  rcases rung with member | ⟨empty,rfl⟩
  · have bounded : min (max l c.lo) c.hi = l := by
      rw [max_eq_left (loLeRung a member), min_eq_left (rungLeHi a member)]
    simp [OtaRateController.clampMapped, bounded, a.levels, member]
  · have first : c.lo = .sl1 := by simp [OtaRateController.lo, a.minLevel, a.levels, empty]
    have last : c.hi = .sl1 := by simp [OtaRateController.hi, a.maxLevel, a.levels, empty]
    simp [OtaRateController.clampMapped, a.levels, empty, first, last]

theorem clampIsRung (a : Adapting p c) (l : SpeedLevel) : Rung p (c.clampMapped l) := by
  by_cases empty : p.definedLevels = []
  · have first : c.lo = .sl1 := by simp [OtaRateController.lo, a.minLevel, a.levels, empty]
    have last : c.hi = .sl1 := by simp [OtaRateController.hi, a.maxLevel, a.levels, empty]
    refine .inr ⟨empty,?_⟩
    simp [OtaRateController.clampMapped, a.levels, empty, first, last]
  · have lowest : c.lo ∈ p.definedLevels := (loRung a).resolve_right (fun h => empty h.1)
    simp only [OtaRateController.clampMapped, a.levels]
    split
    · exact .inl ‹_›
    · have bound : c.lo ≤ min (max l c.lo) c.hi := le_min (le_max_right _ _) (rungLeHi a lowest)
      cases found : p.definedLevels.reverse.find?
          (fun x => x ≤ min (max l c.lo) c.hi ∧ c.lo ≤ x) with
      | none =>
        have refused := List.find?_eq_none.mp found c.lo (List.mem_reverse.mpr lowest)
        simp [bound] at refused
      | some x =>
        have member := List.mem_reverse.mp (List.mem_of_find?_eq_some found)
        exact .inl (by simpa using member)

theorem nextIsRung (a : Adapting p c) (l : SpeedLevel) : Rung p (c.nextMapped l) := by
  simp only [OtaRateController.nextMapped, a.levels]
  cases found : p.definedLevels.find? (fun x => l < x ∧ x ≤ c.hi) with
  | none => exact clampIsRung a l
  | some x => exact .inl (List.mem_of_find?_eq_some found)

theorem prevIsRung (a : Adapting p c) (l : SpeedLevel) : Rung p (c.prevMapped l) := by
  simp only [OtaRateController.prevMapped, a.levels]
  cases found : p.definedLevels.reverse.find? (fun x => x < l ∧ c.lo ≤ x) with
  | none => exact clampIsRung a l
  | some x => exact .inl (List.mem_reverse.mp (List.mem_of_find?_eq_some found))

theorem levelForSnrIsRung [LE Snr] [DecidableLE Snr] (a : Adapting p c) (s : Snr) :
    Rung p (c.levelForSnr s) := by
  simp only [OtaRateController.levelForSnr, a.levels]
  generalize adequate : List.filter _ (List.filter _ p.definedLevels) = rungs
  cases best : rungs.max? with
  | none => exact loRung a
  | some x =>
    have member : x ∈ rungs := List.max?_mem best
    rw [← adequate] at member
    exact .inl (List.mem_of_mem_filter (List.mem_of_mem_filter member))

end Ladder

end OpenPulse.OtaRate
