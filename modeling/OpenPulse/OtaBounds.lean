import OpenPulse.OtaLockstep
import OpenPulse.Ladders

/-! Every operation on a rate controller, in any order, with the operator's bounds
and the peer's levels as they come. Bounds are resolved against the profile's own
ends; the levels move on the profile's ladder inside them. -/
namespace OpenPulse.OtaBounds
open OtaRate OtaLockstep Runs
open Ladders (Inside OneStep NextRung)

inductive Operation (Snr : Type) where
  | setLevelBounds (min max : Option SpeedLevel)
  | lockLevel (level : SpeedLevel)
  | unlock
  | adoptRecommendation (level : SpeedLevel)
  | onRxFrame (outcome : RxOutcome) (snrDb : Option Snr)

section Frames
variable {Snr : Type} [LE Snr] [DecidableLE Snr] (c : OtaRateController Snr)

def operate : Operation Snr → Option RxAck × OtaRateController Snr
  | .setLevelBounds min max => (none, c.setLevelBounds min max)
  | .lockLevel level => (none, c.lockLevel level)
  | .unlock => (none, c.unlock)
  | .adoptRecommendation level => (none, c.adoptRecommendation level)
  | .onRxFrame outcome snrDb => ((c.onRxFrame outcome snrDb).1, (c.onRxFrame outcome snrDb).2)

def next (op : Operation Snr) : OtaRateController Snr := (operate c op).2

end Frames

section Ladder
variable {Snr : Type}

theorem clampSnaps (c : OtaRateController Snr) (l : SpeedLevel) : c.clampMapped l = Ladders.snap c.levels c.lo c.hi l := by
  simp only [OtaRateController.clampMapped, Ladders.snap]
  congr

theorem nextClimbs (c : OtaRateController Snr) (l : SpeedLevel) : c.nextMapped l = Ladders.above c.levels c.lo c.hi l := by
  unfold OtaRateController.nextMapped Ladders.above
  rw [clampSnaps]

theorem prevDescends (c : OtaRateController Snr) (l : SpeedLevel) : c.prevMapped l = Ladders.below c.levels c.lo c.hi l := by
  unfold OtaRateController.prevMapped Ladders.below
  rw [clampSnaps]

/- The bounds of `setLevelBounds`, each absent one replaced by the profile's own end. -/
def lowest (p : SessionProfile Snr) (min : Option SpeedLevel) : SpeedLevel := min.getD (p.definedLevels.head?.getD .sl1)

def highest (p : SessionProfile Snr) (max : Option SpeedLevel) : SpeedLevel := max.getD (p.definedLevels.getLast?.getD .sl1)

def OnLadder (p : SessionProfile Snr) (c : OtaRateController Snr) : Prop := c.profile = p ∧ c.levels = p.definedLevels

theorem OnLadder.lo {p : SessionProfile Snr} {c : OtaRateController Snr} (ladder : OnLadder p c) : c.lo = lowest p c.minLevel := by
  simp only [OtaRateController.lo, lowest, ladder.2]

theorem OnLadder.hi {p : SessionProfile Snr} {c : OtaRateController Snr} (ladder : OnLadder p c) : c.hi = highest p c.maxLevel := by
  simp only [OtaRateController.hi, highest, ladder.2]

theorem OnLadder.ascending {p : SessionProfile Snr} {c : OtaRateController Snr} (ladder : OnLadder p c) :
    c.levels.Pairwise (· < ·) := by
  rw [ladder.2]
  exact p.definedLevelsAscending

theorem newOnLadder (p : SessionProfile Snr) : OnLadder p (.new p) := ⟨rfl,rfl⟩

theorem setupOnLadder {p : SessionProfile Snr} {c d : OtaRateController Snr} (same : d.setup = c.setup) (ladder : OnLadder p c) :
    OnLadder p d := by
  simp only [OtaRateController.setup, Prod.mk.injEq] at same
  exact ⟨same.1.trans ladder.1,same.2.1.trans ladder.2⟩

structure BoundsMoves (p : SessionProfile Snr) (c : OtaRateController Snr) (min max : Option SpeedLevel) : Prop where
  low : (c.setLevelBounds min max).lo = lowest p min
  high : (c.setLevelBounds min max).hi = highest p max
  recommends : (c.setLevelBounds min max).rxRecommended = Ladders.snap p.definedLevels (lowest p min) (highest p max) c.rxRecommended
  confirms : (c.setLevelBounds min max).rxConfirmed = Ladders.snap p.definedLevels (lowest p min) (highest p max) c.rxConfirmed
  transmits : (c.setLevelBounds min max).txLevel = Ladders.snap p.definedLevels (lowest p min) (highest p max) c.txLevel

theorem boundsMoves {p : SessionProfile Snr} {c : OtaRateController Snr} (ladder : OnLadder p c) (min max : Option SpeedLevel) :
    BoundsMoves p c min max := by
  have moved : OnLadder p { c with minLevel := min, maxLevel := max } := ladder
  have snaps : ∀ a, OtaRateController.clampMapped { c with minLevel := min, maxLevel := max } a =
      Ladders.snap p.definedLevels (lowest p min) (highest p max) a := by
    intro a
    rw [clampSnaps, moved.lo, moved.hi, moved.2]
  exact ⟨moved.lo,moved.hi,snaps _,snaps _,snaps _⟩

theorem setupBounds {c d : OtaRateController Snr} (same : d.setup = c.setup) : d.levels = c.levels ∧ d.lo = c.lo ∧ d.hi = c.hi := by
  simp only [OtaRateController.setup, Prod.mk.injEq] at same
  obtain ⟨-,levels,low,high,-⟩ := same
  exact ⟨levels,by simp only [OtaRateController.lo, levels, low],by simp only [OtaRateController.hi, levels, high]⟩

end Ladder

section Frames
variable {Snr : Type} [LE Snr] [DecidableLE Snr] {p : SessionProfile Snr} {c : OtaRateController Snr}

structure FailedMoves (c : OtaRateController Snr) (snr : Option Snr) (answer : RxAck × OtaRateController Snr) : Prop where
  step : FailedStep c snr answer.2.rxRecommended answer.2.rxConfirmed
  recommends : answer.1.recommendedLevel = answer.2.rxRecommended
  nack : answer.1.ackType = .nack
  setup : answer.2.setup = c.setup
  transmits : answer.2.txLevel = c.txLevel

theorem failedMoves (free : c.locked = none) (snr : Option Snr) : FailedMoves c snr (c.onRxFrame .failed snr) := by
  have failed : c.onRxFrame .failed snr = c.onRxFailed snr := by simp only [OtaRateController.onRxFrame, free]
  rw [failed]
  cases verdict : (snr.map c.levelForSnr).filter (fun l => l < c.rxRecommended) with
  | some l =>
    have shown : (snr.map (OtaRateController.levelForSnr { c with rxConsecutiveOk := 0 })).filter
        (fun l => l < c.rxRecommended) = some l := verdict
    simp only [OtaRateController.onRxFailed, shown]
    exact ⟨.fastDownshift verdict,rfl,rfl,rfl,rfl⟩
  | none =>
    have shown : (snr.map (OtaRateController.levelForSnr { c with rxConsecutiveOk := 0 })).filter
        (fun l => l < c.rxRecommended) = none := verdict
    simp only [OtaRateController.onRxFailed, shown]
    split
    · exact ⟨.nackStepDown verdict ‹_›,rfl,rfl,rfl,rfl⟩
    · exact ⟨.nackHold verdict ‹_›,rfl,rfl,rfl,rfl⟩

structure DecodedMoves (c : OtaRateController Snr) (l : SpeedLevel) (answer : RxAck × OtaRateController Snr) : Prop where
  confirms : answer.2.rxConfirmed = c.clampMapped l
  steps : answer.2.rxRecommended = c.clampMapped l ∨ answer.2.rxRecommended = c.nextMapped (c.clampMapped l)
  recommends : answer.1.recommendedLevel = answer.2.rxRecommended
  direction : answer.1.ackType = if answer.2.rxConfirmed < answer.2.rxRecommended then .ackUp
    else if answer.2.rxRecommended < answer.2.rxConfirmed then .ackDown else .ackOk
  setup : answer.2.setup = c.setup
  transmits : answer.2.txLevel = c.txLevel

theorem decodedMoves (free : c.locked = none) (l : SpeedLevel) (snr : Option Snr) :
    DecodedMoves c l (c.onRxFrame (.decoded l) snr) := by
  have decoded : c.onRxFrame (.decoded l) snr = c.onRxDecoded l snr := by simp only [OtaRateController.onRxFrame, free]
  rw [decoded]
  simp only [OtaRateController.onRxDecoded]
  generalize (if c.clampMapped l = c.rxConfirmed then saturatingInc c.rxConsecutiveOk else 1) = streak
  generalize (Option.any _ snr || decide (ackClimbThreshold ≤ streak)) = climbs
  cases climbs with
  | true => exact ⟨rfl,.inr rfl,rfl,rfl,rfl,rfl⟩
  | false => exact ⟨rfl,.inl rfl,rfl,rfl,rfl,rfl⟩

theorem lockedFrame {l : SpeedLevel} (held : c.locked = some l) (outcome : RxOutcome) (snr : Option Snr) :
    (c.onRxFrame outcome snr).1.recommendedLevel = l ∧ (c.onRxFrame outcome snr).2 = c := by
  simp only [OtaRateController.onRxFrame, held, and_self]

theorem nextOnLadder (op : Operation Snr) (ladder : OnLadder p c) : OnLadder p (next c op) := by
  cases op with
  | setLevelBounds min max => exact ladder
  | lockLevel level => exact ladder
  | unlock => exact ladder
  | adoptRecommendation level =>
    simp only [next, operate, OtaRateController.adoptRecommendation]
    split <;> exact ladder
  | onRxFrame outcome snr =>
    cases held : c.locked with
    | some l => simpa only [next, operate, (lockedFrame held outcome snr).2] using ladder
    | none =>
      cases outcome with
      | failed => exact setupOnLadder (failedMoves held snr).setup ladder
      | decoded l => exact setupOnLadder (decodedMoves held l snr).setup ladder

end Frames

section Levels
variable {Snr : Type} [LE Snr] [DecidableLE Snr] {p : SessionProfile Snr} {c d : OtaRateController Snr}

structure Placed (p : SessionProfile Snr) (c : OtaRateController Snr) : Prop where
  recommended : Inside p.definedLevels c.lo c.hi c.rxRecommended
  confirmed : Inside p.definedLevels c.lo c.hi c.rxConfirmed
  transmitting : Inside p.definedLevels c.lo c.hi c.txLevel
  oneStep : OneStep p.definedLevels c.rxConfirmed c.rxRecommended

structure Kept (p : SessionProfile Snr) (c : OtaRateController Snr) : Prop extends Placed p c where
  candidate : c.rxCandidates ≠ []
  twoAtMost : c.rxCandidates.length ≤ 2

/- Bounds that leave the profile a rung. They are then ordered as well. -/
def Admissible (p : SessionProfile Snr) : Operation Snr → Prop
  | .setLevelBounds min max => ∃ l ∈ p.definedLevels, lowest p min ≤ l ∧ l ≤ highest p max
  | _ => True

def Adequate (c : OtaRateController Snr) (s : Snr) (l : SpeedLevel) : Prop :=
  Inside c.levels c.lo c.hi l ∧ ∀ floor, c.profile.snrFloorForLevel l = some floor → floor ≤ s

def FallsOnRung (c : OtaRateController Snr) : Operation Snr → Prop
  | .onRxFrame .failed (some s) => c.locked = none → c.lo ∈ c.levels ∨ ∃ l, Adequate c s l
  | _ => True

omit [LE Snr] [DecidableLE Snr] in
theorem candidatesKept (ladder : OnLadder p c) (member : c.rxRecommended ∈ p.definedLevels) :
    c.rxCandidates ≠ [] ∧ c.rxCandidates.length ≤ 2 := by
  obtain ⟨m,mode⟩ : ∃ m, c.profile.modeFor c.rxRecommended = some m := by
    have mapped := List.of_mem_filter member
    rw [← ladder.1] at mapped
    exact Option.isSome_iff_exists.mp mapped
  simp only [OtaRateController.rxCandidates, mode]
  split
  · cases c.profile.modeFor c.rxConfirmed with
    | none => simp
    | some other =>
      dsimp only
      split <;> simp
  · simp

omit [LE Snr] [DecidableLE Snr] in
theorem keptIffPlaced (ladder : OnLadder p c) : Kept p c ↔ Placed p c := by
  constructor
  · exact Kept.toPlaced
  · intro placed
    obtain ⟨candidate,twoAtMost⟩ := candidatesKept ladder placed.recommended.member
    exact ⟨placed,candidate,twoAtMost⟩

theorem levelForSnrLands {s : Snr} {l} (adequate : Adequate c s l) : Inside c.levels c.lo c.hi (c.levelForSnr s) := by
  simp only [OtaRateController.levelForSnr]
  generalize supported : List.filter _ (List.filter _ c.levels) = rungs
  have listed : l ∈ rungs := by
    rw [← supported]
    refine List.mem_filter.mpr ⟨List.mem_filter.mpr ⟨adequate.1.member,by simp [adequate.1.low, adequate.1.high]⟩,?_⟩
    simpa [Option.all_eq_true] using adequate.2
  cases best : rungs.max? with
  | none => simp [List.max?_eq_none_iff.mp best] at listed
  | some x =>
    have member : x ∈ rungs := List.max?_mem best
    rw [← supported] at member
    have bounded := List.mem_of_mem_filter member
    have meets := List.of_mem_filter bounded
    simp only [decide_eq_true_eq] at meets
    exact ⟨List.mem_of_mem_filter bounded,meets.1,meets.2⟩

theorem levelForSnrFalls {s : Snr} (inadequate : ∀ l, ¬ Adequate c s l) : c.levelForSnr s = c.lo := by
  simp only [OtaRateController.levelForSnr]
  have empty : List.filter (fun l => (c.profile.snrFloorForLevel l).all (fun f => f ≤ s))
      (List.filter (fun l => c.lo ≤ l ∧ l ≤ c.hi) c.levels) = [] := by
    refine List.filter_eq_nil_iff.mpr fun l member supported => ?_
    have meets := List.of_mem_filter member
    simp only [decide_eq_true_eq] at meets
    exact inadequate l ⟨⟨List.mem_of_mem_filter member,meets.1,meets.2⟩,by simpa [Option.all_eq_true] using supported⟩
  rw [empty]
  rfl

theorem unexplainedFalls (ladder : OnLadder p c) (placed : Placed p c) {snr : Option Snr}
    (unexplained : (snr.map c.levelForSnr).filter (fun l => l < c.rxRecommended) = none) :
    FallsOnRung c (.onRxFrame .failed snr) := by
  cases snr with
  | none => trivial
  | some s =>
    intro free
    by_cases adequate : ∃ l, Adequate c s l
    · exact .inr adequate
    · have stays := Option.filter_eq_none_iff.mp unexplained (c.levelForSnr s) rfl
      simp only [decide_eq_true_eq, not_lt, levelForSnrFalls (not_exists.mp adequate)] at stays
      have bottom : c.lo = c.rxRecommended := le_antisymm placed.recommended.low stays
      rw [bottom, ladder.2]
      exact .inl placed.recommended.member

theorem failedPlaced (ladder : OnLadder p c) (placed : Placed p c) (free : c.locked = none) {snr : Option Snr}
    {rec conf : SpeedLevel} (step : FailedStep c snr rec conf) :
    (Inside p.definedLevels c.lo c.hi rec ∧ Inside p.definedLevels c.lo c.hi conf ∧ OneStep p.definedLevels conf rec) ↔
      FallsOnRung c (.onRxFrame .failed snr) := by
  have among := (Ladders.oneStepAmong placed.recommended.member).mp placed.oneStep
  cases step with
  | fastDownshift explained =>
    obtain ⟨found,lower⟩ := Option.filter_eq_some_iff.mp explained
    obtain ⟨s,rfl,reading⟩ := Option.map_eq_some_iff.mp found
    simp only [decide_eq_true_eq] at lower
    simp only [FallsOnRung, free, forall_const]
    constructor
    · rintro ⟨recommended,-,-⟩
      by_cases adequate : ∃ l, Adequate c s l
      · exact .inr adequate
      · refine .inl ?_
        rw [← levelForSnrFalls (not_exists.mp adequate), reading, ladder.2]
        exact recommended.member
    · intro falls
      have landed : Inside p.definedLevels c.lo c.hi rec := by
        rw [← reading, ← ladder.2]
        by_cases adequate : ∃ l, Adequate c s l
        · obtain ⟨l,supports⟩ := adequate
          exact levelForSnrLands supports
        · rw [levelForSnrFalls (not_exists.mp adequate)]
          exact ⟨falls.resolve_right adequate,le_refl _,le_trans placed.confirmed.low placed.confirmed.high⟩
      have down : ∀ l ∈ p.definedLevels, c.rxConfirmed < l → rec ≤ l :=
        fun l member up => le_trans (le_of_lt lower) (among l member up)
      exact ⟨landed,placed.confirmed,(Ladders.oneStepAmong landed.member).mpr down⟩
  | nackStepDown unexplained full =>
    have landed : Inside p.definedLevels c.lo c.hi (c.prevMapped c.rxConfirmed) := by
      rw [prevDescends, ladder.2]
      exact Ladders.belowInside p.definedLevelsAscending placed.confirmed
    have holds : FallsOnRung c (.onRxFrame .failed snr) := unexplainedFalls ladder placed unexplained
    exact iff_of_true ⟨landed,landed,.inl (le_refl _)⟩ holds
  | nackHold unexplained counting =>
    have holds : FallsOnRung c (.onRxFrame .failed snr) := unexplainedFalls ladder placed unexplained
    exact iff_of_true ⟨placed.recommended,placed.confirmed,placed.oneStep⟩ holds

theorem decodedPlaced (ladder : OnLadder p c) (placed : Placed p c) (free : c.locked = none) (l : SpeedLevel) (snr : Option Snr) :
    Placed p (c.onRxFrame (.decoded l) snr).2 := by
  obtain ⟨confirms,steps,-,-,setup,transmits⟩ := decodedMoves free l snr
  generalize (c.onRxFrame (.decoded l) snr).2 = d at confirms steps setup transmits
  obtain ⟨-,low,high⟩ := setupBounds setup
  have ascending := p.definedLevelsAscending
  have confirmed : Inside p.definedLevels c.lo c.hi (c.clampMapped l) := by
    rw [clampSnaps, ladder.2]
    exact Ladders.snapLands ascending placed.confirmed
  rw [nextClimbs, ladder.2] at steps
  refine ⟨?_,?_,?_,?_⟩
  · rw [low, high]
    rcases steps with held | climbed
    · rwa [held]
    · rw [climbed]
      exact Ladders.aboveInside ascending confirmed
  · rwa [low, high, confirms]
  · rw [low, high, transmits]
    exact placed.transmitting
  · rw [confirms]
    rcases steps with held | climbed
    · exact .inl (le_of_eq held)
    · rw [climbed]
      exact (Ladders.aboveStep ascending (Ladders.snapInside confirmed)).imp_left le_of_eq

omit [LE Snr] [DecidableLE Snr] in
theorem boundsPlaced (ladder : OnLadder p c) (placed : Placed p c) {min max : Option SpeedLevel}
    (admissible : ∃ l ∈ p.definedLevels, lowest p min ≤ l ∧ l ≤ highest p max) : Placed p (c.setLevelBounds min max) := by
  obtain ⟨l,member,low,high⟩ := admissible
  have moves := boundsMoves ladder min max
  have inside : Inside p.definedLevels (lowest p min) (highest p max) l := ⟨member,low,high⟩
  have ascending := p.definedLevelsAscending
  have among := (Ladders.oneStepAmong placed.recommended.member).mp placed.oneStep
  refine ⟨?_,?_,?_,?_⟩
  · rw [moves.low, moves.high, moves.recommends]
    exact Ladders.snapLands ascending inside
  · rw [moves.low, moves.high, moves.confirms]
    exact Ladders.snapLands ascending inside
  · rw [moves.low, moves.high, moves.transmits]
    exact Ladders.snapLands ascending inside
  · rw [moves.confirms, moves.recommends]
    exact Ladders.snapOneStep ascending inside among

theorem placedNext (ladder : OnLadder p c) (placed : Placed p c) {op : Operation Snr} (admissible : Admissible p op) :
    Placed p (next c op) ↔ FallsOnRung c op := by
  have snaps : ∀ l, Inside p.definedLevels c.lo c.hi (c.clampMapped l) := by
    intro l
    rw [clampSnaps, ladder.2]
    exact Ladders.snapLands p.definedLevelsAscending placed.confirmed
  cases op with
  | setLevelBounds min max => exact iff_of_true (boundsPlaced ladder placed admissible) trivial
  | lockLevel level => exact iff_of_true ⟨snaps level,snaps level,snaps level,.inl (le_refl _)⟩ trivial
  | unlock => exact iff_of_true ⟨placed.recommended,placed.confirmed,placed.transmitting,placed.oneStep⟩ trivial
  | adoptRecommendation level =>
    refine iff_of_true ?_ trivial
    simp only [next, operate, OtaRateController.adoptRecommendation]
    split
    · exact placed
    · exact ⟨placed.recommended,placed.confirmed,snaps level,placed.oneStep⟩
  | onRxFrame outcome snr =>
    cases held : c.locked with
    | some l =>
      have still : next c (.onRxFrame outcome snr) = c := (lockedFrame held outcome snr).2
      rw [still]
      refine iff_of_true placed ?_
      cases outcome with
      | decoded l => trivial
      | failed =>
        cases snr with
        | none => trivial
        | some s =>
          intro free
          rw [held] at free
          cases free
    | none =>
      cases outcome with
      | decoded l => exact iff_of_true (decodedPlaced ladder placed held l snr) trivial
      | failed =>
        obtain ⟨step,-,-,setup,transmits⟩ := failedMoves held snr
        obtain ⟨-,low,high⟩ := setupBounds setup
        rw [← failedPlaced ladder placed held step]
        simp only [next, operate]
        constructor
        · intro after
          rw [← low, ← high]
          exact ⟨after.recommended,after.confirmed,after.oneStep⟩
        · rintro ⟨recommended,confirmed,oneStep⟩
          refine ⟨?_,?_,?_,oneStep⟩ <;> rw [low, high]
          · exact recommended
          · exact confirmed
          · rw [transmits]
            exact placed.transmitting

omit [LE Snr] [DecidableLE Snr] in
theorem newPlaced (mapped : p.definedLevels ≠ []) : Placed p (.new p) := by
  have adapting := newAdapting p
  have rung : (OtaRateController.new p).txLevel ∈ p.definedLevels := (newRung p).resolve_right (fun empty => mapped empty.1)
  have inside : Inside p.definedLevels (OtaRateController.new p).lo (OtaRateController.new p).hi (OtaRateController.new p).txLevel :=
    ⟨rung,loLeRung adapting rung,rungLeHi adapting rung⟩
  exact ⟨inside,inside,inside,.inl (le_refl _)⟩

/- A lower bound that is no rung is where a reading below every floor sends the
recommendation. Nothing else leaves the ladder. -/
theorem levelsKeptIff (mapped : p.definedLevels ≠ []) (ops : List (Operation Snr)) (admissible : ∀ op ∈ ops, Admissible p op) :
    (∀ c ∈ OtaRateController.new p :: reached next (.new p) ops, Kept p c) ↔ EveryStep next FallsOnRung (.new p) ops := by
  have start := (keptIffPlaced (newOnLadder p)).mpr (newPlaced mapped)
  have steps : (∀ c ∈ reached next (.new p) ops, Kept p c) ↔ EveryStep next FallsOnRung (.new p) ops := by
    refine reachedIffAmong (I := OnLadder p) (A := Admissible p) (fun c op ladder _ => nextOnLadder op ladder) ?_ (newOnLadder p) start
      admissible
    intro c op ladder kept known
    rw [keptIffPlaced (nextOnLadder op ladder)]
    exact placedNext ladder ((keptIffPlaced ladder).mp kept) known
  rw [← steps]
  simp [start]

def subFloorBound : List (Operation Int) := [.setLevelBounds (some .sl1) none,.onRxFrame .failed (some (-20))]

theorem recommendationOffLadder : ¬ ∀ ops : List (Operation Int), (∀ op ∈ ops, Admissible hpx500 op) →
    ∀ c ∈ OtaRateController.new hpx500 :: reached next (.new hpx500) ops, Kept hpx500 c := by
  intro always
  have admissible : ∀ op ∈ subFloorBound, Admissible hpx500 op := by
    intro op member
    rcases List.mem_cons.mp member with rfl | later
    · exact ⟨.sl2,by decide,by decide,by decide⟩
    · rw [List.mem_singleton.mp later]
      trivial
  have kept := always subFloorBound admissible (run next (.new hpx500) subFloorBound) (by simp [subFloorBound, reached])
  have member := kept.recommended.member
  revert member
  decide

theorem levelsKeptOneFailure : hpx500.definedLevels ≠ [] ∧
    ∀ c ∈ OtaRateController.new hpx500 :: reached next (.new hpx500) [Operation.onRxFrame .failed none], Kept hpx500 c :=
  ⟨by decide,(levelsKeptIff (by decide) _ (by simp [Admissible])).mpr ⟨trivial,trivial⟩⟩

end Levels

end OpenPulse.OtaBounds
