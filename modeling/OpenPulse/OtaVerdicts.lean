import OpenPulse.OtaBounds

/-! What a received frame may do to the recommendation after any history, and what
a lock holds through the operations that follow it. -/
namespace OpenPulse.OtaVerdicts
open OtaRate OtaLockstep OtaBounds Runs
open Ladders (NextRung)

variable {Snr : Type} [LE Snr] [DecidableLE Snr] {p : SessionProfile Snr} {c : OtaRateController Snr}

structure Directed (c : OtaRateController Snr) (outcome : RxOutcome) (snr : Option Snr) : Prop where
  failedLowers : outcome = .failed → (c.onRxFrame outcome snr).2.rxRecommended ≤ c.rxRecommended
  decodedHolds : ∀ l, outcome = .decoded l → (c.onRxFrame outcome snr).2.rxRecommended = c.clampMapped l ∨
    NextRung c.levels (c.clampMapped l) (c.onRxFrame outcome snr).2.rxRecommended
  recommends : (c.onRxFrame outcome snr).1.recommendedLevel = (c.onRxFrame outcome snr).2.rxRecommended
  nack : (c.onRxFrame outcome snr).1.ackType = .nack ↔ outcome = .failed
  ackUp : ∀ l, outcome = .decoded l → ((c.onRxFrame outcome snr).1.ackType = .ackUp ↔
    (c.onRxFrame outcome snr).2.rxConfirmed < (c.onRxFrame outcome snr).2.rxRecommended)

structure NearAnchor (c : OtaRateController Snr) : Prop where
  between : ∀ l ∈ c.levels, c.lo ≤ l → l < c.rxConfirmed → l ≤ c.rxRecommended
  bottom : c.rxConfirmed ≤ c.rxRecommended ∨ ∃ l ∈ c.levels, c.lo ≤ l ∧ l < c.rxConfirmed

/- The step down of a full NACK count takes the anchor one rung down and the
recommendation with it, wherever a fast downshift had left it. -/
def StepsDown (c : OtaRateController Snr) (snr : Option Snr) : Prop :=
  (∀ s, snr = some s → c.rxRecommended ≤ c.levelForSnr s) →
    c.profile.nackThreshold ≤ saturatingInc c.rxConsecutiveNack → NearAnchor c

structure Anchored (p : SessionProfile Snr) (c : OtaRateController Snr) : Prop where
  ladder : OnLadder p c
  settled : c.clampMapped c.rxConfirmed = c.rxConfirmed

omit [LE Snr] [DecidableLE Snr] in
theorem newAnchored (p : SessionProfile Snr) : Anchored p (.new p) :=
  ⟨newOnLadder p,clampRung (newAdapting p) (newRung p)⟩

omit [LE Snr] [DecidableLE Snr] in
theorem clampTwice (ladder : OnLadder p c) (l : SpeedLevel) : c.clampMapped (c.clampMapped l) = c.clampMapped l := by
  simp only [clampSnaps]
  exact Ladders.snapTwice ladder.ascending

theorem framesAnchored (outcome : RxOutcome) (snr : Option Snr) (anchored : Anchored p c) :
    Anchored p (c.onRxFrame outcome snr).2 := by
  cases held : c.locked with
  | some l => rwa [(lockedFrame held outcome snr).2]
  | none =>
    cases outcome with
    | failed =>
      obtain ⟨step,-,-,setup,-⟩ := failedMoves held snr
      refine ⟨setupOnLadder setup anchored.ladder,?_⟩
      obtain ⟨levels,low,high⟩ := setupBounds setup
      have settled := anchored.settled
      generalize (c.onRxFrame .failed snr).2.rxRecommended = rec at step
      generalize landed : (c.onRxFrame .failed snr).2.rxConfirmed = conf at step
      rw [clampSnaps] at settled ⊢
      rw [levels, low, high]
      cases step with
      | fastDownshift => exact settled
      | nackStepDown =>
        rw [prevDescends]
        exact Ladders.belowSettled anchored.ladder.ascending settled
      | nackHold => exact settled
    | decoded l =>
      obtain ⟨confirms,-,-,-,setup,-⟩ := decodedMoves held l snr
      refine ⟨setupOnLadder setup anchored.ladder,?_⟩
      obtain ⟨levels,low,high⟩ := setupBounds setup
      rw [confirms, clampSnaps, levels, low, high, ← clampSnaps]
      exact clampTwice anchored.ladder l

theorem nextAnchored (op : Operation Snr) (anchored : Anchored p c) : Anchored p (next c op) := by
  cases op with
  | setLevelBounds min max =>
    have moved : OnLadder p { c with minLevel := min, maxLevel := max } := anchored.ladder
    exact ⟨anchored.ladder,clampTwice moved c.rxConfirmed⟩
  | lockLevel level => exact ⟨anchored.ladder,clampTwice anchored.ladder level⟩
  | unlock => exact ⟨anchored.ladder,anchored.settled⟩
  | adoptRecommendation level =>
    simp only [next, operate, OtaRateController.adoptRecommendation]
    split
    · exact anchored
    · exact ⟨anchored.ladder,anchored.settled⟩
  | onRxFrame outcome snr => exact framesAnchored outcome snr anchored

theorem failedLowersIff (anchored : Anchored p c) (free : c.locked = none) (snr : Option Snr) :
    (c.onRxFrame .failed snr).2.rxRecommended ≤ c.rxRecommended ↔ StepsDown c snr := by
  have shown : (snr.map c.levelForSnr).filter (fun l => l < c.rxRecommended) = none ↔
      ∀ s, snr = some s → c.rxRecommended ≤ c.levelForSnr s := by
    cases snr <;> simp [Option.filter]
  obtain ⟨step,-⟩ := failedMoves free snr
  generalize (c.onRxFrame .failed snr).2.rxRecommended = rec at step
  generalize (c.onRxFrame .failed snr).2.rxConfirmed = conf at step
  cases step with
  | fastDownshift explained =>
    have lower := (Option.filter_eq_some_iff.mp explained).2
    simp only [decide_eq_true_eq] at lower
    refine iff_of_true (le_of_lt lower) fun unexplained => ?_
    rw [shown.mpr unexplained] at explained
    cases explained
  | nackStepDown unexplained full =>
    have settled := anchored.settled
    rw [clampSnaps] at settled
    rw [prevDescends, Ladders.belowLeIff anchored.ladder.ascending settled]
    constructor
    · rintro ⟨between,bottom⟩ - -
      exact ⟨between,bottom⟩
    · intro steps
      have near := steps (shown.mp unexplained) full
      exact ⟨near.between,near.bottom⟩
  | nackHold _ counting =>
    exact iff_of_true (le_refl _) fun _ full => absurd full counting

theorem decodedDirected (anchored : Anchored p c) (free : c.locked = none) (l : SpeedLevel) (snr : Option Snr) :
    Directed c (.decoded l) snr := by
  obtain ⟨confirms,steps,recommends,direction,-,-⟩ := decodedMoves free l snr
  have settled := clampTwice anchored.ladder l
  have climbs : (c.onRxFrame (.decoded l) snr).2.rxRecommended = c.clampMapped l ∨
      NextRung c.levels (c.clampMapped l) (c.onRxFrame (.decoded l) snr).2.rxRecommended := by
    rcases steps with held | climbed
    · exact .inl held
    · rw [climbed, nextClimbs]
      simp only [clampSnaps] at settled ⊢
      exact Ladders.aboveStep anchored.ladder.ascending settled
  refine ⟨fun failed => absurd failed (by simp),?_,recommends,?_,?_⟩
  · intro level same
    cases same
    exact climbs
  · refine iff_of_false ?_ (by simp)
    rw [direction]
    split
    · simp
    · split <;> simp
  · intro level same
    cases same
    rw [direction]
    split
    · exact iff_of_true rfl ‹_›
    · refine iff_of_false ?_ ‹_›
      split <;> simp

theorem directedIff (p : SessionProfile Snr) (ops : List (Operation Snr)) (free : (run next (.new p) ops).locked = none)
    (outcome : RxOutcome) (snr : Option Snr) :
    Directed (run next (.new p) ops) outcome snr ↔ (outcome = .failed → StepsDown (run next (.new p) ops) snr) := by
  have anchored : Anchored p (run next (.new p) ops) := runInvariant (fun c op => nextAnchored op) (newAnchored p) ops
  generalize run next (OtaRateController.new p) ops = c at anchored free
  cases outcome with
  | decoded l => exact iff_of_true (decodedDirected anchored free l snr) fun failed => absurd failed (by simp)
  | failed =>
    have lowers := failedLowersIff anchored free snr
    constructor
    · intro directed _
      exact lowers.mp (directed.failedLowers rfl)
    · intro steps
      have moves := failedMoves free snr
      refine ⟨fun _ => lowers.mpr (steps rfl),fun l same => absurd same (by simp),moves.recommends,?_,fun l same => absurd same (by simp)⟩
      exact iff_of_true moves.nack rfl

def downshiftThenHold : List (Operation Int) :=
  [.onRxFrame (.decoded .sl4) none,.onRxFrame .failed (some (-20)),.onRxFrame .failed none,.onRxFrame .failed none]

theorem failureRaisesRecommendation : ¬ ∀ (ops : List (Operation Int)) (outcome : RxOutcome) (snr : Option Int),
    (run next (.new hpx500) ops).locked = none → Directed (run next (.new hpx500) ops) outcome snr := by
  intro always
  have directed := always downshiftThenHold .failed none (by decide)
  have lowers := directed.failedLowers rfl
  revert lowers
  decide

theorem firstFailureDirected : Directed (run next (OtaRateController.new hpx500) []) .failed (some (-20)) :=
  (directedIff hpx500 [] rfl .failed (some (-20))).mpr fun _ _ full => absurd full (by decide)

def observe (o : Option RxAck × OtaRateController Snr) (op : Operation Snr) : Option RxAck × OtaRateController Snr := operate o.2 op

structure Pinned (l : SpeedLevel) (o : Option RxAck × OtaRateController Snr) : Prop where
  transmitting : o.2.txLevel = l
  recommended : o.2.rxRecommended = l
  confirmed : o.2.rxConfirmed = l
  acks : ∀ ack, o.1 = some ack → ack.recommendedLevel = l
  low : o.2.lo ≤ l
  high : l ≤ o.2.hi

def HoldsLock : Operation Snr → Prop
  | .lockLevel _ | .unlock => False
  | _ => True

def BoundsAround (p : SessionProfile Snr) (l : SpeedLevel) : Operation Snr → Prop
  | .setLevelBounds min max => lowest p min ≤ l ∧ l ≤ highest p max ∧
      (l ∈ p.definedLevels ∨ ∀ y ∈ p.definedLevels, lowest p min ≤ y → ¬ y ≤ highest p max)
  | _ => True

structure Locked (p : SessionProfile Snr) (l : SpeedLevel) (o : Option RxAck × OtaRateController Snr) : Prop where
  ladder : OnLadder p o.2
  held : o.2.locked = some l

theorem observeLocked {l : SpeedLevel} {o : Option RxAck × OtaRateController Snr} {op : Operation Snr} (locked : Locked p l o)
    (holds : HoldsLock op) : Locked p l (observe o op) := by
  refine ⟨nextOnLadder op locked.ladder,?_⟩
  cases op with
  | setLevelBounds min max => exact locked.held
  | lockLevel level => exact absurd holds id
  | unlock => exact absurd holds id
  | adoptRecommendation level =>
    simp only [observe, operate, OtaRateController.adoptRecommendation]
    split <;> exact locked.held
  | onRxFrame outcome snr =>
    simp only [observe, operate, (lockedFrame locked.held outcome snr).2]
    exact locked.held

theorem observePinned {l : SpeedLevel} {o : Option RxAck × OtaRateController Snr} {op : Operation Snr} (locked : Locked p l o)
    (pinned : Pinned l o) (holds : HoldsLock op) : Pinned l (observe o op) ↔ BoundsAround p l op := by
  cases op with
  | lockLevel level => exact absurd holds id
  | unlock => exact absurd holds id
  | adoptRecommendation level =>
    have still : observe o (.adoptRecommendation level) = (none, o.2) := by
      simp [observe, operate, OtaRateController.adoptRecommendation, locked.held]
    rw [still]
    exact iff_of_true ⟨pinned.transmitting,pinned.recommended,pinned.confirmed,by simp,pinned.low,pinned.high⟩ trivial
  | onRxFrame outcome snr =>
    obtain ⟨ack,still⟩ := lockedFrame locked.held outcome snr
    have same : observe o (.onRxFrame outcome snr) = (some (o.2.onRxFrame outcome snr).1, o.2) := by
      simp only [observe, operate, still]
    rw [same]
    refine iff_of_true ⟨pinned.transmitting,pinned.recommended,pinned.confirmed,?_,pinned.low,pinned.high⟩ trivial
    intro answer given
    cases given
    exact ack
  | setLevelBounds min max =>
    have moves := boundsMoves locked.ladder min max
    have stays : lowest p min ≤ l → l ≤ highest p max → (Ladders.snap p.definedLevels (lowest p min) (highest p max) l = l ↔
        l ∈ p.definedLevels ∨ ∀ y ∈ p.definedLevels, lowest p min ≤ y → ¬ y ≤ highest p max) :=
      Ladders.snapStays p.definedLevelsAscending
    constructor
    · rintro ⟨transmits,-,-,-,low,high⟩
      simp only [observe, operate, moves.transmits, moves.low, moves.high, pinned.transmitting] at transmits low high
      exact ⟨low,high,(stays low high).mp transmits⟩
    · rintro ⟨low,high,around⟩
      have settled := (stays low high).mpr around
      refine ⟨?_,?_,?_,by simp [observe, operate],?_,?_⟩ <;> simp only [observe, operate]
      · rw [moves.transmits, pinned.transmitting, settled]
      · rw [moves.recommends, pinned.recommended, settled]
      · rw [moves.confirms, pinned.confirmed, settled]
      · rwa [moves.low]
      · rwa [moves.high]

theorem lockSettles (ladder : OnLadder p c) (level : SpeedLevel) :
    Pinned (c.clampMapped level) (operate c (.lockLevel level)) ↔ c.lo ≤ c.hi := by
  constructor
  · intro pinned
    exact le_trans pinned.low pinned.high
  · intro order
    have low : c.lo ≤ c.clampMapped level := by
      rw [clampSnaps]
      exact Ladders.snapLow ladder.ascending order
    have high : c.clampMapped level ≤ c.hi := by
      rw [clampSnaps]
      exact Ladders.snapHigh ladder.ascending
    exact ⟨rfl,rfl,rfl,by simp [operate],low,high⟩

/- Under crossed bounds no level is inside; afterwards only new bounds can move the
levels, and the lock is not moved with them. -/
theorem lockPinsIff (p : SessionProfile Snr) (before : List (Operation Snr)) (level : SpeedLevel) (ops : List (Operation Snr))
    (holds : ∀ op ∈ ops, HoldsLock op) :
    (∀ o ∈ operate (run next (.new p) before) (.lockLevel level) ::
        reached observe (operate (run next (.new p) before) (.lockLevel level)) ops,
      Pinned ((run next (.new p) before).clampMapped level) o) ↔
    (run next (.new p) before).lo ≤ (run next (.new p) before).hi ∧
      ∀ op ∈ ops, BoundsAround p ((run next (.new p) before).clampMapped level) op := by
  have ladder : OnLadder p (run next (.new p) before) := runInvariant (I := OnLadder p) (fun c op => nextOnLadder op) (newOnLadder p) before
  generalize run next (OtaRateController.new p) before = c at ladder
  have locked : Locked p (c.clampMapped level) (operate c (.lockLevel level)) := ⟨ladder,rfl⟩
  rw [List.forall_mem_cons, lockSettles ladder level]
  refine and_congr_right fun order => ?_
  have everyOp : EveryStep observe (fun _ op => BoundsAround p (c.clampMapped level) op) (operate c (.lockLevel level)) ops ↔
      ∀ op ∈ ops, BoundsAround p (c.clampMapped level) op := everyStepEvents
  rw [← everyOp]
  have pinned := (lockSettles ladder level).mpr order
  generalize operate c (.lockLevel level) = o at locked pinned
  exact reachedIffAmong (fun o op locked holds => observeLocked locked holds)
    (fun o op locked pinned holds => observePinned locked pinned holds) locked pinned holds

theorem lockLeavesBounds : ¬ ∀ (before : List (Operation Int)) (level : SpeedLevel) (ops : List (Operation Int)),
    (∀ op ∈ ops, HoldsLock op) →
    ∀ o ∈ operate (run next (.new hpx500) before) (.lockLevel level) ::
        reached observe (operate (run next (.new hpx500) before) (.lockLevel level)) ops,
      Pinned ((run next (.new hpx500) before).clampMapped level) o := by
  intro always
  have pinned := always [] .sl4 [.setLevelBounds none (some .sl3)] (by simp [HoldsLock])
    (operate (operate (OtaRateController.new hpx500) (.lockLevel .sl4)).2 (.setLevelBounds none (some .sl3))) (by simp [reached, observe])
  have transmits := pinned.transmitting
  revert transmits
  decide

theorem lockPinsOneFailure : hpx500.definedLevels ≠ [] ∧ ∀ o ∈ operate (run next (.new hpx500) []) (.lockLevel .sl4) ::
    reached observe (operate (run next (.new hpx500) []) (.lockLevel .sl4)) [Operation.onRxFrame .failed none],
    Pinned ((run next (OtaRateController.new hpx500) []).clampMapped .sl4) o :=
  ⟨by decide,(lockPinsIff hpx500 [] .sl4 [.onRxFrame .failed none] (by simp [HoldsLock])).mpr ⟨by decide,by simp [BoundsAround]⟩⟩

end OpenPulse.OtaVerdicts
