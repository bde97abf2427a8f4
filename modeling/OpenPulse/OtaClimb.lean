import OpenPulse.OtaBounds

/-! What a climb on evidence rests on: the frames judged since the confirmed level last
changed, over any order of the operator's controls and the frames. -/
namespace OpenPulse.OtaClimb
open OtaRate OtaBounds Runs

variable {Snr : Type} [LE Snr] [DecidableLE Snr] {p : SessionProfile Snr} {c : OtaRateController Snr}

def judge (c : OtaRateController Snr) (op : Operation Snr) : List RxOutcome × OtaRateController Snr :=
  (match op with
    | .onRxFrame outcome _ => if c.locked.isNone then [outcome] else []
    | _ => [],
  next c op)

def judged (c : OtaRateController Snr) (ops : List (Operation Snr)) : List RxOutcome := outputs judge c ops

/- `n` frames or more, all decoded at the level confirmed now, which has stayed the
confirmed one since the first of them. -/
def Backed (p : SessionProfile Snr) (ops : List (Operation Snr)) (n : Nat) : Prop :=
  ∃ before window, ops = before ++ window ∧ n ≤ (judged (run next (.new p) before) window).length ∧
    (∀ outcome ∈ judged (run next (.new p) before) window, outcome = .decoded (run next (.new p) ops).rxConfirmed) ∧
    ∀ t ∈ reached next (run next (.new p) before) window, t.rxConfirmed = (run next (.new p) ops).rxConfirmed

theorem backedNone (p : SessionProfile Snr) (ops : List (Operation Snr)) : Backed p ops 0 :=
  ⟨ops,[],by simp,Nat.zero_le _,by simp [judged, outputs],by simp [reached]⟩

theorem Backed.fewer {ops : List (Operation Snr)} {m n : Nat} (backed : Backed p ops n) (le : m ≤ n) : Backed p ops m := by
  obtain ⟨before,window,split,enough,decoded,still⟩ := backed
  exact ⟨before,window,split,Nat.le_trans le enough,decoded,still⟩

theorem judgedAppend (c : OtaRateController Snr) (xs ys : List (Operation Snr)) :
    judged c (xs ++ ys) = judged c xs ++ judged (run next c xs) ys := outputsAppend judge c xs ys

theorem reachedAppend (c : OtaRateController Snr) (xs ys : List (Operation Snr)) :
    reached next c (xs ++ ys) = reached next c xs ++ reached next (run next c xs) ys := by
  induction xs generalizing c with
  | nil => rfl
  | cons x xs ih => simp only [List.cons_append, reached, runCons, ih]

theorem Backed.extend {ops : List (Operation Snr)} {op : Operation Snr} {n : Nat} (backed : Backed p ops n)
    (still : (next (run next (.new p) ops) op).rxConfirmed = (run next (.new p) ops).rxConfirmed)
    (counts : ∀ outcome ∈ judged (run next (.new p) ops) [op], outcome = .decoded (run next (.new p) ops).rxConfirmed) :
    Backed p (ops ++ [op]) (n + (judged (run next (.new p) ops) [op]).length) := by
  obtain ⟨before,window,split,enough,decoded,same⟩ := backed
  have whole : run next (run next (.new p) before) window = run next (.new p) ops := by rw [split, runAppend]
  have after : (run next (.new p) (ops ++ [op])).rxConfirmed = (run next (.new p) ops).rxConfirmed := by
    rw [runAppend]
    exact still
  refine ⟨before,window ++ [op],by rw [split, List.append_assoc],?_,?_,?_⟩
  · rw [judgedAppend, whole, List.length_append]
    exact Nat.add_le_add_right enough _
  · intro outcome member
    rw [after]
    rw [judgedAppend, whole, List.mem_append] at member
    rcases member with earlier | own
    · exact decoded outcome earlier
    · exact counts outcome own
  · intro t member
    rw [after]
    rw [reachedAppend, whole, List.mem_append] at member
    rcases member with earlier | own
    · exact same t earlier
    · rw [List.mem_singleton.mp own]
      exact still

theorem backedOnce {ops : List (Operation Snr)} {op : Operation Snr}
    (counts : judged (run next (.new p) ops) [op] = [.decoded (next (run next (.new p) ops) op).rxConfirmed]) :
    Backed p (ops ++ [op]) 1 := by
  have after : run next (.new p) (ops ++ [op]) = next (run next (.new p) ops) op := by rw [runAppend]; rfl
  refine ⟨ops,[op],rfl,by rw [counts]; exact Nat.le_refl _,?_,?_⟩
  · rw [after, counts]
    simp
  · rw [after]
    simp [reached]

/- What keeps the counter about one level: nothing but a frame moves the confirmed level
while successes are counted, and a frame is decoded at a level that needs no snapping. -/
def Judgeable (c : OtaRateController Snr) : Operation Snr → Prop
  | .setLevelBounds min max => c.rxConsecutiveOk = 0 ∨ (c.setLevelBounds min max).rxConfirmed = c.rxConfirmed
  | .lockLevel level => c.rxConsecutiveOk = 0 ∨ c.clampMapped level = c.rxConfirmed
  | .onRxFrame (.decoded level) _ => c.locked = none → c.clampMapped level = level
  | _ => True

instance (c : OtaRateController Snr) : ∀ op : Operation Snr, Decidable (Judgeable c op)
  | .setLevelBounds _ _ | .lockLevel _ => inferInstanceAs (Decidable (_ ∨ _))
  | .onRxFrame (.decoded _) _ => inferInstanceAs (Decidable (_ → _))
  | .onRxFrame .failed _ | .unlock | .adoptRecommendation _ => isTrue trivial

def streak (c : OtaRateController Snr) (level : SpeedLevel) : Nat :=
  if c.clampMapped level = c.rxConfirmed then saturatingInc c.rxConsecutiveOk else 1

structure Counted (c : OtaRateController Snr) (level : SpeedLevel) (answer : RxAck × OtaRateController Snr) : Prop where
  climbs : answer.1.decision = .climbOnEvidence → ackClimbThreshold ≤ streak c level
  spends : answer.2.rxConsecutiveOk ≤ streak c level

theorem decodedCounted (free : c.locked = none) (level : SpeedLevel) (snr : Option Snr) :
    Counted c level (c.onRxFrame (.decoded level) snr) := by
  have decoded : c.onRxFrame (.decoded level) snr = c.onRxDecoded level snr := by simp only [OtaRateController.onRxFrame, free]
  have counter : (if c.clampMapped level = c.rxConfirmed then saturatingInc c.rxConsecutiveOk else 1) = streak c level := rfl
  rw [decoded]
  constructor
  · simp only [OtaRateController.onRxDecoded, counter]
    generalize Option.any _ snr = clears
    by_cases enough : ackClimbThreshold ≤ streak c level
    · exact fun _ => enough
    · cases clears <;> simp [enough]
  · simp only [OtaRateController.onRxDecoded, counter]
    generalize (Option.any _ snr || decide (ackClimbThreshold ≤ streak c level)) = climbs
    cases climbs with
    | false => exact Nat.le_refl _
    | true =>
      simp only [if_true]
      split
      · exact Nat.zero_le _
      · exact Nat.le_refl _

theorem failedCounted (free : c.locked = none) (snr : Option Snr) :
    (c.onRxFrame .failed snr).2.rxConsecutiveOk = 0 ∧ (c.onRxFrame .failed snr).1.decision ≠ .climbOnEvidence := by
  have failed : c.onRxFrame .failed snr = c.onRxFailed snr := by simp only [OtaRateController.onRxFrame, free]
  rw [failed]
  simp only [OtaRateController.onRxFailed]
  generalize Option.filter _ (Option.map _ snr) = explained
  cases explained with
  | some l => exact ⟨rfl,by simp⟩
  | none =>
    dsimp only
    split
    · exact ⟨rfl,by simp⟩
    · exact ⟨rfl,by simp⟩

theorem judgedFrame (free : c.locked = none) (outcome : RxOutcome) (snr : Option Snr) :
    judged c [.onRxFrame outcome snr] = [outcome] := by
  simp [judged, outputs, judge, free]

theorem unjudged {op : Operation Snr} (still : ∀ outcome snr, op = .onRxFrame outcome snr → c.locked ≠ none) : judged c [op] = [] := by
  cases op with
  | onRxFrame outcome snr =>
    obtain ⟨l,held⟩ := Option.ne_none_iff_exists'.mp (still outcome snr rfl)
    simp [judged, outputs, judge, held]
  | _ => rfl

theorem decodedBacked {ops : List (Operation Snr)} {level : SpeedLevel} {snr : Option Snr}
    (free : (run next (.new p) ops).locked = none) (backed : Backed p ops (run next (.new p) ops).rxConsecutiveOk)
    (own : (run next (.new p) ops).clampMapped level = level) :
    Backed p (ops ++ [.onRxFrame (.decoded level) snr]) (streak (run next (.new p) ops) level) := by
  have confirms : (next (run next (.new p) ops) (.onRxFrame (.decoded level) snr)).rxConfirmed = level :=
    (decodedMoves free level snr).confirms.trans own
  have counts := judgedFrame free (.decoded level) snr
  by_cases same : (run next (.new p) ops).clampMapped level = (run next (.new p) ops).rxConfirmed
  · have still : (next (run next (.new p) ops) (.onRxFrame (.decoded level) snr)).rxConfirmed =
        (run next (.new p) ops).rxConfirmed := by rw [confirms, ← own, same]
    have longer := backed.extend still (by rw [counts, ← same, own]; simp)
    refine longer.fewer ?_
    rw [counts, streak, if_pos same]
    exact Nat.min_le_left _ _
  · rw [streak, if_neg same]
    exact backedOnce (by rw [counts, confirms])

theorem nextBacked {ops : List (Operation Snr)} {op : Operation Snr}
    (backed : Backed p ops (run next (.new p) ops).rxConsecutiveOk) (judgeable : Judgeable (run next (.new p) ops) op) :
    Backed p (ops ++ [op]) (run next (.new p) (ops ++ [op])).rxConsecutiveOk := by
  have after : run next (.new p) (ops ++ [op]) = next (run next (.new p) ops) op := by rw [runAppend]; rfl
  -- an operation that leaves both the confirmed level and the counter
  have quiet : (next (run next (.new p) ops) op).rxConfirmed = (run next (.new p) ops).rxConfirmed →
      (next (run next (.new p) ops) op).rxConsecutiveOk = (run next (.new p) ops).rxConsecutiveOk →
      judged (run next (.new p) ops) [op] = [] → Backed p (ops ++ [op]) (run next (.new p) (ops ++ [op])).rxConsecutiveOk := by
    intro still counter none
    rw [after, counter]
    exact (backed.extend still (by simp [none])).fewer (Nat.le_add_right _ _)
  have reset : (next (run next (.new p) ops) op).rxConsecutiveOk = 0 →
      Backed p (ops ++ [op]) (run next (.new p) (ops ++ [op])).rxConsecutiveOk := by
    intro zero
    rw [after, zero]
    exact backedNone p _
  cases op with
  | setLevelBounds min max =>
    rcases judgeable with zero | still
    · exact reset zero
    · exact quiet still rfl (unjudged (by simp))
  | lockLevel level =>
    rcases judgeable with zero | still
    · exact reset zero
    · exact quiet still rfl (unjudged (by simp))
  | unlock => exact quiet rfl rfl (unjudged (by simp))
  | adoptRecommendation level =>
    refine quiet ?_ ?_ (unjudged (by simp)) <;> simp only [next, operate, OtaRateController.adoptRecommendation] <;> split <;> rfl
  | onRxFrame outcome snr =>
    cases held : (run next (.new p) ops).locked with
    | some l =>
      have same := (lockedFrame held outcome snr).2
      refine quiet ?_ ?_ (unjudged (by simp [held])) <;> simp only [next, operate, same]
    | none =>
      cases outcome with
      | failed =>
        exact reset (failedCounted held snr).1
      | decoded level =>
        rw [after]
        exact (decodedBacked held backed (judgeable held)).fewer (decodedCounted held level snr).spends

theorem runBacked (p : SessionProfile Snr) {ops : List (Operation Snr)} (admitted : EveryStep next Judgeable (.new p) ops) :
    Backed p ops (run next (.new p) ops).rxConsecutiveOk := by
  induction ops using List.reverseRecOn with
  | nil => exact backedNone p []
  | append_singleton ops op ih =>
    obtain ⟨earlier,own,-⟩ := everyStepAppend.mp admitted
    exact nextBacked (ih earlier) own

def ClimbsOnEvidence (p : SessionProfile Snr) (ops : List (Operation Snr)) (op : Operation Snr) : Prop :=
  ∃ ack, (operate (run next (.new p) ops) op).1 = some ack ∧ ack.decision = .climbOnEvidence

theorem climbBacked {ops : List (Operation Snr)} {op : Operation Snr}
    (admitted : EveryStep next Judgeable (.new p) (ops ++ [op])) (climbs : ClimbsOnEvidence p ops op) :
    Backed p (ops ++ [op]) ackClimbThreshold := by
  obtain ⟨earlier,own,-⟩ := everyStepAppend.mp admitted
  obtain ⟨ack,answer,decision⟩ := climbs
  cases op with
  | onRxFrame outcome snr =>
    cases answer
    cases held : (run next (.new p) ops).locked with
    | some l => simp [OtaRateController.onRxFrame, held] at decision
    | none =>
      cases outcome with
      | failed => exact absurd decision (failedCounted held snr).2
      | decoded level =>
        exact (decodedBacked held (runBacked p earlier) (own held)).fewer ((decodedCounted held level snr).climbs decision)
  | _ => cases answer

theorem evidenceClimbsBacked (p : SessionProfile Snr) (ops : List (Operation Snr))
    (admitted : EveryStep next Judgeable (.new p) ops) (before : List (Operation Snr)) (op : Operation Snr)
    (after : List (Operation Snr)) (split : ops = before ++ op :: after) (climbs : ClimbsOnEvidence p before op) :
    Backed p (before ++ [op]) ackClimbThreshold := by
  have whole : ops = (before ++ [op]) ++ after := by simp [split]
  rw [whole] at admitted
  exact climbBacked (everyStepAppend.mp admitted).1 climbs

def raisedBounds : List (Operation Int) :=
  [.onRxFrame (.decoded .sl4) none,.onRxFrame (.decoded .sl4) none,.setLevelBounds (some .sl5) none]

def raisedFrame : Operation Int := .onRxFrame (.decoded .sl5) none

theorem climbOnOneFrame : ¬ ∀ (ops before : List (Operation Int)) (op : Operation Int) (after : List (Operation Int)),
    ops = before ++ op :: after → ClimbsOnEvidence hpx500 before op → Backed hpx500 (before ++ [op]) ackClimbThreshold := by
  intro always
  obtain ⟨before,window,split,enough,decoded,-⟩ := always _ raisedBounds raisedFrame [] rfl
    ⟨⟨.ackUp,.sl6,.climbOnEvidence⟩,by decide,rfl⟩
  -- a window with three frames reaches back to the frames at SL4
  have reaches : ∀ k ≤ 4,
      ackClimbThreshold ≤ (judged (run next (.new hpx500) ((raisedBounds ++ [raisedFrame]).take k))
        ((raisedBounds ++ [raisedFrame]).drop k)).length →
      RxOutcome.decoded .sl4 ∈ judged (run next (.new hpx500) ((raisedBounds ++ [raisedFrame]).take k))
        ((raisedBounds ++ [raisedFrame]).drop k) := by decide
  have inside : before.length ≤ 4 := by
    have size := congrArg List.length split
    rw [@List.length_append _ before] at size
    exact Nat.le.intro size.symm
  have member := reaches before.length inside
  rw [split, List.take_left, List.drop_left] at member
  have wrong := decoded _ (member enough)
  rw [show (run next (.new hpx500) (raisedBounds ++ [raisedFrame])).rxConfirmed = .sl5 by decide] at wrong
  cases wrong

theorem threeFramesBacked : Backed hpx500 ([.onRxFrame (.decoded .sl2) none,.onRxFrame (.decoded .sl2) none] ++
    [.onRxFrame (.decoded .sl2) (none : Option Int)]) ackClimbThreshold :=
  evidenceClimbsBacked hpx500 _ (by decide) [.onRxFrame (.decoded .sl2) none,.onRxFrame (.decoded .sl2) none] _ [] rfl
    ⟨⟨.ackUp,.sl3,.climbOnEvidence⟩,by decide,rfl⟩

end OpenPulse.OtaClimb
