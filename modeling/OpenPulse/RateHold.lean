import OpenPulse.RateLevels

/-! The hold on upgrades that a downgrade arms: how long it lasts over any mix of ACKs,
SNR hints and changed gates in one session, and how many AckUps it takes. -/
namespace OpenPulse.RateHold
open OtaRate (SpeedLevel AckType saturatingInc)
open RatePolicy RateAdaptationPolicy RateLevels Runs

variable {Snr : Type} {s : RateAdaptationPolicy Snr} {profile : SessionProfile Snr} {adapter : BiDirRateAdapter}

theorem ackSteppedDown (a : RateAdapter) (ack : AckType) : (a.applyAck ack).1.steppedDown = true ↔ Lowers a ack := by
  cases ack with
  | ackUp =>
    simp only [RateAdapter.applyAck, Lowers]
    split <;> simp [RateEvent.steppedDown]
  | ackDown => by_cases above : .sl2 < a.current <;> simp [RateAdapter.applyAck, RateEvent.steppedDown, Lowers, above]
  | nack =>
    by_cases counting : saturatingInc a.consecutiveNack < a.nackThreshold
    · simp [RateAdapter.applyAck, RateEvent.steppedDown, Lowers, counting, not_le.mpr counting]
    · have full := not_lt.mp counting
      by_cases second : a.current = .sl2
      · have above : SpeedLevel.sl1 < .sl2 := by decide
        simp [RateAdapter.applyAck, RateEvent.steppedDown, Lowers, counting, second, above, full]
      · by_cases above : .sl1 < a.current <;> simp [RateAdapter.applyAck, RateEvent.steppedDown, Lowers, counting, second, above, full]
  | _ => simp [RateAdapter.applyAck, RateEvent.steppedDown, Lowers]

theorem climbSteps {target : SpeedLevel} {fuel : Nat} {event : RateEvent} {adapter : BiDirRateAdapter} (up : event.steppedDown = false) :
    (climbTo target fuel event adapter).1.steppedDown = false := by
  induction fuel generalizing event adapter with
  | zero => exact up
  | succ fuel ih =>
    have step : (adapter.applyAck .ackUp).1.steppedDown = false := by
      have never : ¬ Lowers adapter.tx .ackUp := by simp [Lowers]
      rw [← ackSteppedDown] at never
      simpa [BiDirRateAdapter.applyAck] using never
    simp only [climbTo]
    split
    · split
      · exact step
      · exact ih step
    · exact up

theorem moveSteppedDown (ack : AckType) (holdAckUp : Bool) :
    (move (some profile) adapter ack holdAckUp).1.steppedDown = true ↔ holdAckUp = false ∧ Lowers adapter.tx ack := by
  cases holdAckUp with
  | true => simp [move, RateEvent.steppedDown]
  | false =>
    cases ack with
    | ackUp =>
      simp only [move, Bool.false_eq_true, if_false, true_and]
      refine iff_of_false ?_ (by simp [Lowers])
      split
      · simp [RateEvent.steppedDown]
      · rename_i target found
        have up := @climbSteps target 20 .maintained adapter rfl
        split
        · simp [RateEvent.steppedDown]
        · simpa using up
    | _ => simpa [move, BiDirRateAdapter.applyAck] using ackSteppedDown adapter.tx _

def ackOf : Event Snr → Option AckType
  | .applyAck ack | .applyAckFrame ack _ => some ack
  | _ => none

def AckedUp (e : Event Snr) : Prop := ackOf e = some .ackUp

/- An AckDown above SL2, or the NACK that completes the count above SL1. -/
def AckLowers (s : RateAdaptationPolicy Snr) (e : Event Snr) : Prop :=
  ∃ ack adapter, ackOf e = some ack ∧ s.rateAdapter = some adapter ∧ Lowers adapter.tx ack

structure Held (s : RateAdaptationPolicy Snr) (adapter : BiDirRateAdapter) (ack : AckType) (t : RateAdaptationPolicy Snr) : Prop where
  frames : t.upgradeHoldFrames = s.upgradeHoldFrames
  armed : Lowers adapter.tx ack → t.upgradeHoldRemaining = s.upgradeHoldFrames
  taken : ¬ Lowers adapter.tx ack →
    t.upgradeHoldRemaining = if ack = .ackUp then s.upgradeHoldRemaining - 1 else s.upgradeHoldRemaining

theorem decidesHeld (session : InSession profile adapter s) (set : 0 < s.upgradeHoldFrames) {ack : AckType} {holdAckUp : Bool}
    (gated : holdAckUp = true → ack = .ackUp) : Held s adapter ack (s.decideRateChange ack holdAckUp).2 := by
  by_cases held : ack = .ackUp ∧ 0 < s.upgradeHoldRemaining
  · obtain ⟨rfl,some'⟩ := held
    simp only [decideRateChange, some', and_self, if_true]
    exact ⟨rfl,fun lowers => by simp [Lowers] at lowers,fun _ => rfl⟩
  · have spent : ack = .ackUp → s.upgradeHoldRemaining = 0 := by
      intro up
      by_contra some'
      exact held ⟨up,Nat.pos_of_ne_zero some'⟩
    have still : s.upgradeHoldRemaining = if ack = .ackUp then s.upgradeHoldRemaining - 1 else s.upgradeHoldRemaining := by
      split
      · rw [spent ‹_›]
      · rfl
    by_cases queued : ack = .ackUp ∧ 0 < s.minBacklogForUpgrade ∧ s.txBacklogBytes < s.minBacklogForUpgrade
    · rw [decideRateChange, if_neg held, if_pos queued]
      obtain ⟨rfl,-⟩ := queued
      exact ⟨rfl,fun lowers => by simp [Lowers] at lowers,fun _ => still⟩
    · have steps := @moveSteppedDown Snr profile adapter ack holdAckUp
      simp only [decideRateChange, if_neg held, if_neg queued, session.adapter, session.profile]
      generalize move (some profile) adapter ack holdAckUp = answer at steps
      by_cases lowers : Lowers adapter.tx ack
      · have free : holdAckUp = false := by
          by_contra on
          rw [gated (by simpa using on)] at lowers
          simp [Lowers] at lowers
        rw [if_pos ⟨set,steps.mpr ⟨free,lowers⟩⟩]
        exact ⟨rfl,fun _ => rfl,fun not => absurd lowers not⟩
      · rw [if_neg fun both => lowers (steps.mp both.2).2]
        exact ⟨rfl,fun yes => absurd yes lowers,fun _ => still⟩

theorem internalHeld (session : InSession profile adapter s) (set : 0 < s.upgradeHoldFrames) (ack : AckType)
    (direction : Option RateDirection) : Held s adapter ack (s.applyAckInternal ack direction).2 := by
  have gated : s.shouldHoldAckUpWithoutSnrCandidate ack = true → ack = .ackUp := by
    cases ack <;> simp [shouldHoldAckUpWithoutSnrCandidate]
  have done := decidesHeld session set gated
  simp only [applyAckInternal]
  generalize s.decideRateChange ack (s.shouldHoldAckUpWithoutSnrCandidate ack) = answer at done
  cases answer.2.maxTxLevel <;> cases answer.2.rateAdapter <;> exact ⟨done.frames,done.armed,done.taken⟩

section Session
variable [LT Snr] [DecidableLT Snr]

/- All operations but the start of a session and a change of the hold itself. -/
def WithinSession : Event Snr → Prop
  | .startSession _ | .setUpgradeHoldFrames _ => False
  | _ => True

def HintLowers (s : RateAdaptationPolicy Snr) : Event Snr → Prop
  | .applySnrHint snr => ∃ before after, s.currentTxLevel = some before ∧ (s.applySnrHint snr).2.currentTxLevel = some after ∧ after < before
  | _ => False

def Downgrades (s : RateAdaptationPolicy Snr) (e : Event Snr) : Prop := AckLowers s e ∨ HintLowers s e

/- An SNR hint does not arm the hold: it must find it armed. -/
def HintArmed (s : RateAdaptationPolicy Snr) (e : Event Snr) : Prop := HintLowers s e → s.upgradeHoldFrames ≤ s.upgradeHoldRemaining

structure Moved (profile : SessionProfile Snr) (s : RateAdaptationPolicy Snr) (e : Event Snr) : Prop where
  session : ∃ adapter, InSession profile adapter (step s e)
  frames : (step s e).upgradeHoldFrames = s.upgradeHoldFrames
  armed : AckLowers s e → (step s e).upgradeHoldRemaining = s.upgradeHoldFrames
  taken : ¬ AckLowers s e → AckedUp e → (step s e).upgradeHoldRemaining = s.upgradeHoldRemaining - 1
  kept : ¬ AckLowers s e → ¬ AckedUp e → (step s e).upgradeHoldRemaining = s.upgradeHoldRemaining

omit [LT Snr] [DecidableLT Snr] in
theorem ackLowersIff (session : InSession profile adapter s) {e : Event Snr} {ack : AckType} (acked : ackOf e = some ack) :
    AckLowers s e ↔ Lowers adapter.tx ack := by
  constructor
  · rintro ⟨_,_,same,active,lowers⟩
    rw [acked] at same
    rw [session.adapter] at active
    cases same
    cases active
    exact lowers
  · intro lowers
    exact ⟨ack,adapter,acked,session.adapter,lowers⟩

theorem ackMoved (session : InSession profile adapter s) {e : Event Snr} {ack : AckType} (acked : ackOf e = some ack)
    (stays : ∃ adapter, InSession profile adapter (step s e)) (held : Held s adapter ack (step s e)) : Moved profile s e := by
  have up : AckedUp e ↔ ack = .ackUp := by simp [AckedUp, acked]
  have lowers := ackLowersIff session acked
  refine ⟨stays,held.frames,?_,?_,?_⟩
  · intro down
    exact held.armed (lowers.mp down)
  · intro level upward
    rw [held.taken (mt lowers.mpr level), if_pos (up.mp upward)]
  · intro level other
    rw [held.taken (mt lowers.mpr level), if_neg (mt up.mpr other)]

theorem asideMoved {e : Event Snr} (aside : ackOf e = none) (stays : ∃ adapter, InSession profile adapter (step s e))
    (frames : (step s e).upgradeHoldFrames = s.upgradeHoldFrames)
    (remaining : (step s e).upgradeHoldRemaining = s.upgradeHoldRemaining) : Moved profile s e := by
  refine ⟨stays,frames,?_,?_,fun _ _ => remaining⟩
  · rintro ⟨ack,_,acked,-⟩
    rw [aside] at acked
    cases acked
  · intro _ up
    rw [AckedUp, aside] at up
    cases up

theorem moved (session : InSession profile adapter s) (set : 0 < s.upgradeHoldFrames) {e : Event Snr} (within : WithinSession e) :
    Moved profile s e := by
  cases e with
  | setMaxTxLevel max => exact asideMoved rfl ⟨_,setMaxMoves session max⟩ rfl rfl
  | setMinBacklogForUpgrade bytes => exact asideMoved rfl ⟨adapter,session.profile,session.adapter⟩ rfl rfl
  | setTxBacklog bytes => exact asideMoved rfl ⟨adapter,session.profile,session.adapter⟩ rfl rfl
  | setUpgradeHoldFrames frames => exact absurd within id
  | startSession other => exact absurd within id
  | applyAck ack =>
    obtain ⟨after,done⟩ := applied session ack none
    exact ackMoved session rfl ⟨after,done.session⟩ (internalHeld session set ack none)
  | applyAckFrame ackType reverseAck =>
    obtain ⟨rx,after,done⟩ := framed session ackType reverseAck
    have held := internalHeld session set ackType (some .tx)
    refine ackMoved session rfl ⟨after,done.session⟩ ?_
    simp only [step, applyAckFrame]
    generalize s.applyAckInternal ackType (some .tx) = answer at held
    cases reverseAck <;> cases answer.2.rateAdapter <;> exact ⟨held.frames,held.armed,held.taken⟩
  | applySnrHint snr =>
    refine asideMoved rfl ⟨_,(hinted session snr).1⟩ ?_ ?_ <;> simp only [step, applySnrHint, session.adapter, session.profile]
  | selectRxAckType snr =>
    refine asideMoved rfl ⟨_,(selected session snr).1⟩ ?_ ?_ <;> simp only [step, selectRxAckType, session.adapter, session.profile]

structure Sound (profile : SessionProfile Snr) (n : Nat) (s : RateAdaptationPolicy Snr) : Prop where
  session : ∃ adapter, InSession profile adapter s
  frames : s.upgradeHoldFrames = n
  within : s.upgradeHoldRemaining ≤ n

theorem soundMoved {n : Nat} (set : 0 < n) {e : Event Snr} (sound : Sound profile n s) (within : WithinSession e) : Moved profile s e := by
  obtain ⟨adapter,session⟩ := sound.session
  exact moved session (by rw [sound.frames]; exact set) within

theorem stepSound {n : Nat} (set : 0 < n) {e : Event Snr} (sound : Sound profile n s) (within : WithinSession e) :
    Sound profile n (step s e) := by
  have moves := soundMoved set sound within
  refine ⟨moves.session,moves.frames.trans sound.frames,?_⟩
  by_cases down : AckLowers s e
  · rw [moves.armed down, sound.frames]
  · by_cases up : AckedUp e
    · rw [moves.taken down up]
      exact Nat.le_trans (Nat.sub_le _ _) sound.within
    · rw [moves.kept down up]
      exact sound.within

theorem runSound {n : Nat} (set : 0 < n) {es : List (Event Snr)} (sound : Sound profile n s) (within : ∀ e ∈ es, WithinSession e) :
    Sound profile n (run step s es) := by
  induction es generalizing s with
  | nil => exact sound
  | cons e es ih =>
    obtain ⟨first,rest⟩ := List.forall_mem_cons.mp within
    exact ih (stepSound set sound first) rest

theorem heldStays (session : InSession profile adapter s) {e : Event Snr} (up : AckedUp e) (hold : 0 < s.upgradeHoldRemaining) :
    ∃ level, (step s e).currentTxLevel = some level ∧ level ≤ adapter.txLevel := by
  have asks : asked s profile adapter .ackUp = adapter.txLevel := by
    have held : UpHeld s profile adapter := .inl hold
    simp [asked, held]
  have under : underCap s.maxTxLevel adapter.txLevel ≤ adapter.txLevel := by
    cases s.maxTxLevel with
    | none => exact le_refl _
    | some max => exact min_le_left adapter.txLevel max
  cases e with
  | applyAck ack =>
    cases up
    obtain ⟨after,done⟩ := applied session .ackUp none
    exact ⟨after.txLevel,by simp [step, applyAck, currentTxLevel, done.session.adapter],by rw [done.level, asks]; exact under⟩
  | applyAckFrame ackType reverseAck =>
    cases up
    obtain ⟨rx,after,done⟩ := framed session .ackUp reverseAck
    exact ⟨after.txLevel,by simp [step, currentTxLevel, done.session.adapter],by rw [done.level, asks]; exact under⟩
  | _ => cases up

instance (e : Event Snr) : Decidable (AckedUp e) := inferInstanceAs (Decidable (_ = _))

def ups (es : List (Event Snr)) : Nat := es.countP (fun e => AckedUp e)

def suppressed (s : RateAdaptationPolicy Snr) : List (Event Snr) → Nat
  | [] => 0
  | e::es => (if AckedUp e ∧ 0 < s.upgradeHoldRemaining then 1 else 0) + suppressed (step s e) es

theorem holdRemains {n : Nat} (set : 0 < n) {es : List (Event Snr)} (sound : Sound profile n s) (within : ∀ e ∈ es, WithinSession e)
    (armed : n ≤ s.upgradeHoldRemaining) : n ≤ (run step s es).upgradeHoldRemaining + ups es := by
  suffices carried : ∀ c, n ≤ s.upgradeHoldRemaining + c → n ≤ (run step s es).upgradeHoldRemaining + (c + ups es) by
    have start := carried 0 armed
    rwa [Nat.zero_add] at start
  clear armed
  induction es generalizing s with
  | nil =>
    intro c some'
    simpa [ups] using some'
  | cons e es ih =>
    intro c some'
    obtain ⟨first,rest⟩ := List.forall_mem_cons.mp within
    have moves := soundMoved set sound first
    have after := stepSound set sound first
    have tail := ih after rest
    rw [runCons, ups, List.countP_cons, ← ups]
    by_cases down : AckLowers s e
    · have full := tail 0 (by rw [moves.armed down, sound.frames]; exact Nat.le_refl _)
      omega
    · by_cases up : AckedUp e
      · have less := tail (c + 1) (by rw [moves.taken down up]; omega)
        simp only [up, decide_true, if_true]
        omega
      · have same := tail c (by rw [moves.kept down up]; exact some')
        simp only [up, decide_false, Bool.false_eq_true, if_false]
        omega

theorem downgradeArms {n : Nat} (set : 0 < n) {e : Event Snr} (sound : Sound profile n s) (within : WithinSession e)
    (down : Downgrades s e) (armed : HintArmed s e) : n ≤ (step s e).upgradeHoldRemaining := by
  have moves := soundMoved set sound within
  rcases down with ack | hint
  · rw [moves.armed ack, sound.frames]
  · have full := armed hint
    have aside : ackOf e = none := by
      cases e with
      | applySnrHint snr => rfl
      | _ => exact absurd hint id
    have quiet : ¬ AckLowers s e := by
      rintro ⟨ack,_,acked,-⟩
      rw [aside] at acked
      cases acked
    rw [moves.kept quiet (by simp [AckedUp, aside])]
    rwa [sound.frames] at full

theorem suppressedFew {n : Nat} (set : 0 < n) {es : List (Event Snr)} (sound : Sound profile n s) (within : ∀ e ∈ es, WithinSession e)
    (level : EveryStep step (fun s e => ¬ Downgrades s e) s es) :
    suppressed s es + (run step s es).upgradeHoldRemaining = s.upgradeHoldRemaining := by
  induction es generalizing s with
  | nil => simp [suppressed]
  | cons e es ih =>
    obtain ⟨first,rest⟩ := List.forall_mem_cons.mp within
    have moves := soundMoved set sound first
    have tail := ih (stepSound set sound first) rest level.2
    have down : ¬ AckLowers s e := fun lowers => level.1 (.inl lowers)
    rw [suppressed, runCons]
    by_cases up : AckedUp e
    · rw [moves.taken down up] at tail
      simp only [up, true_and]
      split <;> omega
    · rw [moves.kept down up] at tail
      simp only [up, false_and, if_false]
      omega

def opened (maxTxLevel : Option SpeedLevel) (minBacklog backlog hold : Nat) (profile : SessionProfile Snr) : RateAdaptationPolicy Snr :=
  ((((new.setMaxTxLevel maxTxLevel).setMinBacklogForUpgrade minBacklog).setTxBacklog backlog).setUpgradeHoldFrames hold).startSession profile

structure HoldsAfter (n : Nat) (s : RateAdaptationPolicy Snr) (es : List (Event Snr)) : Prop where
  lasts : ∀ before down mid up after, es = before ++ down :: (mid ++ up :: after) → Downgrades (run step s before) down →
    ups mid < n → AckedUp up → ∃ level next, (run step s (before ++ down :: mid)).currentTxLevel = some level ∧
      (step (run step s (before ++ down :: mid)) up).currentTxLevel = some next ∧ next ≤ level
  ends : ∀ before mid after, es = before ++ (mid ++ after) →
    EveryStep step (fun s e => ¬ Downgrades s e) (run step s before) mid → suppressed (run step s before) mid ≤ n
  unarmed : ∀ mid after, es = mid ++ after → EveryStep step (fun s e => ¬ Downgrades s e) s mid → suppressed s mid = 0

theorem holdAfterDowngrades (maxTxLevel : Option SpeedLevel) (minBacklog backlog : Nat) {n : Nat} (set : 0 < n)
    (profile : SessionProfile Snr) (es : List (Event Snr)) (within : ∀ e ∈ es, WithinSession e)
    (armed : EveryStep step HintArmed (opened maxTxLevel minBacklog backlog n profile) es) :
    HoldsAfter n (opened maxTxLevel minBacklog backlog n profile) es := by
  have start : Sound profile n (opened maxTxLevel minBacklog backlog n profile) := ⟨⟨_,rfl,rfl⟩,rfl,Nat.zero_le _⟩
  have unarmed : (opened maxTxLevel minBacklog backlog n profile).upgradeHoldRemaining = 0 := rfl
  generalize opened maxTxLevel minBacklog backlog n profile = s at armed start unarmed
  refine ⟨?_,?_,?_⟩
  · rintro before down mid up after rfl lowers few acked
    obtain ⟨first,other⟩ := List.forall_mem_append.mp within
    obtain ⟨own,rest⟩ := List.forall_mem_cons.mp other
    have here := runSound set start first
    have armedHere := (everyStepAppend.mp armed).2.1
    have after := stepSound set here own
    have inside := (List.forall_mem_append.mp rest).1
    have remains := holdRemains set after inside (downgradeArms set here own lowers armedHere)
    have whole : run step s (before ++ down :: mid) = run step (step (run step s before) down) mid := by rw [runAppend, runCons]
    obtain ⟨adapter,session⟩ := (runSound set after inside).session
    rw [whole]
    obtain ⟨next,level,under⟩ := heldStays session acked (by omega)
    exact ⟨adapter.txLevel,next,by simp [currentTxLevel, session.adapter],level,under⟩
  · rintro before mid after rfl level
    obtain ⟨first,other⟩ := List.forall_mem_append.mp within
    have here := runSound set start first
    have few := suppressedFew set here (List.forall_mem_append.mp other).1 level
    have bound := here.within
    omega
  · rintro mid after rfl level
    have few := suppressedFew set start (List.forall_mem_append.mp within).1 level
    omega

/- A hint below the floor of SL2, and an AckUp right behind it. -/
theorem hintLeavesHoldUnarmed : ¬ ∀ es : List (Event Int), (∀ e ∈ es, Feedback e) → HoldsAfter 2 (opened none 0 0 2 hpx500) es := by
  intro always
  have holds := always [.applySnrHint (-20),.applyAck .ackUp] (by simp [Feedback])
  have lowers : Downgrades (opened none 0 0 2 hpx500) (.applySnrHint (-20)) := .inr ⟨.sl2,.sl1,by decide,by decide,by decide⟩
  obtain ⟨level,next,before,after,under⟩ := holds.lasts [] (.applySnrHint (-20)) [] (.applyAck .ackUp) [] rfl lowers (by decide) rfl
  have low : (run step (opened none 0 0 2 hpx500) [.applySnrHint (-20)]).currentTxLevel = some .sl1 := by decide
  have high : (step (run step (opened none 0 0 2 hpx500) [.applySnrHint (-20)]) (.applyAck .ackUp)).currentTxLevel = some .sl2 := by decide
  cases before.symm.trans low
  cases after.symm.trans high
  exact absurd under (by decide)

theorem holdAfterOneAckDown : HoldsAfter 2 (opened none 0 0 2 hpxWideband) [.applyAck .ackDown,.applyAck .ackUp] := by
  refine holdAfterDowngrades none 0 0 (by decide) hpxWideband _ (by simp [WithinSession]) ⟨?_,?_,trivial⟩ <;> exact fun hint => absurd hint id

end Session

end OpenPulse.RateHold
