import OpenPulse.OtaRate
import OpenPulse.Runs

/-! Two ends of one data direction. The receiver leads: a round is one frame of
the sender, the receiver's verdict on it, and the ACK that carries the verdict
back or is lost. A frame the receiver has no candidate for cannot be decoded,
whatever the channel did. Both ends are built from one profile. -/
namespace OpenPulse.OtaLockstep
open OtaRate

structure Link (Snr : Type) where
  receiver : OtaRateController Snr
  sender : OtaRateController Snr

structure Round (Snr : Type) where
  heard : Bool
  snrDb : Option Snr
  delivered : Bool

def Link.start {Snr : Type} (p : SessionProfile Snr) : Link Snr := ⟨.new p,.new p⟩

def Link.outcome {Snr : Type} (k : Link Snr) (heard : Bool) : RxOutcome :=
  if heard ∧ k.sender.txLevel ∈ k.receiver.rxCandidates.map (·.1) then .decoded k.sender.txLevel
  else .failed

def InLockstep {Snr : Type} (k : Link Snr) : Prop :=
  k.sender.txLevel = k.receiver.rxRecommended ∨ k.sender.txLevel = k.receiver.rxConfirmed

instance {Snr : Type} (k : Link Snr) : Decidable (InLockstep k) :=
  inferInstanceAs (Decidable (_ ∨ _))

structure Paired {Snr : Type} (p : SessionProfile Snr) (k : Link Snr) : Prop where
  receiver : Adapting p k.receiver
  sender : Adapting p k.sender
  recommended : Rung p k.receiver.rxRecommended
  confirmed : Rung p k.receiver.rxConfirmed
  transmitting : Rung p k.sender.txLevel

theorem startPaired {Snr : Type} (p : SessionProfile Snr) : Paired p (.start p) :=
  ⟨newAdapting p,newAdapting p,newRung p,newRung p,newRung p⟩

theorem adoptSpec {Snr : Type} {p : SessionProfile Snr} {c : OtaRateController Snr} (a : Adapting p c)
    {l} (rung : Rung p l) : c.adoptRecommendation l = { c with txLevel := l } := by
  simp [OtaRateController.adoptRecommendation, a.locked, clampRung a rung]

variable {Snr : Type} [LE Snr] [DecidableLE Snr]

def Link.round (k : Link Snr) (r : Round Snr) : Link Snr :=
  let answer := k.receiver.onRxFrame (k.outcome r.heard) r.snrDb
  { receiver := answer.2
    sender := if r.delivered then k.sender.adoptRecommendation answer.1.recommendedLevel else k.sender }

/- What a lost ACK must find. A fast downshift forgets the old recommendation and
keeps the confirmed level; a step-down forgets both. -/
def Covered (k : Link Snr) (r : Round Snr) : Prop :=
  r.delivered = true ∨ k.outcome r.heard ≠ .failed ∨
  match (r.snrDb.map k.receiver.levelForSnr).filter (fun l => l < k.receiver.rxRecommended) with
  | some _ => k.sender.txLevel = k.receiver.rxConfirmed
  | none => k.receiver.profile.nackThreshold ≤ saturatingInc k.receiver.rxConsecutiveNack →
      k.sender.txLevel = k.receiver.prevMapped k.receiver.rxConfirmed

theorem unlockedFrame {p : SessionProfile Snr} {c : OtaRateController Snr} (a : Adapting p c)
    (outcome : RxOutcome) (snr : Option Snr) : c.onRxFrame outcome snr =
      match outcome with
      | .failed => c.onRxFailed snr
      | .decoded l => c.onRxDecoded l snr := by
  cases outcome <;> simp only [OtaRateController.onRxFrame, a.locked]

theorem decodedSpec {p : SessionProfile Snr} {c : OtaRateController Snr} (a : Adapting p c)
    {l} (rung : Rung p l) (snr : Option Snr) :
    ∃ next, Rung p next ∧ (c.onRxFrame (.decoded l) snr).1.recommendedLevel = next ∧
      (c.onRxFrame (.decoded l) snr).2.rxRecommended = next ∧
      (c.onRxFrame (.decoded l) snr).2.rxConfirmed = l ∧
      Adapting p (c.onRxFrame (.decoded l) snr).2 := by
  have same := clampRung a rung
  simp only [unlockedFrame a, OtaRateController.onRxDecoded, same]
  generalize (if l = c.rxConfirmed then saturatingInc c.rxConsecutiveOk else 1) = streak
  generalize (Option.any _ snr || decide (ackClimbThreshold ≤ streak)) = climbs
  cases climbs with
  | true =>
    have kept : Adapting p { c with rxConsecutiveNack := 0, rxConfirmed := l, rxConsecutiveOk := streak } := a
    exact ⟨_,nextIsRung kept l,rfl,rfl,rfl,a⟩
  | false => exact ⟨l,rung,rfl,rfl,rfl,a⟩

inductive FailedStep (c : OtaRateController Snr) (snr : Option Snr) : SpeedLevel → SpeedLevel → Prop where
  | fastDownshift {l}
      (explained : (snr.map c.levelForSnr).filter (fun l => l < c.rxRecommended) = some l) :
      FailedStep c snr l c.rxConfirmed
  | nackStepDown
      (unexplained : (snr.map c.levelForSnr).filter (fun l => l < c.rxRecommended) = none)
      (full : c.profile.nackThreshold ≤ saturatingInc c.rxConsecutiveNack) :
      FailedStep c snr (c.prevMapped c.rxConfirmed) (c.prevMapped c.rxConfirmed)
  | nackHold
      (unexplained : (snr.map c.levelForSnr).filter (fun l => l < c.rxRecommended) = none)
      (counting : ¬ c.profile.nackThreshold ≤ saturatingInc c.rxConsecutiveNack) :
      FailedStep c snr c.rxRecommended c.rxConfirmed

theorem failedSpec {p : SessionProfile Snr} {c : OtaRateController Snr} (a : Adapting p c)
    (snr : Option Snr) :
    FailedStep c snr (c.onRxFrame .failed snr).2.rxRecommended (c.onRxFrame .failed snr).2.rxConfirmed ∧
    (c.onRxFrame .failed snr).1.recommendedLevel = (c.onRxFrame .failed snr).2.rxRecommended ∧
    Adapting p (c.onRxFrame .failed snr).2 := by
  simp only [unlockedFrame a, OtaRateController.onRxFailed]
  cases verdict : (snr.map c.levelForSnr).filter (fun l => l < c.rxRecommended) with
  | some l =>
    have shown : (snr.map (OtaRateController.levelForSnr { c with rxConsecutiveOk := 0 })).filter
        (fun l => l < c.rxRecommended) = some l := verdict
    rw [shown]
    exact ⟨.fastDownshift verdict,trivial,a⟩
  | none =>
    have shown : (snr.map (OtaRateController.levelForSnr { c with rxConsecutiveOk := 0 })).filter
        (fun l => l < c.rxRecommended) = none := verdict
    rw [shown]
    dsimp only
    split
    · exact ⟨.nackStepDown verdict ‹_›,trivial,a⟩
    · exact ⟨.nackHold verdict ‹_›,trivial,a⟩

theorem failedRungs {p : SessionProfile Snr} {c : OtaRateController Snr} (a : Adapting p c)
    {snr : Option Snr} {rec conf : SpeedLevel} (step : FailedStep c snr rec conf)
    (recommended : Rung p c.rxRecommended) (confirmed : Rung p c.rxConfirmed) :
    Rung p rec ∧ Rung p conf := by
  cases step with
  | fastDownshift explained =>
    obtain ⟨found,_⟩ := Option.filter_eq_some_iff.mp explained
    obtain ⟨s,_,rfl⟩ := Option.map_eq_some_iff.mp found
    exact ⟨levelForSnrIsRung a s,confirmed⟩
  | nackStepDown unexplained full => exact ⟨prevIsRung a _,prevIsRung a _⟩
  | nackHold unexplained counting => exact ⟨recommended,confirmed⟩

theorem roundPaired {p : SessionProfile Snr} (k : Link Snr) (r : Round Snr) (pair : Paired p k) :
    Paired p (k.round r) := by
  have answered : Adapting p (k.receiver.onRxFrame (k.outcome r.heard) r.snrDb).2 ∧
      Rung p (k.receiver.onRxFrame (k.outcome r.heard) r.snrDb).2.rxRecommended ∧
      Rung p (k.receiver.onRxFrame (k.outcome r.heard) r.snrDb).2.rxConfirmed ∧
      (k.receiver.onRxFrame (k.outcome r.heard) r.snrDb).1.recommendedLevel =
        (k.receiver.onRxFrame (k.outcome r.heard) r.snrDb).2.rxRecommended := by
    unfold Link.outcome
    split
    · obtain ⟨next,rung,ack,recommended,confirmed,adapting⟩ :=
        decodedSpec pair.receiver pair.transmitting r.snrDb
      exact ⟨adapting,by rw [recommended]; exact rung,by rw [confirmed]; exact pair.transmitting,
        ack.trans recommended.symm⟩
    · obtain ⟨step,ack,adapting⟩ := failedSpec pair.receiver r.snrDb
      have rungs := failedRungs pair.receiver step pair.recommended pair.confirmed
      exact ⟨adapting,rungs.1,rungs.2,ack⟩
  obtain ⟨adapting,recommended,confirmed,ack⟩ := answered
  have sender : Adapting p (k.round r).sender ∧ Rung p (k.round r).sender.txLevel := by
    simp only [Link.round]
    split
    · rw [ack, adoptSpec pair.sender recommended]
      exact ⟨pair.sender,recommended⟩
    · exact ⟨pair.sender,pair.transmitting⟩
  exact ⟨adapting,sender.1,recommended,confirmed,sender.2⟩

theorem lostFailure {k : Link Snr} {r : Round Snr} {rec conf : SpeedLevel}
    (step : FailedStep k.receiver r.snrDb rec conf) (lockstep : InLockstep k)
    (failed : k.outcome r.heard = .failed) (lost : r.delivered = false) :
    (k.sender.txLevel = rec ∨ k.sender.txLevel = conf) ↔ Covered k r := by
  have reduce : Covered k r ↔
      match (r.snrDb.map k.receiver.levelForSnr).filter (fun l => l < k.receiver.rxRecommended) with
      | some _ => k.sender.txLevel = k.receiver.rxConfirmed
      | none => k.receiver.profile.nackThreshold ≤ saturatingInc k.receiver.rxConsecutiveNack →
          k.sender.txLevel = k.receiver.prevMapped k.receiver.rxConfirmed := by
    simp [Covered, lost, failed]
  rw [reduce]
  cases step with
  | fastDownshift explained =>
    -- the new recommendation lies below the old one, so it cannot be the sender's old level
    have below : rec < k.receiver.rxRecommended := by
      simpa using (Option.filter_eq_some_iff.mp explained).2
    simp only [explained]
    constructor
    · rintro (same | same)
      · rcases lockstep with old | old
        · exact absurd (old.symm.trans same) (ne_of_gt below)
        · exact old
      · exact same
    · exact .inr
  | nackStepDown unexplained full => simp [unexplained, full]
  | nackHold unexplained counting => simpa [unexplained, counting, InLockstep] using lockstep

theorem roundExact {p : SessionProfile Snr} (k : Link Snr) (r : Round Snr) (pair : Paired p k)
    (lockstep : InLockstep k) : InLockstep (k.round r) ↔ Covered k r := by
  cases verdict : k.outcome r.heard with
  | decoded level =>
    have own : level = k.sender.txLevel := by
      simp only [Link.outcome] at verdict
      split at verdict <;> simp_all
    subst own
    obtain ⟨next,rung,ack,recommended,confirmed,_⟩ :=
      decodedSpec pair.receiver pair.transmitting r.snrDb
    have covered : Covered k r := .inr (.inl (by simp [verdict]))
    refine ⟨fun _ => covered,fun _ => ?_⟩
    simp only [InLockstep, Link.round, verdict, ack, recommended, confirmed]
    split
    · rw [adoptSpec pair.sender rung]; exact .inl rfl
    · exact .inr rfl
  | failed =>
    obtain ⟨step,ack,_⟩ := failedSpec pair.receiver r.snrDb
    have rungs := failedRungs pair.receiver step pair.recommended pair.confirmed
    simp only [InLockstep, Link.round, verdict]
    cases got : r.delivered with
    | true =>
      rw [if_pos rfl, ack, adoptSpec pair.sender rungs.1]
      exact ⟨fun _ => .inl got,fun _ => .inl rfl⟩
    | false =>
      rw [if_neg (by simp)]
      exact lostFailure step lockstep verdict got

theorem lockstepExact (p : SessionProfile Snr) (rounds : List (Round Snr)) :
    (∀ k ∈ Runs.reached Link.round (.start p) rounds, InLockstep k) ↔
      Runs.EveryStep Link.round Covered (.start p) rounds :=
  Runs.reachedIff (fun k r pair => roundPaired k r pair)
    (fun k r pair lockstep => roundExact k r pair lockstep) (startPaired p) (.inl rfl)

/- One climb that arrives, then one low-SNR failure whose ACK is lost: the sender
stays on SL3 while the receiver listens on SL2 only. -/
theorem lostDownshiftDesynchronises :
    ¬ ∀ k ∈ Runs.reached Link.round (.start hpx500)
        [⟨true,some 8,true⟩,⟨false,some (-20),false⟩], InLockstep k := by
  decide

end OpenPulse.OtaLockstep
