import OpenPulse.RatePolicy

/-! The levels a rate policy can rest on: under the host's cap, and on a level with a
waveform, over every order of its operations. -/
namespace OpenPulse.RateLevels
open OtaRate (SpeedLevel AckType)
open RatePolicy RateAdaptationPolicy Runs

inductive Event (Snr : Type) where
  | setMaxTxLevel (max : Option SpeedLevel)
  | setMinBacklogForUpgrade (bytes : Nat)
  | setTxBacklog (bytes : Nat)
  | setUpgradeHoldFrames (frames : Nat)
  | startSession (profile : SessionProfile Snr)
  | applyAck (ack : AckType)
  | applyAckFrame (ackType : AckType) (reverseAck : Option AckType)
  | applySnrHint (snrDb : Snr)
  | selectRxAckType (snrDb : Snr)

variable {Snr : Type} [LT Snr] [DecidableLT Snr]

def step (s : RateAdaptationPolicy Snr) : Event Snr → RateAdaptationPolicy Snr
  | .setMaxTxLevel max => s.setMaxTxLevel max
  | .setMinBacklogForUpgrade bytes => s.setMinBacklogForUpgrade bytes
  | .setTxBacklog bytes => s.setTxBacklog bytes
  | .setUpgradeHoldFrames frames => s.setUpgradeHoldFrames frames
  | .startSession profile => s.startSession profile
  | .applyAck ack => (s.applyAck ack).2
  | .applyAckFrame ackType reverseAck => (s.applyAckFrame ackType reverseAck).2
  | .applySnrHint snrDb => (s.applySnrHint snrDb).2
  | .selectRxAckType snrDb => (s.selectRxAckType snrDb).2

variable {s : RateAdaptationPolicy Snr} {profile : SessionProfile Snr} {adapter : BiDirRateAdapter}

omit [LT Snr] [DecidableLT Snr] in
theorem idleInternal (idle : s.rateAdapter = none) (ack : AckType) (direction : Option RateDirection) :
    (s.applyAckInternal ack direction).2.rateAdapter = none := by
  have still : ∀ holdAckUp, (s.decideRateChange ack holdAckUp).2.rateAdapter = none := by
    intro holdAckUp
    simp only [decideRateChange, idle]
    split
    · rfl
    · split <;> exact idle
  simp only [applyAckInternal]
  have none' := still (s.shouldHoldAckUpWithoutSnrCandidate ack)
  generalize s.decideRateChange ack (s.shouldHoldAckUpWithoutSnrCandidate ack) = answer at none'
  cases answer.2.maxTxLevel <;> simp [none']

def reversed (rx : RateAdapter) (reverseAck : Option AckType) : RateAdapter := reverseAck.elim rx (fun rev => (rx.applyAck rev).2)

structure Framed (s : RateAdaptationPolicy Snr) (profile : SessionProfile Snr) (adapter : BiDirRateAdapter) (ack : AckType)
    (reverseAck : Option AckType) (t : RateAdaptationPolicy Snr) (rx : RateAdapter) (moved : BiDirRateAdapter) : Prop where
  session : InSession profile moved t
  level : moved.txLevel = underCap s.maxTxLevel (asked s profile adapter ack)
  before : rx.current = underCap s.maxTxLevel adapter.rxLevel
  reverse : moved.rx = reversed rx reverseAck
  cap : t.maxTxLevel = s.maxTxLevel

omit [LT Snr] [DecidableLT Snr] in
theorem framed (session : InSession profile adapter s) (ack : AckType) (reverseAck : Option AckType) :
    ∃ rx moved, Framed s profile adapter ack reverseAck (s.applyAckFrame ack reverseAck).2 rx moved := by
  obtain ⟨moved,done⟩ := applied session ack (some .tx)
  simp only [applyAckFrame]
  generalize s.applyAckInternal ack (some .tx) = answer at done
  cases reverseAck with
  | none => exact ⟨moved.rx,moved,done.session,done.level,done.reverse,rfl,done.cap⟩
  | some rev =>
    refine ⟨moved.rx,⟨moved.tx,(moved.rx.applyAck rev).2⟩,?_⟩
    simp only [done.session.adapter]
    exact ⟨⟨done.session.profile,rfl⟩,done.level,done.reverse,rfl,done.cap⟩

theorem hinted (session : InSession profile adapter s) (snr : Snr) :
    InSession profile { adapter with tx := (adapter.tx.applySnrHint snr (profile.snrFloorForLevel adapter.txLevel)
      (profile.snrCeilingForLevel adapter.txLevel)).2 } (s.applySnrHint snr).2 ∧
    (s.applySnrHint snr).2.maxTxLevel = s.maxTxLevel := by
  simp only [applySnrHint, session.adapter, session.profile]
  exact ⟨⟨rfl,rfl⟩,trivial⟩

theorem selected (session : InSession profile adapter s) (snr : Snr) :
    InSession profile { adapter with rx := (adapter.rx.applySnrHint snr (profile.snrFloorForLevel adapter.rxLevel)
      (profile.snrCeilingForLevel adapter.rxLevel)).2 } (s.selectRxAckType snr).2 ∧
    (s.selectRxAckType snr).2.maxTxLevel = s.maxTxLevel := by
  simp only [selectRxAckType, session.adapter, session.profile]
  exact ⟨⟨rfl,rfl⟩,trivial⟩

theorem hintLe (a : RateAdapter) (snr : Snr) (floorDb ceilingDb : Option Snr) :
    (a.applySnrHint snr floorDb ceilingDb).2.current ≤ a.current := by
  rw [hintLevel]
  split
  · exact stepDownLe a.current
  · exact le_refl _

def Capped (s : RateAdaptationPolicy Snr) : Prop :=
  ∀ cap adapter, s.maxTxLevel = some cap → s.rateAdapter = some adapter → adapter.txLevel ≤ cap ∧ adapter.rxLevel ≤ cap

/- A session starts at the profile's level and the peer's reverse report raises RX,
both without a look at the cap. -/
def HeldUnder (s : RateAdaptationPolicy Snr) : Event Snr → Prop
  | .startSession profile => ∀ cap, s.maxTxLevel = some cap → profile.initialLevel ≤ cap
  | .applyAckFrame _ (some .ackUp) =>
    ∀ cap adapter, s.maxTxLevel = some cap → s.rateAdapter = some adapter → adapter.rxLevel < cap ∨ cap = .sl20
  | _ => True

def Running (s : RateAdaptationPolicy Snr) : Prop := s.rateAdapter = none ∨ ∃ profile adapter, InSession profile adapter s

omit [LT Snr] [DecidableLT Snr] in
theorem idleCapped (idle : s.rateAdapter = none) : Capped s := by
  intro cap adapter _ active
  rw [idle] at active
  cases active

omit [LT Snr] [DecidableLT Snr] in
theorem sessionCapped (session : InSession profile adapter s) :
    Capped s ↔ ∀ cap, s.maxTxLevel = some cap → adapter.txLevel ≤ cap ∧ adapter.rxLevel ≤ cap := by
  constructor
  · intro capped cap limit
    exact capped cap adapter limit session.adapter
  · intro under cap other limit active
    rw [session.adapter] at active
    cases active
    exact under cap limit

omit [LT Snr] [DecidableLT Snr] in
theorem underCapLe {max : Option SpeedLevel} {cap level : SpeedLevel} (limit : max = some cap) : underCap max level ≤ cap := by
  rw [limit]
  exact min_le_right level cap

omit [LT Snr] [DecidableLT Snr] in
theorem underCapSame {max : Option SpeedLevel} {level : SpeedLevel} (under : ∀ cap, max = some cap → level ≤ cap) :
    underCap max level = level := by
  cases max with
  | none => rfl
  | some cap => exact min_eq_left (under cap rfl)

omit [LT Snr] [DecidableLT Snr] in
theorem setMaxMoves (session : InSession profile adapter s) (max : Option SpeedLevel) :
    InSession profile (max.elim adapter (fun m => (adapter.clampTo m).2)) (s.setMaxTxLevel max) := by
  cases max with
  | none => exact ⟨session.profile,session.adapter⟩
  | some m =>
    simp only [setMaxTxLevel, session.adapter]
    exact ⟨session.profile,rfl⟩

theorem idleStep (idle : s.rateAdapter = none) {e : Event Snr} (other : ∀ p, e ≠ .startSession p) : (step s e).rateAdapter = none := by
  cases e with
  | startSession p => exact absurd rfl (other p)
  | setMaxTxLevel max => cases max <;> simp [step, setMaxTxLevel, idle]
  | setMinBacklogForUpgrade bytes => exact idle
  | setTxBacklog bytes => exact idle
  | setUpgradeHoldFrames frames => exact idle
  | applyAck ack => exact idleInternal idle ack none
  | applyAckFrame ackType reverseAck =>
    have none' := idleInternal idle ackType (some .tx)
    cases reverseAck <;> simp [step, applyAckFrame, none']
  | applySnrHint snr => simp [step, applySnrHint, idle]
  | selectRxAckType snr => simp [step, selectRxAckType, idle]

theorem sessionStep (session : InSession profile adapter s) (e : Event Snr) : ∃ profile adapter, InSession profile adapter (step s e) := by
  cases e with
  | startSession p => exact ⟨p,_,⟨rfl,rfl⟩⟩
  | setMaxTxLevel max => exact ⟨profile,_,setMaxMoves session max⟩
  | setMinBacklogForUpgrade bytes => exact ⟨profile,adapter,⟨session.profile,session.adapter⟩⟩
  | setTxBacklog bytes => exact ⟨profile,adapter,⟨session.profile,session.adapter⟩⟩
  | setUpgradeHoldFrames frames => exact ⟨profile,adapter,⟨session.profile,session.adapter⟩⟩
  | applyAck ack =>
    obtain ⟨moved,done⟩ := applied session ack none
    exact ⟨profile,moved,done.session⟩
  | applyAckFrame ackType reverseAck =>
    obtain ⟨rx,moved,done⟩ := framed session ackType reverseAck
    exact ⟨profile,moved,done.session⟩
  | applySnrHint snr => exact ⟨profile,_,(hinted session snr).1⟩
  | selectRxAckType snr => exact ⟨profile,_,(selected session snr).1⟩

theorem stepRunning (s : RateAdaptationPolicy Snr) (e : Event Snr) (running : Running s) : Running (step s e) := by
  rcases running with idle | ⟨profile,adapter,session⟩
  · by_cases start : ∃ p, e = .startSession p
    · obtain ⟨p,rfl⟩ := start
      exact .inr ⟨p,_,⟨rfl,rfl⟩⟩
    · exact .inl (idleStep idle fun p same => start ⟨p,same⟩)
  · exact .inr (sessionStep session e)

theorem startCapped (s : RateAdaptationPolicy Snr) (p : SessionProfile Snr) : Capped (step s (.startSession p)) ↔ HeldUnder s (.startSession p) := by
  have session : InSession p (.new p.initialLevel p.nackThreshold) (step s (.startSession p)) := ⟨rfl,rfl⟩
  rw [sessionCapped session]
  simp only [BiDirRateAdapter.new, BiDirRateAdapter.txLevel, BiDirRateAdapter.rxLevel, RateAdapter.new, and_self]
  exact Iff.rfl

theorem ackFallsOrStays (a : RateAdapter) {ack : AckType} (other : ack ≠ .ackUp) : (a.applyAck ack).2.current ≤ a.current := by
  rw [ackLevel, if_neg other]
  split
  · exact stepDownLe a.current
  · exact le_refl _

theorem stepUpUnder {l cap : SpeedLevel} (under : l ≤ cap) : stepUp l ≤ cap ↔ l < cap ∨ cap = .sl20 := by
  have top := levelBounds cap
  have twenty : cap = .sl20 ↔ cap.discriminant = 20 :=
    ⟨fun same => by rw [same]; rfl,fun same => OtaRate.discriminantInjective same⟩
  rw [twenty, levelLe, levelLt, stepUpDiscriminant]
  rw [levelLe] at under
  omega

theorem frameCapped (session : InSession profile adapter s) (capped : Capped s) (ackType : AckType) (reverseAck : Option AckType) :
    Capped (step s (.applyAckFrame ackType reverseAck)) ↔ HeldUnder s (.applyAckFrame ackType reverseAck) := by
  obtain ⟨rx,moved,done⟩ := framed session ackType reverseAck
  have under := (sessionCapped session).mp capped
  have same : rx.current = adapter.rxLevel := done.before.trans (underCapSame fun cap limit => (under cap limit).2)
  have tx : ∀ cap, s.maxTxLevel = some cap → moved.txLevel ≤ cap := by
    intro cap limit
    rw [done.level]
    exact underCapLe limit
  simp only [step]
  rw [sessionCapped done.session, done.cap]
  simp only [BiDirRateAdapter.rxLevel, done.reverse, reversed]
  cases reverseAck with
  | none =>
    refine iff_of_true (fun cap limit => ⟨tx cap limit,?_⟩) trivial
    rw [Option.elim_none, same]
    exact (under cap limit).2
  | some rev =>
    rw [Option.elim_some]
    by_cases up : rev = .ackUp
    · subst up
      rw [ackLevel, if_pos rfl, same]
      constructor
      · intro held cap other limit active
        rw [session.adapter] at active
        cases active
        exact (stepUpUnder (under cap limit).2).mp (held cap limit).2
      · intro held cap limit
        exact ⟨tx cap limit,(stepUpUnder (under cap limit).2).mpr (held cap adapter limit session.adapter)⟩
    · have free : HeldUnder s (.applyAckFrame ackType (some rev)) := by
        cases rev <;> first | exact absurd rfl up | trivial
      refine iff_of_true (fun cap limit => ⟨tx cap limit,?_⟩) free
      exact le_trans (ackFallsOrStays rx up) (le_of_eq_of_le same (under cap limit).2)

theorem cappedNext (running : Running s) (capped : Capped s) (e : Event Snr) : Capped (step s e) ↔ HeldUnder s e := by
  by_cases start : ∃ p, e = .startSession p
  · obtain ⟨p,rfl⟩ := start
    exact startCapped s p
  rcases running with idle | ⟨profile,adapter,session⟩
  · refine iff_of_true (idleCapped (idleStep idle fun p same => start ⟨p,same⟩)) ?_
    cases e with
    | startSession p => exact absurd ⟨p,rfl⟩ start
    | applyAckFrame ackType reverseAck =>
      cases reverseAck with
      | none => trivial
      | some rev =>
        cases rev <;> simp [HeldUnder, idle]
    | _ => trivial
  · have under := (sessionCapped session).mp capped
    cases e with
    | startSession p => exact absurd ⟨p,rfl⟩ start
    | setMaxTxLevel max =>
      refine iff_of_true ((sessionCapped (setMaxMoves session max)).mpr ?_) trivial
      intro cap limit
      have own : max = some cap := limit
      subst own
      simp [BiDirRateAdapter.clampTo, BiDirRateAdapter.txLevel, BiDirRateAdapter.rxLevel, clampLevel]
    | setMinBacklogForUpgrade bytes => exact iff_of_true capped trivial
    | setTxBacklog bytes => exact iff_of_true capped trivial
    | setUpgradeHoldFrames frames => exact iff_of_true capped trivial
    | applyAck ack =>
      obtain ⟨moved,done⟩ := applied session ack none
      refine iff_of_true ((sessionCapped done.session).mpr fun cap limit => ?_) trivial
      rw [done.cap] at limit
      rw [done.level, done.reverse]
      exact ⟨underCapLe limit,underCapLe limit⟩
    | applyAckFrame ackType reverseAck => exact frameCapped session capped ackType reverseAck
    | applySnrHint snr =>
      obtain ⟨after,cap'⟩ := hinted session snr
      refine iff_of_true ((sessionCapped after).mpr fun cap limit => ?_) trivial
      rw [cap'] at limit
      exact ⟨le_trans (hintLe adapter.tx snr _ _) (under cap limit).1,(under cap limit).2⟩
    | selectRxAckType snr =>
      obtain ⟨after,cap'⟩ := selected session snr
      refine iff_of_true ((sessionCapped after).mpr fun cap limit => ?_) trivial
      rw [cap'] at limit
      exact ⟨(under cap limit).1,le_trans (hintLe adapter.rx snr _ _) (under cap limit).2⟩

theorem capHoldsIff (events : List (Event Snr)) :
    (∀ t ∈ reached step (.new : RateAdaptationPolicy Snr) events, Capped t) ↔ EveryStep step HeldUnder .new events :=
  reachedIff stepRunning (fun _ e running capped => cappedNext running capped e) (.inl rfl) (idleCapped rfl)

theorem sessionStartsAboveCap : ¬ ∀ events : List (Event Int), ∀ t ∈ reached step (.new : RateAdaptationPolicy Int) events, Capped t := by
  intro always
  have capped := always [.setMaxTxLevel (some .sl5),.startSession hpxWideband] ((RateAdaptationPolicy.new.setMaxTxLevel (some .sl5)).startSession
    hpxWideband) (by simp [reached, step])
  have under := capped .sl5 (.new .sl8 3) rfl rfl
  revert under
  decide

def Waveform (profile : SessionProfile Snr) (level : SpeedLevel) : Prop := level = .sl1 ∨ (profile.modeFor level).isSome = true

structure HasWaveform (profile : SessionProfile Snr) (s : RateAdaptationPolicy Snr) : Prop where
  level : ∃ level, s.currentTxLevel = some level ∧ Waveform profile level
  silent : s.currentAdaptiveMode = none → s.currentTxLevel = some .sl1

def Feedback : Event Snr → Prop
  | .applyAck _ | .applyAckFrame _ _ | .applySnrHint _ => True
  | _ => False

/- Down steps go to the level directly below, mapped or not, and the cap cuts to the
cap's own level. Only the way up looks for a mapped level. -/
structure AckLands (profile : SessionProfile Snr) (s : RateAdaptationPolicy Snr) (adapter : BiDirRateAdapter) (ack : AckType) : Prop where
  lowered : Lowers adapter.tx ack →
    Waveform profile (stepDown adapter.txLevel) ∨ ∃ cap, s.maxTxLevel = some cap ∧ cap < stepDown adapter.txLevel
  cut : ∀ cap, s.maxTxLevel = some cap → cap < asked s profile adapter ack → Waveform profile cap

def LandsOnWaveform (profile : SessionProfile Snr) (s : RateAdaptationPolicy Snr) : Event Snr → Prop
  | .applyAck ack | .applyAckFrame ack _ => ∀ adapter, s.rateAdapter = some adapter → AckLands profile s adapter ack
  | .applySnrHint snr => ∀ adapter, s.rateAdapter = some adapter →
      (∃ floor, profile.snrFloorForLevel adapter.txLevel = some floor ∧ snr < floor) → .sl1 < adapter.txLevel →
      Waveform profile (stepDown adapter.txLevel)
  | _ => True

omit [LT Snr] [DecidableLT Snr] in
theorem sessionWaveform (session : InSession profile adapter s) : HasWaveform profile s ↔ Waveform profile adapter.txLevel := by
  have level : s.currentTxLevel = some adapter.txLevel := by simp [currentTxLevel, session.adapter]
  have mode : s.currentAdaptiveMode = profile.modeFor adapter.txLevel := by simp [currentAdaptiveMode, session.adapter, session.profile]
  constructor
  · rintro ⟨⟨other,same,waveform⟩,-⟩
    rw [level] at same
    cases same
    exact waveform
  · intro waveform
    refine ⟨⟨_,level,waveform⟩,fun silent => ?_⟩
    rw [mode] at silent
    rw [level]
    rcases waveform with bottom | mapped
    · rw [bottom]
    · rw [silent] at mapped
      cases mapped

omit [LT Snr] [DecidableLT Snr] in
theorem askedWaveform (waveform : Waveform profile adapter.txLevel) {ack : AckType} (level : ¬ Lowers adapter.tx ack) :
    Waveform profile (asked s profile adapter ack) := by
  simp only [asked, level, if_false]
  split
  · split
    · exact waveform
    · cases found : nextMappedLevelAbove profile adapter.txLevel with
      | none => exact waveform
      | some target => exact .inr (mappedListed.mp (nextMappedRung found).member)
  · exact waveform

omit [LT Snr] [DecidableLT Snr] in
theorem askedLower {ack : AckType} (lowers : Lowers adapter.tx ack) : asked s profile adapter ack = stepDown adapter.txLevel := by
  have other : ack ≠ .ackUp := by
    rintro rfl
    simp [Lowers] at lowers
  simp only [asked, other, lowers, if_true, if_false]

omit [LT Snr] [DecidableLT Snr] in
theorem ackLands (waveform : Waveform profile adapter.txLevel) (ack : AckType) :
    Waveform profile (underCap s.maxTxLevel (asked s profile adapter ack)) ↔ AckLands profile s adapter ack := by
  cases limit : s.maxTxLevel with
  | none =>
    simp only [underCap, Option.elim_none]
    constructor
    · intro lands
      refine ⟨fun lowers => .inl ?_,fun cap some' => by rw [limit] at some'; cases some'⟩
      rwa [askedLower lowers] at lands
    · rintro ⟨lowered,-⟩
      by_cases lowers : Lowers adapter.tx ack
      · rw [askedLower lowers]
        refine (lowered lowers).resolve_right ?_
        rintro ⟨cap,some',-⟩
        rw [limit] at some'
        cases some'
      · exact askedWaveform waveform lowers
  | some cap =>
    simp only [underCap, Option.elim_some]
    rcases lt_or_ge cap (asked s profile adapter ack) with cuts | free
    · rw [min_eq_right (le_of_lt cuts)]
      constructor
      · intro lands
        refine ⟨fun lowers => .inr ⟨cap,limit,?_⟩,fun other same _ => ?_⟩
        · rwa [← askedLower lowers]
        · rw [limit] at same
          cases same
          exact lands
      · intro lands
        exact lands.cut cap limit cuts
    · rw [min_eq_left free]
      have uncut : ∀ other, s.maxTxLevel = some other → ¬ other < asked s profile adapter ack := by
        intro other same
        rw [limit] at same
        cases same
        exact not_lt.mpr free
      constructor
      · intro lands
        refine ⟨fun lowers => .inl ?_,fun other same cuts => absurd cuts (uncut other same)⟩
        rwa [askedLower lowers] at lands
      · rintro ⟨lowered,-⟩
        by_cases lowers : Lowers adapter.tx ack
        · have asks : asked s profile adapter ack = stepDown adapter.txLevel := askedLower lowers
          rw [asks]
          refine (lowered lowers).resolve_right ?_
          rintro ⟨other,same,cuts⟩
          rw [← asks] at cuts
          exact uncut other same cuts
        · exact askedWaveform waveform lowers

theorem waveformNext (session : InSession profile adapter s) (waveform : Waveform profile adapter.txLevel) {e : Event Snr}
    (feedback : Feedback e) : HasWaveform profile (step s e) ↔ LandsOnWaveform profile s e := by
  have own : ∀ {P : BiDirRateAdapter → Prop}, (∀ other, s.rateAdapter = some other → P other) ↔ P adapter := by
    intro P
    rw [session.adapter]
    simp
  cases e with
  | applyAck ack =>
    obtain ⟨moved,done⟩ := applied session ack none
    simp only [LandsOnWaveform, own, step, applyAck]
    rw [sessionWaveform done.session, done.level]
    exact ackLands waveform ack
  | applyAckFrame ackType reverseAck =>
    obtain ⟨rx,moved,done⟩ := framed session ackType reverseAck
    simp only [LandsOnWaveform, own, step]
    rw [sessionWaveform done.session, done.level]
    exact ackLands waveform ackType
  | applySnrHint snr =>
    simp only [LandsOnWaveform, own, step]
    rw [sessionWaveform (hinted session snr).1]
    simp only [BiDirRateAdapter.txLevel] at waveform ⊢
    simp only [hintLevel, Option.any_eq_true, decide_eq_true_eq]
    split
    · rename_i lowers
      exact ⟨fun lands _ _ => lands,fun lands => lands lowers.1 lowers.2⟩
    · rename_i stays
      exact iff_of_true waveform fun under above => absurd ⟨under,above⟩ stays
  | _ => exact absurd feedback id

theorem feedbackStays {e : Event Snr} (feedback : Feedback e) (session : ∃ adapter, InSession profile adapter s) :
    ∃ adapter, InSession profile adapter (step s e) := by
  obtain ⟨adapter,session⟩ := session
  cases e with
  | applyAck ack =>
    obtain ⟨moved,done⟩ := applied session ack none
    exact ⟨moved,done.session⟩
  | applyAckFrame ackType reverseAck =>
    obtain ⟨rx,moved,done⟩ := framed session ackType reverseAck
    exact ⟨moved,done.session⟩
  | applySnrHint snr => exact ⟨_,(hinted session snr).1⟩
  | _ => exact absurd feedback id

theorem waveformIff (s : RateAdaptationPolicy Snr) (profile : SessionProfile Snr) (mapped : (profile.modeFor profile.initialLevel).isSome = true)
    (events : List (Event Snr)) (feedback : ∀ e ∈ events, Feedback e) :
    (∀ t ∈ s.startSession profile :: reached step (s.startSession profile) events, HasWaveform profile t) ↔
      EveryStep step (LandsOnWaveform profile) (s.startSession profile) events := by
  have session : InSession profile (.new profile.initialLevel profile.nackThreshold) (s.startSession profile) := ⟨rfl,rfl⟩
  have start : HasWaveform profile (s.startSession profile) := (sessionWaveform session).mpr (.inr mapped)
  have steps : (∀ t ∈ reached step (s.startSession profile) events, HasWaveform profile t) ↔
      EveryStep step (LandsOnWaveform profile) (s.startSession profile) events := by
    refine reachedIffAmong (I := fun t => ∃ adapter, InSession profile adapter t) (A := Feedback) (fun _ e inside known => feedbackStays known inside)
      ?_ ⟨_,session⟩ start feedback
    rintro t e ⟨adapter,inside⟩ waveform known
    exact waveformNext inside ((sessionWaveform inside).mp waveform) known
  rw [← steps]
  simp [start]

theorem ackDownLeavesLadder : ¬ ∀ events : List (Event Int), (∀ e ∈ events, Feedback e) →
    ∀ t ∈ RateAdaptationPolicy.new.startSession hpxWideband :: reached step (RateAdaptationPolicy.new.startSession hpxWideband) events,
      HasWaveform hpxWideband t := by
  intro always
  have waveform := always [.applyAck .ackDown] (by simp [Feedback])
    (step (RateAdaptationPolicy.new.startSession hpxWideband) (.applyAck .ackDown)) (by simp [reached])
  have silent := waveform.silent (by decide)
  revert silent
  decide

theorem waveformOneClimb : (hpxWideband.modeFor hpxWideband.initialLevel).isSome = true ∧
    ∀ t ∈ RateAdaptationPolicy.new.startSession hpxWideband ::
        reached step (RateAdaptationPolicy.new.startSession hpxWideband) [Event.applyAck .ackUp],
      HasWaveform hpxWideband t := by
  refine ⟨by decide,(waveformIff .new hpxWideband (by decide) [.applyAck .ackUp] (by simp [Feedback])).mpr ⟨?_,trivial⟩⟩
  intro adapter active
  refine ⟨fun lowers => ?_,fun cap limit => by cases limit⟩
  simp [Lowers] at lowers

end OpenPulse.RateLevels
