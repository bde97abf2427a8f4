import OpenPulse.OtaDecode

/-! What counts as evidence about the rate ladder, over runs of gathered and decoded
bursts. A burst is remembered with the way it was flushed, and a decode may be asked for
any burst flushed so far. -/
namespace OpenPulse.OtaEvidence
open OtaRate OtaDecode Runs

structure Burst (Sample : Type) where
  samples : List Sample
  capped : Bool

/- `judged`: a decode has read the cap-flush flag since the last flush. -/
structure Station (Snr Llr Sample : Type) where
  engine : Engine Snr Llr Sample
  bursts : List (Burst Sample)
  judged : Bool

inductive Event (Payload Llr Snr Sample : Type) where
  | accumulateRouted (heard : Heard Sample)
  | otaDecodeBurst (index : Nat) (sessionId : String) (fallbackMode : Option String) (attempts : Attempts Payload Llr Snr)

variable {Payload Llr Snr Sample : Type} [LE Snr] [DecidableLE Snr]

def readsFlag (answer : Except String (OtaRxResult Payload Snr)) : Bool :=
  match answer with
  | .ok result => !(result.payload.isSome && result.ack.isNone)
  | .error _ => false

def step (s : Station Snr Llr Sample) : Event Payload Llr Snr Sample → Station Snr Llr Sample
  | .accumulateRouted heard =>
    match s.engine.accumulateRouted heard with
    | (.ok (some samples), engine) => ⟨engine,s.bursts ++ [⟨samples,engine.lastFlushCapped⟩],false⟩
    | (_, engine) => { s with engine }
  | .otaDecodeBurst index sessionId fallbackMode o =>
    match s.bursts[index]? with
    | none => s
    | some burst =>
      let answer := s.engine.otaDecodeBurst burst.samples sessionId fallbackMode o
      { s with engine := answer.2, judged := s.judged || readsFlag answer.1 }

def start (plugins : Plugins) (ota : OtaRateController Snr) (rxSnrEstimate : Option Snr) : Station Snr Llr Sample :=
  { engine := { plugins, ota := some ota, rxSnrEstimate, otaRetainedLlrs := fun _ => [], otaRetainedSession := none, rxBurst := [],
                rxCapturing := false, lastFlushCapped := false }
    bursts := []
    judged := false }

structure Judged (e : Engine Snr Llr Sample) (candidates : List Candidate) (fallbackMode : Option String) (decoded : Option (Decoded Payload))
    (retained : String → List Llr) : Prop where
  origin : ∀ d, decoded = some d → d.candidate ∈ candidates ∨ RideAlong candidates fallbackMode d.candidate ∧ retained = e.otaRetainedLlrs
  bounded : (∀ m, (e.otaRetainedLlrs m).length ≤ otaHarqMaxAttempts) → ∀ m, (retained m).length ≤ otaHarqMaxAttempts

omit [LE Snr] [DecidableLE Snr] in
theorem searchJudged {e : Engine Snr Llr Sample} {candidates : List Candidate} {n : Nat} {sessionId : String} {fallbackMode : Option String}
    {o : Attempts Payload Llr Snr} {decoded : Option (Decoded Payload)} {retained : String → List Llr} {session : Option String}
    (found : e.search candidates n sessionId fallbackMode o = .judged decoded retained session) :
    Judged e candidates fallbackMode decoded retained := by
  simp only [Engine.search] at found
  split at found
  · rename_i early
    cases found
    exact ⟨fun d same => .inl (by cases same; exact standaloneAmong early),id⟩
  · split at found
    · cases found
    · split at found
      · rename_i searched
        cases found
        refine ⟨fun d same => ?_,id⟩
        cases same
        rcases Option.or_eq_some_iff.mp searched with scanned | ⟨-,settled⟩
        · exact .inl (scanAmong scanned)
        · exact (phase2Among (settleAmong settled)).imp_right fun rides => ⟨rides,rfl⟩
      · cases found
        constructor
        · intro d same
          have among := harqAmong same
          rw [List.zipIdx_map_fst] at among
          exact .inl among
        · intro bounded
          refine harqBounded fun m => ?_
          split
          · exact bounded m
          · exact Nat.zero_le _

abbrev Answer (Payload Snr Llr Sample : Type) := Except String (OtaRxResult Payload Snr) × Engine Snr Llr Sample

def Called (answer : Answer Payload Snr Llr Sample) (outcome : RxOutcome) : Prop :=
  ∃ result snr, answer.1 = .ok result ∧ result.onRxFrame = [(outcome, snr)]

def Untouched (e : Engine Snr Llr Sample) (answer : Answer Payload Snr Llr Sample) : Prop :=
  ∃ result, answer.1 = .ok result ∧ result.onRxFrame = [] ∧ result.ack = none ∧ answer.2.ota = e.ota

section Answers
variable {e : Engine Snr Llr Sample} {ota : OtaRateController Snr} {burst : List Sample} {sessionId : String} {fallbackMode : Option String}
  {o : Attempts Payload Llr Snr} {retained : String → List Llr} {session : Option String}

structure Answered (e : Engine Snr Llr Sample) (answer : Answer Payload Snr Llr Sample) (retained : String → List Llr) (flag reads : Bool) : Prop where
  retained : answer.2.otaRetainedLlrs = retained
  flag : answer.2.lastFlushCapped = flag
  reads : readsFlag answer.1 = reads
  active : answer.2.ota.isSome = true

theorem earlyAnswer (active : e.ota = some ota) {payload : Payload} {mode : String}
    (found : e.search ota.rxCandidates burst.length sessionId fallbackMode o = .fallback payload mode) :
    Untouched e (e.otaDecodeBurst burst sessionId fallbackMode o) ∧
      Answered e (e.otaDecodeBurst burst sessionId fallbackMode o) e.otaRetainedLlrs e.lastFlushCapped false := by
  have answer : e.otaDecodeBurst burst sessionId fallbackMode o = (.ok ⟨some (payload, mode),none,[]⟩, e) := by
    simp only [Engine.otaDecodeBurst, Engine.otaDecodeAndAckInner, active, found]
  rw [answer]
  exact ⟨⟨_,rfl,rfl,rfl,rfl⟩,rfl,rfl,rfl,by simp [active]⟩

theorem decodedAnswer (active : e.ota = some ota) {d : Decoded Payload}
    (found : e.search ota.rxCandidates burst.length sessionId fallbackMode o = .judged (some d) retained session) :
    Called (e.otaDecodeBurst burst sessionId fallbackMode o) (.decoded d.candidate.1) ∧
      Answered e (e.otaDecodeBurst burst sessionId fallbackMode o) (fun _ => []) false true := by
  simp only [Engine.otaDecodeBurst, Engine.otaDecodeAndAckInner, active, found, Option.isNone_some, Bool.false_eq_true, false_and, if_false,
    Option.isSome_some, if_true, Option.elim_some]
  exact ⟨⟨_,_,rfl,rfl⟩,rfl,rfl,rfl,rfl⟩

theorem lostAnswer (active : e.ota = some ota)
    (found : e.search ota.rxCandidates burst.length sessionId fallbackMode o = .judged none retained session) :
    (if e.lastFlushCapped = true then Untouched e (e.otaDecodeBurst burst sessionId fallbackMode o)
      else Called (e.otaDecodeBurst burst sessionId fallbackMode o) .failed) ∧
      Answered e (e.otaDecodeBurst burst sessionId fallbackMode o) retained false true := by
  by_cases capped : e.lastFlushCapped = true
  · have answer : e.otaDecodeBurst burst sessionId fallbackMode o = (.ok ⟨none,none,[]⟩,
        { e with otaRetainedLlrs := retained, otaRetainedSession := session, lastFlushCapped := false }) := by
      simp [Engine.otaDecodeBurst, Engine.otaDecodeAndAckInner, active, found, capped]
    rw [answer, if_pos capped]
    exact ⟨⟨_,rfl,rfl,rfl,rfl⟩,rfl,rfl,rfl,by simp [active]⟩
  · rw [if_neg capped]
    simp only [Engine.otaDecodeBurst, Engine.otaDecodeAndAckInner, active, found, capped, and_false, if_false, Option.isSome_none,
      Bool.false_eq_true, Option.elim_none]
    exact ⟨⟨_,_,rfl,rfl⟩,rfl,rfl,rfl,rfl⟩

end Answers

structure EvidenceKept (e : Engine Snr Llr Sample) (ota : OtaRateController Snr) (burst : Burst Sample) (found : Found Payload Llr)
    (fallbackMode : Option String) (answer : Answer Payload Snr Llr Sample) : Prop where
  rung : ∀ d retained session, found = .judged (some d) retained session → d.candidate ∈ ota.rxCandidates →
    Called answer (.decoded d.candidate.1) ∧ ∀ m, answer.2.otaRetainedLlrs m = []
  lost : ∀ retained session, found = .judged none retained session → if burst.capped = true then Untouched e answer else Called answer .failed
  fallback : ∀ payload mode, found = .fallback payload mode → (∀ x ∈ ota.rxCandidates, ¬ (x.2.1 = mode ∧ x.2.2 = .none)) →
    Untouched e answer ∧ answer.2.otaRetainedLlrs = e.otaRetainedLlrs
  rideAlong : ∀ d retained session, found = .judged (some d) retained session → RideAlong ota.rxCandidates fallbackMode d.candidate →
    Untouched e answer ∧ answer.2.otaRetainedLlrs = e.otaRetainedLlrs
  ownFlag : ∀ retained session, found = .judged none retained session → e.lastFlushCapped = burst.capped
  bounded : ∀ m, (answer.2.otaRetainedLlrs m).length ≤ otaHarqMaxAttempts

def KeepsEvidence (s : Station Snr Llr Sample) : Event Payload Llr Snr Sample → Prop
  | .accumulateRouted heard => ∀ m, ((step s (.accumulateRouted heard : Event Payload Llr Snr Sample)).engine.otaRetainedLlrs m).length ≤ otaHarqMaxAttempts
  | .otaDecodeBurst index sessionId fallbackMode o => ∀ burst ota, s.bursts[index]? = some burst → s.engine.ota = some ota →
      EvidenceKept s.engine ota burst (s.engine.search ota.rxCandidates burst.samples.length sessionId fallbackMode o) fallbackMode
        (s.engine.otaDecodeBurst burst.samples sessionId fallbackMode o)

def heldFlag (s : Station Snr Llr Sample) : Bool := s.bursts.getLast?.any (·.capped) && !s.judged

/- No burst is recovered by the mode that rides along, and a burst nothing recovers was
flushed the way the flag still says. -/
def Clear (s : Station Snr Llr Sample) : Event Payload Llr Snr Sample → Prop
  | .accumulateRouted _ => True
  | .otaDecodeBurst index sessionId fallbackMode o => ∀ burst ota, s.bursts[index]? = some burst → s.engine.ota = some ota →
      (∀ d retained session, s.engine.search ota.rxCandidates burst.samples.length sessionId fallbackMode o = .judged (some d) retained session →
        ¬ RideAlong ota.rxCandidates fallbackMode d.candidate) ∧
      (∀ retained session, s.engine.search ota.rxCandidates burst.samples.length sessionId fallbackMode o = .judged none retained session →
        burst.capped = heldFlag s)

structure Sound (s : Station Snr Llr Sample) : Prop where
  bounded : ∀ m, (s.engine.otaRetainedLlrs m).length ≤ otaHarqMaxAttempts
  flag : s.engine.lastFlushCapped = heldFlag s
  active : s.engine.ota.isSome = true

omit [LE Snr] [DecidableLE Snr] in
theorem accumulateKeeps (e : Engine Snr Llr Sample) (heard : Heard Sample) :
    (e.accumulateRouted heard).2.otaRetainedLlrs = e.otaRetainedLlrs ∧ (e.accumulateRouted heard).2.ota = e.ota := by
  simp only [Engine.accumulateRouted]
  split
  · exact ⟨rfl,rfl⟩
  · split
    · split <;> exact ⟨rfl,rfl⟩
    · split
      · split <;> exact ⟨rfl,rfl⟩
      · exact ⟨rfl,rfl⟩

omit [LE Snr] [DecidableLE Snr] in
theorem accumulateQuiet (e : Engine Snr Llr Sample) (heard : Heard Sample) (quiet : ∀ b, (e.accumulateRouted heard).1 ≠ .ok (some b)) :
    (e.accumulateRouted heard).2.lastFlushCapped = e.lastFlushCapped := by
  revert quiet
  simp only [Engine.accumulateRouted]
  split
  · exact fun _ => rfl
  · split
    · split
      · intro quiet
        exact absurd rfl (quiet _)
      · exact fun _ => rfl
    · split
      · split
        · exact fun _ => rfl
        · intro quiet
          exact absurd rfl (quiet _)
      · exact fun _ => rfl

theorem accumulateSound {s : Station Snr Llr Sample} (sound : Sound s) (heard : Heard Sample) :
    Sound (step s (.accumulateRouted heard : Event Payload Llr Snr Sample)) := by
  obtain ⟨retained,ota⟩ := accumulateKeeps s.engine heard
  have quiet := accumulateQuiet s.engine heard
  simp only [step]
  split
  · rename_i samples engine flushed
    simp only [flushed] at retained ota
    exact ⟨by rw [retained]; exact sound.bounded,by simp [heldFlag],by rw [ota]; exact sound.active⟩
  · rename_i answer engine noFlush same
    simp only [same] at retained ota quiet
    have flag := quiet fun b flushed => noFlush b flushed
    exact ⟨by rw [retained]; exact sound.bounded,by rw [flag]; exact sound.flag,by rw [ota]; exact sound.active⟩

theorem answered {e : Engine Snr Llr Sample} {ota : OtaRateController Snr} (active : e.ota = some ota)
    (bounded : ∀ m, (e.otaRetainedLlrs m).length ≤ otaHarqMaxAttempts) (burst : List Sample) (sessionId : String)
    (fallbackMode : Option String) (o : Attempts Payload Llr Snr) :
    ∃ retained reads, Answered e (e.otaDecodeBurst burst sessionId fallbackMode o) retained (e.lastFlushCapped && !reads) reads ∧
      ∀ m, (retained m).length ≤ otaHarqMaxAttempts := by
  cases found : e.search ota.rxCandidates burst.length sessionId fallbackMode o with
  | fallback payload mode => exact ⟨_,false,by simpa using (earlyAnswer active found).2,bounded⟩
  | judged decoded retained session =>
    cases decoded with
    | none => exact ⟨_,true,by simpa using (lostAnswer active found).2,(searchJudged found).bounded bounded⟩
    | some d => exact ⟨_,true,by simpa using (decodedAnswer active found).2,by simp⟩

theorem stepSound (s : Station Snr Llr Sample) (e : Event Payload Llr Snr Sample) (sound : Sound s) : Sound (step s e) := by
  cases e with
  | accumulateRouted heard => exact accumulateSound sound heard
  | otaDecodeBurst index sessionId fallbackMode o =>
    simp only [step]
    split
    · exact sound
    · rename_i burst chosen
      obtain ⟨ota,active⟩ := Option.isSome_iff_exists.mp sound.active
      obtain ⟨retained,reads,done,bounded⟩ := answered active sound.bounded burst.samples sessionId fallbackMode o
      refine ⟨by simpa only [done.retained] using bounded,?_,done.active⟩
      rw [done.flag, done.reads, sound.flag]
      simp only [heldFlag]
      cases reads <;> simp

theorem keepsIff {s : Station Snr Llr Sample} (sound : Sound s) (e : Event Payload Llr Snr Sample) : KeepsEvidence s e ↔ Clear s e := by
  cases e with
  | accumulateRouted heard => exact iff_of_true (accumulateSound sound heard).bounded trivial
  | otaDecodeBurst index sessionId fallbackMode o =>
    constructor
    · intro keeps burst ota chosen active
      have kept := keeps burst ota chosen active
      constructor
      · intro d retained session found rides
        obtain ⟨⟨result,answer,silent,-⟩,-⟩ := kept.rideAlong d retained session found rides
        obtain ⟨⟨other,snr,same,called⟩,-⟩ := decodedAnswer active found
        rw [answer] at same
        cases same
        rw [silent] at called
        cases called
      · intro retained session found
        rw [← sound.flag]
        exact (kept.ownFlag retained session found).symm
    · intro clear burst ota chosen active
      obtain ⟨noRide,own⟩ := clear burst ota chosen active
      have sameFlag : ∀ retained session, s.engine.search ota.rxCandidates burst.samples.length sessionId fallbackMode o =
          .judged none retained session → s.engine.lastFlushCapped = burst.capped := by
        intro retained session found
        rw [sound.flag]
        exact (own retained session found).symm
      obtain ⟨kept,reads,done,bounded⟩ := answered active sound.bounded burst.samples sessionId fallbackMode o
      refine ⟨?_,?_,?_,?_,sameFlag,by simpa only [done.retained] using bounded⟩
      · intro d retained session found _
        obtain ⟨called,answer⟩ := decodedAnswer active found
        exact ⟨called,fun m => by rw [answer.retained]⟩
      · intro retained session found
        have answer := (lostAnswer active found).1
        rwa [sameFlag retained session found] at answer
      · intro payload mode found _
        obtain ⟨untouched,answer⟩ := earlyAnswer active found
        exact ⟨untouched,answer.retained⟩
      · intro d retained session found rides
        exact absurd rides (noRide d retained session found)

/- The exact form over every run. -/
theorem evidenceIff (plugins : Plugins) (ota : OtaRateController Snr) (rxSnrEstimate : Option Snr)
    (events : List (Event Payload Llr Snr Sample)) :
    EveryStep step KeepsEvidence (start plugins ota rxSnrEstimate) events ↔ EveryStep step Clear (start plugins ota rxSnrEstimate) events :=
  everyStepIff stepSound (fun _ e sound => keepsIff sound e) ⟨by simp [start],rfl,rfl⟩ events

def offFrequency : Attempts Nat Unit Int :=
  { standalone := fun _ => none, fallback := none, scan := fun _ _ => none, acquires := fun i => i == 1,
    settle := fun _ _ => some 7, demodulates := fun _ => none, combined := fun _ _ => none, reading := fun _ _ _ => 0 }

def oneSample : Plugins := { frameScanGeometry := fun _ => (1, 1, 1, 1), supportsSoftDemod := fun _ => false }

def carrier (present : Bool) : Heard Unit :=
  { routed := some [()], energyAboveThreshold := present, floorKnownBefore := true, floorKnownAfter := true, burstCap := 9 }

def offFrequencyTraffic : List (Event Nat Unit Int Unit) :=
  [.accumulateRouted (carrier true),.accumulateRouted (carrier false),.otaDecodeBurst 0 "N0CALL" (some "BPSK250") offFrequency]

theorem rideAlongAnswered : ¬ ∀ events : List (Event Nat Unit Int Unit),
    EveryStep step KeepsEvidence (start oneSample (.new hpx500) none) events := by
  intro always
  obtain ⟨-,-,keeps,-⟩ := always offFrequencyTraffic
  have clear := (keepsIff (stepSound _ _ (stepSound _ _ ⟨by simp [start],rfl,rfl⟩)) _).mp keeps
  have noRide := (clear ⟨[()],false⟩ (.new hpx500) rfl rfl).1
  refine noRide ⟨(.sl1, "BPSK250", .none),7,0,1⟩ (fun _ => []) none rfl ⟨"BPSK250",rfl,rfl,?_⟩
  decide

end OpenPulse.OtaEvidence
