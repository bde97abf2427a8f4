import OpenPulse.QsyAgreement

/-! The frequency a responder retunes to. The list it accepts and the scan it votes
with are remembered here beside the session: the session itself forgets both, and
takes the frequency of a QSY_ACK as it comes. -/
namespace OpenPulse.QsyRetune
open Qsy QsyAgreement Runs

variable {Snr : Type}

structure Watched (Snr : Type) where
  session : QsySession Snr
  offered : Option (List UInt64)
  voted : Option (List UInt64)
  deriving DecidableEq, Repr

def answered (before : Option (List UInt64)) (frequencies : List UInt64) :
    Except (QsyError Snr) (List (QsyAction Snr)) → Option (List UInt64)
  | .ok _ => some frequencies
  | .error _ => before

def retunes : Except (QsyError Snr) (List (QsyAction Snr)) → List UInt64
  | .ok actions => actions.filterMap fun
    | .qsyNow freqHz => some freqHz
    | _ => none
  | .error _ => []

section Steps
variable (f32 : Decibel Snr)

def Watched.step (w : Watched Snr) (c : Call Snr) : Watched Snr :=
  let out := w.session.call f32 c
  match c with
  | .apply (.list _ candidates) => { w with session := out.2, offered := answered w.offered (freqs candidates) out.1 }
  | .scanComplete results => { w with session := out.2, voted := answered w.voted (freqs results) out.1 }
  | _ => { w with session := out.2 }

def Negotiated (w : Watched Snr) (freqHz : UInt64) : Prop :=
  (∃ candidates, w.offered = some candidates ∧ freqHz ∈ candidates) ∧ ∃ votes, w.voted = some votes ∧ freqHz ∈ votes

/- The call retunes only to a frequency that was offered and voted for. -/
def RetunesNegotiated (w : Watched Snr) (c : Call Snr) : Prop :=
  ∀ freqHz ∈ retunes (w.session.call f32 c).1, Negotiated w freqHz

end Steps

/- The acknowledgement names what was negotiated, where the session would take it. -/
def AckNegotiated (w : Watched Snr) : Call Snr → Prop
  | .apply (.ack token freqHz _) =>
    w.session.state = .voted token → w.session.validateFrequencies [freqHz] = .ok () → Negotiated w freqHz
  | _ => True

structure Responding (w : Watched Snr) : Prop where
  role : w.session.role = .responder
  scanning : ∀ token candidates, w.session.state ≠ .initScanning token candidates
  listed : ∀ token mine, w.session.state ≠ .listed token mine

variable {f32 : Decibel Snr} {w : Watched Snr}

theorem stepSession (w : Watched Snr) (c : Call Snr) : (w.step f32 c).session = (w.session.call f32 c).2 := by
  unfold Watched.step
  split <;> rfl

theorem initiateResponder (responding : Responding w) (token : String) (candidates : List UInt64) :
    w.session.initiate token candidates = w.session.fail .initiateOnResponder := by
  rw [QsySession.initiate, if_pos]
  simp [responding.role]

theorem scanCompleteResponder (responding : Responding w) (results : List (UInt64 × Snr)) :
    (∃ e, w.session.scanComplete results = (.error e,w.session)) ∨
    ∃ token, w.session.scanComplete results =
      (.ok [.sendFrame (.vote token results)],{ w.session with state := .voted token }) := by
  rcases @scanCompleteCases _ w.session results with refused | ⟨token,candidates,scanning,-⟩ | ⟨token,-,voted⟩
  · exact .inl refused
  · exact absurd scanning (responding.scanning token candidates)
  · exact .inr ⟨token,voted⟩

theorem appliedResponder {frame : QsyFrame Snr} {answer : Except (QsyError Snr) (List (QsyAction Snr))} {next : State Snr}
    (responding : Responding w) (applied : Applied f32 w.session frame answer next) :
    (∀ token candidates, next ≠ .initScanning token candidates) ∧ ∀ token mine, next ≠ .listed token mine := by
  cases applied with
  | refused => exact ⟨responding.scanning,responding.listed⟩
  | _ => exact ⟨nofun,nofun⟩

theorem respondingStep (responding : Responding w) (c : Call Snr) : Responding (w.step f32 c) := by
  suffices left : (w.session.call f32 c).2.role = .responder ∧
      (∀ token candidates, (w.session.call f32 c).2.state ≠ .initScanning token candidates) ∧
      ∀ token mine, (w.session.call f32 c).2.state ≠ .listed token mine by
    rw [← stepSession] at left
    exact ⟨left.1,left.2.1,left.2.2⟩
  cases c with
  | initiate token candidates =>
    simp only [QsySession.call, initiateResponder responding, QsySession.fail]
    exact ⟨responding.role,responding.scanning,responding.listed⟩
  | scanComplete results =>
    rcases scanCompleteResponder responding results with ⟨e,refused⟩ | ⟨token,voted⟩
    · simp only [QsySession.call, refused]
      exact ⟨responding.role,responding.scanning,responding.listed⟩
    · simp only [QsySession.call, voted]
      exact ⟨responding.role,nofun,nofun⟩
  | apply frame =>
    obtain ⟨applied,same⟩ := applyMoves f32 w.session frame
    have role : (w.session.apply f32 frame).2.role = .responder := by
      rw [same]
      exact responding.role
    exact ⟨role,appliedResponder responding applied⟩

theorem retunesApplied {frame : QsyFrame Snr} {answer : Except (QsyError Snr) (List (QsyAction Snr))} {next : State Snr}
    (responding : Responding w) (applied : Applied f32 w.session frame answer next) {freqHz : UInt64}
    (retuned : freqHz ∈ retunes answer) : ∃ token offset, frame = .ack token freqHz offset ∧
      w.session.state = .voted token ∧ w.session.validateFrequencies [freqHz] = .ok () := by
  cases applied with
  | chosen token mine votes best listed => exact absurd listed (responding.listed token mine)
  | confirmed token freq offset voted valid =>
    have same : freqHz = freq := by simpa [retunes] using retuned
    subst same
    exact ⟨token,offset,rfl,voted,valid⟩
  | _ => simp [retunes] at retuned

theorem ackRetunes {token : String} {freqHz : UInt64} (voted : w.session.state = .voted token)
    (valid : w.session.validateFrequencies [freqHz] = .ok ()) : retunes (w.session.applyAck token freqHz).1 = [freqHz] := by
  simp [QsySession.applyAck, voted, valid, retunes]

theorem retunesNegotiatedIff (responding : Responding w) (c : Call Snr) : RetunesNegotiated f32 w c ↔ AckNegotiated w c := by
  unfold RetunesNegotiated
  cases c with
  | initiate token candidates =>
    simp [QsySession.call, initiateResponder responding, QsySession.fail, retunes, AckNegotiated]
  | scanComplete results =>
    rcases scanCompleteResponder responding results with ⟨e,refused⟩ | ⟨token,voted⟩
    · simp [QsySession.call, refused, retunes, AckNegotiated]
    · simp [QsySession.call, voted, retunes, AckNegotiated]
  | apply frame =>
    have only := fun freqHz => @retunesApplied _ f32 w frame _ _ responding (applyMoves f32 w.session frame).1 freqHz
    cases frame with
    | ack token freqHz offset =>
      constructor
      · intro negotiated voted valid
        have taken : freqHz ∈ retunes (w.session.applyAck token freqHz).1 := by simp [ackRetunes voted valid]
        exact negotiated freqHz taken
      · intro named other retuned
        obtain ⟨t,o,same,voted,valid⟩ := only other retuned
        cases same
        exact named voted valid
    | _ =>
      refine iff_of_true ?_ trivial
      intro other retuned
      obtain ⟨t,o,same,-,-⟩ := only other retuned
      cases same

/- Over every run of a responder: each retune goes to a frequency that was offered
and voted for exactly when every acknowledgement it would take names one. -/
theorem retuneNegotiatedIff {s : QsySession Snr} (role : s.role = .responder) (idle : s.state = .idle)
    (calls : List (Call Snr)) :
    EveryStep (Watched.step f32) (RetunesNegotiated f32) ⟨s,none,none⟩ calls ↔
      EveryStep (Watched.step f32) AckNegotiated ⟨s,none,none⟩ calls := by
  have start : Responding (⟨s,none,none⟩ : Watched Snr) := ⟨role,by simp [idle],by simp [idle]⟩
  have keeps := fun (w : Watched Snr) (c : Call Snr) (responding : Responding w) => @respondingStep _ f32 w responding c
  constructor
  · intro all
    exact (everyStepInvariant (fun w c responding _ => keeps w c responding)
      (fun w c responding holds => (retunesNegotiatedIff responding c).mp holds) start all).2
  · intro all
    exact (everyStepInvariant (fun w c responding _ => keeps w c responding)
      (fun w c responding holds => (retunesNegotiatedIff responding c).mpr holds) start all).2

def negotiatedRun : List (Call Int) :=
  [.apply (.req "0000000c" 1), .apply (.list "0000000c" [(7074000,9)]), .scanComplete [(7074000,7)],
    .apply (.ack "0000000c" 7074000 5)]

theorem negotiatedRetune :
    EveryStep (Watched.step decibelsOfInt) AckNegotiated ⟨newResponder {} .verified,none,none⟩ negotiatedRun ∧
    EveryStep (Watched.step decibelsOfInt) (RetunesNegotiated decibelsOfInt) ⟨newResponder {} .verified,none,none⟩
      negotiatedRun := by
  have named : EveryStep (Watched.step decibelsOfInt) AckNegotiated ⟨newResponder {} .verified,none,none⟩ negotiatedRun :=
    ⟨trivial,trivial,trivial,fun _ _ => ⟨⟨[7074000],rfl,by decide⟩,⟨[7074000],rfl,by decide⟩⟩,trivial⟩
  exact ⟨named,(retuneNegotiatedIff rfl rfl negotiatedRun).mpr named⟩

def votedRun : List (Call Int) :=
  [.apply (.req "0000000d" 1), .apply (.list "0000000d" [(7074000,9)]), .scanComplete [(7074000,7)]]

theorem unofferedRetune :
    let voted := run (Watched.step decibelsOfInt) ⟨newResponder {} .verified,none,none⟩ votedRun
    voted.offered = some [7074000] ∧ voted.voted = some [7074000] ∧
      (voted.session.apply decibelsOfInt (.ack "0000000d" 14074000 5)).1 = .ok [.qsyNow 14074000] ∧
      ¬ EveryStep (Watched.step decibelsOfInt) (RetunesNegotiated decibelsOfInt) ⟨newResponder {} .verified,none,none⟩
        (votedRun ++ [.apply (.ack "0000000d" 14074000 5)]) := by
  refine ⟨by decide,by decide,by decide,?_⟩
  intro all
  have last := (everyStepAppend.mp all).2.1
  obtain ⟨⟨candidates,offered,inside⟩,-⟩ := last 14074000 (by decide)
  cases offered
  exact absurd inside (by decide)

end OpenPulse.QsyRetune
