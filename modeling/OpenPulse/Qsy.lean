import OpenPulse.Runs
import OpenPulse.Bandplan
import OpenPulse.Trust

/-! The QSY negotiation session. An initiator asks, lists its scan results,
chooses among the common frequencies of its list and the partner's vote and
acknowledges the choice; the responder follows. Signal-to-noise ratios are f32
in the source: no law of their addition or comparison is used anywhere, so a NaN
is a value like any other. A call that fails leaves the session as it was. -/
namespace OpenPulse.Qsy
open Bandplan Runs Trust

inductive QsyFrame (Snr : Type) where
  | req (token : String) (nCandidates : UInt32)
  | list (token : String) (candidates : List (UInt64 × Snr))
  | vote (token : String) (votes : List (UInt64 × Snr))
  | ack (token : String) (agreedFreqHz : UInt64) (switchoverOffsetS : UInt32)
  | reject (token : String) (reason : String)
  deriving DecidableEq, Repr

def QsyFrame.token {Snr : Type} : QsyFrame Snr → String
  | .req token _ | .list token _ | .vote token _ | .ack token _ _ | .reject token _ => token

inductive QsyAction (Snr : Type) where
  | sendFrame (frame : QsyFrame Snr)
  | startScan (candidates : List UInt64)
  | qsyNow (freqHz : UInt64)
  | reject (reason : String)
  deriving DecidableEq, Repr

inductive Role where
  | initiator | responder
  deriving DecidableEq, Repr

inductive State (Snr : Type) where
  | idle
  | initScanning (token : String) (candidates : List UInt64)
  | listed (token : String) (myVotes : List (UInt64 × Snr))
  | waitingForList (token : String) (nCandidates : UInt32)
  | respScanning (token : String)
  | voted (token : String)
  | agreed (freqHz : UInt64)
  | rejected
  deriving DecidableEq, Repr

/-- The texts an invalid transition carries; the unexpected state is printed by its derived `Debug`. -/
inductive Fault (Snr : Type) where
  | initiateOnResponder
  | initiateNotIdle
  | noCandidates
  | scanCompleteIn (state : State Snr)
  | reqUnexpected
  | listCount (got expected : Nat)
  | listIn (state : State Snr)
  | voteIn (state : State Snr)
  | ackIn (state : State Snr)
  | operatingModeMissing
  | bandplanViolation (e : BandplanError)
  | noCommonCandidate
  deriving DecidableEq, Repr

def Fault.message {Snr : Type} (debug : State Snr → String) : Fault Snr → String
  | .initiateOnResponder => "initiate() called on responder"
  | .initiateNotIdle => "initiate() called in non-Idle state"
  | .noCandidates => "candidate list must not be empty"
  | .scanCompleteIn state => "scan_complete() in unexpected state: " ++ debug state
  | .reqUnexpected => "QSY_REQ received in unexpected state/role"
  | .listCount got expected => "QSY_LIST has " ++ toString got ++ " candidates, expected " ++ toString expected
  | .listIn state => "QSY_LIST in unexpected state: " ++ debug state
  | .voteIn state => "QSY_VOTE in unexpected state: " ++ debug state
  | .ackIn state => "QSY_ACK in unexpected state: " ++ debug state
  | .operatingModeMissing => "operating_mode must be set when max-channel-width bandplan enforcement is enabled"
  | .bandplanViolation e => "bandplan policy violation: " ++ e.message
  | .noCommonCandidate => "no common candidate in initiator and partner vote lists"

inductive QsyError (Snr : Type) where
  | invalidTransition (fault : Fault Snr)
  | tokenMismatch (expected got : String)
  deriving DecidableEq, Repr

structure QsyPolicy where
  enabled : Bool := true
  allowTrustlevels : List ConnectionTrustLevel := []
  bandplan : BandplanPolicy := { awarenessEnabled := false }
  deriving DecidableEq, Repr

structure QsySession (Snr : Type) where
  role : Role
  state : State Snr
  policy : QsyPolicy
  peerTrust : ConnectionTrustLevel
  switchoverOffsetS : UInt32
  operatingMode : Option String
  deriving DecidableEq, Repr

structure Decibel (Snr : Type) where
  -- what the session does with two f32 values: add them and compare the sums
  add : Snr → Snr → Snr
  gt : Snr → Snr → Bool
  negInfinity : Snr

variable {Snr : Type} (f32 : Decibel Snr)

def State.isTerminal : State Snr → Bool
  | .agreed _ | .rejected => true
  | _ => false

def QsySession.isTerminal (s : QsySession Snr) : Bool := s.state.isTerminal

def newInitiator : QsySession Snr := ⟨.initiator,.idle,{},.unverified,5,none⟩

def newResponder (policy : QsyPolicy) (peerTrust : ConnectionTrustLevel) : QsySession Snr :=
  ⟨.responder,.idle,policy,peerTrust,5,none⟩

def QsySession.withPolicy (s : QsySession Snr) (policy : QsyPolicy) : QsySession Snr := { s with policy }
def QsySession.withOperatingMode (s : QsySession Snr) (mode : String) : QsySession Snr := { s with operatingMode := some mode }
def QsySession.withSwitchoverOffsetS (s : QsySession Snr) (v : UInt32) : QsySession Snr := { s with switchoverOffsetS := v }

def QsySession.validateFrequencies (s : QsySession Snr) (freqs : List UInt64) : Except (QsyError Snr) Unit :=
  if !s.policy.bandplan.awarenessEnabled then .ok ()
  else if s.policy.bandplan.enforceMaxChannelWidth && s.operatingMode.isNone then
    .error (.invalidTransition .operatingModeMissing)
  else
    freqs.forM fun freqHz =>
      (s.policy.bandplan.validateFrequency freqHz (s.operatingMode.getD "")).mapError
        fun e => .invalidTransition (.bandplanViolation e)

def considered (partner : List (UInt64 × Snr)) (best : Option UInt64 × Snr) (mine : UInt64 × Snr) : Option UInt64 × Snr :=
  match partner.find? (fun p => p.1 == mine.1) with
  | some (_,partnerSnr) =>
    let score := f32.add mine.2 partnerSnr
    if f32.gt score best.2 then (some mine.1,score) else best
  | none => best

def pickBestFreq (my partner : List (UInt64 × Snr)) : Except (QsyError Snr) UInt64 :=
  match (my.foldl (considered f32 partner) (none,f32.negInfinity)).1 with
  | some freq => .ok freq
  | none => .error (.invalidTransition .noCommonCandidate)

abbrev Outcome (Snr : Type) := Except (QsyError Snr) (List (QsyAction Snr)) × QsySession Snr

def QsySession.fail (s : QsySession Snr) (fault : Fault Snr) : Outcome Snr := (.error (.invalidTransition fault),s)

-- `token` is what `random_token` drew for this negotiation.
def QsySession.initiate (s : QsySession Snr) (token : String) (candidates : List UInt64) : Outcome Snr :=
  if s.role ≠ .initiator then s.fail .initiateOnResponder
  else
    match s.state with
    | .idle =>
      if candidates.isEmpty then s.fail .noCandidates
      else
        match s.validateFrequencies candidates with
        | .error e => (.error e,s)
        | .ok () =>
          (.ok [.sendFrame (.req token (UInt32.ofNat candidates.length)), .startScan candidates],
            { s with state := .initScanning token candidates })
    | _ => s.fail .initiateNotIdle

def QsySession.scanComplete (s : QsySession Snr) (results : List (UInt64 × Snr)) : Outcome Snr :=
  match s.state with
  | .initScanning token _ => (.ok [.sendFrame (.list token results)],{ s with state := .listed token results })
  | .respScanning token => (.ok [.sendFrame (.vote token results)],{ s with state := .voted token })
  | other => s.fail (.scanCompleteIn other)

def QsySession.decline (s : QsySession Snr) (token reason : String) : Outcome Snr :=
  (.ok [.sendFrame (.reject token reason), .reject reason],{ s with state := .rejected })

def QsySession.applyReq (s : QsySession Snr) (token : String) (nCandidates : UInt32) : Outcome Snr :=
  match s.state, s.role with
  | .idle, .responder =>
    if !s.policy.enabled then s.decline token "qsy disabled"
    else if !s.policy.allowTrustlevels.isEmpty && !s.policy.allowTrustlevels.contains s.peerTrust then
      s.decline token "trust level not permitted"
    else (.ok [],{ s with state := .waitingForList token nCandidates })
  | _, _ => s.fail .reqUnexpected

def QsySession.applyList (s : QsySession Snr) (token : String) (candidates : List (UInt64 × Snr)) : Outcome Snr :=
  match s.state with
  | .waitingForList t nCandidates =>
    if t ≠ token then (.error (.tokenMismatch t token),s)
    else if candidates.length ≠ nCandidates.toNat then s.fail (.listCount candidates.length nCandidates.toNat)
    else
      match s.validateFrequencies (candidates.map Prod.fst) with
      | .error e => (.error e,s)
      | .ok () => (.ok [.startScan (candidates.map Prod.fst)],{ s with state := .respScanning token })
  | other => s.fail (.listIn other)

def QsySession.applyVote (s : QsySession Snr) (token : String) (votes : List (UInt64 × Snr)) : Outcome Snr :=
  match s.state with
  | .listed t myVotes =>
    if t ≠ token then (.error (.tokenMismatch t token),s)
    else
      match pickBestFreq f32 myVotes votes with
      | .ok best =>
        (.ok [.sendFrame (.ack token best s.switchoverOffsetS), .qsyNow best],{ s with state := .agreed best })
      | .error _ => s.decline token "no common candidate frequency"
  | other => s.fail (.voteIn other)

def QsySession.applyAck (s : QsySession Snr) (token : String) (agreedFreqHz : UInt64) : Outcome Snr :=
  match s.state with
  | .voted t =>
    if t ≠ token then (.error (.tokenMismatch t token),s)
    else
      match s.validateFrequencies [agreedFreqHz] with
      | .error e => (.error e,s)
      | .ok () => (.ok [.qsyNow agreedFreqHz],{ s with state := .agreed agreedFreqHz })
  | other => s.fail (.ackIn other)

-- A QSY_REJECT is taken whatever its token and whatever the state.
def QsySession.apply (s : QsySession Snr) : QsyFrame Snr → Outcome Snr
  | .reject _ reason => (.ok [.reject reason],{ s with state := .rejected })
  | .req token nCandidates => s.applyReq token nCandidates
  | .list token candidates => s.applyList token candidates
  | .vote token votes => s.applyVote f32 token votes
  | .ack token agreedFreqHz _ => s.applyAck token agreedFreqHz

inductive Applied (s : QsySession Snr) :
    QsyFrame Snr → Except (QsyError Snr) (List (QsyAction Snr)) → State Snr → Prop where
  | refused (frame e) : Applied s frame (.error e) s.state
  | rejected (token reason) : Applied s (.reject token reason) (.ok [.reject reason]) .rejected
  | declined (token nCandidates reason) (idle : s.state = .idle) (role : s.role = .responder) :
      Applied s (.req token nCandidates) (.ok [.sendFrame (.reject token reason), .reject reason]) .rejected
  | asked (token nCandidates) (idle : s.state = .idle) (role : s.role = .responder) :
      Applied s (.req token nCandidates) (.ok []) (.waitingForList token nCandidates)
  | offered (token nCandidates candidates) (waiting : s.state = .waitingForList token nCandidates)
      (count : candidates.length = nCandidates.toNat)
      (valid : s.validateFrequencies (candidates.map Prod.fst) = .ok ()) :
      Applied s (.list token candidates) (.ok [.startScan (candidates.map Prod.fst)]) (.respScanning token)
  | chosen (token myVotes votes best) (listed : s.state = .listed token myVotes)
      (picked : pickBestFreq f32 myVotes votes = .ok best) :
      Applied s (.vote token votes) (.ok [.sendFrame (.ack token best s.switchoverOffsetS), .qsyNow best]) (.agreed best)
  | apart (token myVotes votes) (listed : s.state = .listed token myVotes) :
      Applied s (.vote token votes)
        (.ok [.sendFrame (.reject token "no common candidate frequency"), .reject "no common candidate frequency"]) .rejected
  | confirmed (token freq offset) (voted : s.state = .voted token) (valid : s.validateFrequencies [freq] = .ok ()) :
      Applied s (.ack token freq offset) (.ok [.qsyNow freq]) (.agreed freq)

def Outcome.Moves (s : QsySession Snr) (out : Outcome Snr) (frame : QsyFrame Snr) : Prop :=
  -- only the state of a session ever changes
  Applied f32 s frame out.1 out.2.state ∧ out.2 = { s with state := out.2.state }

variable {f32} {s : QsySession Snr}

theorem applyReqMoves (token : String) (nCandidates : UInt32) :
    (s.applyReq token nCandidates).Moves f32 s (.req token nCandidates) := by
  unfold QsySession.applyReq
  split
  next idle role =>
    split
    · exact ⟨.declined token nCandidates _ idle role,rfl⟩
    · split
      · exact ⟨.declined token nCandidates _ idle role,rfl⟩
      · exact ⟨.asked token nCandidates idle role,rfl⟩
  next => exact ⟨.refused _ _,rfl⟩

theorem applyListMoves (token : String) (candidates : List (UInt64 × Snr)) :
    (s.applyList token candidates).Moves f32 s (.list token candidates) := by
  unfold QsySession.applyList
  split
  next t n waiting =>
    split
    · exact ⟨.refused _ _,rfl⟩
    next same =>
      obtain rfl := not_not.mp same
      split
      · exact ⟨.refused _ _,rfl⟩
      next count =>
        split
        · exact ⟨.refused _ _,rfl⟩
        next valid => exact ⟨.offered t n candidates waiting (not_not.mp count) valid,rfl⟩
  next => exact ⟨.refused _ _,rfl⟩

theorem applyVoteMoves (token : String) (votes : List (UInt64 × Snr)) :
    (s.applyVote f32 token votes).Moves f32 s (.vote token votes) := by
  unfold QsySession.applyVote
  split
  next t mine listed =>
    split
    · exact ⟨.refused _ _,rfl⟩
    next same =>
      obtain rfl := not_not.mp same
      split
      next best picked => exact ⟨.chosen t mine votes best listed picked,rfl⟩
      next => exact ⟨.apart t mine votes listed,rfl⟩
  next => exact ⟨.refused _ _,rfl⟩

theorem applyAckMoves (token : String) (freq : UInt64) (offset : UInt32) :
    (s.applyAck token freq).Moves f32 s (.ack token freq offset) := by
  unfold QsySession.applyAck
  split
  next t voted =>
    split
    · exact ⟨.refused _ _,rfl⟩
    next same =>
      obtain rfl := not_not.mp same
      split
      · exact ⟨.refused _ _,rfl⟩
      next valid => exact ⟨.confirmed t freq offset voted valid,rfl⟩
  next => exact ⟨.refused _ _,rfl⟩

theorem applyMoves (f32 : Decibel Snr) (s : QsySession Snr) (frame : QsyFrame Snr) : (s.apply f32 frame).Moves f32 s frame := by
  cases frame with
  | req token n => exact applyReqMoves token n
  | list token candidates => exact applyListMoves token candidates
  | vote token votes => exact applyVoteMoves token votes
  | ack token freq offset => exact applyAckMoves token freq offset
  | reject token reason => exact ⟨.rejected token reason,rfl⟩

theorem initiateCases (token : String) (candidates : List UInt64) :
    (∃ e, s.initiate token candidates = (.error e,s)) ∨
    s.state = .idle ∧ s.initiate token candidates =
      (.ok [.sendFrame (.req token (UInt32.ofNat candidates.length)), .startScan candidates],
        { s with state := .initScanning token candidates }) := by
  unfold QsySession.initiate
  split
  · exact Or.inl ⟨_,rfl⟩
  · split
    next idle =>
      split
      · exact Or.inl ⟨_,rfl⟩
      · split
        · exact Or.inl ⟨_,rfl⟩
        · exact Or.inr ⟨idle,rfl⟩
    next => exact Or.inl ⟨_,rfl⟩

theorem scanCompleteCases (results : List (UInt64 × Snr)) :
    (∃ e, s.scanComplete results = (.error e,s)) ∨
    (∃ token candidates, s.state = .initScanning token candidates ∧
      s.scanComplete results = (.ok [.sendFrame (.list token results)],{ s with state := .listed token results })) ∨
    ∃ token, s.state = .respScanning token ∧
      s.scanComplete results = (.ok [.sendFrame (.vote token results)],{ s with state := .voted token }) := by
  unfold QsySession.scanComplete
  split
  next token candidates scanning => exact Or.inr (Or.inl ⟨token,candidates,scanning,rfl⟩)
  next token scanning => exact Or.inr (Or.inr ⟨token,scanning,rfl⟩)
  next => exact Or.inl ⟨_,rfl⟩

def State.token : State Snr → Option String
  | .initScanning token _ | .listed token _ | .waitingForList token _ | .respScanning token | .voted token => some token
  | .idle | .agreed _ | .rejected => none

inductive Call (Snr : Type) where
  | initiate (token : String) (candidates : List UInt64)
  | scanComplete (results : List (UInt64 × Snr))
  | apply (frame : QsyFrame Snr)
  deriving DecidableEq, Repr

variable (f32) in
def QsySession.call (s : QsySession Snr) : Call Snr → Outcome Snr
  | .initiate token candidates => s.initiate token candidates
  | .scanComplete results => s.scanComplete results
  | .apply frame => s.apply f32 frame

variable (f32) in
def QsySession.step (s : QsySession Snr) (c : Call Snr) : QsySession Snr := (s.call f32 c).2

def QsyAction.settles : QsyAction Snr → Bool
  | .qsyNow _ | .reject _ => true
  | .sendFrame _ | .startScan _ => false

variable (f32) in
structure Isolated (s : QsySession Snr) (frame : QsyFrame Snr) : Prop where
  foreign : ∀ token, s.state.token = some token → frame.token ≠ token → (s.apply f32 frame).2.state = s.state
  finished : s.isTerminal = true → (s.apply f32 frame).2.state = s.state ∧
    ∀ actions, (s.apply f32 frame).1 = .ok actions → ∀ a ∈ actions, a.settles = false

variable (f32) in
def IsolatedCall (s : QsySession Snr) : Call Snr → Prop
  | .apply frame => Isolated f32 s frame
  | .initiate _ _ | .scanComplete _ => True

/- A QSY_REJECT only where the negotiation it names is the running one. -/
def RejectInPlace (s : QsySession Snr) : Call Snr → Prop
  | .apply (.reject token _) => s.isTerminal = false ∧ ∀ own, s.state.token = some own → token = own
  | _ => True

theorem appliedForeign {frame : QsyFrame Snr} {answer : Except (QsyError Snr) (List (QsyAction Snr))} {next : State Snr}
    (applied : Applied f32 s frame answer next) (notReject : ∀ token reason, frame ≠ .reject token reason) {token : String}
    (own : s.state.token = some token) (foreign : frame.token ≠ token) : next = s.state := by
  cases applied with
  | refused => rfl
  | rejected t reason => exact absurd rfl (notReject t reason)
  | declined t n reason idle => simp [idle, State.token] at own
  | asked t n idle => simp [idle, State.token] at own
  | offered t n candidates waiting => simp [waiting, State.token] at own; exact absurd own foreign
  | chosen t mine votes best listed => simp [listed, State.token] at own; exact absurd own foreign
  | apart t mine votes listed => simp [listed, State.token] at own; exact absurd own foreign
  | confirmed t freq offset voted => simp [voted, State.token] at own; exact absurd own foreign

theorem appliedFinished {frame : QsyFrame Snr} {answer : Except (QsyError Snr) (List (QsyAction Snr))} {next : State Snr}
    (applied : Applied f32 s frame answer next) (notReject : ∀ token reason, frame ≠ .reject token reason)
    (finished : s.isTerminal = true) : next = s.state ∧ ∃ e, answer = .error e := by
  unfold QsySession.isTerminal at finished
  cases applied with
  | refused frame e => exact ⟨rfl,e,rfl⟩
  | rejected t reason => exact absurd rfl (notReject t reason)
  | declined t n reason idle => simp [idle, State.isTerminal] at finished
  | asked t n idle => simp [idle, State.isTerminal] at finished
  | offered t n candidates waiting => simp [waiting, State.isTerminal] at finished
  | chosen t mine votes best listed => simp [listed, State.isTerminal] at finished
  | apart t mine votes listed => simp [listed, State.isTerminal] at finished
  | confirmed t freq offset voted => simp [voted, State.isTerminal] at finished

theorem isolatedUnlessReject {frame : QsyFrame Snr} (notReject : ∀ token reason, frame ≠ .reject token reason) :
    Isolated f32 s frame where
  foreign _ own foreign := appliedForeign (applyMoves f32 s frame).1 notReject own foreign
  finished terminal := by
    obtain ⟨same,e,failed⟩ := appliedFinished (applyMoves f32 s frame).1 notReject terminal
    refine ⟨same,?_⟩
    intro actions ok
    rw [failed] at ok
    cases ok

theorem isolatedReject (token reason : String) :
    Isolated f32 s (.reject token reason) ↔ s.isTerminal = false ∧ ∀ own, s.state.token = some own → token = own := by
  constructor
  · intro isolated
    have running : s.isTerminal = false := by
      by_contra finished
      have silent := (isolated.finished (by simpa using finished)).2 [.reject reason] rfl (.reject reason) (by simp)
      simp [QsyAction.settles] at silent
    refine ⟨running,?_⟩
    intro own negotiating
    by_contra foreign
    -- The state becomes `rejected`, which a running session is not in.
    have same : State.rejected = s.state := isolated.foreign own negotiating foreign
    simp [QsySession.isTerminal, ← same, State.isTerminal] at running
  · rintro ⟨running,ownToken⟩
    refine ⟨?_,?_⟩
    · intro own negotiating foreign
      exact absurd (ownToken own negotiating) foreign
    · intro finished
      rw [running] at finished
      cases finished

theorem isolatedCallIff (s : QsySession Snr) (c : Call Snr) : IsolatedCall f32 s c ↔ RejectInPlace s c := by
  cases c with
  | initiate token candidates => exact Iff.rfl
  | scanComplete results => exact Iff.rfl
  | apply frame =>
    cases frame with
    | reject token reason => exact isolatedReject token reason
    | req token n => exact iff_of_true (isolatedUnlessReject (by simp)) trivial
    | list token candidates => exact iff_of_true (isolatedUnlessReject (by simp)) trivial
    | vote token votes => exact iff_of_true (isolatedUnlessReject (by simp)) trivial
    | ack token freq offset => exact iff_of_true (isolatedUnlessReject (by simp)) trivial

/- Over every run of a session, each frame respects the running or finished
negotiation exactly when no QSY_REJECT of the run is out of place. -/
theorem tokenIsolationIff (s : QsySession Snr) (calls : List (Call Snr)) :
    EveryStep (QsySession.step f32) (IsolatedCall f32) s calls ↔
      EveryStep (QsySession.step f32) RejectInPlace s calls := by
  induction calls generalizing s with
  | nil => exact Iff.rfl
  | cons c calls ih => exact and_congr (isolatedCallIff s c) (ih (s.step f32 c))

def decibelsOfInt : Decibel Int := ⟨(· + ·),(fun a b => decide (b < a)),-1000⟩

def acknowledgedRun : List (Call Int) :=
  [.apply (.req "0000000a" 1), .apply (.list "0000000a" [(14074000,9)]), .scanComplete [(14074000,7)],
    .apply (.ack "0000000a" 14074000 5)]

theorem foreignRejectAfterAgreement :
    let agreed := run (QsySession.step decibelsOfInt) (newResponder {} .verified) acknowledgedRun
    agreed.state = .agreed 14074000 ∧
      agreed.apply decibelsOfInt (.reject "0000000b" "busy") = (.ok [.reject "busy"],{ agreed with state := .rejected }) ∧
      ¬ EveryStep (QsySession.step decibelsOfInt) (IsolatedCall decibelsOfInt) (newResponder {} .verified)
        (acknowledgedRun ++ [.apply (.reject "0000000b" "busy")]) := by
  refine ⟨by decide,rfl,?_⟩
  intro isolated
  have last := (everyStepAppend.mp isolated).2.1
  have quiet := (last.finished (by decide)).1
  exact absurd quiet (by decide)

end OpenPulse.Qsy
