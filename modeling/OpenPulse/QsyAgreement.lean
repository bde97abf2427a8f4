import OpenPulse.Qsy

/-! One QSY negotiation on the air. Every frame ever sent stays on the air: it
may reach either station any number of times, in any order, or never, so loss,
duplication and reordering are choices of the schedule. Frames of other
negotiations may be around from the start. A list or a vote is printed with two
decimals, so the ratios a station hears need not be the ones that were sent;
the frequencies are. -/
namespace OpenPulse.QsyAgreement
open Qsy Runs

variable {Snr : Type}

def QsyFrame.heardAs (carried : Snr → Snr) : QsyFrame Snr → QsyFrame Snr
  | .list token candidates => .list token (candidates.map fun c => (c.1,carried c.2))
  | .vote token votes => .vote token (votes.map fun v => (v.1,carried v.2))
  | frame => frame

def framesSent : Except (QsyError Snr) (List (QsyAction Snr)) → List (QsyFrame Snr)
  | .ok actions => actions.filterMap fun
    | .sendFrame frame => some frame
    | _ => none
  | .error _ => []

structure Net (Snr : Type) where
  initiator : QsySession Snr
  responder : QsySession Snr
  air : List (QsyFrame Snr)
  scan : Option (List (UInt64 × Snr))
  vote : Option (List (UInt64 × Snr))
  deriving DecidableEq, Repr

inductive Move (Snr : Type) where
  | initiate (candidates : List UInt64)
  | initiatorScanned (results : List (UInt64 × Snr))
  | responderScanned (results : List (UInt64 × Snr))
  | initiatorHears (position : Nat)
  | responderHears (position : Nat)
  deriving DecidableEq, Repr

def scanTaken (before : Option (List (UInt64 × Snr))) (results : List (UInt64 × Snr)) :
    Except (QsyError Snr) (List (QsyAction Snr)) → Option (List (UInt64 × Snr))
  | .ok _ => some results
  | .error _ => before

def Net.initiatorActs (net : Net Snr) (out : Outcome Snr) : Net Snr :=
  { net with initiator := out.2, air := net.air ++ framesSent out.1 }
def Net.responderActs (net : Net Snr) (out : Outcome Snr) : Net Snr :=
  { net with responder := out.2, air := net.air ++ framesSent out.1 }

section Steps
variable (f32 : Decibel Snr) (carried : Snr → Snr) (token : String)

def Net.step (net : Net Snr) : Move Snr → Net Snr
  | .initiate candidates => net.initiatorActs (net.initiator.initiate token candidates)
  | .initiatorScanned results =>
    let out := net.initiator.scanComplete results
    { net.initiatorActs out with scan := scanTaken net.scan results out.1 }
  | .responderScanned results =>
    let out := net.responder.scanComplete results
    { net.responderActs out with vote := scanTaken net.vote results out.1 }
  | .initiatorHears position =>
    match net.air[position]? with
    | some frame => net.initiatorActs (net.initiator.apply f32 (QsyFrame.heardAs carried frame))
    | none => net
  | .responderHears position =>
    match net.air[position]? with
    | some frame => net.responderActs (net.responder.apply f32 (QsyFrame.heardAs carried frame))
    | none => net

end Steps

structure Negotiation (Snr : Type) where
  -- a negotiation about to start: the token is fresh, whatever else is on the air
  token : String
  initiator : QsySession Snr
  responder : QsySession Snr
  stale : List (QsyFrame Snr)
  asks : initiator.role = .initiator ∧ initiator.state = .idle
  answers : responder.role = .responder ∧ responder.state = .idle
  fresh : ∀ frame ∈ stale, frame.token ≠ token

def Negotiation.start (n : Negotiation Snr) : Net Snr := ⟨n.initiator,n.responder,n.stale,none,none⟩

def freqs (results : List (UInt64 × Snr)) : List UInt64 := results.map Prod.fst

section Invariant
variable (token : String)

def NoAck (air : List (QsyFrame Snr)) : Prop := ∀ freq offset, .ack token freq offset ∉ air
def NoVote (air : List (QsyFrame Snr)) : Prop := ∀ votes, .vote token votes ∉ air

def initiatorHolds (scan : Option (List (UInt64 × Snr))) (air : List (QsyFrame Snr)) : State Snr → Prop
  | .idle => NoAck token air
  | .initScanning t _ => t = token ∧ NoAck token air
  | .listed t mine => t = token ∧ scan = some mine ∧ NoAck token air
  | .agreed freq => ∃ offset, .ack token freq offset ∈ air
  | .rejected => True
  | .waitingForList _ _ | .respScanning _ | .voted _ => False

def responderHolds (s : QsySession Snr) (air : List (QsyFrame Snr)) : State Snr → Prop
  | .idle | .waitingForList _ _ | .respScanning _ => NoVote token air
  | .voted t => t = token ∨ NoVote token air
  | .agreed freq => s.validateFrequencies [freq] = .ok () ∧ ((∃ offset, .ack token freq offset ∈ air) ∨ NoVote token air)
  | .rejected => True
  | .initScanning _ _ | .listed _ _ => False

structure Holds (net : Net Snr) : Prop where
  roles : net.initiator.role = .initiator ∧ net.responder.role = .responder
  initiator : initiatorHolds token net.scan net.air net.initiator.state
  responder : responderHolds token net.responder net.air net.responder.state
  oneAck : ∀ f o g p, .ack token f o ∈ net.air → .ack token g p ∈ net.air → f = g
  ackBacked : ∀ f o, .ack token f o ∈ net.air →
    (∃ mine, net.scan = some mine ∧ f ∈ freqs mine) ∧ ∃ votes, .vote token votes ∈ net.air ∧ f ∈ freqs votes
  voteBacked : ∀ votes, .vote token votes ∈ net.air → net.vote = some votes

end Invariant

theorem consideredCommon {f32 : Decibel Snr} {partner : List (UInt64 × Snr)} {best : Option UInt64 × Snr} {mine : UInt64 × Snr}
    {freq : UInt64} (found : (considered f32 partner best mine).1 = some freq) :
    best.1 = some freq ∨ freq = mine.1 ∧ freq ∈ freqs partner := by
  unfold considered at found
  split at found
  next p partnerSnr common =>
    simp only at found
    split at found
    · have same : mine.1 = freq := Option.some.inj found
      have key := List.find?_some common
      have member := List.mem_of_find?_eq_some common
      refine Or.inr ⟨same.symm,?_⟩
      rw [← same, ← (by simpa using key : p = mine.1)]
      exact List.mem_map_of_mem (f := Prod.fst) member
    · exact Or.inl found
  next => exact Or.inl found

theorem pickBestFreqCommon {f32 : Decibel Snr} {my partner : List (UInt64 × Snr)} {best : UInt64}
    (picked : pickBestFreq f32 my partner = .ok best) : best ∈ freqs my ∧ best ∈ freqs partner := by
  have folded : ∀ (xs : List (UInt64 × Snr)) (start : Option UInt64 × Snr),
      (xs.foldl (considered f32 partner) start).1 = some best →
      start.1 = some best ∨ best ∈ freqs xs ∧ best ∈ freqs partner := by
    intro xs
    induction xs with
    | nil => intro start found; exact Or.inl found
    | cons mine xs ih =>
      intro start found
      rcases ih _ found with earlier | ⟨own,common⟩
      · rcases consideredCommon earlier with before | ⟨here,common⟩
        · exact Or.inl before
        · exact Or.inr ⟨by simp [freqs, here],common⟩
      · exact Or.inr ⟨List.mem_cons_of_mem _ own,common⟩
  unfold pickBestFreq at picked
  split at picked
  next freq found =>
    obtain rfl := Except.ok.inj picked
    rcases folded my _ found with impossible | common
    · cases impossible
    · exact common
  next => cases picked

/-- A frame that takes no part in the decision. -/
def plain : QsyFrame Snr → Bool
  | .ack _ _ _ | .vote _ _ => false
  | .req _ _ | .list _ _ | .reject _ _ => true

section Keeping
variable {token : String} {net : Net Snr} {new : List (QsyFrame Snr)}

theorem plainAcks {air : List (QsyFrame Snr)} (all : ∀ frame ∈ new, plain frame = true) (t : String) (f : UInt64) (o : UInt32) :
    .ack t f o ∈ air ++ new ↔ .ack t f o ∈ air := by
  constructor
  · intro member
    rcases List.mem_append.mp member with old | fresh
    · exact old
    · exact absurd (all _ fresh) (by simp [plain])
  · exact List.mem_append_left new

theorem plainVotes {air : List (QsyFrame Snr)} (all : ∀ frame ∈ new, plain frame = true) (t : String) (v : List (UInt64 × Snr)) :
    .vote t v ∈ air ++ new ↔ .vote t v ∈ air := by
  constructor
  · intro member
    rcases List.mem_append.mp member with old | fresh
    · exact old
    · exact absurd (all _ fresh) (by simp [plain])
  · exact List.mem_append_left new

theorem initiatorHoldsPlain {scan : Option (List (UInt64 × Snr))} {air : List (QsyFrame Snr)} {state : State Snr}
    (all : ∀ frame ∈ new, plain frame = true) :
    initiatorHolds token scan (air ++ new) state ↔ initiatorHolds token scan air state := by
  cases state <;> simp only [initiatorHolds, NoAck, plainAcks all]

theorem responderHoldsPlain {s : QsySession Snr} {air : List (QsyFrame Snr)} {state : State Snr}
    (all : ∀ frame ∈ new, plain frame = true) :
    responderHolds token s (air ++ new) state ↔ responderHolds token s air state := by
  cases state <;> simp only [responderHolds, NoVote, plainAcks all, plainVotes all]

theorem holdsPlain (holds : Holds token net) (all : ∀ frame ∈ new, plain frame = true) {i r : QsySession Snr}
    {scan vote : Option (List (UInt64 × Snr))} (roles : i.role = .initiator ∧ r.role = .responder)
    (initiator : initiatorHolds token scan net.air i.state) (responder : responderHolds token r net.air r.state)
    (scanKept : scan = net.scan ∨ NoAck token net.air) (voteKept : vote = net.vote ∨ NoVote token net.air) :
    Holds token ⟨i,r,net.air ++ new,scan,vote⟩ where
  roles := roles
  initiator := (initiatorHoldsPlain all).mpr initiator
  responder := (responderHoldsPlain all).mpr responder
  oneAck f o g p left right := holds.oneAck f o g p ((plainAcks all ..).mp left) ((plainAcks all ..).mp right)
  ackBacked f o sent := by
    have old := (plainAcks all ..).mp sent
    obtain ⟨⟨mine,scanned,own⟩,votes,voted,common⟩ := holds.ackBacked f o old
    have same : scan = net.scan := scanKept.resolve_right fun none => none f o old
    exact ⟨⟨mine,same.trans scanned,own⟩,votes,(plainVotes all ..).mpr voted,common⟩
  voteBacked votes sent := by
    have old := (plainVotes all ..).mp sent
    have same : vote = net.vote := voteKept.resolve_right fun none => none votes old
    exact same.trans (holds.voteBacked votes old)

theorem holdsStill (holds : Holds token net) : Holds token ⟨net.initiator,net.responder,net.air ++ [],net.scan,net.vote⟩ :=
  holdsPlain holds (by simp) holds.roles holds.initiator holds.responder (.inl rfl) (.inl rfl)

theorem holdsVoted (holds : Holds token net) {t : String} {results : List (UInt64 × Snr)}
    (scanning : net.responder.state = .respScanning t) :
    Holds token ⟨net.initiator,{ net.responder with state := .voted t },net.air ++ [.vote t results],net.scan,some results⟩ := by
  have none : NoVote token net.air := by simpa [scanning, responderHolds] using holds.responder
  have acks : ∀ f o, .ack token f o ∈ net.air ++ [.vote t results] ↔ .ack token f o ∈ net.air := by simp
  refine ⟨holds.roles,?_,?_,?_,?_,?_⟩
  · have before := holds.initiator
    revert before
    cases net.initiator.state <;> simp only [initiatorHolds, NoAck, acks, imp_self]
  · by_cases own : t = token
    · exact Or.inl own
    · refine Or.inr ?_
      intro votes member
      rcases List.mem_append.mp member with old | new
      · exact none votes old
      · exact own (QsyFrame.vote.inj (List.mem_singleton.mp new)).1.symm
  · intro f o g p left right
    exact holds.oneAck f o g p ((acks f o).mp left) ((acks g p).mp right)
  · intro f o sent
    obtain ⟨own,votes,voted,common⟩ := holds.ackBacked f o ((acks f o).mp sent)
    exact ⟨own,votes,List.mem_append_left _ voted,common⟩
  · intro votes member
    rcases List.mem_append.mp member with old | new
    · exact absurd old (none votes)
    · rw [(QsyFrame.vote.inj (List.mem_singleton.mp new)).2]

theorem holdsDecided (holds : Holds token net) {mine votes : List (UInt64 × Snr)} {best : UInt64} {offset : UInt32}
    (listed : net.initiator.state = .listed token mine) (voted : .vote token votes ∈ net.air) (own : best ∈ freqs mine)
    (common : best ∈ freqs votes) :
    Holds token ⟨{ net.initiator with state := .agreed best },net.responder,net.air ++ [.ack token best offset],net.scan,net.vote⟩ := by
  have before := holds.initiator
  simp only [listed, initiatorHolds, true_and] at before
  obtain ⟨scanned,none⟩ := before
  have only : ∀ f o, .ack token f o ∈ net.air ++ [.ack token best offset] → f = best := by
    intro f o member
    rcases List.mem_append.mp member with old | new
    · exact absurd old (none f o)
    · exact (QsyFrame.ack.inj (List.mem_singleton.mp new)).2.1
  have votesSame : ∀ v, .vote token v ∈ net.air ++ [.ack token best offset] ↔ .vote token v ∈ net.air := by simp
  refine ⟨holds.roles,⟨offset,by simp⟩,?_,?_,?_,?_⟩
  · have was := holds.responder
    revert was
    cases net.responder.state <;> simp only [responderHolds, NoVote, votesSame, imp_self]
    rintro ⟨valid,decided⟩
    refine ⟨valid,decided.imp ?_ id⟩
    rintro ⟨o,sent⟩
    exact ⟨o,List.mem_append_left _ sent⟩
  · intro f o g p left right
    rw [only f o left, only g p right]
  · intro f o sent
    rw [only f o sent]
    exact ⟨⟨mine,scanned,own⟩,votes,List.mem_append_left _ voted,common⟩
  · intro v member
    exact holds.voteBacked v ((votesSame v).mp member)

theorem heardVote {carried : Snr → Snr} {frame : QsyFrame Snr} {t : String} {votes : List (UInt64 × Snr)}
    (heard : QsyFrame.heardAs carried frame = .vote t votes) : ∃ sent, frame = .vote t sent ∧ freqs votes = freqs sent := by
  cases frame with
  | vote u sent =>
    obtain ⟨rfl,rfl⟩ := QsyFrame.vote.inj heard
    exact ⟨sent,rfl,by simp [freqs]⟩
  | req => cases heard
  | list => cases heard
  | ack => cases heard
  | reject => cases heard

theorem heardAck {carried : Snr → Snr} {frame : QsyFrame Snr} {t : String} {f : UInt64} {o : UInt32}
    (heard : QsyFrame.heardAs carried frame = .ack t f o) : frame = .ack t f o := by
  cases frame with
  | ack => exact heard
  | req => cases heard
  | list => cases heard
  | vote => cases heard
  | reject => cases heard

variable {f32 : Decibel Snr} {carried : Snr → Snr}

theorem holdsInitiate (holds : Holds token net) (candidates : List UInt64) :
    Holds token (net.initiatorActs (net.initiator.initiate token candidates)) := by
  rcases initiateCases (s := net.initiator) token candidates with ⟨e,failed⟩ | ⟨idle,asked⟩
  · rw [failed]
    exact holdsStill holds
  · rw [asked]
    have none : NoAck token net.air := by simpa [idle, initiatorHolds] using holds.initiator
    exact holdsPlain holds (by simp [framesSent, plain]) holds.roles ⟨rfl,none⟩ holds.responder (.inl rfl) (.inl rfl)

theorem holdsInitiatorScanned (holds : Holds token net) (results : List (UInt64 × Snr)) :
    Holds token (net.step f32 carried token (.initiatorScanned results)) := by
  unfold Net.step
  rcases scanCompleteCases (s := net.initiator) results with ⟨e,failed⟩ | ⟨t,candidates,scanning,done⟩ | ⟨t,scanning,-⟩
  · simp only [failed, scanTaken]
    exact holdsStill holds
  · simp only [done, scanTaken]
    have before := holds.initiator
    simp only [scanning, initiatorHolds] at before
    obtain ⟨rfl,none⟩ := before
    exact holdsPlain holds (by simp [framesSent, plain]) holds.roles ⟨rfl,rfl,none⟩ holds.responder (.inr none) (.inl rfl)
  · exact absurd holds.initiator (by simp [scanning, initiatorHolds])

theorem holdsResponderScanned (holds : Holds token net) (results : List (UInt64 × Snr)) :
    Holds token (net.step f32 carried token (.responderScanned results)) := by
  unfold Net.step
  rcases scanCompleteCases (s := net.responder) results with ⟨e,failed⟩ | ⟨t,candidates,scanning,-⟩ | ⟨t,scanning,done⟩
  · simp only [failed, scanTaken]
    exact holdsStill holds
  · exact absurd holds.responder (by simp [scanning, responderHolds])
  · simp only [done, scanTaken]
    exact holdsVoted holds scanning

theorem holdsInitiatorHears (holds : Holds token net) {frame : QsyFrame Snr} (onAir : frame ∈ net.air) :
    Holds token (net.initiatorActs (net.initiator.apply f32 (QsyFrame.heardAs carried frame))) := by
  obtain ⟨applied,changed⟩ := applyMoves f32 net.initiator (QsyFrame.heardAs carried frame)
  unfold Net.initiatorActs
  rw [changed]
  have was := holds.initiator
  generalize heard : QsyFrame.heardAs carried frame = f at applied
  generalize (net.initiator.apply f32 f).1 = answer at applied
  generalize (net.initiator.apply f32 f).2.state = state at applied
  cases applied with
  | refused f e => exact holdsStill holds
  | rejected t reason =>
    exact holdsPlain holds (by simp [framesSent]) holds.roles trivial holds.responder (.inl rfl) (.inl rfl)
  | declined t n reason idle role => simp [holds.roles.1] at role
  | asked t n idle role => simp [holds.roles.1] at role
  | offered t n candidates waiting => simp [waiting, initiatorHolds] at was
  | chosen t mine votes best listed picked =>
    obtain ⟨sent,rfl,same⟩ := heardVote heard
    simp only [listed, initiatorHolds] at was
    obtain ⟨rfl,-⟩ := was
    obtain ⟨own,common⟩ := pickBestFreqCommon picked
    exact holdsDecided holds listed onAir own (same ▸ common)
  | apart t mine votes listed =>
    exact holdsPlain holds (by simp [framesSent, plain]) holds.roles trivial holds.responder (.inl rfl) (.inl rfl)
  | confirmed t freq offset voted => simp [voted, initiatorHolds] at was

theorem holdsResponderHears (holds : Holds token net) {frame : QsyFrame Snr} (onAir : frame ∈ net.air) :
    Holds token (net.responderActs (net.responder.apply f32 (QsyFrame.heardAs carried frame))) := by
  obtain ⟨applied,changed⟩ := applyMoves f32 net.responder (QsyFrame.heardAs carried frame)
  unfold Net.responderActs
  rw [changed]
  have was := holds.responder
  generalize heard : QsyFrame.heardAs carried frame = f at applied
  generalize (net.responder.apply f32 f).1 = answer at applied
  generalize (net.responder.apply f32 f).2.state = state at applied
  cases applied with
  | refused f e => exact holdsStill holds
  | rejected t reason =>
    exact holdsPlain holds (by simp [framesSent]) holds.roles holds.initiator trivial (.inl rfl) (.inl rfl)
  | declined t n reason idle role =>
    exact holdsPlain holds (by simp [framesSent, plain]) holds.roles holds.initiator trivial (.inl rfl) (.inl rfl)
  | asked t n idle role =>
    simp only [idle, responderHolds] at was
    exact holdsPlain holds (by simp [framesSent]) holds.roles holds.initiator was (.inl rfl) (.inl rfl)
  | offered t n candidates waiting =>
    simp only [waiting, responderHolds] at was
    exact holdsPlain holds (by simp [framesSent]) holds.roles holds.initiator was (.inl rfl) (.inl rfl)
  | chosen t mine votes best listed => simp [listed, responderHolds] at was
  | apart t mine votes listed => simp [listed, responderHolds] at was
  | confirmed t freq offset voted valid =>
    -- The acknowledged token is the one voted under: this negotiation's, or a stale one without any vote here.
    obtain rfl := heardAck heard
    simp only [voted, responderHolds] at was
    refine holdsPlain holds (by simp [framesSent]) holds.roles holds.initiator ⟨valid,?_⟩ (.inl rfl) (.inl rfl)
    rcases was with rfl | none
    · exact Or.inl ⟨offset,onAir⟩
    · exact Or.inr none

theorem holdsStep (net : Net Snr) (move : Move Snr) (holds : Holds token net) :
    Holds token (net.step f32 carried token move) := by
  cases move with
  | initiate candidates => exact holdsInitiate holds candidates
  | initiatorScanned results => exact holdsInitiatorScanned holds results
  | responderScanned results => exact holdsResponderScanned holds results
  | initiatorHears position =>
    simp only [Net.step]
    split
    next frame found => exact holdsInitiatorHears holds (List.mem_of_getElem? found)
    next => exact holds
  | responderHears position =>
    simp only [Net.step]
    split
    next frame found => exact holdsResponderHears holds (List.mem_of_getElem? found)
    next => exact holds

theorem airGrows (net : Net Snr) (move : Move Snr) {frame : QsyFrame Snr} (member : frame ∈ net.air) :
    frame ∈ (net.step f32 carried token move).air := by
  have grown : ∃ more, (net.step f32 carried token move).air = net.air ++ more := by
    cases move with
    | initiate candidates => exact ⟨_,rfl⟩
    | initiatorScanned results => exact ⟨_,rfl⟩
    | responderScanned results => exact ⟨_,rfl⟩
    | initiatorHears position =>
      simp only [Net.step]
      split
      · exact ⟨_,rfl⟩
      · exact ⟨[],by simp⟩
    | responderHears position =>
      simp only [Net.step]
      split
      · exact ⟨_,rfl⟩
      · exact ⟨[],by simp⟩
  obtain ⟨more,grown⟩ := grown
  rw [grown]
  exact List.mem_append_left more member

theorem appliedSendsNoVote {s : QsySession Snr} {frame : QsyFrame Snr}
    {answer : Except (QsyError Snr) (List (QsyAction Snr))} {next : State Snr} (applied : Applied f32 s frame answer next)
    (t : String) (votes : List (UInt64 × Snr)) : .vote t votes ∉ framesSent answer := by
  cases applied <;> simp [framesSent]

theorem finishedStep (holds : Holds token net) (finished : net.responder.isTerminal = true) (none : NoVote token net.air)
    (move : Move Snr) :
    (net.step f32 carried token move).responder.isTerminal = true ∧ NoVote token (net.step f32 carried token move).air := by
  have silent : ∀ {new : List (QsyFrame Snr)}, (∀ votes, .vote token votes ∉ new) → NoVote token (net.air ++ new) := by
    intro new quiet votes member
    rcases List.mem_append.mp member with old | fresh
    · exact none votes old
    · exact quiet votes fresh
  cases move with
  | initiate candidates =>
    refine ⟨finished,silent ?_⟩
    rcases initiateCases (s := net.initiator) token candidates with ⟨e,failed⟩ | ⟨idle,asked⟩
    · simp [failed, framesSent]
    · simp [asked, framesSent]
  | initiatorScanned results =>
    refine ⟨finished,silent ?_⟩
    rcases scanCompleteCases (s := net.initiator) results with ⟨e,failed⟩ | ⟨t,candidates,scanning,done⟩ | ⟨t,scanning,-⟩
    · simp [failed, framesSent]
    · simp [done, framesSent]
    · exact absurd holds.initiator (by simp [scanning, initiatorHolds])
  | responderScanned results =>
    rcases scanCompleteCases (s := net.responder) results with ⟨e,failed⟩ | ⟨t,candidates,scanning,-⟩ | ⟨t,scanning,-⟩
    · simp only [Net.step, Net.responderActs, failed]
      exact ⟨finished,silent (by simp [framesSent])⟩
    · simp [QsySession.isTerminal, scanning, State.isTerminal] at finished
    · simp [QsySession.isTerminal, scanning, State.isTerminal] at finished
  | initiatorHears position =>
    simp only [Net.step]
    split
    next frame found =>
      exact ⟨finished,silent (appliedSendsNoVote (applyMoves f32 net.initiator (QsyFrame.heardAs carried frame)).1 token)⟩
    next => exact ⟨finished,none⟩
  | responderHears position =>
    simp only [Net.step]
    split
    next frame found =>
      have applied := (applyMoves f32 net.responder (QsyFrame.heardAs carried frame)).1
      refine ⟨?_,silent (appliedSendsNoVote applied token)⟩
      change State.isTerminal (net.responder.apply f32 (QsyFrame.heardAs carried frame)).2.state = true
      by_cases rejecting : ∃ t reason, QsyFrame.heardAs carried frame = .reject t reason
      · obtain ⟨t,reason,rejecting⟩ := rejecting
        rw [rejecting]
        rfl
      · have kept := appliedFinished applied (fun t reason same => rejecting ⟨t,reason,same⟩) finished
        rw [kept.1]
        exact finished
    next => exact ⟨finished,none⟩

theorem finishedRun (holds : Holds token net) (finished : net.responder.isTerminal = true) (none : NoVote token net.air)
    (moves : List (Move Snr)) : NoVote token (run (Net.step f32 carried token) net moves).air := by
  have keeps : ∀ n move, Holds token n ∧ n.responder.isTerminal = true ∧ NoVote token n.air →
      Holds token (n.step f32 carried token move) ∧ (n.step f32 carried token move).responder.isTerminal = true ∧
        NoVote token (n.step f32 carried token move).air :=
    fun n move before => ⟨holdsStep n move before.1,finishedStep before.1 before.2.1 before.2.2 move⟩
  exact (runInvariant keeps ⟨holds,finished,none⟩ moves).2.2

theorem holdsRun (f32 : Decibel Snr) (carried : Snr → Snr) (holds : Holds token net) (moves : List (Move Snr)) :
    Holds token (run (Net.step f32 carried token) net moves) :=
  runInvariant (fun n move before => holdsStep n move before) holds moves

theorem airGrowsRun {frame : QsyFrame Snr} (member : frame ∈ net.air) (moves : List (Move Snr)) :
    frame ∈ (run (Net.step f32 carried token) net moves).air :=
  runInvariant (I := fun n => frame ∈ n.air) (fun n move before => airGrows n move before) member moves

theorem agreedAck (holds : Holds token net) {f : UInt64} (agreed : net.initiator.state = .agreed f) :
    ∃ offset, .ack token f offset ∈ net.air := by
  simpa [agreed, initiatorHolds] using holds.initiator

theorem responderFollows (holds : Holds token net) {f g : UInt64} {offset : UInt32} (sent : .ack token f offset ∈ net.air)
    (agreed : net.responder.state = .agreed g) : f = g := by
  obtain ⟨-,votes,voted,-⟩ := holds.ackBacked f offset sent
  have was := holds.responder
  simp only [agreed, responderHolds] at was
  rcases was.2 with ⟨o,own⟩ | none
  · exact holds.oneAck f offset g o sent own
  · exact absurd voted (none votes)

theorem initiatorFollows (holds : Holds token net) {f g : UInt64} (agreed : net.responder.state = .agreed g)
    {moves : List (Move Snr)} (later : (run (Net.step f32 carried token) net moves).initiator.state = .agreed f) : f = g := by
  have after := holdsRun f32 carried holds moves
  obtain ⟨offset,sent⟩ := agreedAck after later
  have was := holds.responder
  simp only [agreed, responderHolds] at was
  rcases was.2 with ⟨o,own⟩ | none
  · exact after.oneAck f offset g o sent (airGrowsRun own moves)
  · obtain ⟨-,votes,voted,-⟩ := after.ackBacked f offset sent
    have finished : net.responder.isTerminal = true := by simp [QsySession.isTerminal, agreed, State.isTerminal]
    exact absurd voted (finishedRun holds finished none moves votes)

end Keeping

theorem startHolds (n : Negotiation Snr) : Holds n.token n.start := by
  have acks : NoAck n.token n.stale := fun f o member => n.fresh _ member rfl
  have votes : NoVote n.token n.stale := fun v member => n.fresh _ member rfl
  refine ⟨⟨n.asks.1,n.answers.1⟩,?_,?_,?_,?_,?_⟩
  · simpa [Negotiation.start, n.asks.2, initiatorHolds] using acks
  · simpa [Negotiation.start, n.answers.2, responderHolds] using votes
  · intro f o g p sent
    exact absurd sent (acks f o)
  · intro f o sent
    exact absurd sent (acks f o)
  · intro v sent
    exact absurd sent (votes v)

def passesBandplan (s : QsySession Snr) (freq : UInt64) : Prop :=
  s.policy.bandplan.awarenessEnabled = true →
    s.policy.bandplan.validateFrequency freq (s.operatingMode.getD "") = .ok ()

theorem validateFrequenciesPasses {s : QsySession Snr} {freq : UInt64} (valid : s.validateFrequencies [freq] = .ok ()) :
    passesBandplan s freq := by
  intro aware
  unfold QsySession.validateFrequencies at valid
  simp only [aware, Bool.not_true, Bool.false_eq_true, if_false] at valid
  split at valid
  · cases valid
  · cases checked : s.policy.bandplan.validateFrequency freq (s.operatingMode.getD "") with
    | error e => simp [checked, List.forM, Except.mapError, bind, Except.bind] at valid
    | ok u => rfl

/- Agreement in every reachable pair of states, and across time: a station that
has once agreed is never contradicted by what the other agrees on later. -/
theorem qsyAgreement (f32 : Decibel Snr) (carried : Snr → Snr) (n : Negotiation Snr) (earlier later : List (Move Snr)) :
    let before := run (Net.step f32 carried n.token) n.start earlier
    let net := run (Net.step f32 carried n.token) n.start (earlier ++ later)
    (∀ f g, net.initiator.state = .agreed f → net.responder.state = .agreed g →
      f = g ∧ (∃ mine, net.scan = some mine ∧ f ∈ freqs mine) ∧ (∃ votes, net.vote = some votes ∧ f ∈ freqs votes) ∧
        passesBandplan net.responder f) ∧
    (∀ f g, before.initiator.state = .agreed f → net.responder.state = .agreed g → g = f) ∧
    (∀ f g, before.responder.state = .agreed g → net.initiator.state = .agreed f → f = g) := by
  intro before net
  have earlierHolds : Holds n.token before := holdsRun f32 carried (startHolds n) earlier
  have now : Holds n.token net := holdsRun f32 carried (startHolds n) (earlier ++ later)
  have split : net = run (Net.step f32 carried n.token) before later := runAppend ..
  refine ⟨?_,?_,?_⟩
  · intro f g asked answered
    obtain ⟨offset,sent⟩ := agreedAck now asked
    obtain rfl := responderFollows now sent answered
    obtain ⟨own,votes,voted,common⟩ := now.ackBacked f offset sent
    have was := now.responder
    simp only [answered, responderHolds] at was
    exact ⟨rfl,own,⟨votes,now.voteBacked votes voted,common⟩,validateFrequenciesPasses was.1⟩
  · intro f g asked answered
    obtain ⟨offset,sent⟩ := agreedAck earlierHolds asked
    have still : .ack n.token f offset ∈ net.air := by
      rw [split]
      exact airGrowsRun sent later
    exact (responderFollows now still answered).symm
  · intro f g answered asked
    rw [split] at asked
    exact initiatorFollows earlierHolds answered asked

def guardedPolicy : QsyPolicy := { bandplan := {} }

def plainNegotiation : Negotiation Int where
  token := "0000000a"
  initiator := newInitiator
  responder := (newResponder guardedPolicy .verified).withOperatingMode "BPSK250"
  stale := [.vote "0000000b" [(7040000,3)]]
  asks := ⟨rfl,rfl⟩
  answers := ⟨rfl,rfl⟩
  fresh := by decide

def plainMoves : List (Move Int) :=
  [.initiate [14074000, 14080000], .responderHears 1, .initiatorScanned [(14074000,9), (14080000,4)], .responderHears 2,
    .initiatorHears 0, .responderScanned [(14080000,6), (14074000,7)], .initiatorHears 3]

theorem qsyAgreementReached :
    let net := run (Net.step decibelsOfInt id plainNegotiation.token) plainNegotiation.start
      (plainMoves ++ [.responderHears 4, .responderHears 4])
    net.initiator.state = .agreed 14074000 ∧ net.responder.state = .agreed 14074000 ∧
      (∃ mine, net.scan = some mine ∧ 14074000 ∈ freqs mine) ∧ passesBandplan net.responder 14074000 := by
  have asked : (run (Net.step decibelsOfInt id plainNegotiation.token) plainNegotiation.start
      (plainMoves ++ [.responderHears 4, .responderHears 4])).initiator.state = .agreed 14074000 := by decide
  have answered : (run (Net.step decibelsOfInt id plainNegotiation.token) plainNegotiation.start
      (plainMoves ++ [.responderHears 4, .responderHears 4])).responder.state = .agreed 14074000 := by decide
  have agreed := (qsyAgreement decibelsOfInt id plainNegotiation plainMoves [.responderHears 4, .responderHears 4]).1
    14074000 14074000 asked answered
  exact ⟨asked,answered,agreed.2.1,agreed.2.2.2⟩

end OpenPulse.QsyAgreement
