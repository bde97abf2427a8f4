import OpenPulse.RendezvousAssembler

/-! A directed over from the sender's frames to the recognition at the other end:
`plugins/js8/src/beacon.rs` into `openpulse-discovery/src/rendezvous_assembler.rs`. -/
namespace OpenPulse.Rendezvous
open Js8
open B2f (isWhitespace)

variable {F : Type} {radio : Radio F} {f tol : F} {max : Nat} {sender grid me : List Char} {msg : RendezvousMsg}

theorem flagLastLater {frames : List BeaconFrame} (later : ∀ frame ∈ frames, frame.i3bit ≠ i3First) :
    ∀ frame ∈ flagLast frames, frame.i3bit ≠ i3First := by
  induction frames using flagLast.induct with
  | case1 => exact later
  | case2 last =>
    intro frame member
    rw [List.mem_singleton.mp member]
    exact (by decide : (2 : UInt8) ≠ 1)
  | case3 frame frames more ih =>
    rw [flagLast]
    · intro g member
      rcases List.mem_cons.mp member with rfl | rest
      · exact later g (by simp)
      · exact ih (fun h inside => later h (List.mem_cons_of_mem _ inside)) g rest
    · exact more

structure Over (radio : Radio F) (sender me text : List Char) (frames : List BeaconFrame) : Prop where
  parts : ∃ first second rest, frames = ⟨first,i3First⟩::⟨second,0⟩::rest ∧
    (∃ num, unpackCompoundFrame first = some ⟨.compound,sender,num⟩) ∧
    (∃ num, unpackCompoundFrame second = some ⟨.compoundDirected,me,num⟩) ∧
    List.Forall₂ (Carries radio.jscDecompress) (rest.map BeaconFrame.payload) (textPieces text) ∧
    ∀ frame ∈ rest, frame.i3bit ≠ i3First

theorem builtOver (jsc : List Bool → List Char) {target : List Char} (from' : Representable sender) (to' : Representable target)
    {text : List Char} (coded : ∀ c ∈ text, Coded c) (some' : text ≠ []) {num : UInt16} (packed : packGrid grid = some num) :
    ∃ first second rest, buildOver sender grid target text = some (⟨first,i3First⟩::⟨second,0⟩::rest) ∧
      unpackCompoundFrame first = some ⟨.compound,sender,num⟩ ∧
      unpackCompoundFrame second = some ⟨.compoundDirected,target,0⟩ ∧
      List.Forall₂ (Carries jsc) (rest.map BeaconFrame.payload) (textPieces text) ∧
      ∀ frame ∈ rest, frame.i3bit ≠ i3First := by
  obtain ⟨first,senderFrame,senderRead⟩ := @Representable.carried sender from' .compound 1 rfl num
  obtain ⟨second,targetFrame,targetRead⟩ := @Representable.carried target to' .compoundDirected 2 rfl 0
  have carry := dataFramesCarry jsc text.length coded
  have nonempty : dataFrames text.length text ≠ [] := by
    intro none'
    rw [none', ← textPieces, textPiecesCons coded some'] at carry
    cases carry
  obtain ⟨data,more,frames⟩ := List.exists_cons_of_ne_nil nonempty
  refine ⟨first,second,flagLast ((dataFrames text.length text).map (⟨·,0⟩)),?_,senderRead,targetRead,?_,?_⟩
  · rw [buildOver, packed]
    simp only [Option.map_some, senderFrame, targetFrame, frames]
    rfl
  · rw [flagLastPayloads, List.map_map]
    simpa [Function.comp_def, textPieces] using carry
  · refine flagLastLater ?_
    intro frame member
    obtain ⟨payload,-,rfl⟩ := List.mem_map.mp member
    exact (by decide : (0 : UInt8) ≠ 1)

theorem directedOver (radio : Radio F) (from' : Representable sender) (to' : Representable me) {text : List Char}
    (coded : ∀ c ∈ text, Coded c) (some' : text ≠ []) {num : UInt16} (packed : packGrid grid = some num) :
    ∃ frames, directed sender grid me text = some frames ∧ Over radio sender me text frames := by
  obtain ⟨first,second,rest,built,senderRead,targetRead,carry,later⟩ :=
    builtOver radio.jscDecompress from' to' coded some' packed
  exact ⟨_,built,first,second,rest,rfl,⟨num,senderRead⟩,⟨0,targetRead⟩,carry,later⟩

def Senderless (a : RendezvousAssembler F) : Prop := ∀ p ∈ a.partials, p.sender = none

def Unsent (radio : Radio F) (payload : Payload) : Prop :=
  ∀ p : PartialOver F, (p.applyFrame radio payload).sender = p.sender

theorem dataUnsent {payload : Payload} {piece : List Char} (data : Carries radio.jscDecompress payload piece) :
    Unsent radio payload := by
  intro p
  simp only [PartialOver.applyFrame, data.1, data.2]
  split <;> rfl

theorem dataAllUnsent {payloads : List Payload} {pieces : List (List Char)}
    (carry : List.Forall₂ (Carries radio.jscDecompress) payloads pieces) : ∀ payload ∈ payloads, Unsent radio payload := by
  induction carry with
  | nil => simp
  | cons first rest ih =>
    intro payload member
    rcases List.mem_cons.mp member with rfl | later
    · exact dataUnsent first
    · exact ih payload later

theorem ingestSenderless {a : RendezvousAssembler F} (senderless : Senderless a) {payload : Payload}
    (unsent : Unsent radio payload) (i3bit : UInt8) (slot : Nat) :
    (a.ingest radio payload i3bit f slot).1 = none ∧ Senderless (a.ingest radio payload i3bit f slot).2 := by
  have swept : Senderless ((a.sweep slot).restart radio i3bit f) := by
    unfold RendezvousAssembler.restart
    intro p member
    split at member
    · exact senderless p (List.mem_of_mem_filter (List.mem_of_mem_filter member))
    · exact senderless p (List.mem_of_mem_filter member)
  rw [RendezvousAssembler.ingest]
  generalize (a.sweep slot).restart radio i3bit f = b at swept ⊢
  have bucketed : ∀ p ∈ (b.bucket radio f slot).2, p.sender = none := by
    unfold RendezvousAssembler.bucket
    intro p member
    split at member
    · exact swept p member
    · rcases List.mem_append.mp member with old | new
      · exact swept p old
      · rw [List.mem_singleton.mp new]
        rfl
  generalize b.bucket radio f slot = found at bucketed ⊢
  obtain ⟨idx,partials⟩ := found
  have chosen : (partials.getD idx (.new f slot)).sender = none := by
    by_cases inside : idx < partials.length
    · rw [List.getD_eq_getElem _ _ inside]
      exact bucketed _ (List.getElem_mem inside)
    · rw [List.getD_eq_default _ _ (Nat.not_lt.mp inside)]
      rfl
  have applied := (unsent { partials.getD idx (.new f slot) with lastSlot := slot }).trans chosen
  have unrecognized : b.tryRecognize ({ partials.getD idx (.new f slot) with lastSlot := slot }.applyFrame radio payload) =
      none := by
    rw [RendezvousAssembler.tryRecognize, applied]
  simp only [unrecognized, true_and]
  intro p member
  rcases List.mem_or_eq_of_mem_set member with old | new
  · exact bucketed p old
  · rw [new]
    exact applied

theorem feedSenderless {a : RendezvousAssembler F} (senderless : Senderless a) {frames : List BeaconFrame}
    (unsent : ∀ frame ∈ frames, Unsent radio frame.payload) (slot : Nat) :
    ∀ o ∈ a.feed radio f slot frames, o = none := by
  induction frames generalizing a slot with
  | nil => simp [RendezvousAssembler.feed]
  | cons frame frames ih =>
    obtain ⟨unheard,after⟩ := @ingestSenderless F radio f a senderless frame.payload (unsent frame (by simp)) frame.i3bit slot
    intro o member
    rcases List.mem_cons.mp member with rfl | later
    · exact unheard
    · exact ih after (fun g inside => unsent g (List.mem_cons_of_mem _ inside)) (slot + 1) o later

theorem Over.groupUnheard {text : List Char} {frames : List BeaconFrame} (over' : Over radio sender me text frames)
    (group : sender.head? = some '@') (slot : Nat) : ∀ o ∈ (RendezvousAssembler.new me tol max).feed radio f slot frames, o = none := by
  obtain ⟨first,second,rest,rfl,⟨_,senderRead⟩,⟨_,targetRead⟩,carry,-⟩ := over'.parts
  refine feedSenderless (by simp [Senderless, RendezvousAssembler.new]) ?_ slot
  intro frame member
  rcases List.mem_cons.mp member with rfl | later
  · intro p
    rw [applyGroup senderRead group]
  rcases List.mem_cons.mp later with rfl | data
  · intro p
    rw [applyTarget targetRead]
  · exact dataAllUnsent carry _ (List.mem_map.mpr ⟨frame,data,rfl⟩)

theorem Over.begins {text : List Char} {frames : List BeaconFrame} (over' : Over radio sender me text frames)
    (person : sender.head? ≠ some '@') (same : radio.freqMatch f f tol = true) (slots : 1 ≤ max) (own : Representable me)
    (slot : Nat) : ∃ a p rest, Listening radio f sender me a p (slot + 1 + 1) ∧ p.text = [] ∧
      (RendezvousAssembler.new me tol max).feed radio f slot frames = none::none::a.feed radio f (slot + 1 + 1) rest ∧
      List.Forall₂ (Carries radio.jscDecompress) (rest.map BeaconFrame.payload) (textPieces text) ∧
      ∀ frame ∈ rest, frame.i3bit ≠ i3First := by
  obtain ⟨first,second,rest,rfl,⟨_,senderRead⟩,⟨_,targetRead⟩,carry,later⟩ := over'.parts
  obtain ⟨place,sent⟩ := @applySender F radio (.new f slot) first sender _ senderRead person
  have ours : toUpper me = toUpper (RendezvousAssembler.new me tol max).myCallsign := by
    rw [RendezvousAssembler.new, (representableSame own).1, (representableSame own).2, (representableSame own).2]
  have step1 : (RendezvousAssembler.new me tol max).ingest radio first i3First f slot =
      (none,{ RendezvousAssembler.new me tol max with partials := [⟨f,slot,some (sender,place),none,[]⟩] }) := by
    rw [ingestFirst rfl, sent]
    rfl
  have listening : Listening radio f sender me
      { RendezvousAssembler.new me tol max with partials := [⟨f,slot + 1,some (sender,place),some me,[]⟩] }
      ⟨f,slot + 1,some (sender,place),some me,[]⟩ (slot + 1 + 1) :=
    ⟨rfl,rfl,same,slots,rfl,ours,rfl,place,rfl⟩
  have step2 : RendezvousAssembler.ingest radio
      { RendezvousAssembler.new me tol max with partials := [⟨f,slot,some (sender,place),none,[]⟩] } second 0 f (slot + 1) =
      (none,{ RendezvousAssembler.new me tol max with partials := [⟨f,slot + 1,some (sender,place),some me,[]⟩] }) := by
    have recent : slot + 1 - slot ≤ (RendezvousAssembler.new me tol max).maxOverSlots := by
      rw [Nat.add_sub_cancel_left]
      exact slots
    rw [ingestNext rfl same second (by decide) recent, applyTarget targetRead]
    rcases listening.recognizes with ⟨r,-,-,read⟩ | ⟨unrecognized,-⟩
    · cases read
    · exact settleQuiet unrecognized []
  refine ⟨_,_,rest,listening,rfl,?_,carry,later⟩
  rw [RendezvousAssembler.feed, step1, RendezvousAssembler.feed, step2]

theorem Over.heardIff {text : List Char} {frames : List BeaconFrame} (over' : Over radio sender me text frames)
    (person : sender.head? ≠ some '@') (same : radio.freqMatch f f tol = true) (slots : 1 ≤ max) (own : Representable me)
    (coded : ∀ c ∈ text, Coded c) (some' : text ≠ []) (room : byteLen text ≤ maxTextLen) (slot : Nat) :
    LastOnly sender msg ((RendezvousAssembler.new me tol max).feed radio f slot frames) ↔
      Quiet text ∧ RendezvousMsg.decode text = some msg := by
  obtain ⟨a,p,rest,listening,fresh,outs,carry,later⟩ := over'.begins person same slots own slot
  have whole := textPiecesFlatten coded
  have pieces : textPieces text ≠ [] := by
    rw [textPiecesCons coded some']
    simp
  have more : rest ≠ [] := by
    rintro rfl
    exact pieces (by simpa using carry)
  rw [outs, lastOnlyCons (by simp), lastOnlyCons (feedNonempty _ _ more),
    feedData listening carry later (by rwa [fresh, List.nil_append, whole]) pieces]
  simp only [true_and, fresh, List.nil_append, whole]
  rfl

theorem Over.unheard {text : List Char} {frames : List BeaconFrame} (over' : Over radio sender me text frames)
    (person : sender.head? ≠ some '@') (same : radio.freqMatch f f tol = true) (slots : 1 ≤ max) (own : Representable me)
    (coded : ∀ c ∈ text, Coded c) (room : byteLen text ≤ maxTextLen)
    (quiet : ∀ heard, heard <+: text → RendezvousMsg.decode heard = none) (slot : Nat) :
    ∀ o ∈ (RendezvousAssembler.new me tol max).feed radio f slot frames, o = none := by
  obtain ⟨a,p,rest,listening,fresh,outs,carry,later⟩ := over'.begins person same slots own slot
  have whole := textPiecesFlatten coded
  have silent := feedQuiet listening carry later (by rwa [fresh, List.nil_append, whole])
    (by rwa [fresh, List.nil_append, whole])
  intro o member
  rw [outs, List.mem_cons, List.mem_cons] at member
  rcases member with rfl | rfl | inside
  · rfl
  · rfl
  · exact silent o inside

theorem encodeBegun (msg : RendezvousMsg) : msg.encode ≠ [] := by
  cases msg <;> simp [RendezvousMsg.encode, opening]

theorem emptyUnread {token : List Char} (valid : validToken token = some token) {heard : List Char}
    (begins : heard <+: (RendezvousMsg.propose token []).encode) : RendezvousMsg.decode heard = none := by
  obtain ⟨a,b,rfl,plainA,plainB⟩ := validTokenForm valid
  have blanks : (opening proposeKind [a,b]).countP isWhitespace = 2 := by
    have front : (front proposeKind).countP isWhitespace = 2 := by decide
    simp [openingFront, front, (plainFacts plainA).1, (plainFacts plainB).1]
  have few := begins.sublist.countP_le (p := isWhitespace)
  rw [RendezvousMsg.encode, List.flatMap_nil, List.append_nil, blanks] at few
  exact decodeFew (Nat.lt_of_le_of_lt (Words.wordsCount heard) (by omega))

def Assembled (radio : Radio F) (f tol : F) (max slot : Nat) (sender grid me : List Char) (msg : RendezvousMsg) : Prop :=
  ∃ frames, directed sender grid me msg.encode = some frames ∧
    LastOnly sender msg ((RendezvousAssembler.new me tol max).feed radio f slot frames)

/- The exact condition: who sends is a person, each frame finds the over of the one
before it, and no text heard on the way is a message. -/
theorem assembledIff (radio : Radio F) (f tol : F) (max slot : Nat) (from' : Representable sender) (to' : Representable me)
    (valid : validToken msg.token = some msg.token) (room : byteLen msg.encode ≤ maxTextLen) :
    Assembled radio f tol max slot sender grid me msg ↔ (packGrid grid).isSome ∧ sender.head? ≠ some '@' ∧
      radio.freqMatch f f tol = true ∧ 1 ≤ max ∧ msg.Settled := by
  cases packed : packGrid grid with
  | none =>
    refine ⟨?_,fun conditions => absurd conditions.1 (by simp)⟩
    rintro ⟨frames,sent,-⟩
    simp [directed, buildOver, packed] at sent
  | some num =>
    have coded := codedEncode valid
    obtain ⟨frames,sent,over'⟩ := directedOver radio from' to' coded (encodeBegun msg) packed
    have only : Assembled radio f tol max slot sender grid me msg ↔
        LastOnly sender msg ((RendezvousAssembler.new me tol max).feed radio f slot frames) := by
      simp [Assembled, sent]
    rw [only]
    by_cases group : sender.head? = some '@'
    · simp only [group, ne_eq, not_true_eq_false, false_and, and_false, iff_false]
      exact fun last => lastOnlyHeard last (over'.groupUnheard group slot)
    by_cases found : radio.freqMatch f f tol = true ∧ 1 ≤ max
    · rw [over'.heardIff group found.1 found.2 to' coded (encodeBegun msg) room slot, settledIff valid]
      simp [group, found]
    · have bad : radio.freqMatch f f (RendezvousAssembler.new me tol max).freqTolHz = false ∨
          (RendezvousAssembler.new me tol max).maxOverSlots = 0 := by
        by_cases same : radio.freqMatch f f tol = true
        · exact .inr (Nat.lt_one_iff.mp (Nat.not_le.mp fun enough => found ⟨same,enough⟩))
        · exact .inl (Bool.eq_false_iff.mpr same)
      have lost := @feedLost F radio f (RendezvousAssembler.new me tol max) slot bad nofun frames
      constructor
      · exact fun last => absurd lost (lastOnlyHeard last)
      · exact fun conditions => absurd ⟨conditions.2.2.1,conditions.2.2.2.1⟩ found

theorem overAssembled (radio : Radio F) (f tol : F) (max slot : Nat) (sender grid me : List Char) (msg : RendezvousMsg)
    (from' : Representable sender) (to' : Representable me) (packs : (packGrid grid).isSome = true)
    (same : radio.freqMatch f f tol = true) (slots : 1 ≤ max) (valid : validToken msg.token = some msg.token)
    (room : byteLen msg.encode ≤ maxTextLen) :
    (sender.head? ≠ some '@' → msg.Settled → Assembled radio f tol max slot sender grid me msg) ∧
    (sender.head? = some '@' ∨ msg = .propose msg.token [] → ∃ frames, directed sender grid me msg.encode = some frames ∧
      ∀ o ∈ (RendezvousAssembler.new me tol max).feed radio f slot frames, o = none) := by
  refine ⟨fun person settled => (assembledIff radio f tol max slot from' to' valid room).mpr
    ⟨packs,person,same,slots,settled⟩,?_⟩
  intro refused
  obtain ⟨num,packed⟩ := Option.isSome_iff_exists.mp packs
  have coded := codedEncode valid
  obtain ⟨frames,sent,over'⟩ := directedOver radio from' to' coded (encodeBegun msg) packed
  refine ⟨frames,sent,?_⟩
  by_cases group : sender.head? = some '@'
  · exact over'.groupUnheard group slot
  · have empty := refused.resolve_left group
    refine over'.unheard group same slots to' coded room ?_ slot
    intro heard begins
    rw [empty] at begins
    exact emptyUnread valid begins

def wholeHertz : Radio Int := ⟨fun a b tol => (a - b).natAbs ≤ tol,fun _ => []⟩

def kn4crd : List Char := "KN4CRD".toList

def dc0sk : List Char := "DC0SK".toList

def jn58 : List Char := "JN58".toList

def shortProposal : RendezvousMsg := .propose ['R','7'] [3,9]

theorem overAssembledShort : Assembled wholeHertz 1500 3 8 0 kn4crd jn58 dc0sk shortProposal :=
  (overAssembled wholeHertz 1500 3 8 0 kn4crd jn58 dc0sk shortProposal (by decide) (by decide)
    (by decide) (by decide) (by decide) (by decide) (by decide)).1 (by decide)
    ⟨by decide,by decide⟩

def longProposal : RendezvousMsg := .propose ['R','7'] [12,34,56,78]

example : (directed kn4crd jn58 dc0sk longProposal.encode).map
      ((RendezvousAssembler.new dc0sk 3 8).feed wholeHertz 1500 0) =
    some [none,none,none,some ⟨kn4crd,some jn58,.propose ['R','7'] [12,34,5],1500⟩,none] := by
  decide +kernel

def emptyProposal : RendezvousMsg := .propose ['R','7'] []

def atAll : List Char := "@ALL".toList

/- What is not assembled: a proposal without channels, the over of a group, an over
that is evicted from slot to slot or whose offset is never matched, a grid cut
inside a character, and the proposal above. -/
theorem oversMissed : Representable kn4crd ∧ Representable atAll ∧ Representable dc0sk ∧
    (∀ msg ∈ [emptyProposal,shortProposal,longProposal],
      validToken msg.token = some msg.token ∧ byteLen msg.encode ≤ maxTextLen) ∧
    ¬ Assembled wholeHertz 1500 3 8 0 kn4crd jn58 dc0sk emptyProposal ∧
    ¬ Assembled wholeHertz 1500 3 8 0 atAll jn58 dc0sk shortProposal ∧
    ¬ Assembled wholeHertz 1500 3 0 0 kn4crd jn58 dc0sk shortProposal ∧
    ¬ Assembled wholeHertz 1500 (-1) 8 0 kn4crd jn58 dc0sk shortProposal ∧
    ¬ Assembled wholeHertz 1500 3 8 0 kn4crd ['a','Ä','Ä','Ä'] dc0sk shortProposal ∧
    ¬ Assembled wholeHertz 1500 3 8 0 kn4crd jn58 dc0sk longProposal := by
  have one : Representable kn4crd := by decide
  have all : Representable atAll := by decide
  have us : Representable dc0sk := by decide
  have messages : ∀ msg ∈ [emptyProposal,shortProposal,longProposal],
      validToken msg.token = some msg.token ∧ byteLen msg.encode ≤ maxTextLen := by decide
  have exact' := fun (sender grid : List Char) (tol : Int) (max : Nat) (from' : Representable sender) msg member =>
    @assembledIff Int sender grid dc0sk msg wholeHertz 1500 tol max 0 from' us (messages msg member).1 (messages msg member).2
  refine ⟨one,all,us,messages,?_,?_,?_,?_,?_,?_⟩
  · rw [exact' kn4crd jn58 3 8 one emptyProposal (by simp)]
    exact fun conditions => conditions.2.2.2.2.1 rfl
  · rw [exact' atAll jn58 3 8 all shortProposal (by simp)]
    exact fun conditions => conditions.2.1 (by decide)
  · rw [exact' kn4crd jn58 3 0 one shortProposal (by simp)]
    exact fun conditions => absurd conditions.2.2.2.1 (by decide)
  · rw [exact' kn4crd jn58 (-1) 8 one shortProposal (by simp)]
    exact fun conditions => absurd conditions.2.2.1 (by decide)
  · rw [exact' kn4crd _ 3 8 one shortProposal (by simp)]
    exact fun conditions => absurd conditions.1 (by decide)
  · rw [exact' kn4crd jn58 3 8 one longProposal (by simp)]
    exact fun conditions => absurd conditions.2.2.2.2.2 (by decide)

end OpenPulse.Rendezvous
