import Mathlib.Data.List.Forall2
import OpenPulse.Bodies
import OpenPulse.B2fFrames

/-! The lines of an exchange: the sending station proposes what it has queued, the
receiving one keeps the first proposals, answers every one, and waits for data. -/
namespace OpenPulse.B2f
open ByteCodec Bodies B2fSession

inductive Item where
  | message (header : WlHeader) (body : Bytes)
  | lzhuf (mid date : String) (packed : Bytes)

namespace Item

def kind : Item → ProposalType
  | message _ _ => .d
  | lzhuf _ _ _ => .c

def text : Item → Bytes
  | message header body => header.encode ++ body
  | lzhuf _ _ packed => packed

def mid : Item → String
  | message header _ => header.mid
  | lzhuf mid _ _ => mid

def date : Item → String
  | message header _ => header.date
  | lzhuf _ date _ => date

def blob (gz : Gzip) : Item → Bytes
  | message header body => match gz.compress (header.encode ++ body) with | .ok packed => packed | .error _ => []
  | lzhuf _ _ packed => packed

def proposal (gz : Gzip) (i : Item) : Proposal :=
  ⟨.fc i.kind i.mid (UInt32.ofNat (i.blob gz).length) i.date,i.blob gz,none⟩

def line (gz : Gzip) (i : Item) : String := encode (i.proposal gz).fc

end Item

def enqueue (gz : Gzip) (s : B2fSession) : Item → Except B2fError B2fSession
  | .message header body => s.queueMessage gz header body
  | .lzhuf mid date packed =>
    .ok { s with proposals := s.proposals ++ [⟨.fc .c mid (UInt32.ofNat packed.length) date,packed,none⟩] }

def queue (gz : Gzip) (batch : List Item) : Except B2fError B2fSession := batch.foldlM (enqueue gz) { role := .iss }

def feed (s : B2fSession) : List String → B2fSession × List (Except B2fError (List String))
  | [] => (s,[])
  | line::lines => ((feed (s.handleLine line).1 lines).1,(s.handleLine line).2 :: (feed (s.handleLine line).1 lines).2)

def answers (batch : List Item) : List FsAnswer :=
  (batch.take maxProposals).map (fun i => if i.kind = .d then .accept else .reject) ++
    List.replicate (batch.length - maxProposals) .reject

def accepted (batch : List Item) : List Item := (batch.take maxProposals).filter fun i => i.kind = .d

def staged (iss : B2fSession) (batch : List Item) : List Bytes :=
  ((iss.handleLine (encode (.fs (answers batch)))).1.drainPendingData).2

def Fresh (s : B2fSession) : Prop :=
  ∃ seen state, (state = .handshake ∨ state = .proposalExchange) ∧ s = { role := .irs, framesSeen := seen, state }

theorem queued {gz : Gzip} {batch : List Item} {s iss : B2fSession} (ok : batch.foldlM (enqueue gz) s = .ok iss) :
    iss = { s with proposals := s.proposals ++ batch.map (Item.proposal gz) } := by
  induction batch generalizing s with
  | nil =>
    cases ok
    simp
  | cons i batch ih =>
    rw [List.foldlM_cons] at ok
    obtain ⟨next,first,rest⟩ := thenOk.mp ok
    have here : next = { s with proposals := s.proposals ++ [i.proposal gz] } := by
      cases i with
      | lzhuf mid date packed =>
        cases first
        rfl
      | message header body =>
        simp only [enqueue, queueMessage, compressGzip, thenOk, mapErrorOk] at first
        obtain ⟨packed,compressed,last⟩ := first
        cases last
        simp only [Item.proposal, Item.blob, compressed]
        rfl
    rw [ih rest, here]
    simp

theorem greeted {iss iss' : B2fSession} {banner : String} {lines : List String} (role : iss.role = .iss)
    (start : iss.state = .handshake) (ok : iss.handleLine banner = (iss',.ok lines)) :
    lines = iss.proposals.map (fun p => encode p.fc) ++ [encode .ff] ∧
      iss' = { iss with framesSeen := iss.framesSeen + 1, state := .proposalExchange } := by
  simp only [handleLine, handleHandshake, role, start] at ok
  split at ok
  · cases ok
  split at ok
  · cases ok
  split at ok
  · cases ok
  · cases ok
    exact ⟨rfl,by rw [role]⟩

theorem answersLength (batch : List Item) : (answers batch).length = batch.length := by
  simp only [answers, List.length_append, List.length_map, List.length_take, List.length_replicate]
  omega

theorem stagedOf (gz : Gzip) (batch : List Item) : ((batch.map (Item.proposal gz)).zip (answers batch)).filterMap
    (fun (p,answer) => if answer = .accept then some p.compressedData else none) = (accepted batch).map (Item.blob gz) := by
  have cut : batch.map (Item.proposal gz) = (batch.take maxProposals).map (Item.proposal gz) ++
      (batch.drop maxProposals).map (Item.proposal gz) := by
    rw [← List.map_append, List.take_append_drop]
  have front : ∀ xs : List Item, ((xs.map (Item.proposal gz)).zip (xs.map fun i => if i.kind = .d then .accept else .reject)).filterMap
      (fun (p,answer) => if answer = FsAnswer.accept then some p.compressedData else none) =
        (xs.filter fun i => i.kind = .d).map (Item.blob gz) := by
    intro xs
    induction xs with
    | nil => rfl
    | cons i xs ih =>
      cases i with
      | message header body => simpa [Item.kind, Item.proposal] using ih
      | lzhuf mid date packed => simpa [Item.kind, Item.proposal] using ih
  have back : ∀ (ps : List Proposal) (n : Nat), (ps.zip (List.replicate n .reject)).filterMap
      (fun (p,answer) => if answer = FsAnswer.accept then some p.compressedData else none) = [] := by
    intro ps n
    rw [List.filterMap_eq_nil_iff]
    rintro ⟨p,answer⟩ member
    rw [List.eq_of_mem_replicate (List.of_mem_zip member).2]
    rfl
  rw [cut, answers, List.zip_append (by simp), List.filterMap_append, front, back, List.append_nil]
  rfl

theorem answeredSender {gz : Gzip} {batch : List Item} {iss : B2fSession} (role : iss.role = .iss)
    (exchanging : iss.state = .proposalExchange) (early : iss.framesSeen < maxSessionFrames) (none : iss.pendingData = [])
    (proposed : iss.proposals = batch.map (Item.proposal gz)) :
    (iss.handleLine (encode (.fs (answers batch)))).2 = .ok [] ∧ staged iss batch = (accepted batch).map (Item.blob gz) := by
  have plain : bracketed (trimEnd isLineEnd (encode (.fs (answers batch))).toList) = false := by
    rw [answerLine]
    exact notBracketed (by decide) _ rfl
  have count : (answers batch).length = (batch.map (Item.proposal gz)).length := by
    rw [answersLength, List.length_map]
  have handled : iss.handleLine (encode (.fs (answers batch))) =
      ({ iss with
          framesSeen := iss.framesSeen + 1
          proposals := ((batch.map (Item.proposal gz)).zip (answers batch)).map fun (p,answer) => { p with answer := some answer }
          pendingData := (accepted batch).map (Item.blob gz)
          state := if (accepted batch).map (Item.blob gz) = [] then .done else .transfer },.ok []) := by
    simp only [handleLine, if_neg (Nat.not_lt.mpr early), exchanging, handleProposal, plain, decodeAnswers, role, proposed, none,
      stagedOf, List.nil_append, count, Bool.false_eq_true, if_false, ne_eq, not_true_eq_false]
  rw [staged, handled]
  exact ⟨rfl,rfl⟩

def Heard (i : Item) (p : Proposal) : Prop :=
  ∃ mid size date, p = ⟨.fc i.kind mid size date,[],some (answerTo i.kind)⟩

def Listening (s : B2fSession) : Prop := s.role = .irs ∧ (s.state = .handshake ∨ s.state = .proposalExchange)

theorem listeningLine {s : B2fSession} (listening : Listening s) (early : s.framesSeen < maxSessionFrames) {line : String}
    (plain : bracketed (trimEnd isLineEnd line.toList) = false) :
    s.handleLine line = handleProposal { s with framesSeen := s.framesSeen + 1, state := .proposalExchange } line := by
  obtain ⟨role,state⟩ := listening
  rcases state with start | exchanging
  · simp [handleLine, Nat.not_lt.mpr early, start, handleHandshake, role, plain]
  · simp [handleLine, Nat.not_lt.mpr early, exchanging]

theorem proposalPlain (gz : Gzip) (i : Item) : bracketed (trimEnd isLineEnd (i.line gz).toList) = false := by
  rw [Item.line, Item.proposal, proposalLine]
  exact notBracketed (by decide) _ rfl

structure Noted (s : B2fSession) (i : Item) (s' : B2fSession) : Prop where
  listening : Listening s'
  frames : s'.framesSeen = s.framesSeen + 1
  kept : (∃ p, Heard i p ∧ s.proposals.length < maxProposals ∧ s'.proposals = s.proposals ++ [p] ∧
      s'.overflowRejected = s.overflowRejected) ∨
    (maxProposals ≤ s.proposals.length ∧ s'.proposals = s.proposals ∧ s'.overflowRejected = s.overflowRejected + 1)
  untouched : s'.receiveIdx = s.receiveIdx ∧ s'.decompressedTotal = s.decompressedTotal

theorem proposalHeard {s : B2fSession} (listening : Listening s) (early : s.framesSeen < maxSessionFrames) (gz : Gzip) (i : Item) :
    (∃ e, decode (i.line gz) = .error e ∧ (s.handleLine (i.line gz)).2 = .error e) ∨
      (∃ f, decode (i.line gz) = .ok f) ∧ (s.handleLine (i.line gz)).2 = .ok [] ∧ Noted s i (s.handleLine (i.line gz)).1 := by
  have plain := proposalPlain gz i
  rw [listeningLine listening early plain]
  rcases decodeProposal i.kind i.mid (UInt32.ofNat (i.blob gz).length) i.date with ⟨e,failed⟩ | ⟨mid,size,date,read⟩
  · refine .inl ⟨e,failed,?_⟩
    have failed' : decode (i.line gz) = .error e := failed
    simp [handleProposal, plain, failed']
  · have read' : decode (i.line gz) = .ok (.fc i.kind mid size date) := read
    refine .inr ⟨⟨_,read⟩,?_⟩
    simp only [handleProposal, plain, read', listening.1]
    by_cases room : s.proposals.length < maxProposals
    · simp only [room, if_true]
      exact ⟨rfl,⟨⟨rfl,.inr rfl⟩,rfl,.inl ⟨_,⟨mid,size,date,rfl⟩,room,rfl,rfl⟩,rfl,rfl⟩⟩
    · simp only [room, if_false]
      exact ⟨rfl,⟨⟨rfl,.inr rfl⟩,rfl,.inr ⟨Nat.not_lt.mp room,rfl,rfl⟩,rfl,rfl⟩⟩

structure Gathered (s : B2fSession) (batch : List Item) (s' : B2fSession) : Prop where
  listening : Listening s'
  frames : s'.framesSeen = s.framesSeen + batch.length
  kept : ∃ ps, List.Forall₂ Heard (batch.take (maxProposals - s.proposals.length)) ps ∧ s'.proposals = s.proposals ++ ps
  overflow : s'.overflowRejected = s.overflowRejected + (batch.length - (maxProposals - s.proposals.length))
  untouched : s'.receiveIdx = s.receiveIdx ∧ s'.decompressedTotal = s.decompressedTotal

theorem Noted.gathered {s s' s'' : B2fSession} {i : Item} {batch : List Item} (first : Noted s i s')
    (rest : Gathered s' batch s'') : Gathered s (i::batch) s'' where
  listening := rest.listening
  frames := by
    rw [rest.frames, first.frames, List.length_cons]
    omega
  kept := by
    obtain ⟨ps,heard,whole⟩ := rest.kept
    rcases first.kept with ⟨p,here,room,proposals,_⟩ | ⟨full,proposals,_⟩
    · have width : maxProposals - s.proposals.length = maxProposals - (s.proposals.length + 1) + 1 := by omega
      rw [proposals, List.length_append, List.length_singleton] at heard
      refine ⟨p::ps,?_,by rw [whole, proposals, List.append_assoc]; rfl⟩
      rw [width, List.take_succ_cons]
      exact .cons here heard
    · have width : maxProposals - s.proposals.length = 0 := by omega
      rw [proposals, width, List.take_zero] at heard
      rw [width, List.take_zero]
      exact ⟨ps,heard,by rw [whole, proposals]⟩
  overflow := by
    have later := rest.overflow
    rcases first.kept with ⟨p,_,room,proposals,same⟩ | ⟨full,proposals,more⟩
    · rw [proposals, same, List.length_append, List.length_singleton] at later
      rw [later, List.length_cons]
      omega
    · rw [proposals, more] at later
      rw [later, List.length_cons]
      omega
  untouched := ⟨rest.untouched.1.trans first.untouched.1,rest.untouched.2.trans first.untouched.2⟩

theorem feedAppend (s : B2fSession) (a b : List String) :
    feed s (a ++ b) = ((feed (feed s a).1 b).1,(feed s a).2 ++ (feed (feed s a).1 b).2) := by
  induction a generalizing s with
  | nil => rfl
  | cons line a ih => simp only [List.cons_append, feed, ih]

theorem batchHeard {gz : Gzip} {batch : List Item} {s : B2fSession} (listening : Listening s)
    (early : s.framesSeen + batch.length ≤ maxSessionFrames) (read : ∀ i ∈ batch, ∃ f, decode (i.line gz) = .ok f) :
    (feed s (batch.map (Item.line gz))).2 = List.replicate batch.length (.ok []) ∧
      Gathered s batch (feed s (batch.map (Item.line gz))).1 := by
  induction batch generalizing s with
  | nil => exact ⟨rfl,listening,rfl,⟨[],by simp,by simp [feed]⟩,by simp [feed],rfl,rfl⟩
  | cons i batch ih =>
    rw [List.length_cons] at early
    rcases proposalHeard listening (by omega) gz i with ⟨e,failed,_⟩ | ⟨_,went,noted⟩
    · obtain ⟨f,fine⟩ := read i List.mem_cons_self
      rw [failed] at fine
      cases fine
    · have later := ih noted.listening (by rw [noted.frames]; omega) fun j member => read j (List.mem_cons_of_mem _ member)
      refine ⟨?_,noted.gathered later.2⟩
      rw [List.map_cons, feed, List.length_cons, List.replicate_succ, went, later.1]

theorem answeredRead {gz : Gzip} {batch : List Item} {s : B2fSession} {rest : List String}
    {out : List (Except B2fError (List String))} (listening : Listening s)
    (early : s.framesSeen + batch.length ≤ maxSessionFrames)
    (fine : (feed s (batch.map (Item.line gz) ++ rest)).2 = List.replicate batch.length (.ok []) ++ out) :
    ∀ i ∈ batch, ∃ f, decode (i.line gz) = .ok f := by
  induction batch generalizing s with
  | nil => exact nofun
  | cons i batch ih =>
    rw [List.length_cons] at early
    rw [List.map_cons, List.cons_append, feed, List.length_cons, List.replicate_succ, List.cons_append, List.cons.injEq] at fine
    rcases proposalHeard listening (by omega) gz i with ⟨e,_,refused⟩ | ⟨read,_,noted⟩
    · rw [refused] at fine
      cases fine.1
    · intro j member
      rcases List.mem_cons.mp member with rfl | later
      · exact read
      · exact ih noted.listening (by rw [noted.frames]; omega) fine.2 j later

structure Waiting (batch : List Item) (s : B2fSession) : Prop where
  state : s.state = .transfer
  proposals : List.Forall₂ Heard (batch.take maxProposals) s.proposals
  start : s.receiveIdx = 0 ∧ s.decompressedTotal = 0

theorem heardAnswers {items : List Item} {ps : List Proposal} (heard : List.Forall₂ Heard items ps) :
    ps.map (fun p => p.answer.getD .reject) = items.map fun i => if i.kind = .d then .accept else .reject := by
  induction heard with
  | nil => rfl
  | @cons i p items ps here rest ih =>
    obtain ⟨_,_,_,rfl⟩ := here
    rw [List.map_cons, List.map_cons, ih]
    cases i <;> rfl

theorem listened {gz : Gzip} {batch : List Item} {irs : B2fSession} (fresh : Fresh irs)
    (early : irs.framesSeen + batch.length + 1 ≤ maxSessionFrames) (read : ∀ i ∈ batch, ∃ f, decode (i.line gz) = .ok f) :
    (feed irs (batch.map (Item.line gz) ++ [encode .ff])).2 =
        List.replicate batch.length (.ok []) ++ [.ok [encode (.fs (answers batch))]] ∧
      Waiting batch (feed irs (batch.map (Item.line gz) ++ [encode .ff])).1 := by
  obtain ⟨seen,state,opened,rfl⟩ := fresh
  have heard := @batchHeard gz batch { role := .irs, framesSeen := seen, state } ⟨rfl,opened⟩ (Nat.le_of_succ_le early) read
  rw [feedAppend]
  revert heard
  generalize feed _ (batch.map (Item.line gz)) = gathered
  rintro ⟨outs,listening,frames,⟨ps,kept,proposals⟩,overflow,idx,total⟩
  have ends : decode (encode .ff) = .ok .ff := by decide
  have plain : bracketed (trimEnd isLineEnd (encode .ff).toList) = false := by decide
  have handled := listeningLine listening (by rw [frames]; omega) plain
  simp only [List.nil_append] at proposals
  have answer : gathered.1.proposals.map (fun p => p.answer.getD .reject) ++
      List.replicate gathered.1.overflowRejected .reject = answers batch := by
    rw [proposals, heardAnswers kept, overflow, answers]
    simp
  simp only [handleProposal, plain, ends, listening.1, answer, Bool.false_eq_true, if_false] at handled
  simp only [feed, handled, outs]
  exact ⟨trivial,rfl,by rw [proposals]; exact kept,idx,total⟩

theorem acceptedCounts {batch : List Item} {s : B2fSession} (waiting : Waiting batch s) :
    s.acceptedCount = (accepted batch).length := by
  rw [acceptedCount, accepted, ← List.countP_eq_length_filter]
  have heard := waiting.proposals
  generalize batch.take maxProposals = kept, s.proposals = ps at heard
  induction heard with
  | nil => rfl
  | @cons i p items ps here rest ih =>
    obtain ⟨_,_,_,rfl⟩ := here
    rw [List.countP_cons, List.countP_cons, ih]
    cases i <;> rfl

theorem keptProposal {s : B2fSession} (role : s.role = .irs) (few : s.proposals.length ≤ maxProposals) (line : String) :
    (handleProposal s line).1.role = .irs ∧ (handleProposal s line).1.proposals.length ≤ maxProposals := by
  unfold handleProposal
  split
  · exact ⟨role,few⟩
  cases decode line with
  | error e => exact ⟨role,few⟩
  | ok f =>
    cases f with
    | fc t mid size date =>
      simp only [role]
      split
      · rename_i room
        exact ⟨rfl,by rw [List.length_append]; exact room⟩
      · exact ⟨rfl,few⟩
    | fs answers => simp only [role, few, and_self]
    | ff => simp only [role, few, and_self]
    | fq => simp only [role, few, and_self]

theorem keptLine {s : B2fSession} (role : s.role = .irs) (few : s.proposals.length ≤ maxProposals) (line : String) :
    (s.handleLine line).1.role = .irs ∧ (s.handleLine line).1.proposals.length ≤ maxProposals := by
  unfold handleLine
  simp only
  split
  · exact ⟨role,few⟩
  split
  · simp only [handleHandshake, role]
    split
    · split
      · exact ⟨rfl,few⟩
      · exact ⟨rfl,few⟩
    · refine keptProposal ?_ ?_ line
      · rfl
      · exact few
  · refine keptProposal ?_ ?_ line
    · exact role
    · exact few
  · exact ⟨role,few⟩
  · exact ⟨role,few⟩

theorem keptRun {s : B2fSession} (role : s.role = .irs) (few : s.proposals.length ≤ maxProposals) (lines : List String) :
    (feed s lines).1.proposals.length ≤ maxProposals := by
  induction lines generalizing s with
  | nil => exact few
  | cons line lines ih =>
    have next := keptLine role few line
    exact ih next.1 next.2

end OpenPulse.B2f
