import OpenPulse.B2fProposals

/-! A whole exchange, data included. The receiver counts blobs by all the proposals it
kept, rejected ones included, so the two sides agree only when it kept no rejected one. -/
namespace OpenPulse.B2f
open ByteCodec Bodies B2fSession

def receiveAll (gz : Gzip) (s : B2fSession) : List Bytes → B2fSession × List (Except B2fError Bytes)
  | [] => (s,[])
  | data::blobs =>
    ((receiveAll gz (s.receiveData gz data).1 blobs).1,(s.receiveData gz data).2 :: (receiveAll gz (s.receiveData gz data).1 blobs).2)

def Gzip.RoundTrips (gz : Gzip) : Prop :=
  ∀ data, ∃ packed, gz.compress data = .ok packed ∧ ∀ n, gz.readToEnd n packed = .ok (data.take n)

structure Corresponds (gz : Gzip) (iss irs : B2fSession) (batch : List Item) (lines : List String) : Prop where
  answered : (feed irs lines).2 = List.replicate batch.length (.ok []) ++ [.ok [encode (.fs (answers batch))]]
  retained : ∀ n, (feed irs (lines.take n)).1.proposals.length ≤ maxProposals
  sent : (iss.handleLine (encode (.fs (answers batch)))).2 = .ok [] ∧ staged iss batch = (accepted batch).map (Item.blob gz)
  received : (receiveAll gz (feed irs lines).1 (staged iss batch)).2 = ((accepted batch).map Item.text).map .ok
  finished : ∀ n ≤ (accepted batch).length,
    (receiveAll gz (feed irs lines).1 ((staged iss batch).take n)).1.state = .done ↔ n = (accepted batch).length

/- Something is proposed, every line is read, all that is kept can be accepted, and the
messages stay within the limits of the session. -/
structure Receivable (gz : Gzip) (batch : List Item) : Prop where
  proposed : batch ≠ []
  read : ∀ i ∈ batch, ∃ f, decode (i.line gz) = .ok f
  kinds : ∀ i ∈ batch.take maxProposals, i.kind = .d
  each : ∀ i ∈ batch.take maxProposals, i.text.length ≤ maxUncompressed
  total : ((batch.take maxProposals).map Item.text).flatten.length ≤ maxSessionDecompressed

theorem decompressed {gz : Gzip} (faithful : gz.RoundTrips) {i : Item} (kind : i.kind = .d) {out : Bytes} :
    decompressGzip gz (i.blob gz) = .ok out ↔ out = i.text ∧ i.text.length ≤ maxUncompressed := by
  cases i with
  | lzhuf mid date packed => cases kind
  | message header body =>
    obtain ⟨packed,compressed,reads⟩ := faithful (header.encode ++ body)
    simp only [Item.blob, compressed, decompressGzip, thenOk, mapErrorOk, reads, unlessOk, Item.text]
    generalize header.encode ++ body = text
    generalize maxUncompressed = limit
    constructor
    · rintro ⟨whole,same,fits,last⟩
      cases same
      cases last
      rw [List.length_take] at fits
      exact ⟨List.take_of_length_le (by omega),by omega⟩
    · rintro ⟨rfl,fits⟩
      exact ⟨out,by rw [List.take_of_length_le (by omega)],by omega,rfl⟩

def advanced (s : B2fSession) : SessionState := if s.proposals.length ≤ s.receiveIdx + 1 then .done else .transfer

/- A call succeeds on the next proposal kept, whether or not the data was meant for it. -/
structure Received (gz : Gzip) (s : B2fSession) (data : Bytes) (s' : B2fSession) (out : Bytes) : Prop where
  state : s.state = .transfer
  next : ∃ p mid size date, s.proposals[s.receiveIdx]? = some p ∧ p.fc = .fc .d mid size date
  unpacked : decompressGzip gz data = .ok out
  room : s.decompressedTotal + out.length ≤ maxSessionDecompressed
  after : s' = { s with
    receiveIdx := s.receiveIdx + 1
    state := advanced s
    decompressedTotal := s.decompressedTotal + out.length }

theorem receivedIff {gz : Gzip} {s s' : B2fSession} {data out : Bytes} :
    s.receiveData gz data = (s',.ok out) ↔ Received gz s data s' out := by
  constructor
  · intro ok
    unfold receiveData at ok
    split at ok
    · cases ok
    rename_i state
    split at ok
    · cases ok
    rename_i p next
    split at ok
    · rename_i t mid size date frame
      cases t with
      | c => cases ok
      | d =>
        cases unpacked : decompressGzip gz data with
        | error e => simp only [unpacked, Prod.mk.injEq, reduceCtorEq, and_false] at ok
        | ok whole =>
          simp only [unpacked] at ok
          by_cases too : maxSessionDecompressed < s.decompressedTotal + whole.length
          · simp only [if_pos too, Prod.mk.injEq, reduceCtorEq, and_false] at ok
          · simp only [if_neg too, Prod.mk.injEq, Except.ok.injEq] at ok
            obtain ⟨rfl,rfl⟩ := ok
            have waiting := not_not.mp state
            exact ⟨waiting,⟨p,mid,size,date,next,frame⟩,unpacked,Nat.not_lt.mp too,by rw [advanced, waiting]⟩
    · cases ok
  · rintro ⟨state,⟨p,mid,size,date,next,frame⟩,unpacked,room,rfl⟩
    simp only [receiveData, state, next, frame, unpacked, ne_eq, not_true_eq_false, if_false, advanced, if_neg (Nat.not_lt.mpr room)]

structure ReceivedAll (gz : Gzip) (s : B2fSession) (blobs : List Bytes) (s' : B2fSession) (outs : List Bytes) : Prop where
  unpacked : List.Forall₂ (fun data out => decompressGzip gz data = .ok out) blobs outs
  room : blobs ≠ [] → s.decompressedTotal + outs.flatten.length ≤ maxSessionDecompressed
  proposals : s'.proposals = s.proposals
  state : blobs ≠ [] → (s'.state = .done ↔ s.proposals.length ≤ s.receiveIdx + blobs.length)

theorem Received.receivedAll {gz : Gzip} {s s' s'' : B2fSession} {data out : Bytes} {blobs outs : List Bytes}
    (first : Received gz s data s' out) (rest : ReceivedAll gz s' blobs s'' outs) (stays : blobs = [] → s'' = s') :
    ReceivedAll gz s (data::blobs) s'' (out::outs) := by
  obtain ⟨_,_,unpacked,room,rfl⟩ := first
  refine ⟨.cons unpacked rest.unpacked,fun _ => ?_,rest.proposals,fun _ => ?_⟩
  · rw [List.flatten_cons, List.length_append, ← Nat.add_assoc]
    cases blobs with
    | nil =>
      cases rest.unpacked
      exact room
    | cons data' blobs => exact rest.room (List.cons_ne_nil _ _)
  · cases blobs with
    | nil =>
      rw [stays rfl]
      simp [advanced]
    | cons data' blobs =>
      rw [rest.state (List.cons_ne_nil _ _)]
      simp only [List.length_cons]
      omega

theorem receivedOkAll {gz : Gzip} {s : B2fSession} {blobs outs : List Bytes} (ok : (receiveAll gz s blobs).2 = outs.map .ok) :
    ReceivedAll gz s blobs (receiveAll gz s blobs).1 outs := by
  induction blobs generalizing s outs with
  | nil =>
    cases outs with
    | nil => exact ⟨.nil,fun more => absurd rfl more,rfl,fun more => absurd rfl more⟩
    | cons out outs => cases ok
  | cons data blobs ih =>
    cases outs with
    | nil => cases ok
    | cons out outs =>
      rw [receiveAll, List.map_cons, List.cons.injEq] at ok
      have first : Received gz s data (s.receiveData gz data).1 out := receivedIff.mp (Prod.ext rfl ok.1)
      refine first.receivedAll (ih ok.2) ?_
      rintro rfl
      rfl

theorem receiveAllTake (gz : Gzip) (s : B2fSession) (blobs : List Bytes) (n : Nat) :
    (receiveAll gz s (blobs.take n)).2 = (receiveAll gz s blobs).2.take n := by
  induction blobs generalizing s n with
  | nil => simp [receiveAll]
  | cons data blobs ih =>
    cases n with
    | zero => rfl
    | succ n => rw [List.take_succ_cons, receiveAll, receiveAll, List.take_succ_cons, ih]

theorem receivesAll {gz : Gzip} (faithful : gz.RoundTrips) {items : List Item} {s : B2fSession}
    (state : items ≠ [] → s.state = .transfer) (heard : List.Forall₂ Heard items (s.proposals.drop s.receiveIdx))
    (kinds : ∀ i ∈ items, i.kind = .d) (fits : ∀ i ∈ items, i.text.length ≤ maxUncompressed)
    (room : s.decompressedTotal + (items.map Item.text).flatten.length ≤ maxSessionDecompressed) :
    (receiveAll gz s (items.map (Item.blob gz))).2 = (items.map Item.text).map .ok := by
  induction items generalizing s with
  | nil => rfl
  | cons i items ih =>
    rw [List.map_cons, List.flatten_cons, List.length_append] at room
    cases left : s.proposals.drop s.receiveIdx with
    | nil =>
      rw [left] at heard
      cases heard
    | cons p ps =>
      rw [left] at heard
      obtain ⟨⟨mid,size,date,here⟩,later⟩ := List.forall₂_cons.mp heard
      have kind := kinds i List.mem_cons_self
      have next : s.proposals[s.receiveIdx]? = some p := by
        rw [← List.head?_drop, left]
        rfl
      have rest : s.proposals.drop (s.receiveIdx + 1) = ps := by
        rw [← List.tail_drop, left]
        rfl
      have length : s.proposals.length = s.receiveIdx + 1 + items.length := by
        have total := congrArg List.length left
        rw [List.length_drop, List.length_cons, ← later.length_eq] at total
        omega
      have one := receivedIff.mpr ⟨state (List.cons_ne_nil _ _),⟨p,mid,size,date,next,by rw [here, kind]⟩,
        (decompressed faithful kind).mpr ⟨rfl,fits i List.mem_cons_self⟩,by omega,rfl⟩
      rw [List.map_cons, List.map_cons, List.map_cons, receiveAll, one]
      refine congrArg (List.cons _) (ih ?_ (rest ▸ later) (fun j member => kinds j (List.mem_cons_of_mem _ member))
        (fun j member => fits j (List.mem_cons_of_mem _ member)) (by simp only; omega))
      intro more
      have positive := List.length_pos_iff.mpr more
      exact if_neg (by omega)

theorem acceptedAll {batch : List Item} (kinds : ∀ i ∈ batch.take maxProposals, i.kind = .d) :
    accepted batch = batch.take maxProposals := by
  rw [accepted, List.filter_eq_self]
  intro i member
  exact decide_eq_true (kinds i member)

theorem doneAccepts {gz : Gzip} {batch : List Item} {s : B2fSession} (waiting : Waiting batch s)
    (received : (receiveAll gz s ((accepted batch).map (Item.blob gz))).2 = ((accepted batch).map Item.text).map .ok)
    (done : (receiveAll gz s ((accepted batch).map (Item.blob gz))).1.state = .done) :
    batch ≠ [] ∧ ∀ i ∈ batch.take maxProposals, i.kind = .d := by
  have any : accepted batch ≠ [] := by
    intro none
    rw [none] at done
    cases waiting.state.symm.trans done
  have whole := ((receivedOkAll received).state (by simpa using any)).mp done
  rw [waiting.start.1, Nat.zero_add, List.length_map, ← waiting.proposals.length_eq, accepted] at whole
  refine ⟨?_,fun i member => ?_⟩
  · rintro rfl
    exact any rfl
  · have full := List.length_filter_eq_length_iff.mp (Nat.le_antisymm (List.length_filter_le _ _) whole)
    exact of_decide_eq_true (full i member)

theorem correspondsReceivable {gz : Gzip} (faithful : gz.RoundTrips) {batch : List Item} {iss irs : B2fSession} (fresh : Fresh irs)
    (early : irs.framesSeen + batch.length + 1 ≤ maxSessionFrames)
    (same : Corresponds gz iss irs batch (batch.map (Item.line gz) ++ [encode .ff])) : Receivable gz batch := by
  have listening : Listening irs := by
    obtain ⟨seen,state,opened,rfl⟩ := fresh
    exact ⟨rfl,opened⟩
  have read := answeredRead listening (Nat.le_of_succ_le early) same.answered
  have waiting := (listened fresh early read).2
  have received := same.received
  have done := (same.finished (accepted batch).length (Nat.le_refl _)).mpr rfl
  rw [same.sent.2] at received done
  rw [List.take_of_length_le (by rw [List.length_map])] at done
  obtain ⟨proposed,kinds⟩ := doneAccepts waiting received done
  have all := receivedOkAll received
  rw [acceptedAll kinds] at all
  have unpacked : ∀ i ∈ batch.take maxProposals, decompressGzip gz (i.blob gz) = .ok i.text := by
    simpa only [List.forall₂_map_left_iff, List.forall₂_map_right_iff, List.forall₂_same] using all.unpacked
  refine ⟨proposed,read,kinds,fun i member => ((decompressed faithful (kinds i member)).mp (unpacked i member)).2,?_⟩
  have room := all.room (by simpa [maxProposals] using proposed)
  rw [waiting.start.2, Nat.zero_add] at room
  exact room

theorem receivableCorresponds {gz : Gzip} (faithful : gz.RoundTrips) {batch : List Item} {iss irs : B2fSession} (fresh : Fresh irs)
    (early : irs.framesSeen + batch.length + 1 ≤ maxSessionFrames)
    (sent : (iss.handleLine (encode (.fs (answers batch)))).2 = .ok [] ∧ staged iss batch = (accepted batch).map (Item.blob gz))
    (fits : Receivable gz batch) : Corresponds gz iss irs batch (batch.map (Item.line gz) ++ [encode .ff]) := by
  obtain ⟨answered,waiting⟩ := listened fresh early fits.read
  have all := acceptedAll fits.kinds
  have any : accepted batch ≠ [] := by
    rw [all]
    simpa [maxProposals] using fits.proposed
  have received : (receiveAll gz (feed irs (batch.map (Item.line gz) ++ [encode .ff])).1
      ((accepted batch).map (Item.blob gz))).2 = ((accepted batch).map Item.text).map .ok := by
    rw [all]
    refine receivesAll faithful (fun _ => waiting.state) ?_ fits.kinds fits.each ?_
    · rw [waiting.start.1, List.drop_zero]
      exact waiting.proposals
    · rw [waiting.start.2, Nat.zero_add]
      exact fits.total
  refine ⟨answered,fun n => ?_,sent,by rw [sent.2, received],fun n bound => ?_⟩
  · obtain ⟨seen,state,_,rfl⟩ := fresh
    exact keptRun rfl (Nat.zero_le _) _
  · rw [sent.2]
    cases n with
    | zero =>
      have positive := List.length_pos_iff.mpr any
      change (feed irs (batch.map (Item.line gz) ++ [encode .ff])).1.state = .done ↔ _
      rw [waiting.state]
      exact ⟨nofun,fun empty => by omega⟩
    | succ n =>
      have part := (receiveAllTake gz _ _ (n + 1)).trans ((congrArg (List.take (n + 1)) received).trans List.map_take.symm)
      have more : ((accepted batch).map (Item.blob gz)).take (n + 1) ≠ [] := by simpa using any
      rw [(receivedOkAll part).state more, waiting.start.1, ← waiting.proposals.length_eq, ← all, List.length_take, List.length_map]
      omega

theorem receiveCorrespondsIff {gz : Gzip} (faithful : gz.RoundTrips) {batch : List Item} {iss iss' irs : B2fSession}
    {banner : String} {lines : List String} (ready : queue gz batch = .ok iss) (proposing : iss.handleLine banner = (iss',.ok lines))
    (fresh : Fresh irs) (early : irs.framesSeen + batch.length + 1 ≤ maxSessionFrames) :
    Corresponds gz iss' irs batch lines ↔ Receivable gz batch := by
  cases queued ready
  obtain ⟨rfl,rfl⟩ := greeted rfl rfl proposing
  have lined : ([] ++ batch.map (Item.proposal gz)).map (fun p : Proposal => encode p.fc) = batch.map (Item.line gz) := by
    rw [List.nil_append, List.map_map]
    rfl
  rw [lined]
  have sent := @answeredSender gz batch
    { role := .iss, framesSeen := 1, state := .proposalExchange, proposals := [] ++ batch.map (Item.proposal gz) }
    rfl rfl (by decide : 1 < maxSessionFrames) rfl rfl
  exact ⟨correspondsReceivable faithful fresh early,receivableCorresponds faithful fresh early sent⟩

def storing : Gzip where
  compress := .ok
  readToEnd := fun n data => .ok (data.take n)

theorem storingRoundTrips : storing.RoundTrips := fun data => ⟨data,rfl,fun _ => rfl⟩

theorem storingQueues (batch : List Item) (s : B2fSession) : batch.foldlM (enqueue storing) s =
    .ok { s with proposals := s.proposals ++ batch.map (Item.proposal storing) } := by
  induction batch generalizing s with
  | nil =>
    rw [List.map_nil, List.append_nil]
    rfl
  | cons i batch ih =>
    have here : enqueue storing s i = .ok { s with proposals := s.proposals ++ [i.proposal storing] } := by
      cases i <;> rfl
    rw [List.foldlM_cons, here]
    change batch.foldlM (enqueue storing) _ = _
    rw [ih]
    simp

def wl2k : String := "[WL2K-3.0-B2FWINMOR-4.0-DEADBEEF]"

theorem wl2kGreets {s : B2fSession} (role : s.role = .iss) (start : s.state = .handshake) (early : s.framesSeen < maxSessionFrames) :
    s.handleLine wl2k = ({ s with framesSeen := s.framesSeen + 1, state := .proposalExchange },
      .ok (s.proposals.map (fun p => encode p.fc) ++ [encode .ff])) := by
  have brackets : bracketed (trimEnd isLineEnd wl2k.toList) = true := by decide
  have read : Banner.decode wl2k = .ok ⟨"3.0-B2FWINMOR-4.0","DEADBEEF"⟩ := by decide
  simp only [handleLine, handleHandshake, if_neg (Nat.not_lt.mpr early), start, role, brackets, read, Bool.true_eq_false, if_false]

def hello : Item := .message ⟨"TESTMSG00001","2026-05-08 12:00","DC0SK",["W1AW"],"Hello",5,5,[]⟩ [72,101,108,108,111]

def older : Item := .lzhuf "OLDMSG000001" "2026-05-08 12:00" [1,2,3]

def offering (batch : List Item) : B2fSession := { role := .iss, proposals := batch.map (Item.proposal storing) }

def offered (batch : List Item) : B2fSession := { offering batch with framesSeen := 1, state := .proposalExchange }

def listener : B2fSession := { role := .irs }

theorem listenerFresh : Fresh listener := ⟨0,.handshake,.inl rfl,rfl⟩

theorem offers (batch : List Item) : queue storing batch = .ok (offering batch) ∧
    (offering batch).handleLine wl2k = (offered batch,.ok (batch.map (Item.line storing) ++ [encode .ff])) := by
  refine ⟨storingQueues batch _,?_⟩
  rw [wl2kGreets rfl rfl (by decide : 0 < maxSessionFrames), offering, List.map_map]
  rfl

theorem messagesArrive : Corresponds storing (offered [hello,hello]) listener [hello,hello]
    ([hello,hello].map (Item.line storing) ++ [encode .ff]) := by
  have size : hello.text.length ≤ 1000 := by decide +kernel
  have two : [hello,hello].take maxProposals = [hello,hello] := rfl
  have same : ∀ i ∈ [hello,hello], i = hello := by simp
  refine (receiveCorrespondsIff storingRoundTrips (offers _).1 (offers _).2 listenerFresh (by decide)).mpr
    ⟨List.cons_ne_nil _ _,fun i member => ?_,fun i member => ?_,fun i member => ?_,?_⟩
  · rw [same i member]
    exact ⟨_,decodeWord _ (by decide) _ _⟩
  · rw [same i (two ▸ member)]
    rfl
  · rw [same i (two ▸ member)]
    exact Nat.le_trans size (by decide)
  · have limit : 2000 ≤ maxSessionDecompressed := by decide
    rw [two, List.map_cons, List.map_singleton, List.flatten_cons, List.flatten_singleton, List.length_append]
    omega

theorem rejectedFirst {gz : Gzip} {i : Item} {batch : List Item} {s : B2fSession} (waiting : Waiting (i::batch) s) (kind : i.kind = .c)
    (data : Bytes) : (s.receiveData gz data).2 = .error (.compression "proposal type C (LZHUF) is not supported") := by
  have heard := waiting.proposals
  rw [maxProposals, List.take_succ_cons, List.forall₂_cons_left_iff] at heard
  obtain ⟨p,ps,⟨mid,size,date,rfl⟩,_,whole⟩ := heard
  simp only [receiveData, waiting.state, waiting.start, whole, kind, ne_eq, not_true_eq_false, if_false, List.getElem?_cons_zero]

theorem lzhufTakesTheData :
    staged (offered [older,hello]) [older,hello] = [hello.text] ∧
    (receiveAll storing (feed listener ([older,hello].map (Item.line storing) ++ [encode .ff])).1 [hello.text]).2 =
      [.error (.compression "proposal type C (LZHUF) is not supported")] ∧
    ¬ Corresponds storing (offered [older,hello]) listener [older,hello] ([older,hello].map (Item.line storing) ++ [encode .ff]) := by
  have read : ∀ i ∈ [older,hello], ∃ f, decode (i.line storing) = .ok f := by
    intro i member
    rcases List.mem_cons.mp member with rfl | later
    · exact ⟨_,decodeWord _ (by decide) _ _⟩
    · rw [List.mem_singleton.mp later]
      exact ⟨_,decodeWord _ (by decide) _ _⟩
  have sent := @answeredSender storing [older,hello] (offered [older,hello]) rfl rfl (by decide : 1 < maxSessionFrames) rfl rfl
  have waiting := (@listened storing [older,hello] _ listenerFresh (by decide) read).2
  refine ⟨sent.2,congrArg (fun result => [result]) (rejectedFirst waiting rfl _),fun same => ?_⟩
  have kind := (correspondsReceivable storingRoundTrips listenerFresh (by decide) same).kinds older List.mem_cons_self
  cases kind

end OpenPulse.B2f
