import OpenPulse.PkiLedger

/-! Requests sent again to the identity service. An answer that is recorded stays as it is for ever and is given
again for a day; and a request id has one effect at most, as long as the requests that carry it come one after the
other and nothing fails between the effect and its record. -/
namespace OpenPulse.PkiReplay
open Tables JsonValues Runs PkiService PkiLedger

variable {app : App} {db next : Db} {w : World}

/-- The answer kept for a request id is one that a request with this id was given. -/
def Answered (s : Service) (id : String) (row : Tracked) : Prop :=
  ∃ conn p, s.requests.lookup conn = some p ∧ p.request.trackedAs = some (id,row.endpoint,row.method) ∧
    p.phase = .answered ⟨row.responseStatus,row.responseBodyJson⟩

theorem finishRows (app : App) (w : World) (db : Db) (r : HttpRequest) (response : Response) (id : String) :
    (finish app w db r response).requestTracking.lookup id = db.requestTracking.lookup id ∨
      db.requestTracking.lookup id = none ∧ ∃ endpoint method, r.trackedAs = some (id,endpoint,method) ∧
        (finish app w db r response).requestTracking.lookup id =
          some ⟨endpoint,method,response.status,payloadSha256 app response.body,response.body,w.now + 86400⟩ := by
  unfold finish
  split
  · exact .inl rfl
  next own endpoint method tracked =>
    split
    · exact .inl rfl
    unfold trackRequest
    split
    · exact .inl rfl
    next free =>
      rw [lookupInsert]
      split
      · next same =>
        subst same
        exact .inr ⟨free,endpoint,method,tracked,rfl⟩
      · exact .inl rfl

theorem effectRows {r : HttpRequest} {e : AuditEvent} (effect : Effect app r db next e) : next.requestTracking = db.requestTracking := by
  cases effect <;> rfl

theorem advanceRows (app : App) (w : World) (db : Db) (p : Process) (id : String) :
    (PkiService.advance app w db p).1.requestTracking.lookup id = db.requestTracking.lookup id ∨
      db.requestTracking.lookup id = none ∧ ∃ endpoint method response, p.phase = .finishing response ∧
        p.request.trackedAs = some (id,endpoint,method) ∧
        (PkiService.advance app w db p).1.requestTracking.lookup id =
          some ⟨endpoint,method,response.status,payloadSha256 app response.body,response.body,w.now + 86400⟩ := by
  unfold PkiService.advance
  split
  · exact .inl rfl
  · rcases handleCases app w db p.request with same | ⟨⟨e,effect⟩,-⟩
    · exact .inl (by rw [same])
    · exact .inl (by rw [effectRows effect])
  · next response phase =>
    rcases finishRows app w db p.request response id with same | ⟨free,endpoint,method,tracked,there⟩
    · exact .inl same
    · exact .inr ⟨free,endpoint,method,response,phase,tracked,there⟩
  · exact .inl rfl
  · exact .inl rfl

theorem stepRow (s : Service) (event : Event) {id : String} {row : Tracked} (there : s.db.requestTracking.lookup id = some row) :
    (step app s event).db.requestTracking.lookup id = some row := by
  cases event with
  | arrive conn r =>
    unfold step
    dsimp only
    split <;> exact there
  | advance conn w =>
    unfold step
    dsimp only
    split
    · exact there
    · next p _ =>
      rcases advanceRows app w s.db p id with same | ⟨free,-⟩
      · exact same.trans there
      · rw [free] at there
        cases there

theorem runRow {s : Service} {id : String} {row : Tracked} (there : s.db.requestTracking.lookup id = some row) (events : List Event) :
    (run (step app) s events).db.requestTracking.lookup id = some row :=
  runInvariant (I := fun s : Service => s.db.requestTracking.lookup id = some row) (fun s event there => stepRow s event there) there events

theorem stepAnswered (s : Service) (event : Event) {conn : Nat} {p : Process} {response : Response} (found : s.requests.lookup conn = some p)
    (phase : p.phase = .answered response) : (step app s event).requests.lookup conn = some p := by
  cases event with
  | arrive other r =>
    unfold step
    dsimp only
    split
    · exact found
    · next absent =>
      rw [lookupInsert, if_neg fun same => by rw [same, absent] at found; cases found]
      exact found
  | advance other w =>
    unfold step
    dsimp only
    split
    · exact found
    · next q there =>
      rw [lookupInsert]
      split
      · next same =>
        rw [← same, found] at there
        cases there
        simp only [PkiService.advance, phase]
        rw [← phase]
      · exact found

/-- A step that records an answer: it finishes a request with this id and keeps the answer of the request for a day. -/
def Records (s : Service) (event : Event) (id : String) (row : Tracked) : Prop :=
  ∃ conn w p response, event = .advance conn w ∧ s.requests.lookup conn = some p ∧ p.phase = .finishing response ∧
    p.request.trackedAs = some (id,row.endpoint,row.method) ∧ row.responseStatus = response.status ∧
    row.responseBodyJson = response.body ∧ row.expiresAt = w.now + 86400

theorem stepRecords {s : Service} {event : Event} {id : String} {row : Tracked} (fresh : s.db.requestTracking.lookup id = none)
    (there : (step app s event).db.requestTracking.lookup id = some row) : Records s event id row := by
  cases event with
  | arrive conn r =>
    unfold step at there
    dsimp only at there
    split at there
    · rw [fresh] at there
      cases there
    · rw [fresh] at there
      cases there
  | advance conn w =>
    unfold step at there
    dsimp only at there
    split at there
    · rw [fresh] at there
      cases there
    next p found =>
      rcases advanceRows app w s.db p id with same | ⟨-,endpoint,method,response,phase,tracked,now⟩
      · rw [show _ = _ from same, fresh] at there
        cases there
      · rw [show _ = _ from now] at there
        cases there
        exact ⟨conn,w,p,response,rfl,found,phase,tracked,rfl,rfl,rfl⟩

theorem stepRecorded (s : Service) (event : Event) (recorded : ∀ id row, s.db.requestTracking.lookup id = some row → Answered s id row)
    (id : String) (row : Tracked) (there : (step app s event).db.requestTracking.lookup id = some row) : Answered (step app s event) id row := by
  cases before : s.db.requestTracking.lookup id with
  | some earlier =>
    rw [stepRow s event before] at there
    cases there
    obtain ⟨conn,p,found,tracked,phase⟩ := recorded id _ before
    exact ⟨conn,p,stepAnswered s event found phase,tracked,phase⟩
  | none =>
    obtain ⟨conn,w,p,response,rfl,found,phase,tracked,status,body,-⟩ := stepRecords before there
    refine ⟨conn,{ p with phase := (PkiService.advance app w s.db p).2 },?_,tracked,?_⟩
    · simp only [step, found, lookupInsert, if_true]
    · simp only [PkiService.advance, phase, status, body]

theorem rowRecorded {s : Service} {id : String} (fresh : s.db.requestTracking.lookup id = none) {events : List Event} {row : Tracked}
    (there : (run (step app) s events).db.requestTracking.lookup id = some row) :
    ∃ before event after, events = before ++ event::after ∧ (run (step app) s before).db.requestTracking.lookup id = none ∧
      Records (run (step app) s before) event id row := by
  induction events using List.reverseRecOn with
  | nil =>
    rw [show (run (step app) s []).db = s.db from rfl, fresh] at there
    cases there
  | append_singleton events event ih =>
    rw [runAppend] at there
    change (step app (run (step app) s events) event).db.requestTracking.lookup id = some row at there
    cases kept : (run (step app) s events).db.requestTracking.lookup id with
    | some earlier =>
      rw [stepRow (run (step app) s events) event kept] at there
      obtain ⟨before,first,after,split,rest⟩ := ih (kept.trans there)
      exact ⟨before,first,after ++ [event],by rw [split, List.append_assoc]; rfl,rest⟩
    | none => exact ⟨events,event,[],rfl,kept,stepRecords kept there⟩

theorem checkRecorded {r : HttpRequest} {id endpoint method : String} {row : Tracked} (known : requireApiKey app r = true)
    (tracked : r.trackedAs = some (id,endpoint,method)) (there : db.requestTracking.lookup id = some row)
    (readable : w.fails "failed to read request tracking" = false) :
    check app w db r = if w.now < row.expiresAt then
      .answered (if endpoint = row.endpoint ∧ method = row.method then ⟨row.responseStatus,row.responseBodyJson⟩ else conflict)
    else .checked := by
  unfold check
  rw [known, Bool.not_true, Bool.and_false, if_neg Bool.false_ne_true, tracked]
  simp only [readable, Bool.false_eq_true, if_false, checkRequestTracking, there]
  by_cases live : w.now < row.expiresAt
  · by_cases place : endpoint = row.endpoint ∧ method = row.method
    · simp [live, place]
    · have elsewhere : (decide (row.endpoint ≠ endpoint) || decide (row.method ≠ method)) = true := by
        rw [Bool.or_eq_true, decide_eq_true_iff, decide_eq_true_iff]
        by_cases first : endpoint = row.endpoint
        · exact .inr fun same => place ⟨first,same.symm⟩
        · exact .inl (Ne.symm first)
      simp only [live, if_true, elsewhere, if_neg place]
  · simp only [live, if_false]

/-- Once an answer is kept for a request id, every later request with this id is given the answer again for a day, or told that the
id belongs to another endpoint; it is an answer that an earlier request with this id was given. After the day the id protects
nothing any more, and never will: what is kept for it is never replaced. -/
theorem answeredAgain (app : App) (identityRecords : List String) (events later : List Event) {id : String} {row : Tracked}
    (recorded : (run (step app) (start identityRecords) events).db.requestTracking.lookup id = some row) :
    Answered (run (step app) (start identityRecords) events) id row ∧
      (∃ before event after, events = before ++ event::after ∧
        (run (step app) (start identityRecords) before).db.requestTracking.lookup id = none ∧
        Records (run (step app) (start identityRecords) before) event id row) ∧
      ∀ w r endpoint method, requireApiKey app r = true → r.trackedAs = some (id,endpoint,method) →
        w.fails "failed to read request tracking" = false →
        check app w (run (step app) (start identityRecords) (events ++ later)).db r = if w.now < row.expiresAt then
          .answered (if endpoint = row.endpoint ∧ method = row.method then ⟨row.responseStatus,row.responseBodyJson⟩ else conflict)
        else .checked := by
  refine ⟨?_,rowRecorded rfl recorded,?_⟩
  · exact runInvariant (I := fun s : Service => ∀ id row, s.db.requestTracking.lookup id = some row → Answered s id row) stepRecorded
      (fun _ _ there => by cases there) events id row recorded
  · intro w r endpoint method known tracked readable
    rw [runAppend]
    exact checkRecorded known tracked (runRow recorded later) readable

theorem answeredAgainBench : ∃ row, (run (step bench) (start []) benchEvents).db.requestTracking.lookup "r1" = some row ∧
    check bench (benchWorld 300 "other") (run (step bench) (start []) (benchEvents ++ [.arrive 3 benchPublish])).db benchPublish =
      if 300 < row.expiresAt then
        .answered (if "/api/v1/trust-bundles" = row.endpoint ∧ "POST" = row.method then ⟨row.responseStatus,row.responseBodyJson⟩ else conflict)
      else .checked := by
  obtain ⟨row,recorded⟩ := Option.isSome_iff_exists.mp
    (show ((run (step bench) (start []) benchEvents).db.requestTracking.lookup "r1").isSome = true by decide +kernel)
  exact ⟨row,recorded,(answeredAgain bench [] benchEvents [.arrive 3 benchPublish] recorded).2.2 (benchWorld 300 "other") benchPublish
    "/api/v1/trust-bundles" "POST" (by decide +kernel) (by decide +kernel) rfl⟩

def carries (id : String) (r : HttpRequest) : Bool := r.trackedAs.any fun place => place.1 == id

def ofId (id : String) (e : AuditEvent) : Bool :=
  e.requestId == some id && (e.eventType == "revocation_created" || e.eventType == "bundle_published" || e.eventType == "bundle_promoted")

def effects (id : String) (db : Db) : Nat := db.auditEvents.countP (ofId id)

def inHand : Phase → Bool
  | .checked => true
  | .finishing _ => true
  | _ => false

/-- A step that leaves no room for a second effect: a request with this id is checked when no other is in hand and before what is
kept for the id expires; the answer to its commit arrives, and the record of its answer is made. -/
def orderly (id : String) (s : Service) : Event → Bool
  | .arrive _ _ => true
  | .advance conn w =>
    match s.requests.lookup conn with
    | none => true
    | some p => !carries id p.request ||
      match p.phase with
      | .received => s.requests.entries.all (fun e => !(carries id e.2.request && inHand e.2.phase)) &&
          (s.db.requestTracking.lookup id).all (fun row => w.now < row.expiresAt)
      | .checked => w.commit != .lost && w.createdAt.isSome
      | .finishing _ => !w.fails "track_request"
      | _ => true

theorem effectOfId {r : HttpRequest} {e : AuditEvent} (id : String) (effect : Effect app r db next e) : ofId id e = carries id r := by
  cases effect with
  | created req sid eventId call => simp [ofId, carries, HttpRequest.trackedAs, call, Call.tracking, submissionCreated, audit]
  | moderated sid eventId auditId req state row call => simp [ofId, carries, HttpRequest.trackedAs, call, Call.tracking, submissionModerated, audit]
  | audited req transitions eventId call => simp [ofId, carries, HttpRequest.trackedAs, call, Call.tracking, sessionAudited, audit]
  | revoked req effectiveAt rid eventId call =>
    cases given : extractRequestId r <;> simp [ofId, carries, HttpRequest.trackedAs, call, Call.tracking, revocationCreated, audit, given]
  | published req generatedAt bid eventId call =>
    cases given : extractRequestId r <;> simp [ofId, carries, HttpRequest.trackedAs, call, Call.tracking, bundlePublished, audit, given]
  | promoted bid eventId reason call =>
    cases given : extractRequestId r <;> simp [ofId, carries, HttpRequest.trackedAs, call, Call.tracking, bundlePromoted, audit, given]

theorem effectCounts {r : HttpRequest} {e : AuditEvent} (id : String) (effect : Effect app r db next e) :
    effects id next = effects id db + if carries id r then 1 else 0 := by
  rw [effects, effects, effectAppends effect, List.countP_append, List.countP_singleton, effectOfId id effect]

structure Once (id : String) (s : Service) : Prop where
  alone : ∀ a b p q, s.requests.lookup a = some p → s.requests.lookup b = some q → carries id p.request = true → carries id q.request = true →
    inHand p.phase = true → inHand q.phase = true → a = b
  fresh : ∀ a p, s.requests.lookup a = some p → carries id p.request = true → p.phase = .checked → effects id s.db = 0
  one : effects id s.db ≤ 1
  kept : effects id s.db = 1 → (s.db.requestTracking.lookup id).isSome = true ∨
    ∃ a p response, s.requests.lookup a = some p ∧ carries id p.request = true ∧ p.phase = .finishing response

section
variable {id : String} {s : Service} {conn : Nat} {p : Process} {phase : Phase}

def Quiet (id : String) (s : Service) (conn : Nat) : Prop :=
  ∀ other q, other ≠ conn → s.requests.lookup other = some q → carries id q.request = true → inHand q.phase = false

theorem onceQuiet (quiet : Quiet id s conn) (carried : carries id p.request = true) (fresh : phase = .checked → effects id next = 0)
    (one : effects id next ≤ 1)
    (kept : effects id next = 1 → (next.requestTracking.lookup id).isSome = true ∨ ∃ response, phase = .finishing response) :
    Once id ⟨next,s.requests.insert conn { p with phase := phase }⟩ := by
  have own : ∀ a q, (s.requests.insert conn { p with phase := phase }).lookup a = some q → carries id q.request = true →
      inHand q.phase = true → a = conn := by
    intro a q found held hand
    rw [lookupInsert] at found
    split at found
    · next same => exact same
    · next other =>
      rw [quiet a q other found held] at hand
      cases hand
  refine ⟨fun a b q r left right heldLeft heldRight handLeft handRight => ?_,fun a q found held checked => ?_,one,fun counted => ?_⟩
  · rw [own a q left heldLeft handLeft, own b r right heldRight handRight]
  · have same := own a q found held (by rw [checked]; rfl)
    rw [lookupInsert, if_pos same] at found
    cases found
    exact fresh checked
  · rcases kept counted with there | ⟨response,finishing⟩
    · exact .inl there
    · exact .inr ⟨conn,{ p with phase := phase },response,by rw [lookupInsert, if_pos rfl],carried,finishing⟩

theorem onceIdle (once : Once id s) (same : effects id next = effects id s.db)
    (rows : (s.db.requestTracking.lookup id).isSome = true → (next.requestTracking.lookup id).isSome = true)
    (idle : carries id p.request = true → inHand p.phase = false)
    (past : ∀ q response, s.requests.lookup conn = some q → carries id q.request = true → q.phase ≠ .finishing response) :
    Once id ⟨next,s.requests.insert conn p⟩ := by
  have old : ∀ a q, (s.requests.insert conn p).lookup a = some q → carries id q.request = true → inHand q.phase = true →
      s.requests.lookup a = some q := by
    intro a q there held hand
    rw [lookupInsert] at there
    split at there
    · cases there
      rw [idle held] at hand
      cases hand
    · exact there
  refine ⟨fun a b q r left right heldLeft heldRight handLeft handRight => ?_,fun a q there held checked => ?_,same ▸ once.one,fun counted => ?_⟩
  · exact once.alone a b q r (old a q left heldLeft handLeft) (old b r right heldRight handRight) heldLeft heldRight handLeft handRight
  · rw [same]
    exact once.fresh a q (old a q there held (by rw [checked]; rfl)) held checked
  · rcases once.kept (same ▸ counted) with there | ⟨a,q,response,there,held,finishing⟩
    · exact .inl (rows there)
    · have other : a ≠ conn := fun equal => past q response (equal ▸ there) held finishing
      exact .inr ⟨a,q,response,by rw [lookupInsert, if_neg other, there],held,finishing⟩

theorem rowsStay (w : World) (p : Process) (there : (db.requestTracking.lookup id).isSome = true) :
    ((PkiService.advance app w db p).1.requestTracking.lookup id).isSome = true := by
  rcases advanceRows app w db p id with same | ⟨free,-⟩
  · rw [same]
    exact there
  · rw [free] at there
    cases there

theorem othersCount {w : World} (other : carries id p.request = false) :
    effects id (PkiService.advance app w db p).1 = effects id db := by
  have moved := advanceMoves app w db p
  revert moved
  generalize (PkiService.advance app w db p).1 = next
  intro moved
  cases moved with
  | still => rfl
  | changed next e phase effect => rw [effectCounts id effect, other]; rfl
  | recorded rows => rfl

theorem Once.quiet (once : Once id s) (found : s.requests.lookup conn = some p) (carried : carries id p.request = true)
    (hand : inHand p.phase = true) : Quiet id s conn := by
  intro other q apart there held
  rw [Bool.eq_false_iff]
  exact fun more => apart (once.alone other conn q p there found held carried more hand)

theorem trackedCarried {r : HttpRequest} (carried : carries id r = true) : ∃ endpoint method, r.trackedAs = some (id,endpoint,method) := by
  obtain ⟨⟨own,endpoint,method⟩,tracked,same⟩ := (Option.any_eq_true _ _).mp carried
  have equal : own = id := beq_iff_eq.mp same
  exact ⟨endpoint,method,by rw [tracked, equal]⟩

theorem checkedFree {w : World} {r : HttpRequest} {endpoint method : String} (entered : check app w db r = .checked)
    (tracked : r.trackedAs = some (id,endpoint,method)) (live : ∀ row, db.requestTracking.lookup id = some row → w.now < row.expiresAt) :
    db.requestTracking.lookup id = none := by
  cases there : db.requestTracking.lookup id with
  | none => rfl
  | some row =>
    simp only [check, tracked, checkRequestTracking, there, live row there, if_true] at entered
    split at entered
    · cases entered
    split at entered
    · cases entered
    split at entered
    · cases entered
    · next nothing => split at nothing <;> cases nothing

theorem checkOutcome (app : App) (db : Db) (w : World) (r : HttpRequest) : check app w db r = .checked ∨ inHand (check app w db r) = false := by
  unfold check
  split
  · exact .inr rfl
  split
  · exact .inl rfl
  split
  · exact .inr rfl
  split
  · exact .inr rfl
  · exact .inl rfl

theorem receivedOnce {w : World} (once : Once id s) (found : s.requests.lookup conn = some p) (carried : carries id p.request = true)
    (phase : p.phase = .received) (quiet : ∀ other q, s.requests.lookup other = some q → carries id q.request = true → inHand q.phase = false)
    (live : ∀ row, s.db.requestTracking.lookup id = some row → w.now < row.expiresAt) :
    Once id ⟨s.db,s.requests.insert conn { p with phase := check app w s.db p.request }⟩ := by
  rcases checkOutcome app s.db w p.request with entered | turned
  · obtain ⟨endpoint,method,tracked⟩ := trackedCarried carried
    have free := checkedFree entered tracked live
    have first : effects id s.db = 0 := by
      rcases Nat.le_one_iff_eq_zero_or_eq_one.mp once.one with zero | counted
      · exact zero
      rcases once.kept counted with there | ⟨a,q,response,there,held,finishing⟩
      · rw [free] at there
        cases there
      · have hand := quiet a q there held
        rw [finishing] at hand
        cases hand
    exact onceQuiet (fun other q _ => quiet other q) carried (fun _ => first) (by omega) fun counted => by omega
  · refine onceIdle once rfl (fun there => there) (fun _ => turned) fun q response there _ => ?_
    rw [found] at there
    cases there
    rw [phase]
    exact Phase.noConfusion

theorem handledOnce {w : World} (once : Once id s) (found : s.requests.lookup conn = some p) (carried : carries id p.request = true)
    (phase : p.phase = .checked) (told : w.commit ≠ .lost) (read : w.createdAt ≠ none) :
    Once id ⟨(handle app w s.db p.request).1,
      s.requests.insert conn { p with phase := (handle app w s.db p.request).2.phase }⟩ := by
  have quiet := once.quiet found carried (by rw [phase]; rfl)
  have none : effects id s.db = 0 := once.fresh conn p found carried phase
  rcases handleCases app w s.db p.request with same | ⟨⟨e,effect⟩,settles⟩
  · rw [same]
    exact onceQuiet quiet carried (fun _ => none) (by omega) fun counted => by omega
  · have counted := effectCounts id effect
    rw [none, carried] at counted
    rcases settles with lost | unread | untracked | ⟨response,answer⟩
    · exact absurd lost told
    · exact absurd unread read
    · obtain ⟨endpoint,method,tracked⟩ := trackedCarried carried
      rw [HttpRequest.trackedAs, untracked] at tracked
      cases tracked
    · rw [answer]
      exact onceQuiet quiet carried (fun checked => by cases checked) (by simp [counted]) fun _ => .inr ⟨response,rfl⟩

theorem finishedOnce {w : World} {response : Response} (once : Once id s) (found : s.requests.lookup conn = some p)
    (carried : carries id p.request = true) (phase : p.phase = .finishing response) (recorded : w.fails "track_request" = false) :
    Once id ⟨finish app w s.db p.request response,s.requests.insert conn { p with phase := .answered response }⟩ := by
  obtain ⟨endpoint,method,tracked⟩ := trackedCarried carried
  have there : ((finish app w s.db p.request response).requestTracking.lookup id).isSome = true := by
    simp only [finish, tracked, recorded, Bool.false_eq_true, if_false, trackRequest]
    split
    · next row before => rw [before]; rfl
    · rw [lookupInsert, if_pos rfl]; rfl
  have same : effects id (finish app w s.db p.request response) = effects id s.db := by
    simp only [finish, tracked, recorded, Bool.false_eq_true, if_false, trackRequest]
    split <;> rfl
  exact onceQuiet (once.quiet found carried (by rw [phase]; rfl)) carried (fun checked => by cases checked) (same ▸ once.one) fun _ => .inl there

theorem stepOnce (event : Event) (once : Once id s) (careful : orderly id s event = true) : Once id (step app s event) := by
  cases event with
  | arrive conn r =>
    unfold step
    dsimp only
    split
    · exact once
    · next absent => exact onceIdle once rfl (fun there => there) (fun _ => rfl) fun q response there => by rw [absent] at there; cases there
  | advance conn w =>
    unfold step
    dsimp only
    cases found : s.requests.lookup conn with
    | none => exact once
    | some p =>
      dsimp only
      cases carried : carries id p.request with
      | false =>
        refine onceIdle once (othersCount carried) (rowsStay w p) (fun held => ?_) fun q response there held => ?_
        · rw [carried] at held
          cases held
        · rw [found] at there
          cases there
          rw [carried] at held
          cases held
      | true =>
        simp only [orderly, found, carried, Bool.not_true, Bool.false_or] at careful
        cases phase : p.phase with
        | received =>
          simp only [phase, Bool.and_eq_true, List.all_eq_true, Option.all_eq_true, Bool.not_eq_true', Bool.and_eq_false_iff,
            decide_eq_true_iff] at careful
          simp only [PkiService.advance, phase]
          refine receivedOnce once found carried phase (fun other q there held => ?_) fun row there => careful.2 row there
          rcases careful.1 ⟨other,q⟩ (AList.mem_lookup_iff.mp there) with apart | idle
          · rw [held] at apart
            cases apart
          · exact idle
        | checked =>
          simp only [phase, Bool.and_eq_true, bne_iff_ne, Option.isSome_iff_ne_none] at careful
          simp only [PkiService.advance, phase]
          exact handledOnce once found carried phase careful.1 careful.2
        | finishing response =>
          simp only [phase, Bool.not_eq_true'] at careful
          simp only [PkiService.advance, phase]
          exact finishedOnce once found carried phase careful
        | answered response =>
          simp only [PkiService.advance, phase]
          refine onceIdle once rfl (fun there => there) (fun _ => rfl) fun q again there _ => ?_
          rw [found] at there
          cases there
          rw [phase]
          exact Phase.noConfusion
        | panicked =>
          simp only [PkiService.advance, phase]
          refine onceIdle once rfl (fun there => there) (fun _ => rfl) fun q again there _ => ?_
          rw [found] at there
          cases there
          rw [phase]
          exact Phase.noConfusion

theorem startOnce (id : String) (identityRecords : List String) : Once id (start identityRecords) :=
  ⟨fun _ _ _ _ found => (by cases found),fun _ _ found => (by cases found),Nat.zero_le 1,fun counted => by cases counted⟩

end

/-- In a run whose steps are all careful about a request id, the id has one effect at most, however often it is sent and whatever
the other requests do. Only the three endpoints that record their answers are counted. -/
theorem oneEffect (app : App) (id : String) (identityRecords : List String) (events : List Event)
    (careful : EveryStep (step app) (fun s event => orderly id s event = true) (start identityRecords) events) :
    effects id (run (step app) (start identityRecords) events).db ≤ 1 :=
  ((everyStepInvariant (Q := fun _ _ => True) (fun _ event once careful => stepOnce event once careful) (fun _ _ _ _ => trivial)
    (startOnce id identityRecords) careful).1).one

theorem oneEffectBench : effects "r1" (run (step bench) (start []) benchEvents).db ≤ 1 ∧
    effects "r1" (run (step bench) (start []) benchEvents).db ≠ 0 :=
  ⟨oneEffect bench "r1" [] benchEvents (by decide +kernel),by decide +kernel⟩

end OpenPulse.PkiReplay
