import OpenPulse.PkiService

/-! The audit ledger of the identity service. Every change of a table is written in the ledger by the
transaction that makes it, so the tables are what the ledger tells when it is read from its start. -/
namespace OpenPulse.PkiLedger
open Tables JsonValues Runs PkiService

variable {app : App}

variable {w : World} {ss : List Statement} {s : Statement} {db next : Db}

theorem attemptNil : attempt w [] db = .ok next ↔ next = db := by
  rw [attempt, Except.ok.injEq, eq_comm]

theorem attemptCons : attempt w (s::ss) db = .ok next ↔
    w.fails s.failure = false ∧ ∃ mid, s.run db = .ok mid ∧ attempt w ss mid = .ok next := by
  rw [attempt]
  cases w.fails s.failure with
  | true => simp
  | false => cases s.run db <;> simp

theorem uniqueRun {failure : String} {taken : Db → Bool} {put : Db → Db} :
    (unique failure taken put).run db = .ok next ↔ taken db = false ∧ next = put db := by
  cases free : taken db with
  | true => simp [unique, free]
  | false =>
    simp only [unique, free, Bool.false_eq_true, if_false, Except.ok.injEq, true_and]
    exact eq_comm

inductive Ended (w : World) (ss : List Statement) (ok : Outcome) (db : Db) : Db × Outcome → Prop where
  | undone (outcome : Outcome) : Ended w ss ok db (db,outcome)
  | kept (next : Db) (ran : attempt w ss db = .ok next) : Ended w ss ok db (next,ok)
  | lost (next : Db) (outcome : Outcome) (ran : attempt w ss db = .ok next) (commit : w.commit = .lost) : Ended w ss ok db (next,outcome)

theorem transactionEnds (w : World) (ss : List Statement) (ok : Outcome) (db : Db) : Ended w ss ok db (transaction w ss ok db) := by
  unfold transaction
  split
  · exact .undone _
  split
  · exact .undone _
  next ran =>
    split
    · exact .kept _ ran
    · exact .undone _
    · next commit => exact .lost _ _ ran commit

theorem executeEnds (w : World) (s : Statement) (ok : Outcome) (db : Db) : Ended w [s] ok db (execute w s ok db) := by
  unfold execute
  split
  · exact .undone _
  next ran =>
    split
    · exact .kept _ ran
    · exact .undone _
    · next commit => exact .lost _ _ ran commit

inductive Effect (app : App) (r : HttpRequest) (db : Db) : Db → AuditEvent → Prop where
  | created (req : SubmissionRequest) (id eventId : String) (call : r.call = .createSubmission req)
      (verified : isSignedType req.payloadType = true →
        ∃ key, verifySubmissionSignature app req.payload (req.detachedSignature.getD "") = .ok key)
      (fresh : db.submissions.lookup id = none) :
      Effect app r db { db with
        submissions := db.submissions.insert id (submissionRow req id)
        auditEvents := db.auditEvents ++ [submissionCreated app req (extractRequestId r) id eventId] }
        (submissionCreated app req (extractRequestId r) id eventId)
  | moderated (submissionId eventId auditId : String) (req : ModerationDecisionRequest) (state : SubmissionState) (row : Submission)
      (call : r.call = .postModerationDecision submissionId req) (decision : decided req.decision = some state)
      (present : db.submissions.lookup submissionId = some row) :
      Effect app r db { db with
        submissions := db.submissions.insert submissionId
          { row with submissionState := state, moderationReasonCode := some req.reasonCode }
        moderationEvents := db.moderationEvents ++ [⟨eventId,submissionId,"api:moderator",req.decision,req.reasonCode,req.reasonText⟩]
        auditEvents := db.auditEvents ++ [submissionModerated app submissionId req (extractRequestId r) auditId] }
        (submissionModerated app submissionId req (extractRequestId r) auditId)
  | revoked (req : CreateRevocationRequest) (effectiveAt id eventId : String) (call : r.call = .createRevocation req)
      (fresh : db.revocations.lookup id = none) (known : req.recordId ∈ db.identityRecords) :
      Effect app r db { db with
        revocations := db.revocations.insert id
          ⟨req.recordId,req.revisionId,req.keyId,req.issuerIdentity,req.reasonCode,effectiveAt⟩
        auditEvents := db.auditEvents ++ [revocationCreated app req (extractRequestId r) id eventId] }
        (revocationCreated app req (extractRequestId r) id eventId)
  | published (req : PublishTrustBundleRequest) (generatedAt id eventId : String) (call : r.call = .publishTrustBundle req)
      (fresh : db.trustBundles.lookup id = none) :
      Effect app r db { db with
        trustBundles := db.trustBundles.insert id (bundleRow app req generatedAt id)
        auditEvents := db.auditEvents ++ [bundlePublished app req (extractRequestId r) id eventId] }
        (bundlePublished app req (extractRequestId r) id eventId)
  | promoted (bundleId eventId : String) (reason : Option String) (call : r.call = .promoteTrustBundle bundleId reason)
      (present : (db.trustBundles.lookup bundleId).isSome = true) :
      Effect app r db { db with
        trustBundles := retain (fun id row => some (if id = bundleId then { row with isCurrent := true } else row))
          (retain (fun _ row => some { row with isCurrent := false }) db.trustBundles)
        auditEvents := db.auditEvents ++ [bundlePromoted app bundleId reason (extractRequestId r) eventId] }
        (bundlePromoted app bundleId reason (extractRequestId r) eventId)
  | audited (req : SessionAuditEventRequest) (transitions : Values) (eventId : String) (call : r.call = .createSessionAuditEvent req) :
      Effect app r db { db with
        auditEvents := db.auditEvents ++ [sessionAudited app req transitions (extractRequestId r) eventId] }
        (sessionAudited app req transitions (extractRequestId r) eventId)

def Settles (w : World) (r : HttpRequest) (outcome : Outcome) : Prop :=
  w.commit = .lost ∨ w.createdAt = none ∨ r.call.tracking = none ∨ ∃ response, outcome = .track response

theorem answeredSettles (w : World) (r : HttpRequest) (code : Nat) (body : String → Value) : Settles w r (answered w code body) := by
  unfold answered
  split
  · next gone => exact .inr (.inl gone)
  · exact .inr (.inr (.inr ⟨_,rfl⟩))

def Handled (app : App) (w : World) (r : HttpRequest) (db : Db) (out : Db × Outcome) : Prop :=
  out.1 = db ∨ (∃ e, Effect app r db out.1 e) ∧ Settles w r out.2

theorem endedHandled {r : HttpRequest} {ok : Outcome} {out : Db × Outcome} (ended : Ended w ss ok db out) (settles : Settles w r ok)
    (effect : ∀ next, attempt w ss db = .ok next → ∃ e, Effect app r db next e) : Handled app w r db out := by
  cases ended with
  | undone outcome => exact .inl rfl
  | kept next ran => exact .inr ⟨effect next ran,settles⟩
  | lost next outcome ran commit => exact .inr ⟨effect next ran,.inl commit⟩

theorem insertAuditRun {failure : String} {e : AuditEvent} (ran : attempt w [insertAudit failure e] db = .ok next) :
    next = { db with auditEvents := db.auditEvents ++ [e] } := by
  obtain ⟨-,mid,inserted,ended⟩ := attemptCons.mp ran
  obtain ⟨-,rfl⟩ := uniqueRun.mp inserted
  exact attemptNil.mp ended

section
variable {r : HttpRequest}

theorem createHandled {req : SubmissionRequest} (call : r.call = .createSubmission req) (w : World) (db : Db) :
    Handled app w r db (createSubmission app req (extractRequestId r) w db) := by
  have untracked : r.call.tracking = none := by rw [call]; rfl
  unfold createSubmission
  split
  · exact .inl rfl
  split
  · exact .inl rfl
  split
  · exact .inl rfl
  next verified =>
    refine endedHandled (transactionEnds ..) (.inr (.inr (.inl untracked))) fun next ran => ?_
    obtain ⟨-,mid,inserted,ran⟩ := attemptCons.mp ran
    obtain ⟨fresh,rfl⟩ := uniqueRun.mp inserted
    cases insertAuditRun ran
    refine ⟨_,.created req (w.uuid 0) (w.uuid 1) call (fun signed => ?_) (Option.isNone_iff_eq_none.mp (by simpa using fresh))⟩
    rw [if_pos signed] at verified
    cases checked : verifySubmissionSignature app req.payload (req.detachedSignature.getD "") with
    | ok key => exact ⟨key,rfl⟩
    | error e => rw [checked] at verified; cases verified

theorem moderateHandled {submissionId : String} {req : ModerationDecisionRequest} (call : r.call = .postModerationDecision submissionId req)
    (w : World) (db : Db) : Handled app w r db (postModerationDecision app submissionId req (extractRequestId r) w db) := by
  have untracked : r.call.tracking = none := by rw [call]; rfl
  unfold postModerationDecision
  split
  · exact .inl rfl
  next state decision =>
    split
    · exact .inl rfl
    refine endedHandled (transactionEnds ..) (.inr (.inr (.inl untracked))) fun next ran => ?_
    obtain ⟨-,mid,updated,ran⟩ := attemptCons.mp ran
    obtain ⟨-,mid,noted,ran⟩ := attemptCons.mp ran
    obtain ⟨-,rfl⟩ := uniqueRun.mp noted
    cases insertAuditRun ran
    cases present : db.submissions.lookup submissionId with
    | none => simp [moderate, present] at updated
    | some row =>
      simp only [moderate, present, Except.ok.injEq] at updated
      subst updated
      exact ⟨_,.moderated submissionId (w.uuid 0) (w.uuid 1) req state row call decision present⟩

theorem revokeHandled {req : CreateRevocationRequest} (call : r.call = .createRevocation req) (w : World) (db : Db) :
    Handled app w r db (createRevocation app req (extractRequestId r) w db) := by
  unfold createRevocation
  split
  · exact .inl rfl
  split
  · exact .inl rfl
  split
  · exact .inl rfl
  split
  · next known =>
    refine endedHandled (transactionEnds ..) (answeredSettles ..) fun next ran => ?_
    obtain ⟨-,mid,inserted,ran⟩ := attemptCons.mp ran
    obtain ⟨free,rfl⟩ := uniqueRun.mp inserted
    cases insertAuditRun ran
    rw [Bool.or_eq_false_iff] at free
    exact ⟨_,.revoked req _ (w.uuid 0) (w.uuid 1) call (Option.isNone_iff_eq_none.mp (by simpa using free.1)) (by simpa using known)⟩
  · exact .inl rfl

theorem publishHandled {req : PublishTrustBundleRequest} (call : r.call = .publishTrustBundle req) (w : World) (db : Db) :
    Handled app w r db (publishTrustBundle app req (extractRequestId r) w db) := by
  unfold publishTrustBundle
  split
  · exact .inl rfl
  split
  · exact .inl rfl
  refine endedHandled (transactionEnds ..) (answeredSettles ..) fun next ran => ?_
  obtain ⟨-,mid,inserted,ran⟩ := attemptCons.mp ran
  obtain ⟨fresh,rfl⟩ := uniqueRun.mp inserted
  cases insertAuditRun ran
  exact ⟨_,.published req _ (w.uuid 0) (w.uuid 1) call (Option.isNone_iff_eq_none.mp (by simpa using fresh))⟩

theorem promoteHandled {bundleId : String} {reason : Option String} (call : r.call = .promoteTrustBundle bundleId reason) (w : World) (db : Db) :
    Handled app w r db (promoteTrustBundle app bundleId reason (extractRequestId r) w db) := by
  refine endedHandled (transactionEnds ..) (answeredSettles ..) fun next ran => ?_
  obtain ⟨-,mid,queried,ran⟩ := attemptCons.mp ran
  obtain ⟨-,cleared,clear,ran⟩ := attemptCons.mp ran
  obtain ⟨-,chosen,choose,ran⟩ := attemptCons.mp ran
  cases insertAuditRun ran
  simp only [requireBundle] at queried
  split at queried
  · next present =>
    cases queried
    cases clear
    simp only [setCurrent] at choose
    split at choose
    · cases choose
    · cases choose
      exact ⟨_,.promoted bundleId (w.uuid 0) reason call present⟩
  · cases queried

theorem sessionHandled {req : SessionAuditEventRequest} (call : r.call = .createSessionAuditEvent req) (w : World) (db : Db) :
    Handled app w r db (createSessionAuditEvent app req (extractRequestId r) w db) := by
  have untracked : r.call.tracking = none := by rw [call]; rfl
  unfold createSessionAuditEvent
  split
  · exact .inl rfl
  split
  · split
    · exact .inl rfl
    refine endedHandled (executeEnds ..) (.inr (.inr (.inl untracked))) fun next ran => ?_
    cases insertAuditRun ran
    exact ⟨_,.audited req _ (w.uuid 0) call⟩
  · exact .inl rfl

theorem handleCases (app : App) (w : World) (db : Db) (r : HttpRequest) : Handled app w r db (handle app w db r) := by
  unfold handle
  split
  next call => exact createHandled call w db
  next call => exact moderateHandled call w db
  next call => exact revokeHandled call w db
  next call => exact publishHandled call w db
  next call => exact promoteHandled call w db
  next call => exact sessionHandled call w db

end

structure Story where
  submissions : String → Option (String × SubmissionState × Option String)
  revocations : String → Option (String × String × String)
  bundles : String → Option (String × String)
  current : String → Bool

def untold : Story := ⟨fun _ => none,fun _ => none,fun _ => none,fun _ => false⟩

def field (l : String) (e : AuditEvent) : Option String := (e.eventPayloadJson.get l).bind Value.asStr

def Story.tell (s : Story) (e : AuditEvent) : Story :=
  if e.eventType = "submission.created" then
    { s with submissions := Function.update s.submissions e.entityId (some (e.actorIdentity,.pending,none)) }
  else if e.eventType = "submission.moderated" then
    match (field "decision" e).bind decided with
    | some state =>
      { s with submissions :=
          Function.update s.submissions e.entityId ((s.submissions e.entityId).map fun old => (old.1,state,field "reason_code" e)) }
    | none => s
  else if e.eventType = "revocation_created" then
    { s with revocations := Function.update s.revocations e.entityId (do
        return (← field "record_id" e,← field "issuer_identity" e,← field "reason_code" e)) }
  else if e.eventType = "bundle_published" then
    { s with bundles := Function.update s.bundles e.entityId (do return (← field "schema_version" e,← field "issuer_instance_id" e)) }
  else if e.eventType = "bundle_promoted" then { s with current := fun id => id == e.entityId }
  else s

def replay (es : List AuditEvent) : Story := es.foldl Story.tell untold

def view (db : Db) : Story where
  submissions id := (db.submissions.lookup id).map fun row => (row.submitterIdentity,row.submissionState,row.moderationReasonCode)
  revocations id := (db.revocations.lookup id).map fun row => (row.recordId,row.issuerIdentity,row.reasonCode)
  bundles id := (db.trustBundles.lookup id).map fun row => (row.schemaVersion,row.issuerInstanceId)
  current id := (db.trustBundles.lookup id).any TrustBundle.isCurrent

def decisionOf (e : AuditEvent) : Option (String × Option String × Option String) :=
  if e.eventType = "submission.moderated" then some (e.entityId,field "decision" e,field "reason_code" e) else none

theorem viewInsert {V A : Type} (t : Table String V) (id : String) (v : V) (read : V → A) :
    (fun l => ((t.insert id v).lookup l).map read) = Function.update (fun l => (t.lookup l).map read) id (some (read v)) := by
  funext l
  rw [lookupInsert, Function.update_apply]
  split <;> rfl

theorem effectTells {r : HttpRequest} {e : AuditEvent} (effect : Effect app r db next e) : view next = (view db).tell e := by
  cases effect with
  | created req id eventId call verified fresh =>
    simp only [view, viewInsert, Story.tell, submissionCreated, audit, submissionRow, if_true]
  | moderated submissionId eventId auditId req state row call decision present =>
    have decidedHere : field "decision" (submissionModerated app submissionId req (extractRequestId r) auditId) = some req.decision := by
      simp [field, submissionModerated, audit, getJson, Value.asStr]
    have reasonHere : field "reason_code" (submissionModerated app submissionId req (extractRequestId r) auditId) = some req.reasonCode := by
      simp [field, submissionModerated, audit, getJson, Value.asStr]
    rw [Story.tell, if_neg (by simp [submissionModerated, audit]), if_pos (by simp [submissionModerated, audit])]
    simp only [decidedHere, Option.bind_some, decision, reasonHere]
    simp only [view, viewInsert, submissionModerated, audit, present, Option.map_some]
  | revoked req effectiveAt id eventId call fresh known =>
    simp [view, viewInsert, Story.tell, revocationCreated, audit, field, getJson, Value.asStr]
  | published req generatedAt id eventId call fresh =>
    have still : (fun l => ((db.trustBundles.insert id (bundleRow app req generatedAt id)).lookup l).any TrustBundle.isCurrent) =
        fun l => (db.trustBundles.lookup l).any TrustBundle.isCurrent := by
      funext l
      rw [lookupInsert]
      split
      · next same => rw [same, fresh]; rfl
      · rfl
    simp only [view, viewInsert, still]
    simp [Story.tell, bundlePublished, audit, field, getJson, Value.asStr, bundleRow]
  | promoted bundleId eventId reason call present =>
    have told : (view db).tell (bundlePromoted app bundleId reason (extractRequestId r) eventId) =
        { view db with current := fun id => id == bundleId } := by simp [Story.tell, bundlePromoted, audit]
    rw [told]
    simp only [view, lookupRetain, Story.mk.injEq, true_and]
    constructor
    · funext id
      cases db.trustBundles.lookup id with
      | none => rfl
      | some row => by_cases here : id = bundleId <;> simp [here]
    · funext id
      cases found : db.trustBundles.lookup id with
      | none =>
        have other : id ≠ bundleId := fun same => by
          rw [← same, found] at present
          cases present
        simp [other]
      | some row => by_cases here : id = bundleId <;> simp [here]
  | audited req transitions eventId call => rfl

/-- The tables are what the ledger tells, the moderation table is its decisions, and each event carries the hash of its payload. -/
structure Ledger (app : App) (db : Db) : Prop where
  tables : view db = replay db.auditEvents
  decisions : db.moderationEvents.map (fun m => (m.submissionId,some m.action,some m.reasonCode)) = db.auditEvents.filterMap decisionOf
  hashed : ∀ e ∈ db.auditEvents, e.eventPayloadHash = payloadSha256 app e.eventPayloadJson

theorem effectAppends {r : HttpRequest} {e : AuditEvent} (effect : Effect app r db next e) : next.auditEvents = db.auditEvents ++ [e] := by
  cases effect <;> rfl

theorem effectHashed {r : HttpRequest} {e : AuditEvent} (effect : Effect app r db next e) :
    e.eventPayloadHash = payloadSha256 app e.eventPayloadJson := by
  cases effect <;> rfl

theorem effectDecides {r : HttpRequest} {e : AuditEvent} (effect : Effect app r db next e) :
    next.moderationEvents.map (fun m => (m.submissionId,some m.action,some m.reasonCode)) =
      db.moderationEvents.map (fun m => (m.submissionId,some m.action,some m.reasonCode)) ++ (decisionOf e).toList := by
  cases effect with
  | moderated submissionId eventId auditId req state row call decision present =>
    simp [decisionOf, submissionModerated, audit, field, getJson, Value.asStr]
  | created => simp [decisionOf, submissionCreated, audit]
  | revoked => simp [decisionOf, revocationCreated, audit]
  | published => simp [decisionOf, bundlePublished, audit]
  | promoted => simp [decisionOf, bundlePromoted, audit]
  | audited => simp [decisionOf, sessionAudited, audit]

theorem effectLedger {r : HttpRequest} {e : AuditEvent} (effect : Effect app r db next e) (ledger : Ledger app db) : Ledger app next where
  tables := by
    rw [effectTells effect, effectAppends effect, ledger.tables, replay, replay, List.foldl_append]
    rfl
  decisions := by
    rw [effectDecides effect, effectAppends effect, ledger.decisions, List.filterMap_append]
    cases told : decisionOf e <;> simp [told]
  hashed other member := by
    rw [effectAppends effect, List.mem_append, List.mem_singleton] at member
    rcases member with earlier | rfl
    · exact ledger.hashed other earlier
    · exact effectHashed effect

inductive Moved (app : App) (p : Process) (db : Db) : Db → Prop where
  | still : Moved app p db db
  | changed (next : Db) (e : AuditEvent) (phase : p.phase = .checked) (effect : Effect app p.request db next e) : Moved app p db next
  | recorded (rows : Table String Tracked) : Moved app p db { db with requestTracking := rows }

theorem advanceMoves (app : App) (w : World) (db : Db) (p : Process) : Moved app p db (PkiService.advance app w db p).1 := by
  unfold PkiService.advance
  split
  · exact .still
  · next phase =>
    rcases handleCases app w db p.request with same | ⟨⟨e,effect⟩,-⟩
    · dsimp only
      rw [same]
      exact .still
    · exact .changed _ e phase effect
  · unfold finish
    split
    · exact .still
    split
    · exact .still
    unfold trackRequest
    split
    · exact .still
    · exact .recorded _
  · exact .still
  · exact .still

theorem tablesRun {I : Db → Prop} (changed : ∀ r db next e, I db → Effect app r db next e → I next)
    (recorded : ∀ db rows, I db → I { db with requestTracking := rows }) {s : Service} (start : I s.db) (events : List Event) :
    I (run (step app) s events).db := by
  refine runInvariant (I := fun s : Service => I s.db) (fun s event inside => ?_) start events
  cases event with
  | arrive conn r =>
    unfold step
    dsimp only
    split <;> exact inside
  | advance conn w =>
    unfold step
    dsimp only
    split
    · exact inside
    · next p _ =>
      have moved := advanceMoves app w s.db p
      revert moved
      generalize (PkiService.advance app w s.db p).1 = next
      intro moved
      cases moved with
      | still => exact inside
      | changed next e phase effect => exact changed p.request s.db next e inside effect
      | recorded rows => exact recorded s.db rows inside

/-- In every run, with requests interleaved in any order and statements, commits and handlers failing anywhere. -/
theorem ledgerTells (app : App) (identityRecords : List String) (events : List Event) :
    Ledger app (run (step app) (start identityRecords) events).db :=
  tablesRun (fun _ _ _ _ ledger effect => effectLedger effect ledger) (fun _ _ ledger => ⟨ledger.tables,ledger.decisions,ledger.hashed⟩)
    ⟨rfl,rfl,fun _ member => by cases member⟩ events

inductive Caused (app : App) (r : HttpRequest) : AuditEvent → Prop where
  | created (req : SubmissionRequest) (id eventId : String) (call : r.call = .createSubmission req)
      (verified : isSignedType req.payloadType = true →
        ∃ key, verifySubmissionSignature app req.payload (req.detachedSignature.getD "") = .ok key) :
      Caused app r (submissionCreated app req (extractRequestId r) id eventId)
  | moderated (submissionId eventId : String) (req : ModerationDecisionRequest) (state : SubmissionState)
      (call : r.call = .postModerationDecision submissionId req) (decision : decided req.decision = some state) :
      Caused app r (submissionModerated app submissionId req (extractRequestId r) eventId)
  | revoked (req : CreateRevocationRequest) (id eventId : String) (call : r.call = .createRevocation req) :
      Caused app r (revocationCreated app req (extractRequestId r) id eventId)
  | published (req : PublishTrustBundleRequest) (id eventId : String) (call : r.call = .publishTrustBundle req) :
      Caused app r (bundlePublished app req (extractRequestId r) id eventId)
  | promoted (bundleId eventId : String) (reason : Option String) (call : r.call = .promoteTrustBundle bundleId reason) :
      Caused app r (bundlePromoted app bundleId reason (extractRequestId r) eventId)
  | audited (req : SessionAuditEventRequest) (transitions : Values) (eventId : String) (call : r.call = .createSessionAuditEvent req) :
      Caused app r (sessionAudited app req transitions (extractRequestId r) eventId)

theorem effectCaused {r : HttpRequest} {e : AuditEvent} (effect : Effect app r db next e) : Caused app r e := by
  cases effect with
  | created req id eventId call verified fresh => exact .created req id eventId call verified
  | moderated submissionId eventId auditId req state row call decision present => exact .moderated submissionId auditId req state call decision
  | revoked req effectiveAt id eventId call fresh known => exact .revoked req id eventId call
  | published req generatedAt id eventId call fresh => exact .published req id eventId call
  | promoted bundleId eventId reason call present => exact .promoted bundleId eventId reason call
  | audited req transitions eventId call => exact .audited req transitions eventId call

def Allowed (app : App) (r : HttpRequest) : Prop := r.call.isProtected = true → requireApiKey app r = true

def pastHandler : Phase → Bool
  | .received => false
  | .checked => false
  | _ => true

/-- A request that may have written the event: it is past its handler, it was let in, and it causes such an event. -/
def Author (app : App) (s : Service) (conn : Nat) (e : AuditEvent) : Prop :=
  ∃ p, s.requests.lookup conn = some p ∧ pastHandler p.phase = true ∧ Allowed app p.request ∧ Caused app p.request e

structure Attributed (app : App) (s : Service) : Prop where
  admitted : ∀ conn p, s.requests.lookup conn = some p → p.phase = .checked → Allowed app p.request
  authors : ∃ conns : List Nat, conns.Nodup ∧ List.Forall₂ (Author app s) conns s.db.auditEvents

theorem checkAdmits {w : World} {r : HttpRequest} (entered : check app w db r = .checked) : Allowed app r := by
  intro guarded
  unfold check at entered
  rw [guarded] at entered
  cases known : requireApiKey app r with
  | true => rfl
  | false => rw [known] at entered; cases entered

theorem pastOnward (app : App) (w : World) (db : Db) {p : Process} (past : p.phase ≠ .received) : pastHandler (PkiService.advance app w db p).2 = true := by
  unfold PkiService.advance
  split
  · next phase => exact absurd phase past
  · cases (handle app w db p.request).2 <;> rfl
  · rfl
  · rfl
  · rfl

theorem authorStays {s : Service} {conn other : Nat} {e : AuditEvent} (w : World) {p : Process} (found : s.requests.lookup conn = some p)
    (author : Author app s other e) :
    Author app ⟨(PkiService.advance app w s.db p).1,s.requests.insert conn { p with phase := (PkiService.advance app w s.db p).2 }⟩ other e := by
  obtain ⟨q,there,past,allowed,caused⟩ := author
  by_cases same : other = conn
  · subst same
    rw [found] at there
    cases there
    refine ⟨{ p with phase := (PkiService.advance app w s.db p).2 },by rw [lookupInsert, if_pos rfl],pastOnward app w s.db fun received => ?_,allowed,caused⟩
    rw [received] at past
    cases past
  · exact ⟨q,by rw [lookupInsert, if_neg same, there],past,allowed,caused⟩

theorem authorThere {R : Nat → AuditEvent → Prop} {conns : List Nat} {es : List AuditEvent} (each : List.Forall₂ R conns es) :
    ∀ conn ∈ conns, ∃ e, R conn e := by
  induction each with
  | nil => exact fun conn member => by cases member
  | cons first _ ih =>
    intro conn member
    rcases List.mem_cons.mp member with rfl | later
    · exact ⟨_,first⟩
    · exact ih conn later

theorem movedAuthors {p : Process} (moved : Moved app p db next) {R : Nat → AuditEvent → Prop} {conns : List Nat} (conn : Nat)
    (each : List.Forall₂ R conns db.auditEvents) (own : ∀ e, p.phase = .checked → Effect app p.request db next e → R conn e) :
    List.Forall₂ R conns next.auditEvents ∨ p.phase = .checked ∧ List.Forall₂ R (conns ++ [conn]) next.auditEvents := by
  cases moved with
  | still => exact .inl each
  | changed next e phase effect =>
    rw [effectAppends effect]
    exact .inr ⟨phase,List.rel_append each (.cons (own e phase effect) .nil)⟩
  | recorded rows => exact .inl each

theorem stepAttributed (s : Service) (event : Event) (attributed : Attributed app s) : Attributed app (step app s event) := by
  obtain ⟨admitted,conns,distinct,each⟩ := attributed
  cases event with
  | arrive conn r =>
    unfold step
    dsimp only
    split
    · exact ⟨admitted,conns,distinct,each⟩
    next absent =>
      refine ⟨fun other p found phase => ?_,conns,distinct,each.imp fun other e author => ?_⟩
      · rw [lookupInsert] at found
        split at found
        · cases found
          cases phase
        · exact admitted other p found phase
      · obtain ⟨q,there,rest⟩ := author
        have other : other ≠ conn := fun same => by rw [same, absent] at there; cases there
        exact ⟨q,by rw [lookupInsert, if_neg other, there],rest⟩
  | advance conn w =>
    unfold step
    dsimp only
    split
    · exact ⟨admitted,conns,distinct,each⟩
    next p found =>
      refine ⟨fun other q there phase => ?_,?_⟩
      · rw [lookupInsert] at there
        split at there
        · cases there
          by_cases received : p.phase = .received
          · simp only [PkiService.advance, received] at phase
            exact checkAdmits phase
          · have past := pastOnward app w s.db received
            rw [show (PkiService.advance app w s.db p).2 = .checked from phase] at past
            cases past
        · exact admitted other q there phase
      have stays := each.imp fun other e author => authorStays w found author
      have whole := movedAuthors (advanceMoves app w s.db p) conn stays fun e phase effect =>
        ⟨{ p with phase := (PkiService.advance app w s.db p).2 },by rw [lookupInsert, if_pos rfl],pastOnward app w s.db (by rw [phase]; decide),
          admitted conn p found phase,effectCaused effect⟩
      rcases whole with same | ⟨phase,more⟩
      · exact ⟨conns,distinct,same⟩
      · refine ⟨conns ++ [conn],List.nodup_append.mpr ⟨distinct,List.nodup_singleton conn,?_⟩,more⟩
        intro other member last inside same
        rw [List.mem_singleton.mp inside] at same
        subst same
        obtain ⟨e,q,there,past,-⟩ := authorThere each other member
        rw [found] at there
        cases there
        rw [phase] at past
        cases past

theorem orErrBind {α β : Type} {e : VerificationError} {o : Option α} {f : α → Except VerificationError β} {b : β} :
    (orErr e o >>= f) = .ok b ↔ ∃ a, o = some a ∧ f a = .ok b := by
  cases o with
  | none => simp [orErr, bind, Except.bind]
  | some a => simp [orErr, bind, Except.bind]

theorem markedUnread (rest : List Char) : Base64.decode ("pubkey:".toList ++ rest) = none := by
  have colon : Base64.value ':' = none := by decide
  cases rest with
  | nil => rfl
  | cons c rest =>
    change Base64.decode ('p' :: 'u' :: 'b' :: 'k' :: 'e' :: 'y' :: ':' :: c :: rest) = none
    rw [Base64.decode, Base64.decode, if_neg (by decide)]
    by_cases padded : c = '='
    · simp [padded, Base64.decodeLast, colon]
    · simp [padded, colon]

/-- A signed submission is recorded under the text of the key that its signature verified under. -/
theorem identityVerified {req : SubmissionRequest} {signature : String} {key : Signing.PeerId} (signed : isSignedType req.payloadType = true)
    (verified : verifySubmissionSignature app req.payload signature = .ok key) :
    deriveSubmitterIdentity req = "pubkey:" ++ String.ofList (Base64.encode key.val) := by
  unfold verifySubmissionSignature at verified
  simp only [orErrBind] at verified
  obtain ⟨text,given,bytes,decoded,checked,sized',-,-,signature,-,good⟩ := verified
  obtain rfl : checked = key := by
    split at good
    · exact Except.ok.inj good
    · cases good
  have raw : checked.val = bytes := by
    obtain ⟨cut,-⟩ := Option.filter_eq_some_iff.mp sized'
    unfold sized at cut
    split at cut
    · cases cut
      rfl
    · cases cut
  have own : Base64.encode checked.val = text.toList := raw ▸ Base64.encodeDecode decoded
  have plain : ¬ "pubkey:".toList.isPrefixOf text.toList := by
    rw [List.isPrefixOf_iff_prefix]
    rintro ⟨rest,whole⟩
    rw [← whole, markedUnread] at decoded
    cases decoded
  rw [deriveSubmitterIdentity, if_pos signed, given, own, String.ofList_toList]
  exact if_neg plain

/-- In every run each event of the ledger was written for a request of its own, which asked for what the event says, which
held the key unless it was a submission, and whose signature was good where the submission is a signed one. -/
theorem everyEventCaused (app : App) (identityRecords : List String) (events : List Event) :
    ∃ conns : List Nat, conns.Nodup ∧
      List.Forall₂ (Author app (run (step app) (start identityRecords) events)) conns
        (run (step app) (start identityRecords) events).db.auditEvents :=
  (runInvariant stepAttributed (s := start identityRecords) ⟨fun conn p found => (by cases found),⟨[],List.nodup_nil,.nil⟩⟩ events).authors

def bench : App where
  ed := Signing.tagScheme
  verify := Signing.tagScheme.verifyStrict
  sha256 := fun _ => "hash"
  rfc3339 := some
  signingKey := ByteCodec.filled 32 7
  apiKey := "key"

def benchWorld (now : Nat) (first : String) : World :=
  ⟨now,fun k => if k = 0 then first else "event",fun _ => false,.done,some (some "today")⟩

def benchPublish : HttpRequest :=
  ⟨some "Bearer key",some " r1 ",.publishTrustBundle ⟨"1.0","2026-01-01T00:00:00Z","issuer",.array (.cons (.string "ed25519") .nil),.array .nil⟩⟩

def benchPromote : HttpRequest := ⟨some "Bearer key",some "r2",.promoteTrustBundle "bundle" none⟩

def benchEvents : List Event :=
  [.arrive 0 benchPublish,.advance 0 (benchWorld 100 "bundle"),.advance 0 (benchWorld 101 "bundle"),.advance 0 (benchWorld 102 "bundle"),
    .arrive 1 benchPromote,.advance 1 (benchWorld 103 "promoted"),.advance 1 (benchWorld 104 "promoted"),.advance 1 (benchWorld 105 "promoted"),
    .arrive 2 benchPublish,.advance 2 (benchWorld 200 "again")]

end OpenPulse.PkiLedger
