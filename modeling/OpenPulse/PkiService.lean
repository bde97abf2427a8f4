import OpenPulse.B2f
import OpenPulse.Base64
import OpenPulse.JsonValues
import OpenPulse.Runs
import OpenPulse.Signing
import OpenPulse.Tables
import OpenPulse.Utf8Texts

/-! The identity service: `pki-tooling/src/api/handlers.rs`, `auth.rs`, `verification.rs` and the tables of
`migrations`. A request is answered in steps (the check of its token and of its request id, the transaction of
its handler, the record of its answer), and the steps of several requests interleave. The database is the
tables; a statement that fails rolls its transaction back, and a commit may be lost on its way back. -/
namespace OpenPulse.PkiService
open ByteCodec Tables JsonValues Utf8Cuts
open Signing (PeerId Signature Seed)

def orNull : Option String → Value
  | some s => .string s
  | none => .null

def jsonKind : Value → String
  | .null => "null"
  | .bool _ => "bool"
  | .number _ => "number"
  | .string _ => "string"
  | .array _ => "array"
  | .object _ => "object"

/-- `serde_json::to_vec`. -/
def toVec (t : Value) : Bytes := encoded t.write

structure SubmissionRequest where
  payloadType : String
  payload : Value
  detachedSignature : Option String
  deriving DecidableEq

structure ModerationDecisionRequest where
  decision : String
  reasonCode : String
  reasonText : String
  deriving DecidableEq

structure CreateRevocationRequest where
  recordId : String
  revisionId : String
  keyId : String
  issuerIdentity : String
  reasonCode : String
  effectiveAt : String
  deriving DecidableEq

structure PublishTrustBundleRequest where
  schemaVersion : String
  generatedAt : String
  issuerInstanceId : String
  signingAlgorithms : Value
  records : Value
  deriving DecidableEq

structure SessionAuditEventRequest where
  sessionId : String
  peerId : Option String
  policyProfile : String
  selectedMode : String
  trustLevel : String
  certificateSource : String
  trustReasonCode : Option String
  transitions : Value
  actorIdentity : Option String
  deriving DecidableEq

inductive Call where
  | createSubmission (req : SubmissionRequest)
  | postModerationDecision (submissionId : String) (req : ModerationDecisionRequest)
  | createRevocation (req : CreateRevocationRequest)
  | publishTrustBundle (req : PublishTrustBundleRequest)
  | promoteTrustBundle (bundleId : String) (reason : Option String)
  | createSessionAuditEvent (req : SessionAuditEventRequest)
  deriving DecidableEq

structure HttpRequest where
  authorization : Option String
  xRequestId : Option String
  call : Call
  deriving DecidableEq

structure Response where
  status : Nat
  body : Value
  deriving DecidableEq

def blank (s : String) : Bool := B2f.trim s.toList = []

def trimmed (s : String) : String := String.ofList (B2f.trim s.toList)

def extractRequestId (r : HttpRequest) : Option String := (r.xRequestId.map trimmed).filter (fun s => s ≠ "")

/-- The routes that `build_router` puts behind `require_api_key`. -/
def Call.isProtected : Call → Bool
  | .createSubmission _ => false
  | _ => true

def Call.tracking : Call → Option (String × String)
  | .createRevocation _ => some ("/api/v1/revocations","POST")
  | .publishTrustBundle _ => some ("/api/v1/trust-bundles","POST")
  | .promoteTrustBundle _ _ => some ("/api/v1/trust-bundles/:bundle_id/promote","PATCH")
  | _ => none

inductive SubmissionState where
  | pending | accepted | quarantined | rejected
  deriving DecidableEq, Repr

def SubmissionState.text : SubmissionState → String
  | pending => "pending"
  | accepted => "accepted"
  | quarantined => "quarantined"
  | rejected => "rejected"

def decided : String → Option SubmissionState
  | "accept" => some .accepted
  | "reject" => some .rejected
  | "quarantine" => some .quarantined
  | _ => none

structure Submission where
  submitterIdentity : String
  submissionState : SubmissionState
  artifactUri : String
  detachedSignatureUri : Option String
  validationSummary : Value
  moderationReasonCode : Option String

structure ModerationEvent where
  eventId : String
  submissionId : String
  actorIdentity : String
  action : String
  reasonCode : String
  reasonText : String

structure AuditEvent where
  eventId : String
  eventType : String
  entityType : String
  entityId : String
  actorIdentity : String
  requestId : Option String
  eventPayloadHash : String
  eventPayloadJson : Value

structure Revocation where
  recordId : String
  revisionId : String
  keyId : String
  issuerIdentity : String
  reasonCode : String
  effectiveAt : String

structure TrustBundle where
  schemaVersion : String
  generatedAt : String
  issuerInstanceId : String
  signingAlgorithms : Value
  records : Value
  bundleSignature : String
  servicePubkey : String
  isCurrent : Bool

structure Tracked where
  endpoint : String
  method : String
  responseStatus : Nat
  responseBodyHash : String
  responseBodyJson : Value
  expiresAt : Nat

structure Db where
  identityRecords : List String
  submissions : Table String Submission
  moderationEvents : List ModerationEvent
  auditEvents : List AuditEvent
  revocations : Table String Revocation
  trustBundles : Table String TrustBundle
  requestTracking : Table String Tracked

def Db.empty (identityRecords : List String) : Db := ⟨identityRecords,∅,[],[],∅,∅,∅⟩

/-- What the service is built with; `verify` is the cofactored check of `ed25519_dalek`, `rfc3339` reads a time
and writes it back. -/
structure App where
  ed : Signing.Ed25519
  verify : PeerId → Bytes → Signature → Bool
  sha256 : Bytes → String
  rfc3339 : String → Option String
  signingKey : Seed
  apiKey : String

/-- What becomes of a commit. A lost one has happened, but the caller is told of an error. -/
inductive Commit where
  | done | failed | lost
  deriving DecidableEq, Repr

/-- What a step of a request meets: the clock in seconds, the ids it draws, the statements that fail (by the text
of their error), the commit, and the text read back as `created_at` (reading it may fail, or end the handler). -/
structure World where
  now : Nat
  uuid : Nat → String
  fails : String → Bool
  commit : Commit
  createdAt : Option (Option String)

variable (app : App)

def payloadSha256 (payload : Value) : String := app.sha256 (toVec payload)

inductive Outcome where
  | respond (r : Response)
  | track (r : Response)
  | panicked
  deriving DecidableEq

def message (code : Nat) (status detail : String) : Response := ⟨code,json [("status",.string status),("detail",.string detail)]⟩

def validationError (detail : String) : Outcome := .respond (message 400 "validation_error" detail)

def notFound (detail : String) : Response := message 404 "not_found" detail

def dbError (detail : String) : Outcome := .respond (message 500 "db_error" detail)

structure Statement where
  failure : String
  run : Db → Except Outcome Db

def attempt (w : World) : List Statement → Db → Except Outcome Db
  | [], db => .ok db
  | s::ss, db =>
    if w.fails s.failure then .error (dbError s.failure)
    else match s.run db with
      | .ok next => attempt w ss next
      | .error outcome => .error outcome

/-- The statements in one transaction. What they leave is kept when it commits. -/
def transaction (w : World) (ss : List Statement) (ok : Outcome) (db : Db) : Db × Outcome :=
  if w.fails "failed to begin transaction" then (db,dbError "failed to begin transaction")
  else match attempt w ss db with
    | .error outcome => (db,outcome)
    | .ok next =>
      match w.commit with
      | .done => (next,ok)
      | .failed => (db,dbError "failed to commit transaction")
      | .lost => (next,dbError "failed to commit transaction")

def execute (w : World) (s : Statement) (ok : Outcome) (db : Db) : Db × Outcome :=
  match attempt w [s] db with
  | .error outcome => (db,outcome)
  | .ok next =>
    match w.commit with
    | .done => (next,ok)
    | .failed => (db,dbError s.failure)
    | .lost => (next,dbError s.failure)

def unique (failure : String) (taken : Db → Bool) (put : Db → Db) : Statement :=
  ⟨failure,fun db => if taken db then .error (dbError failure) else .ok (put db)⟩

def insertAudit (failure : String) (e : AuditEvent) : Statement :=
  unique failure (fun db => db.auditEvents.any (fun other => other.eventId == e.eventId))
    fun db => { db with auditEvents := db.auditEvents ++ [e] }

inductive VerificationError where
  | missingPublicKey | invalidPublicKeyEncoding | invalidPublicKey | invalidSignatureEncoding | invalidSignatureLength
  | invalidSignature
  deriving DecidableEq, Repr

def VerificationError.text : VerificationError → String
  | missingPublicKey => "payload must contain a 'pubkey' field (base64-encoded Ed25519 verifying key)"
  | invalidPublicKeyEncoding => "pubkey field is not valid base64"
  | invalidPublicKey => "pubkey is not a valid Ed25519 verifying key"
  | invalidSignatureEncoding => "detached_signature is not valid base64"
  | invalidSignatureLength => "detached_signature must be exactly 64 bytes when decoded"
  | invalidSignature => "signature verification failed"

def sized (n : Nat) (raw : Bytes) : Option (Octets n) := if h : raw.length = n then some ⟨raw,h⟩ else none

def orErr {α : Type} (e : VerificationError) : Option α → Except VerificationError α
  | some a => .ok a
  | none => .error e

def verifySubmissionSignature (payload : Value) (detachedSignature : String) : Except VerificationError PeerId := do
  let pubkeyText ← orErr .missingPublicKey ((payload.get "pubkey").bind Value.asStr)
  let pubkeyBytes ← orErr .invalidPublicKeyEncoding (Base64.decode pubkeyText.toList)
  let pubkey ← orErr .invalidPublicKey ((sized 32 pubkeyBytes).filter app.ed.fromBytes)
  let sigBytes ← orErr .invalidSignatureEncoding (Base64.decode detachedSignature.toList)
  let signature ← orErr .invalidSignatureLength (sized 64 sigBytes)
  if app.verify pubkey (toVec payload) signature then .ok pubkey else .error .invalidSignature

def bundleCanonicalBody (bundleId schemaVersion issuerInstanceId : String) (signingAlgorithms records : Value) : Bytes :=
  toVec (json [("bundle_id",.string bundleId),("schema_version",.string schemaVersion),("issuer_instance_id",.string issuerInstanceId),
    ("signing_algorithms",signingAlgorithms.sorted),("records",records.sorted)])

def verifyBundleSignature (canonicalBody : Bytes) (signature : String) (pubkey : PeerId) : Except VerificationError Unit := do
  let pubkey ← orErr .invalidPublicKey ((some pubkey).filter app.ed.fromBytes)
  let sigBytes ← orErr .invalidSignatureEncoding (Base64.decode signature.toList)
  let signature ← orErr .invalidSignatureEncoding (sized 64 sigBytes)
  if app.verify pubkey canonicalBody signature then .ok () else .error .invalidSignature

def isSignedType (payloadType : String) : Bool := trimmed payloadType = "signed_handshake" || trimmed payloadType = "signed_manifest"

def requireObjectField (payload : Value) (field : String) : Except String Unit :=
  match payload with
  | .object ms => if ms.has field then .ok () else .error ("payload is missing required field '" ++ field ++ "'")
  | _ => .error "payload must be a JSON object"

def validateSignedPayloadConformance (req : SubmissionRequest) : Except String Unit :=
  if isSignedType req.payloadType then do
    match req.detachedSignature with
    | none => .error "detached_signature is required for signed_handshake and signed_manifest"
    | some signature =>
      if blank signature then .error "detached_signature is required for signed_handshake and signed_manifest" else .ok ()
    requireObjectField req.payload "session_id"
    requireObjectField req.payload "signed_at"
    requireObjectField req.payload "pubkey"
    if trimmed req.payloadType = "signed_handshake" then do
      requireObjectField req.payload "peer_id"
      requireObjectField req.payload "handshake_nonce"
    else do
      requireObjectField req.payload "manifest_hash"
      requireObjectField req.payload "chunk_count"
  else .ok ()

def deriveSubmitterIdentity (req : SubmissionRequest) : String :=
  if isSignedType req.payloadType then
    match (req.payload.get "pubkey").bind Value.asStr with
    | some pubkey => if "pubkey:".toList.isPrefixOf pubkey.toList then pubkey else "pubkey:" ++ pubkey
    | none => "api:anonymous"
  else "api:anonymous"

def validationSummary (req : SubmissionRequest) : Value :=
  json [("status",.string (if isSignedType req.payloadType then "signature_verified" else "pending_validation")),
    ("payload_type",.string req.payloadType),("payload_kind",.string (jsonKind req.payload)),
    ("has_detached_signature",.bool req.detachedSignature.isSome)]

def submissionRow (req : SubmissionRequest) (submissionId : String) : Submission where
  submitterIdentity := deriveSubmitterIdentity req
  submissionState := .pending
  artifactUri := "inline://submission/" ++ submissionId
  detachedSignatureUri := req.detachedSignature.map fun _ => "inline://submission/" ++ submissionId ++ "/detached-signature"
  validationSummary := validationSummary req
  moderationReasonCode := none

def audit (eventId eventType entityType entityId actorIdentity : String) (requestId : Option String) (payload : Value) : AuditEvent :=
  ⟨eventId,eventType,entityType,entityId,actorIdentity,requestId,payloadSha256 app payload,payload⟩

def submissionCreated (req : SubmissionRequest) (requestId : Option String) (submissionId eventId : String) : AuditEvent :=
  audit app eventId "submission.created" "submission" submissionId (deriveSubmitterIdentity req) requestId
    (json [("submission_id",.string submissionId),("payload_type",.string req.payloadType),
      ("has_detached_signature",.bool req.detachedSignature.isSome)])

def insertSubmission (req : SubmissionRequest) (submissionId : String) : Statement :=
  unique "failed to persist submission" (fun db => (db.submissions.lookup submissionId).isSome)
    fun db => { db with submissions := db.submissions.insert submissionId (submissionRow req submissionId) }

def createSubmission (req : SubmissionRequest) (requestId : Option String) (w : World) (db : Db) : Db × Outcome :=
  if blank req.payloadType then (db,validationError "payload_type must not be empty")
  else match validateSignedPayloadConformance req with
    | .error detail => (db,validationError detail)
    | .ok () =>
      match if isSignedType req.payloadType then (verifySubmissionSignature app req.payload (req.detachedSignature.getD "")).map fun _ => ()
          else .ok () with
      | .error e => (db,.respond (message 422 "verification_failed" e.text))
      | .ok () =>
        transaction w [insertSubmission req (w.uuid 0),
            insertAudit "failed to insert audit event" (submissionCreated app req requestId (w.uuid 0) (w.uuid 1))]
          (.respond ⟨201,json [("submission_id",.string (w.uuid 0)),("submission_state",.string "pending"),
            ("validation_summary",validationSummary req)]⟩) db

def moderate (submissionId : String) (state : SubmissionState) (reasonCode : String) : Statement :=
  ⟨"failed to update submission",fun db =>
    match db.submissions.lookup submissionId with
    | none => .error (.respond (notFound "submission not found"))
    | some row =>
      .ok { db with
        submissions := db.submissions.insert submissionId
          { row with submissionState := state, moderationReasonCode := some reasonCode } }⟩

def insertModerationEvent (e : ModerationEvent) : Statement :=
  unique "failed to insert moderation event" (fun db => db.moderationEvents.any (fun other => other.eventId == e.eventId))
    fun db => { db with moderationEvents := db.moderationEvents ++ [e] }

def submissionModerated (submissionId : String) (req : ModerationDecisionRequest) (requestId : Option String) (eventId : String) : AuditEvent :=
  audit app eventId "submission.moderated" "submission" submissionId "api:moderator" requestId
    (json [("submission_id",.string submissionId),("decision",.string req.decision),("reason_code",.string req.reasonCode)])

def postModerationDecision (submissionId : String) (req : ModerationDecisionRequest) (requestId : Option String) (w : World) (db : Db) :
    Db × Outcome :=
  match decided req.decision with
  | none => (db,validationError "decision must be accept, reject, or quarantine")
  | some state =>
    if blank req.reasonCode || blank req.reasonText then (db,validationError "reason_code and reason_text must not be empty")
    else
      transaction w [moderate submissionId state req.reasonCode,
          insertModerationEvent ⟨w.uuid 0,submissionId,"api:moderator",req.decision,req.reasonCode,req.reasonText⟩,
          insertAudit "failed to insert audit event" (submissionModerated app submissionId req requestId (w.uuid 1))]
        (.respond ⟨200,json [("submission_id",.string submissionId),("submission_state",.string state.text),
          ("moderation_event_id",.string (w.uuid 0))]⟩) db

def revocationCreated (req : CreateRevocationRequest) (requestId : Option String) (revocationId eventId : String) : AuditEvent :=
  audit app eventId "revocation_created" "revocation" revocationId req.issuerIdentity requestId
    (json [("revocation_id",.string revocationId),("record_id",.string req.recordId),("issuer_identity",.string req.issuerIdentity),
      ("reason_code",.string req.reasonCode)])

def insertRevocation (req : CreateRevocationRequest) (effectiveAt revocationId : String) : Statement :=
  unique "failed to insert revocation"
    (fun db => (db.revocations.lookup revocationId).isSome || !db.identityRecords.contains req.recordId)
    fun db => { db with
      revocations := db.revocations.insert revocationId
        ⟨req.recordId,req.revisionId,req.keyId,req.issuerIdentity,req.reasonCode,effectiveAt⟩ }

def answered (w : World) (code : Nat) (body : String → Value) : Outcome :=
  match w.createdAt with
  | none => .panicked
  | some read => .track ⟨code,body (read.getD "unknown")⟩

def createRevocation (req : CreateRevocationRequest) (requestId : Option String) (w : World) (db : Db) : Db × Outcome :=
  if blank req.recordId || blank req.revisionId || blank req.keyId || blank req.issuerIdentity || blank req.reasonCode ||
      blank req.effectiveAt then
    (db,validationError
      "all fields (record_id, revision_id, key_id, issuer_identity, reason_code, effective_at) are required and non-empty")
  else match app.rfc3339 req.effectiveAt with
    | none => (db,validationError "effective_at must be RFC3339 timestamp")
    | some effectiveAt =>
      if w.fails "failed to verify record" then (db,dbError "failed to verify record")
      else if db.identityRecords.contains req.recordId then
        transaction w [insertRevocation req effectiveAt (w.uuid 0),
            insertAudit "failed to insert audit event" (revocationCreated app req requestId (w.uuid 0) (w.uuid 1))]
          (answered w 201 fun createdAt => json [("revocation_id",.string (w.uuid 0)),("effective_at",.string effectiveAt),
            ("created_at",.string createdAt)]) db
      else (db,validationError ("record_id " ++ req.recordId ++ " not found"))

def base64Text (raw : Bytes) : String := String.ofList (Base64.encode raw)

def servicePubkey : String := base64Text (app.ed.verifyingKey app.signingKey).val

def bundleRow (req : PublishTrustBundleRequest) (generatedAt bundleId : String) : TrustBundle where
  schemaVersion := req.schemaVersion
  generatedAt := generatedAt
  issuerInstanceId := req.issuerInstanceId
  signingAlgorithms := req.signingAlgorithms
  records := req.records
  bundleSignature := base64Text (app.ed.sign app.signingKey
    (bundleCanonicalBody bundleId req.schemaVersion req.issuerInstanceId req.signingAlgorithms req.records)).val
  servicePubkey := servicePubkey app
  isCurrent := false

def insertBundle (row : TrustBundle) (bundleId : String) : Statement :=
  unique "failed to insert trust bundle" (fun db => (db.trustBundles.lookup bundleId).isSome)
    fun db => { db with trustBundles := db.trustBundles.insert bundleId row }

def bundlePublished (req : PublishTrustBundleRequest) (requestId : Option String) (bundleId eventId : String) : AuditEvent :=
  audit app eventId "bundle_published" "trust_bundle" bundleId req.issuerInstanceId requestId
    (json [("bundle_id",.string bundleId),("schema_version",.string req.schemaVersion),("issuer_instance_id",.string req.issuerInstanceId)])

def publishTrustBundle (req : PublishTrustBundleRequest) (requestId : Option String) (w : World) (db : Db) : Db × Outcome :=
  if blank req.schemaVersion || blank req.generatedAt || blank req.issuerInstanceId then
    (db,validationError
      "all fields (schema_version, generated_at, issuer_instance_id, signing_algorithms, records) are required and non-empty")
  else match app.rfc3339 req.generatedAt with
    | none => (db,validationError "generated_at must be RFC3339 timestamp")
    | some generatedAt =>
      transaction w [insertBundle (bundleRow app req generatedAt (w.uuid 0)) (w.uuid 0),
          insertAudit "failed to insert audit event" (bundlePublished app req requestId (w.uuid 0) (w.uuid 1))]
        (answered w 201 fun createdAt => json [("bundle_id",.string (w.uuid 0)),("is_current",.bool false),
          ("created_at",.string createdAt)]) db

/-- `SELECT bundle_id`: a bundle that is not there is an answer that is recorded too. -/
def requireBundle (bundleId : String) : Statement :=
  ⟨"failed to query trust bundle",fun db =>
    if (db.trustBundles.lookup bundleId).isSome then .ok db else .error (.track (notFound "trust bundle not found"))⟩

def clearCurrent : Statement :=
  ⟨"failed to clear current trust bundle",fun db =>
    .ok { db with trustBundles := retain (fun _ row => some { row with isCurrent := false }) db.trustBundles }⟩

/-- `idx_trust_bundles_current` allows one current bundle. -/
def setCurrent (bundleId : String) : Statement :=
  ⟨"failed to promote trust bundle",fun db =>
    if db.trustBundles.entries.any (fun e => e.2.isCurrent && e.1 != bundleId) then .error (dbError "failed to promote trust bundle")
    else .ok { db with
      trustBundles := retain (fun id row => some (if id = bundleId then { row with isCurrent := true } else row)) db.trustBundles }⟩

def bundlePromoted (bundleId : String) (reason : Option String) (requestId : Option String) (eventId : String) : AuditEvent :=
  audit app eventId "bundle_promoted" "trust_bundle" bundleId "system" requestId
    (json [("bundle_id",.string bundleId),("reason",orNull reason)])

def promoteTrustBundle (bundleId : String) (reason : Option String) (requestId : Option String) (w : World) (db : Db) : Db × Outcome :=
  transaction w [requireBundle bundleId,clearCurrent,setCurrent bundleId,
      insertAudit "failed to insert audit event" (bundlePromoted app bundleId reason requestId (w.uuid 0))]
    (answered w 200 fun promotedAt => json [("bundle_id",.string bundleId),("is_current",.bool true),("promoted_at",.string promotedAt)]) db

def decimal (n : Nat) : Number :=
  ⟨Nat.toDigits 10 n,Nat.toDigits_ne_nil,fun c member => by
    rw [numeric, Nat.isDigit_of_mem_toDigits (b := 10) (by decide) (by decide) member]
    rfl⟩

def count : Values → Nat
  | .nil => 0
  | .cons _ xs => count xs + 1

def sessionAudited (req : SessionAuditEventRequest) (transitions : Values) (requestId : Option String) (eventId : String) : AuditEvent :=
  audit app eventId "session.audit_recorded" "session" req.sessionId
    (((req.actorIdentity.map trimmed).filter (fun s => s ≠ "")).getD "openpulse-modem") requestId
    (json [("session_id",.string req.sessionId),("peer_id",orNull req.peerId),("policy_profile",.string req.policyProfile),
      ("selected_mode",.string req.selectedMode),("trust_level",.string req.trustLevel),
      ("certificate_source",.string req.certificateSource),("trust_reason_code",orNull req.trustReasonCode),
      ("transition_count",.number (decimal (count transitions))),("transitions",.array transitions)])

def createSessionAuditEvent (req : SessionAuditEventRequest) (requestId : Option String) (w : World) (db : Db) : Db × Outcome :=
  if blank req.sessionId || blank req.policyProfile || blank req.selectedMode || blank req.trustLevel || blank req.certificateSource then
    (db,validationError "session_id, policy_profile, selected_mode, trust_level, and certificate_source must be non-empty")
  else match req.transitions with
    | .array transitions =>
      if count transitions = 0 then (db,validationError "transitions must contain at least one state transition")
      else
        execute w (insertAudit "failed to insert session audit event" (sessionAudited app req transitions requestId (w.uuid 0)))
          (.respond ⟨201,json [("event_id",.string (w.uuid 0)),("session_id",.string req.sessionId),
            ("event_type",.string "session.audit_recorded")]⟩) db
    | _ => (db,validationError "transitions must be a JSON array")

def getSubmission (submissionId : String) (db : Db) : Option Submission := db.submissions.lookup submissionId

def getTrustBundle (bundleId : String) (db : Db) : Option TrustBundle := db.trustBundles.lookup bundleId

def getCurrentTrustBundle (db : Db) : Option (String × TrustBundle) :=
  (db.trustBundles.entries.find? (fun e => e.2.isCurrent)).map fun e => (e.1,e.2)

def requireApiKey (r : HttpRequest) : Bool := r.authorization = some ("Bearer " ++ app.apiKey)

def unauthorized : Response := message 401 "unauthorized" "valid Bearer token required"

def conflict : Response := message 409 "validation_error" "request_id already used for a different endpoint or method"

def checkRequestTracking (now : Nat) (db : Db) (requestId endpoint method : String) : Option Response :=
  match db.requestTracking.lookup requestId with
  | none => none
  | some row =>
    if now < row.expiresAt then
      if row.endpoint ≠ endpoint || row.method ≠ method then some conflict else some ⟨row.responseStatus,row.responseBodyJson⟩
    else none

/-- The answer is kept for 24 hours, unless one is kept already. -/
def trackRequest (now : Nat) (requestId endpoint method : String) (r : Response) (db : Db) : Db :=
  match db.requestTracking.lookup requestId with
  | some _ => db
  | none =>
    { db with
      requestTracking := db.requestTracking.insert requestId ⟨endpoint,method,r.status,payloadSha256 app r.body,r.body,now + 86400⟩ }

def HttpRequest.trackedAs (r : HttpRequest) : Option (String × String × String) :=
  r.call.tracking.bind fun place => (extractRequestId r).map fun id => (id,place.1,place.2)

def handle (w : World) (db : Db) (r : HttpRequest) : Db × Outcome :=
  match r.call with
  | .createSubmission req => createSubmission app req (extractRequestId r) w db
  | .postModerationDecision submissionId req => postModerationDecision app submissionId req (extractRequestId r) w db
  | .createRevocation req => createRevocation app req (extractRequestId r) w db
  | .publishTrustBundle req => publishTrustBundle app req (extractRequestId r) w db
  | .promoteTrustBundle bundleId reason => promoteTrustBundle app bundleId reason (extractRequestId r) w db
  | .createSessionAuditEvent req => createSessionAuditEvent app req (extractRequestId r) w db

inductive Phase where
  | received
  | checked
  | finishing (r : Response)
  | answered (r : Response)
  | panicked
  deriving DecidableEq

structure Process where
  request : HttpRequest
  phase : Phase
  deriving DecidableEq

def check (w : World) (db : Db) (r : HttpRequest) : Phase :=
  if r.call.isProtected && !requireApiKey app r then .answered unauthorized
  else match r.trackedAs with
    | none => .checked
    | some (id,endpoint,method) =>
      if w.fails "failed to read request tracking" then .answered (message 500 "db_error" "failed to read request tracking")
      else match checkRequestTracking w.now db id endpoint method with
        | some response => .answered response
        | none => .checked

def finish (w : World) (db : Db) (r : HttpRequest) (response : Response) : Db :=
  match r.trackedAs with
  | none => db
  | some (id,endpoint,method) => if w.fails "track_request" then db else trackRequest app w.now id endpoint method response db

def Outcome.phase : Outcome → Phase
  | respond r => .answered r
  | track r => .finishing r
  | panicked => .panicked

def advance (w : World) (db : Db) (p : Process) : Db × Phase :=
  match p.phase with
  | .received => (db,check app w db p.request)
  | .checked => ((handle app w db p.request).1,(handle app w db p.request).2.phase)
  | .finishing response => (finish app w db p.request response,.answered response)
  | .answered response => (db,.answered response)
  | .panicked => (db,.panicked)

structure Service where
  db : Db
  requests : Table Nat Process

inductive Event where
  | arrive (conn : Nat) (r : HttpRequest)
  | advance (conn : Nat) (w : World)

/-- A request may be left at any step, when its connection or the service is gone. -/
def step (s : Service) : Event → Service
  | .arrive conn r =>
    match s.requests.lookup conn with
    | some _ => s
    | none => { s with requests := s.requests.insert conn ⟨r,.received⟩ }
  | .advance conn w =>
    match s.requests.lookup conn with
    | none => s
    | some p =>
      ⟨(PkiService.advance app w s.db p).1,s.requests.insert conn { p with phase := (PkiService.advance app w s.db p).2 }⟩

def start (identityRecords : List String) : Service := ⟨Db.empty identityRecords,∅⟩

end OpenPulse.PkiService
