import OpenPulse.PkiLedger

/-! Trust bundles of the identity service. The signature of a bundle covers its content and no order of its
members, every bundle in the table carries a good one, and the current bundle is the one promoted last. -/
namespace OpenPulse.PkiBundles
open ByteCodec Tables JsonValues Runs PkiService PkiLedger
open Utf8Texts (encodedInj)

variable {app : App}

theorem canonicalBodyIff (bundleId bundleId' schemaVersion schemaVersion' issuer issuer' : String) (algorithms algorithms' records records' : Value) :
    bundleCanonicalBody bundleId schemaVersion issuer algorithms records =
        bundleCanonicalBody bundleId' schemaVersion' issuer' algorithms' records' ↔
      bundleId = bundleId' ∧ schemaVersion = schemaVersion' ∧ issuer = issuer' ∧ SameContent algorithms algorithms' ∧
        SameContent records records' := by
  constructor
  · intro same
    have values := writeInj (encodedInj same)
    have behind := fun l => congrArg (Value.get l) values
    have ids := behind "bundle_id"
    have versions := behind "schema_version"
    have issuers := behind "issuer_instance_id"
    have algs := behind "signing_algorithms"
    have recs := behind "records"
    simp [getJson] at ids versions issuers algs recs
    exact ⟨ids,versions,issuers,sortedIff.mp algs,sortedIff.mp recs⟩
  · rintro ⟨rfl,rfl,rfl,algs,recs⟩
    rw [bundleCanonicalBody, bundleCanonicalBody, sortedIff.mpr algs, sortedIff.mpr recs]

theorem sizedSome {n : Nat} (raw : Octets n) : sized n raw.val = some raw := dif_pos raw.property

theorem base64Read (raw : Bytes) : Base64.decode (base64Text raw).toList = some raw := by
  rw [base64Text, String.toList_ofList, Base64.decodeEncode]

/-- What the service relies on: its own key is a key, and a signature made with it is accepted. -/
def App.Signs (app : App) : Prop :=
  app.ed.fromBytes (app.ed.verifyingKey app.signingKey) = true ∧
    ∀ message, app.verify (app.ed.verifyingKey app.signingKey) message (app.ed.sign app.signingKey message) = true

theorem verifiesOf {key : Signing.PeerId} {body : Bytes} {signature : Signing.Signature} (known : app.ed.fromBytes key = true)
    (good : app.verify key body signature = true) : verifyBundleSignature app body (base64Text signature.val) key = .ok () := by
  have read : (some key).filter app.ed.fromBytes = some key := by simp [known]
  simp only [verifyBundleSignature, read, orErr, base64Read, sizedSome, bind, Except.bind, good, if_true]

structure Signed (app : App) (id : String) (row : TrustBundle) : Prop where
  key : row.servicePubkey = servicePubkey app
  verifies : verifyBundleSignature app (bundleCanonicalBody id row.schemaVersion row.issuerInstanceId row.signingAlgorithms row.records)
    row.bundleSignature (app.ed.verifyingKey app.signingKey) = .ok ()

theorem rowSigned (signs : App.Signs app) (req : PublishTrustBundleRequest) (generatedAt id : String) :
    Signed app id (bundleRow app req generatedAt id) := ⟨rfl,verifiesOf signs.1 (signs.2 _)⟩

theorem Signed.marked {id : String} {row : TrustBundle} (signed : Signed app id row) (current : Bool) :
    Signed app id { row with isCurrent := current } := ⟨signed.key,signed.verifies⟩

def AllSigned (app : App) (db : Db) : Prop := ∀ id row, db.trustBundles.lookup id = some row → Signed app id row

theorem effectSigned (signs : App.Signs app) {r : HttpRequest} {db next : Db} {e : AuditEvent} (effect : Effect app r db next e)
    (signed : AllSigned app db) : AllSigned app next := by
  cases effect with
  | published req generatedAt id eventId call fresh =>
    intro other row found
    rw [lookupInsert] at found
    split at found
    · next same =>
      cases found
      rw [same]
      exact rowSigned signs req generatedAt id
    · exact signed other row found
  | promoted bundleId eventId reason call present =>
    intro other row found
    simp only [lookupRetain] at found
    cases before : db.trustBundles.lookup other with
    | none => simp [before] at found
    | some old =>
      have kept := signed other old before
      simp only [before, Option.bind_some, Option.some.injEq] at found
      subst found
      split
      · exact kept.marked true
      · exact kept.marked false
  | created => exact signed
  | moderated => exact signed
  | revoked => exact signed
  | audited => exact signed

def lastPromoted (es : List AuditEvent) : Option String :=
  es.foldl (fun last e => if e.eventType = "bundle_promoted" then some e.entityId else last) none

theorem tellCurrent (s : Story) (e : AuditEvent) :
    (s.tell e).current = if e.eventType = "bundle_promoted" then fun id => id == e.entityId else s.current := by
  by_cases promoted : e.eventType = "bundle_promoted"
  · simp [Story.tell, promoted]
  · rw [if_neg promoted, Story.tell, if_neg promoted]
    split
    · rfl
    split
    · split <;> rfl
    split
    · rfl
    split <;> rfl

theorem replayCurrent (es : List AuditEvent) : (replay es).current = fun id => lastPromoted es == some id := by
  induction es using List.reverseRecOn with
  | nil => rfl
  | append_singleton es e ih =>
    have told : replay (es ++ [e]) = (replay es).tell e := by rw [replay, List.foldl_append]; rfl
    have last : lastPromoted (es ++ [e]) = if e.eventType = "bundle_promoted" then some e.entityId else lastPromoted es := by
      rw [lastPromoted, List.foldl_append]
      rfl
    rw [told, tellCurrent, last, ih]
    split
    · funext id
      by_cases same : id = e.entityId
      · simp [same]
      · simp [same, Ne.symm same]
    · rfl

theorem servedThere {db : Db} {id : String} {row : TrustBundle} (served : getCurrentTrustBundle db = some (id,row)) :
    db.trustBundles.lookup id = some row ∧ row.isCurrent = true := by
  obtain ⟨entry,found,same⟩ := Option.map_eq_some_iff.mp served
  cases same
  exact ⟨AList.mem_lookup_iff.mpr (List.mem_of_find?_eq_some found),by simpa using List.find?_some found⟩

theorem marked {db : Db} (ledger : Ledger app db) (id : String) :
    (db.trustBundles.lookup id).any TrustBundle.isCurrent = (lastPromoted db.auditEvents == some id) := by
  have tables := congrArg (fun s => Story.current s id) ledger.tables
  rwa [replayCurrent] at tables

theorem servedPromoted {db : Db} (ledger : Ledger app db) : (getCurrentTrustBundle db).map Prod.fst = lastPromoted db.auditEvents := by
  cases served : getCurrentTrustBundle db with
  | some found =>
    obtain ⟨there,current⟩ := servedThere served
    have last := marked ledger found.1
    rw [there, Option.any_some, current, eq_comm, beq_iff_eq] at last
    exact last.symm
  | none =>
    cases last : lastPromoted db.auditEvents with
    | none => rfl
    | some id =>
      have current := marked ledger id
      rw [last, beq_self_eq_true, Option.any_eq_true] at current
      obtain ⟨row,there,set⟩ := current
      have nothing := List.find?_eq_none.mp (Option.map_eq_none_iff.mp served) ⟨id,row⟩ (AList.mem_lookup_iff.mp there)
      exact absurd set nothing

/-- In every run the bundle served as current is the one promoted last. Each bundle in the table carries the key that the service
shows, and a signature that is good for what it holds, whatever order its members are read in. -/
theorem bundlesServed (signs : App.Signs app) (identityRecords : List String) (events : List Event) {db : Db}
    (reached : (run (step app) (start identityRecords) events).db = db) :
    (getCurrentTrustBundle db).map Prod.fst = lastPromoted db.auditEvents ∧
      (∀ id row, getTrustBundle id db = some row → (row.isCurrent = true ↔ lastPromoted db.auditEvents = some id)) ∧
      ∀ id row, getTrustBundle id db = some row → row.servicePubkey = servicePubkey app ∧
        ∀ algorithms records, SameContent algorithms row.signingAlgorithms → SameContent records row.records →
          verifyBundleSignature app (bundleCanonicalBody id row.schemaVersion row.issuerInstanceId algorithms records)
            row.bundleSignature (app.ed.verifyingKey app.signingKey) = .ok () := by
  have ledger : Ledger app db := reached ▸ ledgerTells app identityRecords events
  have signed : AllSigned app db := reached ▸ tablesRun (fun _ _ _ _ signed effect => effectSigned signs effect signed)
    (fun _ _ signed => signed) (s := start identityRecords) (fun _ _ found => by cases found) events
  refine ⟨servedPromoted ledger,fun id row found => ?_,fun id row found => ⟨(signed id row found).key,fun algorithms records algs recs => ?_⟩⟩
  · have current := marked ledger id
    rw [show db.trustBundles.lookup id = some row from found, Option.any_some] at current
    rw [current, beq_iff_eq]
  · rw [(canonicalBodyIff ..).mpr ⟨rfl,rfl,rfl,algs,recs⟩]
    exact (signed id row found).verifies

theorem tagSigns (app : App) (scheme : app.ed = Signing.tagScheme) (checks : app.verify = Signing.tagScheme.verifyStrict) : App.Signs app := by
  rw [App.Signs, scheme, checks]
  exact ⟨(Signing.tagSchemeCorrect _ []).1,fun message => (Signing.tagSchemeCorrect _ message).2⟩

theorem bundlesServedBench : ∃ row, getTrustBundle "bundle" (run (step bench) (start []) benchEvents).db = some row ∧ row.isCurrent = true ∧
    row.servicePubkey = servicePubkey bench ∧
      verifyBundleSignature bench (bundleCanonicalBody "bundle" row.schemaVersion row.issuerInstanceId row.signingAlgorithms row.records)
        row.bundleSignature (bench.ed.verifyingKey bench.signingKey) = .ok () := by
  obtain ⟨-,current,signed⟩ := bundlesServed (tagSigns bench rfl rfl) [] benchEvents rfl
  obtain ⟨row,found⟩ := Option.isSome_iff_exists.mp
    (show (getTrustBundle "bundle" (run (step bench) (start []) benchEvents).db).isSome = true by decide +kernel)
  have last : lastPromoted (run (step bench) (start []) benchEvents).db.auditEvents = some "bundle" := by decide +kernel
  exact ⟨row,found,(current "bundle" row found).mpr last,(signed "bundle" row found).1,
    (signed "bundle" row found).2 _ _ (fun _ => rfl) fun _ => rfl⟩

end OpenPulse.PkiBundles
