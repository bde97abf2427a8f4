import OpenPulse.Payloads
import OpenPulse.Tables

/-! On-demand route discovery: `openpulse-core/src/route_discovery.rs`. A
request collects the ids of the nodes that forward it, the answer carries the
whole path back under the responder's signature. -/
namespace OpenPulse.Routes
open ByteCodec Tables Signing Wire Payloads

inductive RouteApplyError where
  | unknownQuery (routeQueryId : UInt64)
  | badSignature
  | emptyRoute
  | unknownRoute (routeId : UInt64)
  | unauthorized
  deriving DecidableEq, Repr

structure RouteEntry where
  destinationPeerId : PeerId
  routeId : UInt64
  hops : List RouteHop
  discoveredAtMs : UInt64
  deriving DecidableEq, Repr

namespace RouteEntry

def minReliabilityPermille (e : RouteEntry) : UInt16 := ((e.hops.map RouteHop.estimatedReliabilityPermille).min?).getD 0

def isImprovedBy (e other : RouteEntry) : Bool :=
  if other.hops.length < e.hops.length then true
  else if e.hops.length < other.hops.length then false
  else e.minReliabilityPermille < other.minReliabilityPermille

end RouteEntry

structure RouteTable where
  capacity : Nat
  ttlMs : UInt64
  entries : Table PeerId RouteEntry
  lru : List PeerId
  order : ValueOrder PeerId RouteEntry

namespace RouteTable

def new (order : ValueOrder PeerId RouteEntry) (capacity : Nat) (ttlMs : UInt64) : RouteTable :=
  ⟨max capacity 1,ttlMs,∅,[],order⟩

def len (t : RouteTable) : Nat := size t.entries

def evictExpired (t : RouteTable) (nowMs : UInt64) : RouteTable :=
  if t.ttlMs = 0 then t
  else
    let entries := retain
      (fun _ e => if nowMs.toNat - e.discoveredAtMs.toNat < t.ttlMs.toNat then some e else none) t.entries
    { t with entries, lru := t.lru.filter (fun k => (entries.lookup k).isSome) }

def touch (t : RouteTable) (dst : PeerId) : RouteTable := { t with lru := Tables.touch t.lru dst }

def enforceCapacity (t : RouteTable) : RouteTable :=
  let (entries, lru) := evictOver t.capacity t.entries t.lru
  { t with entries, lru }

def record (t : RouteTable) (entry : RouteEntry) (nowMs : UInt64) : Bool × RouteTable :=
  let t := t.evictExpired nowMs
  let dst := entry.destinationPeerId
  match t.entries.lookup dst with
  | none => (true, ({ t with entries := t.entries.insert dst entry }.touch dst).enforceCapacity)
  | some existing =>
    if existing.isImprovedBy entry then
      (true, ({ t with entries := t.entries.insert dst entry }.touch dst).enforceCapacity)
    else
      -- an equal or worse route still confirms the one that is held
      let existing := { existing with discoveredAtMs := nowMs }
      (false, ({ t with entries := t.entries.insert dst existing }.touch dst).enforceCapacity)

def bestRoute (t : RouteTable) (destination : PeerId) : Option RouteEntry := t.entries.lookup destination

def entryByRouteId (t : RouteTable) (routeId : UInt64) : Option RouteEntry :=
  (t.order.values t.entries).find? (fun e => e.routeId = routeId)

def remove (t : RouteTable) (destination : PeerId) : Bool × RouteTable :=
  if (t.entries.lookup destination).isSome then
    (true, { t with entries := t.entries.erase destination, lru := t.lru.filter (fun k => k ≠ destination) })
  else (false, t)

def applyUpdate (t : RouteTable) (entry : RouteEntry) (nowMs : UInt64) : Bool × RouteTable :=
  let t := t.evictExpired nowMs
  let dst := entry.destinationPeerId
  if (t.entries.lookup dst).map RouteEntry.routeId = some entry.routeId then
    (true, { t with entries := t.entries.insert dst entry }.touch dst)
  else t.record entry nowMs

end RouteTable

def hopCanonical (h : RouteHop) : Bytes :=
  h.hopPeerId.val ++ (h.hopTrustState :: (le 2 h.estimatedLatencyMs.toNat ++ le 2 h.estimatedReliabilityPermille.toNat))

def routeResponseCanonical (queryId routeId : UInt64) (hops : List RouteHop) : Bytes :=
  le 8 queryId.toNat ++ (le 8 routeId.toNat ++ (hops.length.toUInt8 :: hops.flatMap hopCanonical))

def routeUpdateCanonical (routeId : UInt64) (previousHopCount : UInt8) (routeChangeReason : UInt16)
    (hops : List RouteHop) : Bytes :=
  le 8 routeId.toNat ++ (previousHopCount :: (le 2 routeChangeReason.toNat ++
    (hops.length.toUInt8 :: hops.flatMap hopCanonical)))

def signCanonical (ed : Ed25519) (domain : SigningDomain) (signingKey : Seed) (canonical : Bytes) : Bytes :=
  match signInDomain ed domain signingKey canonical with
  | .ok signature => signature.val
  | .error _ => []

def verifyCanonical (ed : Ed25519) (domain : SigningDomain) (peerId : PeerId) (canonical signature : Bytes) :
    Except RouteApplyError Unit :=
  if ed.fromBytes peerId then
    if fits : signature.length = 64 then
      if verifyInDomain ed domain peerId canonical ⟨signature,fits⟩ then .ok () else .error .badSignature
    else .error .badSignature
  else .error .badSignature

def signRouteResponse (ed : Ed25519) (queryId routeId : UInt64) (hops : List RouteHop) (signingKey : Seed) : Bytes :=
  signCanonical ed .routeResponse signingKey (routeResponseCanonical queryId routeId hops)

def verifyRouteResponse (ed : Ed25519) (response : RouteDiscoveryResponse) (responderPeerId : PeerId) :
    Except RouteApplyError Unit :=
  verifyCanonical ed .routeResponse responderPeerId
    (routeResponseCanonical response.routeQueryId response.routeId response.hops) response.routeSignature

def signRouteUpdate (ed : Ed25519) (routeId : UInt64) (previousHopCount : UInt8) (routeChangeReason : UInt16)
    (hops : List RouteHop) (signingKey : Seed) : Bytes :=
  signCanonical ed .routeUpdate signingKey (routeUpdateCanonical routeId previousHopCount routeChangeReason hops)

def verifyRouteUpdate (ed : Ed25519) (update : RelayRouteUpdate) (emitterPeerId : PeerId) :
    Except RouteApplyError Unit :=
  verifyCanonical ed .routeUpdate emitterPeerId (routeUpdateCanonical update.routeId update.previousHopCount
    update.routeChangeReason update.replacementHops) update.routeUpdateSignature

def applyRouteUpdate (ed : Ed25519) (update : RelayRouteUpdate) (emitterPeerId : PeerId) (table : RouteTable)
    (nowMs : UInt64) : Except RouteApplyError PeerId × RouteTable :=
  match update.replacementHops.getLast? with
  | none => (.error .emptyRoute, table)
  | some dstHop =>
    match verifyRouteUpdate ed update emitterPeerId with
    | .error e => (.error e, table)
    | .ok () =>
      (.ok dstHop.hopPeerId,
        (table.applyUpdate ⟨dstHop.hopPeerId,update.routeId,update.replacementHops,nowMs⟩ nowMs).2)

def applyRouteReject (reject : RelayRouteReject) (table : RouteTable) : Except RouteApplyError PeerId × RouteTable :=
  match table.entryByRouteId reject.routeId with
  | none => (.error (.unknownRoute reject.routeId), table)
  | some e =>
    if e.hops.any (fun h => h.hopPeerId = reject.rejectHopPeerId) then
      (.ok e.destinationPeerId, (table.remove e.destinationPeerId).2)
    else (.error .unauthorized, table)

def pathHops (path : List PeerId) : List RouteHop := path.map (fun id => ⟨id,WireTrustState.unknown.code,0,500⟩)

def accumulateForwarder (request : RouteDiscoveryRequest) (forwarder : PeerId) : Bool × RouteDiscoveryRequest :=
  if request.maxHops.toNat ≤ request.accumulatedPath.length ∨ forwarder ∈ request.accumulatedPath then (false, request)
  else (true, { request with accumulatedPath := request.accumulatedPath ++ [forwarder] })

def seedId (id : PeerId) : UInt64 := (readLe (id.val.take 8)).toUInt64 ||| 1

structure RouteResponder where
  myPeerId : PeerId
  myCapabilityMask : UInt32
  signingKey : Seed
  nextRouteId : UInt64
  deriving DecidableEq, Repr

namespace RouteResponder

def new (ed : Ed25519) (signingKeySeed : Seed) (capabilityMask : UInt32) : RouteResponder :=
  let myPeerId := ed.verifyingKey signingKeySeed
  ⟨myPeerId,capabilityMask,signingKeySeed,seedId myPeerId⟩

def buildSigned (ed : Ed25519) (r : RouteResponder) (queryId : UInt64) (hops : List RouteHop) :
    RouteDiscoveryResponse × RouteResponder :=
  (⟨queryId,r.nextRouteId,hops,signRouteResponse ed queryId r.nextRouteId hops r.signingKey⟩,
    { r with nextRouteId := r.nextRouteId + 1 })

def answer (ed : Ed25519) (r : RouteResponder) (request : RouteDiscoveryRequest) (routeTable : RouteTable) :
    Option RouteDiscoveryResponse × RouteResponder :=
  let required := request.requiredCapabilityMask
  if request.destinationPeerId = r.myPeerId then
    if r.myCapabilityMask &&& required ≠ required then (none, r)
    else
      let here : RouteHop := ⟨r.myPeerId,WireTrustState.trusted.code,0,1000⟩
      let (response, r) := r.buildSigned ed request.routeQueryId (pathHops request.accumulatedPath ++ [here])
      (some response, r)
  else
    match routeTable.bestRoute request.destinationPeerId with
    | some entry =>
      if entry.hops.isEmpty then (none, r)
      else
        let (response, r) := r.buildSigned ed request.routeQueryId (pathHops request.accumulatedPath ++ entry.hops)
        (some response, r)
    | none => (none, r)

def buildRouteUpdate (ed : Ed25519) (r : RouteResponder) (routeId : UInt64) (previousHopCount : UInt8)
    (routeChangeReason : UInt16) (replacementHops : List RouteHop) : RelayRouteUpdate :=
  ⟨routeId,previousHopCount,routeChangeReason,replacementHops,
    signRouteUpdate ed routeId previousHopCount routeChangeReason replacementHops r.signingKey⟩

end RouteResponder

structure PendingQuery where
  destinationPeerId : PeerId
  deadlineMs : UInt64
  deriving DecidableEq, Repr

structure RouteOriginator where
  myPeerId : PeerId
  nextQueryId : UInt64
  queryTimeoutMs : UInt64
  pending : Table UInt64 PendingQuery

def saturatingAdd (a b : UInt64) : UInt64 := (min (a.toNat + b.toNat) 0xFFFFFFFFFFFFFFFF).toUInt64

namespace RouteOriginator

def new (myPeerId : PeerId) (queryTimeoutMs : UInt64) : RouteOriginator := ⟨myPeerId,seedId myPeerId,queryTimeoutMs,∅⟩

def expirePending (o : RouteOriginator) (nowMs : UInt64) : RouteOriginator :=
  { o with pending := retain (fun _ p => if nowMs < p.deadlineMs then some p else none) o.pending }

/-- The query id is spent even when the envelope does not encode. -/
def originate (o : RouteOriginator) (destinationPeerId : PeerId) (maxHops : UInt8) (requiredCapabilityMask : UInt32)
    (policyFlags : UInt16) (nonce : Nonce) (nowMs : UInt64) :
    Except WireQueryError (UInt64 × WireEnvelope) × RouteOriginator :=
  let o := o.expirePending nowMs
  let routeQueryId := o.nextQueryId
  let o := { o with nextQueryId := o.nextQueryId + 1 }
  let request : RouteDiscoveryRequest := ⟨routeQueryId,destinationPeerId,maxHops,requiredCapabilityMask,policyFlags,[]⟩
  let envelope : WireEnvelope :=
    { msgType := .routeDiscoveryRequest
      flags := 0
      sessionId := routeQueryId
      srcPeerId := o.myPeerId
      dstPeerId := destinationPeerId
      nonce
      timestampMs := nowMs
      hopLimit := maxHops
      hopIndex := 0
      payload := request.encode
      signature := none }
  match envelope.encode with
  | .error e => (.error e, o)
  | .ok _ =>
    let waiting : PendingQuery := ⟨destinationPeerId,saturatingAdd nowMs o.queryTimeoutMs⟩
    (.ok (routeQueryId, envelope), { o with pending := o.pending.insert routeQueryId waiting })

def applyResponse (ed : Ed25519) (o : RouteOriginator) (response : RouteDiscoveryResponse) (responderPeerId : PeerId)
    (table : RouteTable) (nowMs : UInt64) : Except RouteApplyError PeerId × RouteOriginator × RouteTable :=
  let o := o.expirePending nowMs
  match o.pending.lookup response.routeQueryId with
  | none => (.error (.unknownQuery response.routeQueryId), o, table)
  | some pending =>
    if response.hops.isEmpty then (.error .emptyRoute, o, table)
    else
      match verifyRouteResponse ed response responderPeerId with
      | .error e => (.error e, o, table)
      | .ok () =>
        let dst := pending.destinationPeerId
        (.ok dst, { o with pending := o.pending.erase response.routeQueryId },
          (table.record ⟨dst,response.routeId,response.hops,nowMs⟩ nowMs).2)

end RouteOriginator

theorem answerNone (ed : Ed25519) (r : RouteResponder) {request : RouteDiscoveryRequest} {table : RouteTable}
    (other : request.destinationPeerId ≠ r.myPeerId) (unknown : table.bestRoute request.destinationPeerId = none) :
    r.answer ed request table = (none, r) := by
  simp [RouteResponder.answer, other, unknown]

theorem accumulateKeeps (request : RouteDiscoveryRequest) (forwarder : PeerId) :
    (accumulateForwarder request forwarder).2.routeQueryId = request.routeQueryId ∧
      (accumulateForwarder request forwarder).2.destinationPeerId = request.destinationPeerId ∧
      (accumulateForwarder request forwarder).2.maxHops = request.maxHops := by
  unfold accumulateForwarder
  split <;> exact ⟨rfl,rfl,rfl⟩

theorem accumulateDestination (request : RouteDiscoveryRequest) (forwarder : PeerId) :
    (accumulateForwarder request forwarder).2.destinationPeerId = request.destinationPeerId :=
  (accumulateKeeps request forwarder).2.1

theorem accumulateCases (request : RouteDiscoveryRequest) (forwarder : PeerId)
    (room : request.accumulatedPath.length < request.maxHops.toNat) :
    (accumulateForwarder request forwarder).2 = request ∧ forwarder ∈ request.accumulatedPath ∨
      (accumulateForwarder request forwarder).2 =
        { request with accumulatedPath := request.accumulatedPath ++ [forwarder] } ∧
        forwarder ∉ request.accumulatedPath := by
  unfold accumulateForwarder
  by_cases known : forwarder ∈ request.accumulatedPath
  · simp [known]
  · simp [known, Nat.not_le.mpr room]

theorem answerIdentity (ed : Ed25519) (r : RouteResponder) (request : RouteDiscoveryRequest) (table : RouteTable) :
    (r.answer ed request table).2.myPeerId = r.myPeerId := by
  unfold RouteResponder.answer
  dsimp only
  split
  · split <;> rfl
  · split
    · split <;> rfl
    · rfl

def direct (r : RouteResponder) (path : List PeerId) : List RouteHop :=
  pathHops path ++ [⟨r.myPeerId,WireTrustState.trusted.code,0,1000⟩]

theorem answerCases {ed : Ed25519} {r : RouteResponder} {request : RouteDiscoveryRequest} {table : RouteTable}
    {response : RouteDiscoveryResponse} (answered : (r.answer ed request table).1 = some response) :
    response.routeQueryId = request.routeQueryId ∧
      (request.destinationPeerId = r.myPeerId ∧ response.hops = direct r request.accumulatedPath ∨
        request.destinationPeerId ≠ r.myPeerId ∧ ∃ entry, table.bestRoute request.destinationPeerId = some entry ∧
          response.hops = pathHops request.accumulatedPath ++ entry.hops) := by
  unfold RouteResponder.answer at answered
  dsimp only at answered
  split at answered
  · rename_i here
    split at answered
    · cases answered
    · cases answered
      exact ⟨rfl,.inl ⟨here,rfl⟩⟩
  · rename_i other
    split at answered
    · rename_i entry held
      split at answered
      · cases answered
      · cases answered
        exact ⟨rfl,.inr ⟨other,entry,held,rfl⟩⟩
    · cases answered

theorem expirePendingOnly {o : RouteOriginator} {now queryId : UInt64} {p : PendingQuery}
    (waiting : (o.expirePending now).pending.lookup queryId = some p) : o.pending.lookup queryId = some p := by
  simp only [RouteOriginator.expirePending, lookupRetain] at waiting
  obtain ⟨held,found,kept⟩ := Option.bind_eq_some_iff.mp waiting
  split at kept
  · cases kept
    exact found
  · cases kept

theorem originateCases (o : RouteOriginator) (destination : PeerId) (maxHops : UInt8) (mask : UInt32) (flags : UInt16)
    (nonce : Nonce) (now : UInt64) :
    let out := o.originate destination maxHops mask flags nonce now
    out.2.myPeerId = o.myPeerId ∧
      ((∃ err, out.1 = .error err) ∧ (∀ q p, out.2.pending.lookup q = some p → o.pending.lookup q = some p) ∨
        ∃ envelope, out.1 = .ok (o.nextQueryId,envelope) ∧ envelope.srcPeerId = o.myPeerId ∧ envelope.hopIndex = 0 ∧
          envelope.hopLimit = maxHops ∧ ∀ q p, out.2.pending.lookup q = some p →
            q = o.nextQueryId ∧ p.destinationPeerId = destination ∨ o.pending.lookup q = some p) := by
  unfold RouteOriginator.originate
  dsimp only
  split
  · exact ⟨rfl,.inl ⟨⟨_,rfl⟩,fun q p waiting => expirePendingOnly waiting⟩⟩
  · refine ⟨rfl,.inr ⟨_,rfl,rfl,rfl,rfl,?_⟩⟩
    intro q p waiting
    rw [lookupInsert] at waiting
    split at waiting
    · rename_i same
      cases waiting
      exact .inl ⟨same,rfl⟩
    · exact .inr (expirePendingOnly waiting)

theorem applyResponseCases (ed : Ed25519) (o : RouteOriginator) (response : RouteDiscoveryResponse) (responder : PeerId)
    (table : RouteTable) (now : UInt64) :
    let out := (o.applyResponse ed response responder table now).2
    out.1.myPeerId = o.myPeerId ∧ (∀ q p, out.1.pending.lookup q = some p → o.pending.lookup q = some p) ∧
      (out.2 = table ∨ ∃ p, o.pending.lookup response.routeQueryId = some p ∧
        out.2 = (table.record ⟨p.destinationPeerId,response.routeId,response.hops,now⟩ now).2) := by
  unfold RouteOriginator.applyResponse
  dsimp only
  split
  · exact ⟨rfl,fun q p => expirePendingOnly,.inl rfl⟩
  · rename_i p waiting
    split
    · exact ⟨rfl,fun q p => expirePendingOnly,.inl rfl⟩
    · split
      · exact ⟨rfl,fun q p => expirePendingOnly,.inl rfl⟩
      · refine ⟨rfl,fun q p left => ?_,.inr ⟨p,expirePendingOnly waiting,rfl⟩⟩
        rw [lookupErase] at left
        split at left
        · cases left
        · exact expirePendingOnly left

theorem applyRouteUpdateCases (ed : Ed25519) (update : RelayRouteUpdate) (emitter : PeerId) (table : RouteTable) (now : UInt64) :
    (applyRouteUpdate ed update emitter table now).2 = table ∨
      ∃ last, update.replacementHops.getLast? = some last ∧ (applyRouteUpdate ed update emitter table now).2 =
        (table.applyUpdate ⟨last.hopPeerId,update.routeId,update.replacementHops,now⟩ now).2 := by
  unfold applyRouteUpdate
  split
  · exact .inl rfl
  · rename_i last final
    split
    · exact .inl rfl
    · exact .inr ⟨last,final,rfl⟩

end OpenPulse.Routes
