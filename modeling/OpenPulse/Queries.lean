import OpenPulse.Payloads
import OpenPulse.Relay

/-! Flooding of queries: `openpulse-core/src/query_propagation.rs`. Duplicates
are told apart by originator and query id. -/
namespace OpenPulse.Queries
open ByteCodec Tables Signing Wire Payloads Relay

structure QueryKey where
  srcPeerId : String
  queryId : UInt64
  deriving DecidableEq, Repr

structure QueryPropagationTracker where
  ttlMs : UInt64
  capacity : Nat
  seenQueries : Table QueryKey UInt64
  queryLru : List QueryKey
  responseSeen : Table UInt64 (List String)

namespace QueryPropagationTracker

def new (ttlMs : UInt64) (capacity : Nat) : QueryPropagationTracker := ⟨ttlMs,capacity,∅,[],∅⟩

def hasQueryId (seenQueries : Table QueryKey UInt64) (queryId : UInt64) : Bool :=
  seenQueries.keys.any (fun k => k.queryId = queryId)

def evictExpired (t : QueryPropagationTracker) (nowMs : UInt64) : QueryPropagationTracker :=
  let seenQueries := retain
    (fun _ firstSeen => if nowMs.toNat - firstSeen.toNat ≤ t.ttlMs.toNat then some firstSeen else none) t.seenQueries
  { t with
    seenQueries
    queryLru := t.queryLru.filter (fun k => (seenQueries.lookup k).isSome)
    responseSeen := retain (fun queryId who => if hasQueryId seenQueries queryId then some who else none) t.responseSeen }

def evictOverCapacity (capacity : Nat) :
    Table QueryKey UInt64 → Table UInt64 (List String) → List QueryKey →
      Table QueryKey UInt64 × Table UInt64 (List String) × List QueryKey
  | seen, responses, [] => (seen, responses, [])
  | seen, responses, oldest::lru =>
    if capacity < size seen then
      let seen := seen.erase oldest
      let responses := if hasQueryId seen oldest.queryId then responses else responses.erase oldest.queryId
      evictOverCapacity capacity seen responses lru
    else (seen, responses, oldest::lru)

def shouldForwardQuery (t : QueryPropagationTracker) (srcPeerId : String) (queryId nowMs : UInt64) :
    Bool × QueryPropagationTracker :=
  let t := t.evictExpired nowMs
  let key : QueryKey := ⟨srcPeerId,queryId⟩
  if (t.seenQueries.lookup key).isSome then (false, { t with queryLru := touch t.queryLru key })
  else
    let (seenQueries, responseSeen, queryLru) :=
      evictOverCapacity t.capacity (t.seenQueries.insert key nowMs) t.responseSeen (touch t.queryLru key)
    (true, { t with seenQueries, responseSeen, queryLru })

def shouldAcceptResponse (t : QueryPropagationTracker) (queryId : UInt64) (responderPeerId : String) (nowMs : UInt64) :
    Bool × QueryPropagationTracker :=
  let t := t.evictExpired nowMs
  let responders := (t.responseSeen.lookup queryId).getD []
  if responders.contains responderPeerId then (false, t)
  else (true, { t with responseSeen := t.responseSeen.insert queryId (responderPeerId::responders) })

end QueryPropagationTracker

inductive QueryForwardError where
  | hopLimitExceeded (hopIndex hopLimit : UInt8)
  | duplicateDetected
  | policyRejected (srcPeerId : PeerId)
  | msgTypeNotQuery (got : UInt8)
  deriving DecidableEq, Repr

inductive QueryEvent where
  | propagated (queryId : UInt64) (hopIndexOut hopLimit : UInt8)
  | hopLimitReached (queryId : UInt64) (hopIndex : UInt8)
  | duplicateSuppressed (queryId : UInt64)
  | policyRejected (queryId : UInt64) (srcPeerId : PeerId)
  deriving DecidableEq, Repr

structure QueryForwarder where
  tracker : QueryPropagationTracker
  policy : RelayTrustPolicy
  events : List QueryEvent

namespace QueryForwarder

def new (ttlMs : UInt64) (capacity : Nat) (policy : RelayTrustPolicy) : QueryForwarder :=
  ⟨.new ttlMs capacity,policy,[]⟩

def report (f : QueryForwarder) (event : QueryEvent) : QueryForwarder := { f with events := f.events ++ [event] }

def drainEvents (f : QueryForwarder) : List QueryEvent × QueryForwarder := (f.events, { f with events := [] })

/-- The id of a query; a request that does not decode counts as query 0, any other message is no query. -/
def queryIdOf (e : WireEnvelope) : Except QueryForwardError UInt64 :=
  match e.msgType with
  | .peerQueryRequest =>
    match PeerQueryRequest.decode e.payload with
    | .ok r => .ok r.queryId
    | .error _ => .ok 0
  | .routeDiscoveryRequest =>
    match RouteDiscoveryRequest.decode e.payload with
    | .ok r => .ok r.routeQueryId
    | .error _ => .ok 0
  | other => .error (.msgTypeNotQuery other.code)

def propagate (f : QueryForwarder) (e : WireEnvelope) (nowMs : UInt64) :
    Except QueryForwardError WireEnvelope × QueryForwarder :=
  match queryIdOf e with
  | .error err => (.error err, f)
  | .ok queryId =>
    if e.hopIndex ≥ e.hopLimit then
      (.error (.hopLimitExceeded e.hopIndex e.hopLimit), f.report (.hopLimitReached queryId e.hopIndex))
    else if !f.policy.allows (hexPeerId e.srcPeerId) then
      (.error (.policyRejected e.srcPeerId), f.report (.policyRejected queryId e.srcPeerId))
    else
      match f.tracker.shouldForwardQuery (hexPeerId e.srcPeerId) queryId nowMs with
      | (false, tracker) => (.error .duplicateDetected, { f with tracker }.report (.duplicateSuppressed queryId))
      | (true, tracker) =>
        let out := { e with hopIndex := e.hopIndex + 1 }
        (.ok out, { f with tracker }.report (.propagated queryId out.hopIndex out.hopLimit))

end QueryForwarder

theorem propagateOk {f : QueryForwarder} {e out : WireEnvelope} {now : UInt64} (ok : (f.propagate e now).1 = .ok out) :
    (e.msgType = .peerQueryRequest ∨ e.msgType = .routeDiscoveryRequest) ∧ out = { e with hopIndex := e.hopIndex + 1 } := by
  unfold QueryForwarder.propagate at ok
  split at ok
  · cases ok
  · rename_i queryId query
    have kind : e.msgType = .peerQueryRequest ∨ e.msgType = .routeDiscoveryRequest := by
      unfold QueryForwarder.queryIdOf at query
      split at query
      · exact .inl ‹_›
      · exact .inr ‹_›
      · cases query
    refine ⟨kind,?_⟩
    split at ok
    · cases ok
    · split at ok
      · cases ok
      · split at ok
        · cases ok
        · cases ok
          rfl

theorem propagateOther (f : QueryForwarder) {e : WireEnvelope} (now : UInt64)
    (other : e.msgType ≠ .peerQueryRequest ∧ e.msgType ≠ .routeDiscoveryRequest) :
    f.propagate e now = (.error (.msgTypeNotQuery e.msgType.code), f) := by
  have query : QueryForwarder.queryIdOf e = .error (.msgTypeNotQuery e.msgType.code) := by
    unfold QueryForwarder.queryIdOf
    split
    · exact absurd ‹_› other.1
    · exact absurd ‹_› other.2
    · rfl
  simp [QueryForwarder.propagate, query]

end OpenPulse.Queries
