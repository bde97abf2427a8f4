import OpenPulse.Queries
import OpenPulse.Routes
import OpenPulse.Sar

/-! The mesh daemon: `openpulse-mesh/src/lib.rs` and `beacon.rs`. The modem
engine is a parameter: it takes or refuses a frame in view of the frames it has
been given so far. `now_ms` is the caller's clock; the reassembler has an
instant of its own. Log lines are left out. -/
namespace OpenPulse.Mesh
open ByteCodec Tables Signing Wire Payloads Peers Relay Queries Routes Sar

inductive ModemError where
  | refused
  | fec (e : SarError)
  deriving DecidableEq, Repr

structure ModemEngine where
  accepts : List Bytes → Bytes → Bool
  tried : List Bytes
  sent : List Bytes

namespace ModemEngine

def transmit (g : ModemEngine) (frame : Bytes) : Except ModemError Unit × ModemEngine :=
  if g.accepts g.tried frame then
    (.ok (), { g with tried := g.tried ++ [frame], sent := g.sent ++ [frame] })
  else (.error .refused, { g with tried := g.tried ++ [frame] })

def transmitAll : ModemEngine → List Bytes → Except ModemError Unit × ModemEngine
  | g, [] => (.ok (), g)
  | g, frame::frames =>
    match g.transmit frame with
    | (.ok (), g) => transmitAll g frames
    | (.error e, g) => (.error e, g)

end ModemEngine

def meshMaxSingleFrame : Nat := 255
def meshSarSession : String := "mesh-env"

def emit (engine : ModemEngine) (segmentId : UInt16) (bytes : Bytes) :
    Except ModemError Unit × ModemEngine × UInt16 :=
  if bytes.length ≤ meshMaxSingleFrame then
    let out := engine.transmit bytes
    (out.1, out.2, segmentId)
  else
    match sarEncode segmentId bytes with
    | .error e => (.error (.fec e), engine, segmentId + 1)
    | .ok fragments =>
      let out := engine.transmitAll fragments
      (out.1, out.2, segmentId + 1)

def nonceFromId (id : UInt64) : Nonce := ⟨le 8 id.toNat ++ [0,0,0,0],by simp⟩

/-- Sums of a `u64` wrap, as in a release build. -/
structure BeaconScheduler where
  intervalMs : UInt64
  lastSentMs : UInt64
  nextQueryId : UInt64
  deriving DecidableEq, Repr

namespace BeaconScheduler

def new (intervalS : UInt64) : BeaconScheduler := ⟨intervalS * 1000,0,1⟩

def isDue (b : BeaconScheduler) (nowMs : UInt64) : Bool := 0 < b.intervalMs ∧ b.lastSentMs + b.intervalMs ≤ nowMs

def nextBeacon (b : BeaconScheduler) (nowMs : UInt64) (localPeerId : PeerId) (hopLimit : UInt8) :
    WireEnvelope × UInt64 × BeaconScheduler :=
  let queryId := b.nextQueryId
  let request : PeerQueryRequest := ⟨queryId,0,0,0x02,16⟩
  let envelope : WireEnvelope :=
    { msgType := .peerQueryRequest
      flags := 0
      sessionId := queryId
      srcPeerId := localPeerId
      dstPeerId := zeros 32
      nonce := nonceFromId queryId
      timestampMs := nowMs
      hopLimit
      hopIndex := 0
      payload := request.encode
      signature := none }
  (envelope, queryId, { b with nextQueryId := b.nextQueryId + 1, lastSentMs := nowMs })

end BeaconScheduler

def hexNibble (b : UInt8) : Option UInt8 :=
  if 0x30 ≤ b ∧ b ≤ 0x39 then some (b - 0x30)
  else if 0x61 ≤ b ∧ b ≤ 0x66 then some (b - 0x61 + 10)
  else if 0x41 ≤ b ∧ b ≤ 0x46 then some (b - 0x41 + 10)
  else none

def parseNibbles : Bytes → Option Bytes
  | hi::lo::rest => do
    let hi ← hexNibble hi
    let lo ← hexNibble lo
    let out ← parseNibbles rest
    return (hi <<< 4 ||| lo) :: out
  | _ => some []

def parsePeerIdHex (s : String) : Option PeerId :=
  let raw := s.toUTF8.toList
  if raw.length ≠ 64 then none else (parseNibbles raw).bind (octets 32 0)

def wireTrustFilter (code : UInt8) : TrustFilter :=
  if code = 0x00 then .trustedOnly else if code = 0x01 then .trustedOrUnknown else .any

def trustLevelToWire : TrustLevel → UInt8
  | .verified | .pskVerified => 0x00
  | .unknown => 0x01
  | .reduced => 0x02

def trustFilterAllows (cache : PeerCache) (peerId : PeerId) (filter : TrustFilter) : Bool :=
  let level := ((cache.peek (hexPeerId peerId)).map PeerRecord.trustLevel).getD .unknown
  match filter with
  | .any => true
  | .trustedOrUnknown => level ≠ .reduced
  | .trustedOnly => level = .verified ∨ level = .pskVerified

def maxResultsPerResponse : Nat := 1

inductive MeshError where
  | transmit (e : ModemError)
  | encode (e : WireQueryError)
  | noRoute
  deriving DecidableEq, Repr

inductive MeshEvent where
  | relay (e : RelayEvent)
  | query (e : QueryEvent)
  | beaconSent (queryId : UInt64)
  | frameDelivered (sessionId : UInt64)
  | peerQueried (queryId : UInt64) (resultCount : Nat)
  | routeAnswered (routeQueryId : UInt64)
  | routeDiscovered (destination : PeerId) (routeId : UInt64)
  | routeUsed (destination : PeerId) (sessionId : UInt64) (hopCount : UInt8)
  | routeUpdated (destination : PeerId) (routeId : UInt64)
  | routeRejected (destination : PeerId) (routeId : UInt64)
  | peerDiscovered (peerId : PeerId)
  | broadcastReceived (callsignHash : UInt32) (seq : UInt16) (payload : Bytes) (ttl : UInt8)
  deriving DecidableEq, Repr

structure MeshDaemon where
  engine : ModemEngine
  localPeerId : PeerId
  signingKeySeed : Seed
  callsign : String
  relayForwarder : RelayForwarder
  queryForwarder : QueryForwarder
  beacon : BeaconScheduler
  peerCache : PeerCache
  routeResponder : RouteResponder
  routeOriginator : RouteOriginator
  routeTable : RouteTable
  relayPolicy : RelayTrustPolicy
  routeNonceCounter : UInt32
  relayTrustFilter : TrustFilter
  hopLimit : UInt8
  rxSar : SarReassembler
  txSegmentId : UInt16
  events : List MeshEvent

def selfRecord (localPeerId : PeerId) (updatedAtMs : UInt64) : PeerRecord :=
  ⟨hexPeerId localPeerId,0,255,.verified,0,updatedAtMs,zeros 32⟩

/- The Ed25519 primitives and SHA-256. A peer descriptor cannot fail to sign and
the daemon reads its callsign hash alone, so that hash stands for it. -/
variable (ed : Ed25519) (sha256 : Bytes → Octets 32)

namespace MeshDaemon

def new (engine : ModemEngine) (localPeerId : PeerId) (maxHops : UInt8) (beaconIntervalS ttlMs : UInt64)
    (policy : RelayTrustPolicy) (peerCacheCapacity : Nat) (peerCacheTtlMs : UInt64) (signingKeySeed : Seed)
    (callsign : String) (order : ValueOrder PeerId RouteEntry) : MeshDaemon where
  engine
  localPeerId
  signingKeySeed
  callsign
  relayForwarder := .new ttlMs policy
  queryForwarder := .new ttlMs 1024 policy
  beacon := .new beaconIntervalS
  peerCache := ((PeerCache.new peerCacheCapacity peerCacheTtlMs).upsert (selfRecord localPeerId 0) 0).2
  routeResponder := .new ed signingKeySeed 0
  routeOriginator := .new localPeerId ttlMs
  routeTable := .new order peerCacheCapacity peerCacheTtlMs
  relayPolicy := policy
  routeNonceCounter := 0
  relayTrustFilter := policy.minTrustFilter
  hopLimit := maxHops
  rxSar := .new 30000
  txSegmentId := 0
  events := []

def report (d : MeshDaemon) (events : List MeshEvent) : MeshDaemon := { d with events := d.events ++ events }

def transmitBytes (d : MeshDaemon) (bytes : Bytes) : Except MeshError Unit × MeshDaemon :=
  let out := emit d.engine d.txSegmentId bytes
  (out.1.mapError .transmit, { d with engine := out.2.1, txSegmentId := out.2.2 })

/-- `encode().ok().and_then(|b| self.transmit_bytes(&b).ok()).is_some()`. -/
def transmitEnvelope (d : MeshDaemon) (e : WireEnvelope) : Bool × MeshDaemon :=
  match e.encode with
  | .error _ => (false, d)
  | .ok bytes =>
    let out := d.transmitBytes bytes
    (out.1.isOk, out.2)

def encodeAndTransmit (d : MeshDaemon) (e : WireEnvelope) : Except MeshError Unit × MeshDaemon :=
  match e.encode with
  | .error err => (.error (.encode err), d)
  | .ok bytes => d.transmitBytes bytes

def signEnvelope (d : MeshDaemon) (e : WireEnvelope) : WireEnvelope :=
  if (e.msgType = .relayDataChunk ∨ e.msgType = .relayHopAck) ∧ e.srcPeerId = d.localPeerId then
    match e.sign ed d.signingKeySeed with
    | .ok signed => signed
    | .error _ => e
  else e

def sendRelay (d : MeshDaemon) (e : WireEnvelope) : Except MeshError Unit × MeshDaemon :=
  d.encodeAndTransmit (d.signEnvelope ed e)

def nonceOf (localPeerId : PeerId) (n : UInt32) : Nonce :=
  ⟨localPeerId.val.take 8 ++ le 4 n.toNat,by simp [localPeerId.property]⟩

def discoverRoute (d : MeshDaemon) (destination : PeerId) (nowMs : UInt64) : Except MeshError UInt64 × MeshDaemon :=
  let nonce := nonceOf d.localPeerId d.routeNonceCounter
  let out := d.routeOriginator.originate destination d.hopLimit 0 0 nonce nowMs
  let d := { d with routeNonceCounter := d.routeNonceCounter + 1, routeOriginator := out.2 }
  match out.1 with
  | .error e => (.error (.encode e), d)
  | .ok (queryId, envelope) =>
    match d.encodeAndTransmit envelope with
    | (.error e, d) => (.error e, d)
    | (.ok (), d) => (.ok queryId, d)

def routeCandidates (d : MeshDaemon) (destination : PeerId) : List (List String) :=
  let self := hexPeerId d.localPeerId
  let dst := hexPeerId destination
  let direct := if (d.peerCache.peek dst).isSome then [[self,dst]] else []
  match d.routeTable.bestRoute destination with
  | some entry => direct ++ [self :: entry.hops.map (fun h => hexPeerId h.hopPeerId)]
  | none => direct

def chooseRoute (d : MeshDaemon) (destination : PeerId) : Except RelayRouteError (List String) :=
  selectBestScoredRoute (d.routeCandidates destination) d.hopLimit.toNat d.relayPolicy d.peerCache

/- `hop_count.clamp(1, self.hop_limit)`. The call would panic on a hop limit of
zero, but no route of the table is valid under that limit. -/
def clampHops (hopCount hopLimit : UInt8) : UInt8 :=
  if hopCount < 1 then 1 else if hopLimit < hopCount then hopLimit else hopCount

def dataEnvelope (d : MeshDaemon) (destination : PeerId) (sessionId : UInt64) (payload : Bytes) (nowMs : UInt64)
    (hopCount : UInt8) : WireEnvelope where
  msgType := .relayDataChunk
  flags := 0
  sessionId
  srcPeerId := d.localPeerId
  dstPeerId := destination
  nonce := nonceOf d.localPeerId sessionId.toUInt32
  timestampMs := nowMs
  hopLimit := clampHops hopCount d.hopLimit
  hopIndex := 0
  payload
  signature := none

def sendViaRoute (d : MeshDaemon) (destination : PeerId) (sessionId : UInt64) (payload : Bytes) (nowMs : UInt64) :
    Except MeshError (List String) × MeshDaemon :=
  let d := { d with routeTable := d.routeTable.evictExpired nowMs }
  match d.chooseRoute destination with
  | .error _ => (.error .noRoute, d)
  | .ok selected =>
    let hopCount := (selected.length - 1).toUInt8
    match d.encodeAndTransmit (d.signEnvelope ed (d.dataEnvelope destination sessionId payload nowMs hopCount)) with
    | (.error e, d) => (.error e, d)
    | (.ok (), d) => (.ok selected, d.report [.routeUsed destination sessionId hopCount])

def transmitRouteMaintenance (d : MeshDaemon) (msgType : WireMsgType) (destination : PeerId) (payload : Bytes)
    (nowMs : UInt64) : Except MeshError Unit × MeshDaemon :=
  let envelope : WireEnvelope :=
    { msgType
      flags := 0
      sessionId := 0
      srcPeerId := d.localPeerId
      dstPeerId := destination
      nonce := nonceOf d.localPeerId d.routeNonceCounter
      timestampMs := nowMs
      hopLimit := d.hopLimit
      hopIndex := 0
      payload
      signature := none }
  { d with routeNonceCounter := d.routeNonceCounter + 1 }.encodeAndTransmit envelope

def sendRouteUpdate (d : MeshDaemon) (destination : PeerId) (routeChangeReason : UInt16)
    (replacementHops : List RouteHop) (nowMs : UInt64) : Except MeshError Unit × MeshDaemon :=
  match d.routeTable.bestRoute destination with
  | none => (.error .noRoute, d)
  | some entry =>
    let update := d.routeResponder.buildRouteUpdate ed entry.routeId entry.hops.length.toUInt8 routeChangeReason
      replacementHops
    match update.encode with
    | .error e => (.error (.encode e), d)
    | .ok payload => d.transmitRouteMaintenance .relayRouteUpdate destination payload nowMs

def sendRouteReject (d : MeshDaemon) (routeId : UInt64) (reasonCode : UInt16) (trustDecision : UInt8)
    (policyReference : UInt16) (destination : PeerId) (nowMs : UInt64) : Except MeshError Unit × MeshDaemon :=
  let reject : RelayRouteReject := ⟨routeId,d.localPeerId,reasonCode,trustDecision,policyReference⟩
  d.transmitRouteMaintenance .relayRouteReject destination reject.encode nowMs

def propagateQuery (d : MeshDaemon) (e : WireEnvelope) (nowMs : UInt64) : MeshDaemon :=
  let out := d.queryForwarder.propagate e nowMs
  let events := out.2.drainEvents.1.map MeshEvent.query
  let forwarder := out.2.drainEvents.2
  match out.1 with
  | .ok forwarded =>
    let sent := d.transmitEnvelope forwarded
    let d := { sent.2 with queryForwarder := forwarder }
    if sent.1 then d.report events else d
  | .error _ => { d with queryForwarder := forwarder }.report events

def propagateRouteRequest (d : MeshDaemon) (e : WireEnvelope) (nowMs : UInt64) : MeshDaemon :=
  match RouteDiscoveryRequest.decode e.payload with
  | .error _ => d.propagateQuery e nowMs
  | .ok request =>
    let extended := accumulateForwarder request d.localPeerId
    d.propagateQuery (if extended.1 then { e with payload := extended.2.encode } else e) nowMs

def routeReply (d : MeshDaemon) (request : RouteDiscoveryRequest) (source : PeerId) (payload : Bytes)
    (nowMs : UInt64) : WireEnvelope where
  msgType := .routeDiscoveryResponse
  flags := 0
  sessionId := request.routeQueryId
  srcPeerId := d.routeResponder.myPeerId
  dstPeerId := source
  nonce := nonceFromId request.routeQueryId
  timestampMs := nowMs
  hopLimit := d.hopLimit
  hopIndex := 0
  payload
  signature := none

def sendAnswer (d : MeshDaemon) (request : RouteDiscoveryRequest) (source : PeerId) (response : RouteDiscoveryResponse)
    (nowMs : UInt64) : Bool × MeshDaemon :=
  match response.encode with
  | .error _ => (false, d)
  | .ok payload =>
    let sent := d.transmitEnvelope (d.routeReply request source payload nowMs)
    if sent.1 then (true, sent.2.report [.routeAnswered request.routeQueryId]) else (false, sent.2)

def handleRouteDiscoveryRequest (d : MeshDaemon) (e : WireEnvelope) (nowMs : UInt64) : Bool × MeshDaemon :=
  match RouteDiscoveryRequest.decode e.payload with
  | .error _ => (false, d)
  | .ok request =>
    let out := d.routeResponder.answer ed request d.routeTable
    let d := { d with routeResponder := out.2 }
    match out.1 with
    | none => (false, d)
    | some response => d.sendAnswer request e.srcPeerId response nowMs

def handleRouteDiscoveryResponse (d : MeshDaemon) (e : WireEnvelope) (nowMs : UInt64) : MeshDaemon :=
  match RouteDiscoveryResponse.decode e.payload with
  | .error _ => d
  | .ok response =>
    let out := d.routeOriginator.applyResponse ed response e.srcPeerId d.routeTable nowMs
    let d := { d with routeOriginator := out.2.1, routeTable := out.2.2 }
    match out.1 with
    | .ok destination => d.report [.routeDiscovered destination response.routeId]
    | .error _ => d

def handleRouteUpdate (d : MeshDaemon) (e : WireEnvelope) (nowMs : UInt64) : MeshDaemon :=
  match RelayRouteUpdate.decode e.payload with
  | .error _ => d
  | .ok update =>
    let out := applyRouteUpdate ed update e.srcPeerId d.routeTable nowMs
    let d := { d with routeTable := out.2 }
    match out.1 with
    | .ok destination => d.report [.routeUpdated destination update.routeId]
    | .error _ => d

def handleRouteReject (d : MeshDaemon) (e : WireEnvelope) : MeshDaemon :=
  match RelayRouteReject.decode e.payload with
  | .error _ => d
  | .ok reject =>
    let out := applyRouteReject reject d.routeTable
    let d := { d with routeTable := out.2 }
    match out.1 with
    | .ok destination => d.report [.routeRejected destination reject.routeId]
    | .error _ => d

def handleBroadcastFrame (d : MeshDaemon) (e : WireEnvelope) : MeshDaemon :=
  match BroadcastFrame.decode e.payload with
  | .error _ => d
  | .ok frame =>
    let d := d.report [.broadcastReceived frame.callsignHash frame.seq frame.payload frame.ttl]
    if frame.ttl = 0 then d
    else
      let relayFrame := { frame with ttl := frame.ttl - 1 }
      let hopIndex := if e.hopIndex = 255 then 255 else e.hopIndex + 1
      (d.transmitEnvelope { e with hopIndex, payload := relayFrame.encode }).2

def queryResult (d : MeshDaemon) (r : PeerRecord) : Option PeerQueryResult :=
  (parsePeerIdHex r.peerId).map (fun peerId =>
    { peerId
      callsignHash := if peerId = d.localPeerId then sha256 d.callsign.toUTF8.toList else r.callsignHash
      capabilityMask := r.capabilityMask
      lastSeenMs := r.updatedAtMs
      trustState := trustLevelToWire r.trustLevel
      descriptorSignature := [] })

def queryReply (d : MeshDaemon) (queryId : UInt64) (payload : Bytes) (nowMs : UInt64) : WireEnvelope where
  msgType := .peerQueryResponse
  flags := 0
  sessionId := queryId
  srcPeerId := d.localPeerId
  dstPeerId := zeros 32
  nonce := nonceFromId queryId
  timestampMs := nowMs
  hopLimit := d.hopLimit
  hopIndex := 0
  payload
  signature := none

def answerQuery (d : MeshDaemon) (queryId : UInt64) (records : List PeerRecord) (nowMs : UInt64) : MeshDaemon :=
  let response : PeerQueryResponse := ⟨queryId,records.filterMap (d.queryResult sha256)⟩
  match response.encode with
  | .error _ => d
  | .ok payload =>
    let sent := d.transmitEnvelope (d.queryReply queryId payload nowMs)
    if sent.1 then sent.2.report [.peerQueried queryId records.length] else sent.2

def handlePeerQueryRequest (d : MeshDaemon) (e : WireEnvelope) (nowMs : UInt64) : MeshDaemon :=
  match PeerQueryRequest.decode e.payload with
  | .error _ => d
  | .ok request =>
    let refreshed := (d.peerCache.upsert (selfRecord d.localPeerId nowMs) nowMs).2
    let minQuality := (min request.minLinkQuality.toNat 255).toUInt8
    let maxResults := min request.maxResults.toNat maxResultsPerResponse
    let out := refreshed.query request.capabilityMask minQuality (wireTrustFilter request.trustFilter) maxResults nowMs
    let d := { d with peerCache := out.2 }
    (d.answerQuery sha256 request.queryId out.1 nowMs).propagateQuery e nowMs

def importResult (routeQuality : UInt8) (nowMs : UInt64) (d : MeshDaemon) (result : PeerQueryResult) : MeshDaemon :=
  if result.peerId = d.localPeerId then d
  else
    let peerId := hexPeerId result.peerId
    let isNew := (d.peerCache.peek peerId).isNone
    let record : PeerRecord := ⟨peerId,result.capabilityMask,routeQuality,.unknown,0,nowMs,result.callsignHash⟩
    let d := { d with peerCache := (d.peerCache.upsert record nowMs).2 }
    if isNew then d.report [.peerDiscovered result.peerId] else d

def handlePeerQueryResponse (d : MeshDaemon) (e : WireEnvelope) (nowMs : UInt64) : MeshDaemon :=
  match PeerQueryResponse.decode e.payload with
  | .error _ => d
  | .ok response =>
    let routeQuality := (255 / (e.hopIndex.toNat + 1)).toUInt8
    response.results.foldl (importResult routeQuality nowMs) { d with peerCache := d.peerCache.evictExpired nowMs }

def handleRelay (d : MeshDaemon) (e : WireEnvelope) (nowMs : UInt64) : MeshDaemon :=
  if e.dstPeerId = d.localPeerId then d.report [.frameDelivered e.sessionId]
  else if !trustFilterAllows d.peerCache e.srcPeerId d.relayTrustFilter then
    d.report [.relay (.policyRejected e.sessionId e.srcPeerId)]
  else
    let out := d.relayForwarder.forward ed e nowMs
    let events := out.2.drainEvents.1.map MeshEvent.relay
    let forwarder := out.2.drainEvents.2
    match out.1 with
    | .ok forwarded =>
      let sent := d.transmitEnvelope forwarded
      let d := { sent.2 with relayForwarder := forwarder }
      if sent.1 then d.report events else d
    | .error _ => { d with relayForwarder := forwarder }.report events

def clamp (d : MeshDaemon) (e : WireEnvelope) : WireEnvelope :=
  if d.hopLimit < e.hopLimit then { e with hopLimit := d.hopLimit } else e

def dispatch (d : MeshDaemon) (envelope : WireEnvelope) (nowMs : UInt64) : MeshDaemon :=
  let e := d.clamp envelope
  match e.msgType with
  | .broadcastFrame => d.handleBroadcastFrame e
  | .relayDataChunk | .relayHopAck => d.handleRelay ed e nowMs
  | .peerQueryRequest => d.handlePeerQueryRequest sha256 e nowMs
  | .peerQueryResponse => d.handlePeerQueryResponse e nowMs
  | .routeDiscoveryRequest =>
    let answered := d.handleRouteDiscoveryRequest ed e nowMs
    if answered.1 then answered.2 else answered.2.propagateRouteRequest e nowMs
  | .routeDiscoveryResponse =>
    if e.dstPeerId = d.localPeerId then d.handleRouteDiscoveryResponse ed e nowMs else d.propagateQuery e nowMs
  | .relayRouteUpdate => (d.handleRouteUpdate ed e nowMs).propagateQuery e nowMs
  | .relayRouteReject => (d.handleRouteReject e).propagateQuery e nowMs
  | .rigCtrlCmd => d.propagateQuery e nowMs

def dispatchDecoded (nowMs : UInt64) (d : MeshDaemon) (bytes : Bytes) : MeshDaemon :=
  match WireEnvelope.decode bytes with
  | .ok envelope => d.dispatch ed sha256 envelope nowMs
  | .error _ => d

def receive (d : MeshDaemon) (bytes : Bytes) (nowMs : UInt64) (instant : Nat) : MeshDaemon :=
  let d :=
    match WireEnvelope.decode bytes with
    | .ok envelope => d.dispatch ed sha256 envelope nowMs
    | .error (.unsupportedVersion _ _) => d
    | .error _ =>
      let out := d.rxSar.ingest instant meshSarSession bytes
      let d := { d with rxSar := out.2 }
      match out.1 with
      | .ok completed => completed.foldl (dispatchDecoded ed sha256 nowMs) d
      | .error _ => d
  { d with rxSar := d.rxSar.expire instant }

def sendBeacon (d : MeshDaemon) (nowMs : UInt64) : MeshDaemon :=
  if d.beacon.isDue nowMs then
    let next := d.beacon.nextBeacon nowMs d.localPeerId d.hopLimit
    let sent := { d with beacon := next.2.2 }.transmitEnvelope next.1
    if sent.1 then sent.2.report [.beaconSent next.2.1] else sent.2
  else d

/-- `heard` is what the engine's `receive` returned, if it did. -/
def step (d : MeshDaemon) (heard : Option Bytes) (nowMs : UInt64) (instant : Nat) : List MeshEvent × MeshDaemon :=
  let d :=
    match heard with
    | some bytes => if bytes.isEmpty then d else d.receive ed sha256 bytes nowMs instant
    | none => d
  let d := d.sendBeacon nowMs
  (d.events, { d with events := [] })

end MeshDaemon

theorem clampFields (d : MeshDaemon) (e : WireEnvelope) : d.clamp e = { e with hopLimit := (d.clamp e).hopLimit } := by
  unfold MeshDaemon.clamp
  split <;> rfl

theorem transmitEnvelopeDaemon (d : MeshDaemon) (e : WireEnvelope) :
    (d.transmitEnvelope e).2 = (d.encodeAndTransmit e).2 := by
  unfold MeshDaemon.transmitEnvelope MeshDaemon.encodeAndTransmit
  cases e.encode <;> rfl

def frames (segmentId : UInt16) (bytes : Bytes) : List Bytes :=
  if bytes.length ≤ meshMaxSingleFrame then [bytes]
  else if bytes.length ≤ sarMaxSegmentData then payloads segmentId bytes
  else []

def ModemEngine.Works (g : ModemEngine) : Prop :=
  ∀ tried frame, frame.length ≤ meshMaxSingleFrame → g.accepts tried frame = true

theorem payloadShort {segmentId : UInt16} {data frame : Bytes} (member : frame ∈ payloads segmentId data) :
    frame.length ≤ meshMaxSingleFrame := by
  obtain ⟨i,-,rfl⟩ := List.mem_map.mp member
  simp only [payloadOf, chunk, sarMaxFragmentData, sarHeaderSize, List.length_cons, List.length_take, meshMaxSingleFrame]
  omega

theorem framesShort {segmentId : UInt16} {bytes frame : Bytes} (member : frame ∈ frames segmentId bytes) :
    frame.length ≤ meshMaxSingleFrame := by
  unfold frames at member
  split at member
  · rw [List.mem_singleton.mp member]
    assumption
  · split at member
    · exact payloadShort member
    · cases member

theorem framesNonempty {segmentId : UInt16} {bytes : Bytes} (fits : bytes.length ≤ sarMaxSegmentData) :
    frames segmentId bytes ≠ [] := by
  unfold frames
  split
  · simp
  · have some := chunkCountPos bytes
    simp [payloads, Nat.pos_iff_ne_zero.mp some]

theorem payloadsData (segmentId : UInt16) (data : Bytes) :
    ((payloads segmentId data).map (List.drop sarHeaderSize)).flatten = data := by
  conv_rhs => rw [← chunksWhole data]
  rw [payloads, List.map_map]
  rfl

theorem framesInj {segmentId : UInt16} {a b : Bytes} (left : a.length ≤ sarMaxSegmentData)
    (right : b.length ≤ sarMaxSegmentData) (same : frames segmentId a = frames segmentId b) : a = b := by
  have several : ∀ {data : Bytes}, ¬ data.length ≤ meshMaxSingleFrame → (payloads segmentId data).length ≠ 1 := by
    intro data large single
    have covered := chunkCountCovers data
    simp only [payloads, List.length_map, List.length_range] at single
    rw [single] at covered
    simp only [sarMaxFragmentData, sarHeaderSize, meshMaxSingleFrame] at covered large
    omega
  unfold frames at same
  by_cases smallA : a.length ≤ meshMaxSingleFrame <;> by_cases smallB : b.length ≤ meshMaxSingleFrame
  · simpa [smallA, smallB] using same
  · simp only [smallA, smallB, right, if_true, if_false] at same
    exact absurd (by rw [← same]; rfl) (several smallB)
  · simp only [smallA, smallB, left, if_true, if_false] at same
    exact absurd (by rw [same]; rfl) (several smallA)
  · simp only [smallA, smallB, left, right, if_true, if_false] at same
    rw [← payloadsData segmentId a, same, payloadsData]

theorem transmitSent (g : ModemEngine) (frame : Bytes) : ∃ n, (g.transmit frame).2.sent = g.sent ++ [frame].take n := by
  unfold ModemEngine.transmit
  split
  · exact ⟨1,rfl⟩
  · exact ⟨0,by simp⟩

theorem transmitAllSent (g : ModemEngine) (fs : List Bytes) : ∃ n, (g.transmitAll fs).2.sent = g.sent ++ fs.take n := by
  induction fs generalizing g with
  | nil => exact ⟨0,by simp [ModemEngine.transmitAll]⟩
  | cons frame fs ih =>
    unfold ModemEngine.transmitAll ModemEngine.transmit
    split
    · rename_i g' taken
      split at taken
      · cases taken
        obtain ⟨n,sent⟩ := ih { g with tried := g.tried ++ [frame], sent := g.sent ++ [frame] }
        exact ⟨n + 1,by simp [sent]⟩
      · cases taken
    · rename_i g' refused
      split at refused
      · cases refused
      · cases refused
        exact ⟨0,by simp⟩

theorem emitSent (g : ModemEngine) (segmentId : UInt16) (bytes : Bytes) :
    ∃ n, (emit g segmentId bytes).2.1.sent = g.sent ++ (frames segmentId bytes).take n := by
  unfold emit frames sarEncode
  by_cases small : bytes.length ≤ meshMaxSingleFrame
  · simpa [small] using transmitSent g bytes
  · by_cases fits : bytes.length ≤ sarMaxSegmentData
    · simpa [small, fits, Nat.not_lt.mpr fits] using transmitAllSent g (payloads segmentId bytes)
    · exact ⟨0,by simp [small, Nat.not_le.mp fits]⟩

theorem transmitAllWorks {g : ModemEngine} (works : g.Works) {fs : List Bytes}
    (short : ∀ f ∈ fs, f.length ≤ meshMaxSingleFrame) :
    g.transmitAll fs = (.ok (), { g with tried := g.tried ++ fs, sent := g.sent ++ fs }) := by
  induction fs generalizing g with
  | nil => simp [ModemEngine.transmitAll]
  | cons frame fs ih =>
    have taken := works g.tried frame (short frame (by simp))
    have rest := ih (g := { g with tried := g.tried ++ [frame], sent := g.sent ++ [frame] }) works
      (fun f member => short f (by simp [member]))
    simp [ModemEngine.transmitAll, ModemEngine.transmit, taken, rest]

theorem emitWorks {g : ModemEngine} (works : g.Works) (segmentId : UInt16) {bytes : Bytes}
    (fits : bytes.length ≤ sarMaxSegmentData) :
    (emit g segmentId bytes).1 = .ok () ∧ (emit g segmentId bytes).2.1.sent = g.sent ++ frames segmentId bytes := by
  have short : ∀ frame ∈ frames segmentId bytes, frame.length ≤ meshMaxSingleFrame := fun frame => framesShort
  unfold emit frames sarEncode at *
  by_cases small : bytes.length ≤ meshMaxSingleFrame
  · simp [small, ModemEngine.transmit, works g.tried bytes small]
  · simp only [small, fits, Nat.not_lt.mpr fits, if_true, if_false] at short ⊢
    rw [transmitAllWorks works short]
    exact ⟨rfl,rfl⟩

theorem transmitEnvelopeWorks {d : MeshDaemon} (works : d.engine.Works) {e : WireEnvelope} {bytes : Bytes}
    (encoded : e.encode = .ok bytes) (fits : bytes.length ≤ sarMaxSegmentData) :
    (d.transmitEnvelope e).1 = true ∧
      (d.transmitEnvelope e).2.engine.sent = d.engine.sent ++ frames d.txSegmentId bytes := by
  obtain ⟨ok,sent⟩ := emitWorks works d.txSegmentId fits
  simp [MeshDaemon.transmitEnvelope, encoded, MeshDaemon.transmitBytes, ok, sent, Except.mapError, Except.isOk, Except.toBool]

end OpenPulse.Mesh
