import Mathlib.Logic.Function.Basic
import OpenPulse.MeshNonce
import OpenPulse.Runs

/-! Broadcasts through a mesh. A broadcast is named by the callsign hash and the
sequence number of its originator. A node keeps no record of the broadcasts it has
delivered: every copy it can decode is delivered, and sent on while its TTL lasts. -/
namespace OpenPulse.MeshBroadcast
open ByteCodec Tables Signing Wire Payloads Peers Relay Queries Routes Sar Mesh Runs

abbrev Key := UInt32 × UInt16

def keyOf (f : BroadcastFrame) : Key := (f.callsignHash,f.seq)

def copyOf (e : WireEnvelope) : Option BroadcastFrame :=
  if e.msgType = .broadcastFrame then (BroadcastFrame.decode e.payload).toOption else none

def deliveredKey : MeshEvent → Option Key
  | .broadcastReceived callsignHash seq _ _ => some (callsignHash,seq)
  | _ => none

def carriedKey (e : WireEnvelope) : Option Key := (copyOf e).map keyOf

def airs (radio : ModemEngine × UInt16) (e : WireEnvelope) : ModemEngine × UInt16 :=
  match e.encode with
  | .error _ => radio
  | .ok bytes => (emit radio.1 radio.2 bytes).2

def radio (d : MeshDaemon) : ModemEngine × UInt16 := (d.engine,d.txSegmentId)

def Spreads (copies : List BroadcastFrame) (d d' : MeshDaemon) : Prop :=
  -- the call delivers the `copies` and sends on no others
  ∃ (es : List WireEnvelope) (events : List MeshEvent), radio d' = es.foldl airs (radio d) ∧ d'.events = d.events ++ events ∧
    events.filterMap deliveredKey = copies.map keyOf ∧ (es.filterMap carriedKey).Sublist (copies.map keyOf)

section
variable {a b c : MeshDaemon}

theorem Spreads.still (engine : b.engine = a.engine) (segment : b.txSegmentId = a.txSegmentId) (events : b.events = a.events) :
    Spreads [] a b := ⟨[],[],by simp [radio, engine, segment],by simp [events],rfl,by simp⟩

theorem Spreads.refl (d : MeshDaemon) : Spreads [] d d := .still rfl rfl rfl

theorem Spreads.trans {xs ys : List BroadcastFrame} (first : Spreads xs a b) (second : Spreads ys b c) : Spreads (xs ++ ys) a c := by
  obtain ⟨es,events,sent,reported,delivered,carried⟩ := first
  obtain ⟨fs,more,sentMore,reportedMore,deliveredMore,carriedMore⟩ := second
  refine ⟨es ++ fs,events ++ more,?_,?_,?_,?_⟩
  · rw [sentMore, sent, List.foldl_append]
  · rw [reportedMore, reported, List.append_assoc]
  · rw [List.filterMap_append, delivered, deliveredMore, List.map_append]
  · rw [List.filterMap_append, List.map_append]
    exact carried.append carriedMore

theorem Spreads.set {xs : List BroadcastFrame} (spreads : Spreads xs a b) (engine : c.engine = b.engine)
    (segment : c.txSegmentId = b.txSegmentId) (events : c.events = b.events) : Spreads xs a c := by
  simpa using spreads.trans (.still engine segment events)

theorem Spreads.report {xs : List BroadcastFrame} (spreads : Spreads xs a b) {events : List MeshEvent}
    (quiet : events.filterMap deliveredKey = []) : Spreads xs a (b.report events) := by
  have reported : Spreads [] b (b.report events) := ⟨[],events,rfl,rfl,quiet,by simp⟩
  simpa using spreads.trans reported

end

theorem transmitRadio (d : MeshDaemon) (e : WireEnvelope) :
    radio (d.transmitEnvelope e).2 = airs (radio d) e ∧ (d.transmitEnvelope e).2.events = d.events := by
  unfold MeshDaemon.transmitEnvelope airs
  cases e.encode with
  | error err => exact ⟨rfl,rfl⟩
  | ok bytes => exact ⟨rfl,rfl⟩

theorem transmitSpreads (d : MeshDaemon) {e : WireEnvelope} (other : carriedKey e = none) : Spreads [] d (d.transmitEnvelope e).2 := by
  obtain ⟨sent,reported⟩ := transmitRadio d e
  exact ⟨[e],[],sent,by simp [reported],rfl,by simp [other]⟩

theorem encodeAndTransmitSpreads (d : MeshDaemon) {e : WireEnvelope} (other : carriedKey e = none) :
    Spreads [] d (d.encodeAndTransmit e).2 := by
  rw [← transmitEnvelopeDaemon]
  exact transmitSpreads d other

theorem otherKind {e : WireEnvelope} (kind : e.msgType ≠ .broadcastFrame) : carriedKey e = none := by
  simp [carriedKey, copyOf, kind]

section
variable {ed : Ed25519} {sha256 : Bytes → Octets 32}

theorem handleBroadcastSpreads (d : MeshDaemon) {e : WireEnvelope} (kind : e.msgType = .broadcastFrame) :
    Spreads (copyOf e).toList d (d.handleBroadcastFrame e) := by
  unfold MeshDaemon.handleBroadcastFrame copyOf
  rw [if_pos kind]
  cases decoded : BroadcastFrame.decode e.payload with
  | error err => exact .refl d
  | ok frame =>
    have relayed : ∀ i, carriedKey { e with hopIndex := i, payload := { frame with ttl := frame.ttl - 1 }.encode } =
        some (keyOf frame) := by
      intro i
      simp only [carriedKey, copyOf, kind, if_true, decodeBroadcast]
      rfl
    dsimp only
    split
    · exact ⟨[],_,rfl,rfl,rfl,by simp⟩
    · obtain ⟨sent,reported⟩ := transmitRadio
        (d.report [.broadcastReceived frame.callsignHash frame.seq frame.payload frame.ttl])
        { e with hopIndex := if e.hopIndex = 255 then 255 else e.hopIndex + 1, payload := { frame with ttl := frame.ttl - 1 }.encode }
      exact ⟨[_],_,sent,reported,rfl,by simp [relayed, Except.toOption]⟩

theorem propagateQuerySpreads (d : MeshDaemon) (e : WireEnvelope) (now : UInt64) : Spreads [] d (d.propagateQuery e now) := by
  have quiet : ∀ events : List QueryEvent, (events.map MeshEvent.query).filterMap deliveredKey = [] := by
    intro events
    rw [List.filterMap_map]
    exact List.filterMap_eq_nil_iff.mpr fun _ _ => rfl
  unfold MeshDaemon.propagateQuery
  cases result : (d.queryForwarder.propagate e now).1 with
  | error err =>
    simp only [result]
    exact (Spreads.still rfl rfl rfl).report (quiet _)
  | ok out =>
    obtain ⟨kind,rfl⟩ := propagateOk result
    have other : e.msgType ≠ .broadcastFrame := by rcases kind with kind | kind <;> simp [kind]
    have sent := transmitSpreads d (otherKind (e := { e with hopIndex := e.hopIndex + 1 }) other)
    simp only [result]
    split
    · exact (sent.trans (.still rfl rfl rfl)).report (quiet _)
    · exact sent.trans (.still rfl rfl rfl)

theorem transmitReportSpreads (d : MeshDaemon) {e : WireEnvelope} (other : carriedKey e = none) {events : List MeshEvent}
    (quiet : events.filterMap deliveredKey = []) :
    Spreads [] d (if (d.transmitEnvelope e).1 then (d.transmitEnvelope e).2.report events else (d.transmitEnvelope e).2) := by
  have sent := transmitSpreads d other
  split
  · exact sent.report quiet
  · exact sent

theorem handleRelaySpreads (d : MeshDaemon) {e : WireEnvelope} (now : UInt64) (other : e.msgType ≠ .broadcastFrame) :
    Spreads [] d (d.handleRelay ed e now) := by
  have quiet : ∀ events : List RelayEvent, (events.map MeshEvent.relay).filterMap deliveredKey = [] := by
    intro events
    rw [List.filterMap_map]
    exact List.filterMap_eq_nil_iff.mpr fun _ _ => rfl
  unfold MeshDaemon.handleRelay
  split
  · exact (Spreads.refl d).report rfl
  · split
    · exact (Spreads.refl d).report rfl
    · cases result : (d.relayForwarder.forward ed e now).1 with
      | error err =>
        simp only [result]
        exact (Spreads.still rfl rfl rfl).report (quiet _)
      | ok out =>
        obtain ⟨-,rfl,-⟩ := forwardOk result
        have sent := transmitSpreads d (otherKind (e := { e with hopIndex := e.hopIndex + 1 }) other)
        simp only [result]
        split
        · exact (sent.trans (.still rfl rfl rfl)).report (quiet _)
        · exact sent.trans (.still rfl rfl rfl)

theorem handlePeerQueryRequestSpreads (d : MeshDaemon) (e : WireEnvelope) (now : UInt64) :
    Spreads [] d (d.handlePeerQueryRequest sha256 e now) := by
  have answers : ∀ (d : MeshDaemon) queryId records, Spreads [] d (d.answerQuery sha256 queryId records now) := by
    intro d queryId records
    unfold MeshDaemon.answerQuery
    dsimp only
    split
    · exact .refl d
    · exact transmitReportSpreads d rfl rfl
  unfold MeshDaemon.handlePeerQueryRequest
  split
  · exact .refl d
  · refine Spreads.trans (.still ?_ ?_ ?_) ((answers _ _ _).trans (propagateQuerySpreads _ e now))
    all_goals rfl

theorem handlePeerQueryResponseSpreads (d : MeshDaemon) (e : WireEnvelope) (now : UInt64) :
    Spreads [] d (d.handlePeerQueryResponse e now) := by
  have imports : ∀ (d : MeshDaemon) quality result, Spreads [] d (MeshDaemon.importResult quality now d result) := by
    intro d quality result
    unfold MeshDaemon.importResult
    split
    · exact .refl d
    · dsimp only
      split
      · exact (Spreads.still rfl rfl rfl).report rfl
      · exact .still rfl rfl rfl
  unfold MeshDaemon.handlePeerQueryResponse
  split
  · exact .refl d
  · dsimp only
    refine List.foldlRecOn (motive := fun d' => Spreads [] d d') _ _ ?_ ?_
    · exact .still rfl rfl rfl
    · exact fun d' spreads result _ => spreads.trans (imports d' _ result)

theorem handleRouteDiscoveryRequestSpreads (d : MeshDaemon) (e : WireEnvelope) (now : UInt64) :
    Spreads [] d (d.handleRouteDiscoveryRequest ed e now).2 := by
  unfold MeshDaemon.handleRouteDiscoveryRequest
  split
  · exact .refl d
  · rename_i request _
    dsimp only
    split
    · exact .still rfl rfl rfl
    · rename_i response _
      unfold MeshDaemon.sendAnswer
      split
      · exact .still rfl rfl rfl
      · refine Spreads.trans (b := { d with routeResponder := (d.routeResponder.answer ed request d.routeTable).2 })
          (.still rfl rfl rfl) ?_
        dsimp only
        split
        · exact (transmitSpreads _ rfl).report rfl
        · exact transmitSpreads _ rfl

theorem propagateRouteRequestSpreads (d : MeshDaemon) (e : WireEnvelope) (now : UInt64) :
    Spreads [] d (d.propagateRouteRequest e now) := by
  unfold MeshDaemon.propagateRouteRequest
  split
  · exact propagateQuerySpreads d _ now
  · exact propagateQuerySpreads d _ now

theorem handleRouteDiscoveryResponseSpreads (d : MeshDaemon) (e : WireEnvelope) (now : UInt64) :
    Spreads [] d (d.handleRouteDiscoveryResponse ed e now) := by
  unfold MeshDaemon.handleRouteDiscoveryResponse
  split
  · exact .refl d
  · dsimp only
    split
    · exact (Spreads.still rfl rfl rfl).report rfl
    · exact .still rfl rfl rfl

theorem handleRouteUpdateSpreads (d : MeshDaemon) (e : WireEnvelope) (now : UInt64) :
    Spreads [] d (d.handleRouteUpdate ed e now) := by
  unfold MeshDaemon.handleRouteUpdate
  split
  · exact .refl d
  · dsimp only
    split
    · exact (Spreads.still rfl rfl rfl).report rfl
    · exact .still rfl rfl rfl

theorem handleRouteRejectSpreads (d : MeshDaemon) (e : WireEnvelope) : Spreads [] d (d.handleRouteReject e) := by
  unfold MeshDaemon.handleRouteReject
  split
  · exact .refl d
  · dsimp only
    split
    · exact (Spreads.still rfl rfl rfl).report rfl
    · exact .still rfl rfl rfl

theorem dispatchSpreads (ed : Ed25519) (sha256 : Bytes → Octets 32) (d : MeshDaemon) (e : WireEnvelope) (now : UInt64) :
    Spreads (copyOf e).toList d (d.dispatch ed sha256 e now) := by
  have kind : (d.clamp e).msgType = e.msgType := by rw [clampFields]
  have copy : copyOf (d.clamp e) = copyOf e := by rw [clampFields]; rfl
  have none : e.msgType ≠ .broadcastFrame → (copyOf e).toList = [] := fun other => by simp [copyOf, other]
  unfold MeshDaemon.dispatch
  cases type : e.msgType with
  | broadcastFrame =>
    simp only [kind, type]
    rw [← copy]
    exact handleBroadcastSpreads d (kind.trans type)
  | relayDataChunk | relayHopAck =>
    simp only [kind, type]
    rw [none (by simp [type])]
    exact handleRelaySpreads d now (by simp [kind, type])
  | peerQueryRequest =>
    simp only [kind, type]
    rw [none (by simp [type])]
    exact handlePeerQueryRequestSpreads d _ now
  | peerQueryResponse =>
    simp only [kind, type]
    rw [none (by simp [type])]
    exact handlePeerQueryResponseSpreads d _ now
  | routeDiscoveryRequest =>
    simp only [kind, type]
    rw [none (by simp [type])]
    have handled : Spreads [] d (d.handleRouteDiscoveryRequest ed (d.clamp e) now).2 := handleRouteDiscoveryRequestSpreads d _ now
    split
    · exact handled
    · exact handled.trans (propagateRouteRequestSpreads _ _ now)
  | routeDiscoveryResponse =>
    simp only [kind, type]
    rw [none (by simp [type])]
    split
    · exact handleRouteDiscoveryResponseSpreads d _ now
    · exact propagateQuerySpreads d _ now
  | relayRouteUpdate =>
    simp only [kind, type]
    rw [none (by simp [type])]
    exact (handleRouteUpdateSpreads d _ now).trans (propagateQuerySpreads _ _ now)
  | relayRouteReject =>
    simp only [kind, type]
    rw [none (by simp [type])]
    exact (handleRouteRejectSpreads d _).trans (propagateQuerySpreads _ _ now)
  | rigCtrlCmd =>
    simp only [kind, type]
    rw [none (by simp [type])]
    exact propagateQuerySpreads d _ now

end

def opened (d : MeshDaemon) (bytes : Bytes) (instant : Nat) : List WireEnvelope :=
  match WireEnvelope.decode bytes with
  | .ok e => [e]
  | .error (.unsupportedVersion _ _) => []
  | .error _ =>
    match (d.rxSar.ingest instant meshSarSession bytes).1 with
    | .ok completed => completed.filterMap fun full => (WireEnvelope.decode full).toOption
    | .error _ => []

def heardCopies (d : MeshDaemon) (heard : Option Bytes) (instant : Nat) : List BroadcastFrame :=
  match heard with
  | some bytes => if bytes.isEmpty then [] else (opened d bytes instant).filterMap copyOf
  | none => []

section
variable {ed : Ed25519} {sha256 : Bytes → Octets 32}

theorem dispatchAllSpreads (now : UInt64) (completed : List Bytes) (d : MeshDaemon) :
    Spreads ((completed.filterMap fun full => (WireEnvelope.decode full).toOption).filterMap copyOf) d
      (completed.foldl (MeshDaemon.dispatchDecoded ed sha256 now) d) := by
  induction completed generalizing d with
  | nil => exact .refl d
  | cons full completed ih =>
    rw [List.foldl_cons, MeshDaemon.dispatchDecoded]
    cases decoded : WireEnvelope.decode full with
    | error err => simpa [decoded, Except.toOption] using ih d
    | ok e =>
      have first := (dispatchSpreads ed sha256 d e now).trans (ih _)
      cases copy : copyOf e with
      | none => simpa [decoded, Except.toOption, copy] using first
      | some frame => simpa [decoded, Except.toOption, copy] using first

theorem receiveSpreads (d : MeshDaemon) (bytes : Bytes) (now : UInt64) (instant : Nat) :
    Spreads ((opened d bytes instant).filterMap copyOf) d (d.receive ed sha256 bytes now instant) := by
  unfold MeshDaemon.receive opened
  refine Spreads.set ?_ rfl rfl rfl
  cases WireEnvelope.decode bytes with
  | ok e =>
    have alone : [e].filterMap copyOf = (copyOf e).toList := by cases copy : copyOf e <;> simp [copy]
    rw [alone]
    exact dispatchSpreads ed sha256 d e now
  | error err =>
    cases err with
    | unsupportedVersion got expected => exact .refl d
    | _ =>
      dsimp only
      cases (d.rxSar.ingest instant meshSarSession bytes).1 with
      | error err => exact .still rfl rfl rfl
      | ok completed =>
        refine Spreads.trans (b := { d with rxSar := (d.rxSar.ingest instant meshSarSession bytes).2 })
          (.still rfl rfl rfl) ?_
        exact dispatchAllSpreads now completed _

theorem beaconSpreads (d : MeshDaemon) (now : UInt64) : Spreads [] d (d.sendBeacon now) := by
  unfold MeshDaemon.sendBeacon
  split
  · refine Spreads.trans (b := { d with beacon := (d.beacon.nextBeacon now d.localPeerId d.hopLimit).2.2 })
      (.still rfl rfl rfl) ?_
    exact transmitReportSpreads _ rfl rfl
  · exact .refl d

theorem stepSpreads (ed : Ed25519) (sha256 : Bytes → Octets 32) (d : MeshDaemon) (heard : Option Bytes) (now : UInt64) (instant : Nat) :
    ∃ d', Spreads (heardCopies d heard instant) d d' ∧ d.step ed sha256 heard now instant = (d'.events,{ d' with events := [] }) := by
  refine ⟨_,?_,rfl⟩
  unfold heardCopies
  cases heard with
  | none => exact beaconSpreads d now
  | some bytes =>
    dsimp only
    split
    · exact beaconSpreads d now
    · simpa using (receiveSpreads d bytes now instant).trans (beaconSpreads _ now)

inductive Call where
  | discover (destination : PeerId)
  | send (destination : PeerId) (sessionId : UInt64) (payload : Bytes)
  | update (destination : PeerId) (routeChangeReason : UInt16) (replacementHops : List RouteHop)
  | reject (routeId : UInt64) (reasonCode : UInt16) (trustDecision : UInt8) (policyReference : UInt16) (destination : PeerId)

def call (ed : Ed25519) (d : MeshDaemon) (now : UInt64) : Call → MeshDaemon
  | .discover destination => (d.discoverRoute destination now).2
  | .send destination sessionId payload => (d.sendViaRoute ed destination sessionId payload now).2
  | .update destination routeChangeReason replacementHops => (d.sendRouteUpdate ed destination routeChangeReason replacementHops now).2
  | .reject routeId reasonCode trustDecision policyReference destination =>
    (d.sendRouteReject routeId reasonCode trustDecision policyReference destination now).2

theorem maintenanceSpreads (d : MeshDaemon) {msgType : WireMsgType} (other : msgType ≠ .broadcastFrame) (destination : PeerId)
    (payload : Bytes) (now : UInt64) : Spreads [] d (d.transmitRouteMaintenance msgType destination payload now).2 := by
  refine Spreads.trans (b := { d with routeNonceCounter := d.routeNonceCounter + 1 }) (.still rfl rfl rfl) ?_
  exact encodeAndTransmitSpreads _ (otherKind other)

theorem originateKind {o : RouteOriginator} {destination : PeerId} {maxHops : UInt8} {mask : UInt32} {flags : UInt16} {nonce : Nonce}
    {now queryId : UInt64} {e : WireEnvelope} (ok : (o.originate destination maxHops mask flags nonce now).1 = .ok (queryId,e)) :
    e.msgType = .routeDiscoveryRequest := by
  unfold RouteOriginator.originate at ok
  dsimp only at ok
  split at ok
  · cases ok
  · cases ok
    rfl

theorem callSpreads (ed : Ed25519) (d : MeshDaemon) (now : UInt64) (c : Call) : Spreads [] d (call ed d now c) := by
  cases c with
  | discover destination =>
    unfold call MeshDaemon.discoverRoute
    dsimp only
    generalize made : d.routeOriginator.originate destination d.hopLimit 0 0
      (MeshDaemon.nonceOf d.localPeerId d.routeNonceCounter) now = out
    split
    · exact .still rfl rfl rfl
    · rename_i queryId e ok
      have kind := originateKind (by rw [made]; exact ok)
      have sent : Spreads [] d ({ d with routeNonceCounter := d.routeNonceCounter + 1, routeOriginator := out.2 }.encodeAndTransmit e).2 :=
        Spreads.trans (.still rfl rfl rfl) (encodeAndTransmitSpreads _ (otherKind (by simp [kind])))
      generalize MeshDaemon.encodeAndTransmit _ e = after at sent ⊢
      obtain ⟨result,node⟩ := after
      cases result with
      | error err => exact sent
      | ok done => exact sent
  | send destination sessionId payload =>
    unfold call MeshDaemon.sendViaRoute
    dsimp only
    split
    · exact .still rfl rfl rfl
    · rename_i selected _
      generalize departed : MeshDaemon.signEnvelope ed _ _ = e
      have kind : e.msgType = .relayDataChunk := by
        rw [← departed, MeshNonce.signEnvelopeFields]
        rfl
      have sent : Spreads [] d ({ d with routeTable := d.routeTable.evictExpired now }.encodeAndTransmit e).2 :=
        Spreads.trans (.still rfl rfl rfl) (encodeAndTransmitSpreads _ (otherKind (by simp [kind])))
      generalize MeshDaemon.encodeAndTransmit _ e = after at sent ⊢
      obtain ⟨result,node⟩ := after
      cases result with
      | error err => exact sent
      | ok done => exact sent.report rfl
  | update destination routeChangeReason replacementHops =>
    simp only [call, MeshDaemon.sendRouteUpdate]
    split
    · exact .refl d
    · split
      · exact .refl d
      · exact maintenanceSpreads d (by decide) destination _ now
  | reject routeId reasonCode trustDecision policyReference destination => exact maintenanceSpreads d (by decide) destination _ now

end

variable {N : Type} [DecidableEq N]

structure Node where
  daemon : MeshDaemon
  delivered : List MeshEvent

/- Broadcasts are originated by stations whose frames come from outside the
nodes' own transmissions. -/
inductive Source (N : Type) where
  | nothing
  | outside (frame : Bytes)
  | node (m : N) (i : Nat)

inductive Event (N : Type) where
  | hear (n : N) (source : Source N) (now : UInt64) (instant : Nat)
  | call (n : N) (c : Call) (now : UInt64)

variable (ed : Ed25519) (sha256 : Bytes → Octets 32) (hears : N → N → Bool)

def heardFrom (net : N → Node) (n : N) : Source N → Option Bytes
  | .nothing => none
  | .outside frame => some frame
  | .node m i => if hears n m then (net m).daemon.engine.sent[i]? else none

def step (net : N → Node) : Event N → N → Node
  | .hear n source now instant =>
    let out := (net n).daemon.step ed sha256 (heardFrom hears net n source) now instant
    Function.update net n ⟨out.2,(net n).delivered ++ out.1⟩
  | .call n c now => Function.update net n ⟨call ed (net n).daemon now c,(net n).delivered⟩

def deliveredKeys (node : Node) : List Key := node.delivered.filterMap deliveredKey

def AtMostOnce (start net : N → Node) : Prop :=
  -- no node has delivered a broadcast twice, or handed it to its modem twice
  ∀ n, (deliveredKeys (net n)).Nodup ∧ ∃ es : List WireEnvelope,
    radio (net n).daemon = es.foldl airs (radio (start n).daemon) ∧ (es.filterMap carriedKey).Nodup

/-- The node hears no copy of a broadcast it has delivered, and no two copies of one at once. -/
def NoCopy (net : N → Node) : Event N → Prop
  | .hear n source _ instant =>
    let keys := (heardCopies (net n).daemon (heardFrom hears net n source) instant).map keyOf
    keys.Nodup ∧ ∀ key ∈ keys, key ∉ deliveredKeys (net n)
  | .call _ _ _ => True

def Accounted (start net : N → Node) : Prop :=
  ∀ n, (net n).daemon.events.filterMap deliveredKey = [] ∧ ∃ es : List WireEnvelope,
    radio (net n).daemon = es.foldl airs (radio (start n).daemon) ∧ (es.filterMap carriedKey).Sublist (deliveredKeys (net n))

variable {ed sha256 hears} {start net : N → Node}

omit [DecidableEq N] in
theorem hearNode (ed : Ed25519) (sha256 : Bytes → Octets 32) {d : MeshDaemon} (quiet : d.events.filterMap deliveredKey = []) (heard : Option Bytes) (now : UInt64) (instant : Nat) :
    (d.step ed sha256 heard now instant).2.events = [] ∧
      (d.step ed sha256 heard now instant).1.filterMap deliveredKey = (heardCopies d heard instant).map keyOf ∧
      ∃ es : List WireEnvelope, radio (d.step ed sha256 heard now instant).2 = es.foldl airs (radio d) ∧
        (es.filterMap carriedKey).Sublist ((heardCopies d heard instant).map keyOf) := by
  obtain ⟨d',⟨es,events,sent,reported,delivered,carried⟩,out⟩ := stepSpreads ed sha256 d heard now instant
  rw [out]
  refine ⟨rfl,?_,es,sent,carried⟩
  rw [reported, List.filterMap_append, quiet, delivered, List.nil_append]

omit [DecidableEq N] in
theorem startAccounted (daemons : N → MeshDaemon) (idle : ∀ n, (daemons n).events = []) :
    Accounted (fun n => ⟨daemons n,[]⟩) (fun n => ⟨daemons n,[]⟩) := by
  intro n
  exact ⟨by simp [idle n],[],rfl,by simp⟩

theorem accountedUpdate {n : N} {node : Node} (accounted : Accounted start net)
    (quiet : node.daemon.events.filterMap deliveredKey = []) {es : List WireEnvelope}
    (sent : radio node.daemon = es.foldl airs (radio (start n).daemon))
    (carried : (es.filterMap carriedKey).Sublist (deliveredKeys node)) : Accounted start (Function.update net n node) :=
  (Function.forall_update_iff net fun m node => node.daemon.events.filterMap deliveredKey = [] ∧ ∃ es : List WireEnvelope,
    radio node.daemon = es.foldl airs (radio (start m).daemon) ∧ (es.filterMap carriedKey).Sublist (deliveredKeys node)).mpr
    ⟨⟨quiet,es,sent,carried⟩,fun m _ => accounted m⟩

theorem accountedStep (ed : Ed25519) (sha256 : Bytes → Octets 32) (hears : N → N → Bool) (accounted : Accounted start net)
    (event : Event N) : Accounted start (step ed sha256 hears net event) := by
  cases event with
  | hear n source now instant =>
    obtain ⟨quiet,es,sent,carried⟩ := accounted n
    obtain ⟨empty,delivered,fs,sentMore,carriedMore⟩ := hearNode ed sha256 quiet (heardFrom hears net n source) now instant
    refine @accountedUpdate N _ start net n _ accounted (by rw [empty]; rfl) (es ++ fs) ?_ ?_
    · rw [sentMore, sent, List.foldl_append]
    · rw [deliveredKeys, List.filterMap_append, List.filterMap_append, delivered]
      exact carried.append carriedMore
  | call n c now =>
    obtain ⟨quiet,es,sent,carried⟩ := accounted n
    obtain ⟨fs,events,sentMore,reported,delivered,silent⟩ := callSpreads ed (net n).daemon now c
    have still : (call ed (net n).daemon now c).events.filterMap deliveredKey = [] := by
      rw [reported, List.filterMap_append, quiet, delivered]
      rfl
    refine @accountedUpdate N _ start net n _ accounted still (es ++ fs) ?_ ?_
    · rw [sentMore, sent, List.foldl_append]
    · rw [List.filterMap_append, List.sublist_nil.mp silent, List.append_nil]
      exact carried

theorem atMostOnceStep (accounted : Accounted start net) (once : AtMostOnce start net) (event : Event N) :
    AtMostOnce start (step ed sha256 hears net event) ↔ NoCopy hears net event := by
  have after := accountedStep ed sha256 hears accounted event
  have delivers : AtMostOnce start (step ed sha256 hears net event) ↔
      ∀ n, (deliveredKeys (step ed sha256 hears net event n)).Nodup := by
    constructor
    · exact fun all n => (all n).1
    · intro single n
      obtain ⟨-,es,sent,carried⟩ := after n
      exact ⟨single n,es,sent,carried.nodup (single n)⟩
  rw [delivers]
  cases event with
  | call n c now =>
    refine iff_of_true ?_ trivial
    exact (Function.forall_update_iff net fun _ node => (deliveredKeys node).Nodup).mpr ⟨(once n).1,fun m _ => (once m).1⟩
  | hear n source now instant =>
    obtain ⟨-,delivered,-⟩ := hearNode ed sha256 (accounted n).1 (heardFrom hears net n source) now instant
    have own : deliveredKeys (step ed sha256 hears net (.hear n source now instant) n) =
        deliveredKeys (net n) ++ (heardCopies (net n).daemon (heardFrom hears net n source) instant).map keyOf := by
      simp only [step, Function.update_self, deliveredKeys, List.filterMap_append, delivered]
    constructor
    · intro single
      have here := single n
      rw [own, List.nodup_append] at here
      exact ⟨here.2.1,fun key heard before => here.2.2 key before key heard rfl⟩
    · rintro ⟨distinct,fresh⟩ m
      by_cases same : m = n
      · subst same
        rw [own, List.nodup_append]
        refine ⟨(once m).1,distinct,?_⟩
        rintro key before other heard rfl
        exact fresh key heard before
      · simp only [step, Function.update_of_ne same]
        exact (once m).1

theorem broadcastOnce (ed : Ed25519) (sha256 : Bytes → Octets 32) (hears : N → N → Bool) (daemons : N → MeshDaemon)
    (idle : ∀ n, (daemons n).events = []) (events : List (Event N)) :
    (∀ net ∈ reached (step ed sha256 hears) (fun n => ⟨daemons n,[]⟩) events, AtMostOnce (fun n => ⟨daemons n,[]⟩) net) ↔
      EveryStep (step ed sha256 hears) (NoCopy hears) (fun n => ⟨daemons n,[]⟩) events := by
  have begun : AtMostOnce (fun n => ⟨daemons n,[]⟩) (fun n => (⟨daemons n,[]⟩ : Node)) :=
    fun n => ⟨by simp [deliveredKeys],[],rfl,by simp⟩
  exact reachedIff (fun net event accounted => accountedStep ed sha256 hears accounted event)
    (fun net event accounted once => atMostOnceStep accounted once event) (startAccounted daemons idle) begun

instance decidableNoCopy (hears : N → N → Bool) (net : N → Node) : ∀ event, Decidable (NoCopy hears net event)
  -- a key ranges over a finite type, which must not be searched for the second part
  | .hear n source _ instant =>
    let keys := (heardCopies (net n).daemon (heardFrom hears net n source) instant).map keyOf
    @instDecidableAnd keys.Nodup (∀ key ∈ keys, key ∉ deliveredKeys (net n)) inferInstance (List.decidableBAll _ keys)
  | .call _ _ _ => isTrue trivial

def pair (n : Bool) : MeshDaemon :=
  .new tagScheme ⟨fun _ _ => true,[],[]⟩ (filled 32 n.toUInt8) 4 0 60000 .default 64 600000 (filled 32 n.toUInt8) "W1AW"
    newestFirst

def announced (ttl : UInt8) : Bytes :=
  (WireEnvelope.encode ⟨.broadcastFrame,0,0,filled 32 9,zeros 32,zeros 12,1000,4,0,(BroadcastFrame.mk 7 1 ttl 0 [104, 105]).encode,none⟩).toOption.getD []

def inRange (n m : Bool) : Bool := n != m

def onceAround (ttl : UInt8) : List (Event Bool) :=
  [.hear false (.outside (announced ttl)) 10 0,.hear true (.node false 0) 20 0]

def pairStart (n : Bool) : Node := ⟨pair n,[]⟩

theorem onceAroundNoCopy : EveryStep (step tagScheme (fun _ => zeros 32) inRange) (NoCopy inRange) pairStart (onceAround 1) := by
  decide +kernel

theorem broadcastOncePair :
    (∀ net ∈ reached (step tagScheme (fun _ => zeros 32) inRange) pairStart (onceAround 1), AtMostOnce pairStart net) ∧
      EveryStep (step tagScheme (fun _ => zeros 32) inRange) (NoCopy inRange) pairStart (onceAround 1) :=
  ⟨(broadcastOnce tagScheme (fun _ => zeros 32) inRange pair (fun _ => rfl) (onceAround 1)).mpr onceAroundNoCopy,onceAroundNoCopy⟩

def echoed : Bool → Node :=
  run (step tagScheme (fun _ => zeros 32) inRange) pairStart (onceAround 3 ++ [.hear false (.node true 0) 30 0])

/- With a longer TTL the neighbour's copy comes back, and is delivered and sent on again. -/
theorem echoRepeats : echoed ∈ reached (step tagScheme (fun _ => zeros 32) inRange) pairStart
      (onceAround 3 ++ [.hear false (.node true 0) 30 0]) ∧
    deliveredKeys (echoed false) = [(7,1), (7,1)] ∧ (echoed false).daemon.engine.sent.length = 2 ∧ ¬ AtMostOnce pairStart echoed := by
  have keys : deliveredKeys (echoed false) = [(7,1), (7,1)] := by decide +kernel
  refine ⟨?_,keys,by decide +kernel,fun once => ?_⟩
  · exact List.mem_cons_of_mem _ (List.mem_cons_of_mem _ (List.mem_singleton.mpr rfl))
  · have single := (once false).1
    rw [keys] at single
    simp at single

end OpenPulse.MeshBroadcast
