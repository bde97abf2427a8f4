import Mathlib.Logic.Function.Basic
import OpenPulse.Mesh
import OpenPulse.Runs

/-! Route discovery over relays. Requests are flooded; responses, updates and
rejects are handed to the same forwarder, which takes requests only. So the
answer of a destination goes as far as its neighbours and no farther. -/
namespace OpenPulse.MeshDiscovery
open ByteCodec Tables Signing Wire Payloads Peers Relay Queries Routes Sar Mesh Runs

def Airs (P : WireEnvelope → Prop) (frame : Bytes) : Prop :=
  ∃ e bytes segmentId, P e ∧ e.encode = .ok bytes ∧ frame ∈ frames segmentId bytes

structure Calm (P : WireEnvelope → Prop) (d d' : MeshDaemon) : Prop where
  identity : d'.localPeerId = d.localPeerId ∧ d'.routeResponder.myPeerId = d.routeResponder.myPeerId
  table : d'.routeTable = d.routeTable
  pending : d.routeOriginator.pending = ∅ → d'.routeOriginator.pending = ∅
  sent : ∃ new, d'.engine.sent = d.engine.sent ++ new ∧ ∀ frame ∈ new, Airs P frame

structure Quiet (P : WireEnvelope → Prop) (d d' : MeshDaemon) : Prop extends Calm P d d' where
  sar : d'.rxSar = d.rxSar

section
variable {P : WireEnvelope → Prop} {a b c : MeshDaemon}

theorem Calm.refl (d : MeshDaemon) : Calm P d d := ⟨⟨rfl,rfl⟩,rfl,id,[],by simp,by simp⟩

theorem Quiet.refl (d : MeshDaemon) : Quiet P d d := ⟨Calm.refl d,rfl⟩

theorem Calm.trans (first : Calm P a b) (second : Calm P b c) : Calm P a c := by
  obtain ⟨xs,sentXs,carriedXs⟩ := first.sent
  obtain ⟨ys,sentYs,carriedYs⟩ := second.sent
  refine ⟨⟨second.identity.1.trans first.identity.1,second.identity.2.trans first.identity.2⟩,
    second.table.trans first.table,fun none => second.pending (first.pending none),xs ++ ys,?_,?_⟩
  · rw [sentYs, sentXs, List.append_assoc]
  · intro frame member
    rcases List.mem_append.mp member with left | right
    · exact carriedXs frame left
    · exact carriedYs frame right

theorem Quiet.trans (first : Quiet P a b) (second : Quiet P b c) : Quiet P a c :=
  ⟨first.toCalm.trans second.toCalm,second.sar.trans first.sar⟩

theorem Quiet.still (peer : b.localPeerId = a.localPeerId) (responder : b.routeResponder = a.routeResponder)
    (table : b.routeTable = a.routeTable) (originator : b.routeOriginator = a.routeOriginator)
    (engine : b.engine = a.engine) (sar : b.rxSar = a.rxSar) : Quiet P a b :=
  ⟨⟨⟨peer,by rw [responder]⟩,table,fun none => by rw [originator, none],[],by simp [engine],by simp⟩,sar⟩

theorem Quiet.report (quiet : Quiet P a b) (events : List MeshEvent) : Quiet P a (b.report events) :=
  quiet.trans (.still rfl rfl rfl rfl rfl rfl)

end

variable {ed : Ed25519} {sha256 : Bytes → Octets 32} {P : WireEnvelope → Prop}

theorem encodeAndTransmitQuiet (d : MeshDaemon) {e : WireEnvelope} (member : P e) : Quiet P d (d.encodeAndTransmit e).2 := by
  unfold MeshDaemon.encodeAndTransmit
  split
  · exact .refl d
  · rename_i bytes encoded
    obtain ⟨n,sent⟩ := emitSent d.engine d.txSegmentId bytes
    refine ⟨⟨⟨rfl,rfl⟩,rfl,id,_,sent,?_⟩,rfl⟩
    exact fun frame inside => ⟨e,bytes,d.txSegmentId,member,encoded,List.mem_of_mem_take inside⟩

theorem transmitEnvelopeQuiet (d : MeshDaemon) {e : WireEnvelope} (member : P e) : Quiet P d (d.transmitEnvelope e).2 := by
  rw [transmitEnvelopeDaemon]
  exact encodeAndTransmitQuiet d member

theorem transmitReportQuiet (d : MeshDaemon) {e : WireEnvelope} (member : P e) (events : List MeshEvent) :
    Quiet P d (if (d.transmitEnvelope e).1 then (d.transmitEnvelope e).2.report events else (d.transmitEnvelope e).2) := by
  have sent := transmitEnvelopeQuiet d member
  split
  · exact sent.report events
  · exact sent

theorem propagateQueryQuiet (d : MeshDaemon) (e : WireEnvelope) (now : UInt64)
    (carries : e.msgType = .peerQueryRequest ∨ e.msgType = .routeDiscoveryRequest → ∀ i, P { e with hopIndex := i }) :
    Quiet P d (d.propagateQuery e now) := by
  unfold MeshDaemon.propagateQuery
  cases result : (d.queryForwarder.propagate e now).1 with
  | error err =>
    simp only [result]
    exact .still rfl rfl rfl rfl rfl rfl
  | ok out =>
    obtain ⟨kind,rfl⟩ := propagateOk result
    have sent := transmitEnvelopeQuiet d (carries kind (e.hopIndex + 1))
    simp only [result]
    split
    · exact sent.trans (.still rfl rfl rfl rfl rfl rfl)
    · exact sent.trans (.still rfl rfl rfl rfl rfl rfl)

/-- The messages that `dispatch` hands to the query forwarder without their being queries. -/
def MeantToFlood (d : MeshDaemon) (e : WireEnvelope) : Prop :=
  (e.msgType = .routeDiscoveryResponse ∧ e.dstPeerId ≠ d.localPeerId) ∨
    e.msgType = .relayRouteUpdate ∨ e.msgType = .relayRouteReject

theorem propagateOtherSilent (d : MeshDaemon) {e : WireEnvelope} (now : UInt64)
    (other : e.msgType ≠ .peerQueryRequest ∧ e.msgType ≠ .routeDiscoveryRequest) :
    (d.propagateQuery e now).engine.sent = d.engine.sent := by
  rw [MeshDaemon.propagateQuery, propagateOther d.queryForwarder now other]
  rfl

theorem handleRouteUpdateEngine (d : MeshDaemon) (e : WireEnvelope) (now : UInt64) :
    (d.handleRouteUpdate ed e now).engine = d.engine := by
  unfold MeshDaemon.handleRouteUpdate
  split
  · rfl
  · dsimp only
    split <;> rfl

theorem handleRouteRejectEngine (d : MeshDaemon) (e : WireEnvelope) : (d.handleRouteReject e).engine = d.engine := by
  unfold MeshDaemon.handleRouteReject
  split
  · rfl
  · dsimp only
    split <;> rfl

theorem dispatchSilent (d : MeshDaemon) (e : WireEnvelope) (now : UInt64) (meant : MeantToFlood d e) :
    (d.dispatch ed sha256 e now).engine.sent = d.engine.sent := by
  have kind : (d.clamp e).msgType = e.msgType := by rw [clampFields]
  have dst : (d.clamp e).dstPeerId = e.dstPeerId := by rw [clampFields]
  unfold MeshDaemon.dispatch
  rcases meant with ⟨response,elsewhere⟩ | update | reject
  · simp only [kind, response, dst, elsewhere, if_false]
    exact propagateOtherSilent d now (by simp [kind, response])
  · simp only [kind, update]
    rw [propagateOtherSilent _ now (by simp [kind, update]), handleRouteUpdateEngine]
  · simp only [kind, reject]
    rw [propagateOtherSilent _ now (by simp [kind, reject]), handleRouteRejectEngine]

def Answer (e : WireEnvelope) : Prop := e.msgType = .routeDiscoveryResponse

def Harmless (dst : PeerId) (e : WireEnvelope) : Prop :=
  e.msgType = .peerQueryRequest ∨ e.msgType = .peerQueryResponse ∨
    (e.msgType = .routeDiscoveryRequest ∧ destinationOf e.payload = dst.val)

structure Permits (dst id : PeerId) (P : WireEnvelope → Prop) : Prop where
  harmless : ∀ e, Harmless dst e → P e
  answers : id = dst → ∀ e, Answer e → P e

section
variable {dst : PeerId} {d : MeshDaemon} {e : WireEnvelope}

theorem answerQueryQuiet (permitted : ∀ e, e.msgType = .peerQueryResponse → P e) (d : MeshDaemon) (queryId : UInt64)
    (records : List PeerRecord) (now : UInt64) : Quiet P d (d.answerQuery sha256 queryId records now) := by
  unfold MeshDaemon.answerQuery
  dsimp only
  split
  · exact .refl d
  · exact transmitReportQuiet d (permitted _ rfl) _

theorem handlePeerQueryRequestQuiet (now : UInt64) (permits : Permits dst d.routeResponder.myPeerId P)
    (query : e.msgType = .peerQueryRequest) : Quiet P d (d.handlePeerQueryRequest sha256 e now) := by
  have answers : ∀ e : WireEnvelope, e.msgType = .peerQueryResponse → P e :=
    fun e response => permits.harmless e (.inr (.inl response))
  have floods : ∀ d : MeshDaemon, Quiet P d (d.propagateQuery e now) :=
    fun d => propagateQueryQuiet d e now (fun _ i => permits.harmless _ (.inl query))
  unfold MeshDaemon.handlePeerQueryRequest
  split
  · exact .refl d
  · refine Quiet.trans (.still ?_ ?_ ?_ ?_ ?_ ?_) ((answerQueryQuiet answers _ _ _ now).trans (floods _))
    all_goals rfl

theorem importResultQuiet (quality : UInt8) (now : UInt64) (d : MeshDaemon) (result : PeerQueryResult) :
    Quiet P d (MeshDaemon.importResult quality now d result) := by
  unfold MeshDaemon.importResult
  split
  · exact .refl d
  · dsimp only
    split <;> exact .still rfl rfl rfl rfl rfl rfl

theorem handlePeerQueryResponseQuiet (d : MeshDaemon) (e : WireEnvelope) (now : UInt64) :
    Quiet P d (d.handlePeerQueryResponse e now) := by
  unfold MeshDaemon.handlePeerQueryResponse
  split
  · exact .refl d
  · dsimp only
    refine List.foldlRecOn (motive := fun d' => Quiet P d d') _ _ ?_ ?_
    · exact .still rfl rfl rfl rfl rfl rfl
    · exact fun d' quiet result _ => quiet.trans (importResultQuiet _ now d' result)

theorem sendAnswerQuiet (permitted : ∀ e, Answer e → P e) (d : MeshDaemon) (request : RouteDiscoveryRequest)
    (source : PeerId) (response : RouteDiscoveryResponse) (now : UInt64) :
    Quiet P d (d.sendAnswer request source response now).2 := by
  unfold MeshDaemon.sendAnswer
  split
  · exact .refl d
  · rename_i payload _
    have sent := transmitEnvelopeQuiet d (permitted (d.routeReply request source payload now) rfl)
    dsimp only
    split
    · exact sent.report _
    · exact sent

theorem handleRouteDiscoveryRequestQuiet (now : UInt64) (permits : Permits dst d.routeResponder.myPeerId P)
    (empty : d.routeTable.entries = ∅) (asked : destinationOf e.payload = dst.val) :
    Quiet P d (d.handleRouteDiscoveryRequest ed e now).2 := by
  unfold MeshDaemon.handleRouteDiscoveryRequest
  split
  · exact .refl d
  · rename_i request decoded
    have destination : request.destinationPeerId = dst := Subtype.ext ((destinationDecode decoded).trans asked)
    have same := answerIdentity ed d.routeResponder request d.routeTable
    have renumbered : Quiet P d { d with routeResponder := (d.routeResponder.answer ed request d.routeTable).2 } :=
      ⟨⟨⟨rfl,same⟩,rfl,id,[],(List.append_nil _).symm,by simp⟩,rfl⟩
    by_cases here : d.routeResponder.myPeerId = dst
    · dsimp only
      split
      · exact renumbered
      · exact renumbered.trans (sendAnswerQuiet (permits.answers here) _ _ _ _ now)
    · have silent : d.routeResponder.answer ed request d.routeTable = (none, d.routeResponder) :=
        answerNone ed _ (by rw [destination]; exact Ne.symm here) (by simp [RouteTable.bestRoute, empty])
      rw [silent]
      exact .refl d

theorem propagateRouteRequestQuiet (d : MeshDaemon) (e : WireEnvelope) (now : UInt64)
    (harmless : ∀ e, Harmless dst e → P e) (request : e.msgType = .routeDiscoveryRequest)
    (asked : destinationOf e.payload = dst.val) : Quiet P d (d.propagateRouteRequest e now) := by
  have floods : ∀ e : WireEnvelope, e.msgType = .routeDiscoveryRequest → destinationOf e.payload = dst.val →
      Quiet P d (d.propagateQuery e now) := fun e kind named =>
    propagateQueryQuiet d e now (fun _ i => harmless _ (.inr (.inr ⟨kind,named⟩)))
  unfold MeshDaemon.propagateRouteRequest
  split
  · exact floods e request asked
  · rename_i route decoded
    dsimp only
    split
    · refine floods _ request ?_
      rw [destinationEncode, accumulateDestination, destinationDecode decoded, asked]
    · exact floods e request asked

theorem handleRouteDiscoveryResponseQuiet (now : UInt64) (idle : d.routeOriginator.pending = ∅) :
    Quiet P d (d.handleRouteDiscoveryResponse ed e now) := by
  unfold MeshDaemon.handleRouteDiscoveryResponse
  split
  · exact .refl d
  · rename_i response _
    have none : (d.routeOriginator.expirePending now).pending = ∅ := by
      rw [RouteOriginator.expirePending, idle]
      rfl
    have unknown : d.routeOriginator.applyResponse ed response e.srcPeerId d.routeTable now =
        (.error (.unknownQuery response.routeQueryId), d.routeOriginator.expirePending now, d.routeTable) := by
      simp [RouteOriginator.applyResponse, none]
    rw [unknown]
    exact ⟨⟨⟨rfl,rfl⟩,rfl,fun _ => none,[],(List.append_nil _).symm,by simp⟩,rfl⟩

theorem dispatchHarmless (now : UInt64) (permits : Permits dst d.routeResponder.myPeerId P)
    (empty : d.routeTable.entries = ∅) (harmless : Harmless dst e) : Quiet P d (d.dispatch ed sha256 e now) := by
  have kind : (d.clamp e).msgType = e.msgType := by rw [clampFields]
  have payload : (d.clamp e).payload = e.payload := by rw [clampFields]
  unfold MeshDaemon.dispatch
  rcases harmless with query | response | ⟨request,asked⟩
  · simp only [kind, query]
    exact handlePeerQueryRequestQuiet now permits (kind.trans query)
  · simp only [kind, response]
    exact handlePeerQueryResponseQuiet d _ now
  · have asked : destinationOf (d.clamp e).payload = dst.val := by rw [payload, asked]
    have handled : Quiet P d (d.handleRouteDiscoveryRequest ed (d.clamp e) now).2 :=
      handleRouteDiscoveryRequestQuiet now permits empty asked
    simp only [kind, request]
    split
    · exact handled
    · exact handled.trans (propagateRouteRequestQuiet _ _ now permits.harmless (kind.trans request) asked)

theorem dispatchAnswer (now : UInt64) (idle : d.routeOriginator.pending = ∅) (answer : Answer e) :
    Quiet P d (d.dispatch ed sha256 e now) := by
  have kind : (d.clamp e).msgType = .routeDiscoveryResponse := by rw [clampFields]; exact answer
  unfold MeshDaemon.dispatch
  simp only [kind]
  split
  · exact handleRouteDiscoveryResponseQuiet now idle
  · exact propagateQueryQuiet d _ now (by simp [kind])

end

def HeadOf (P : WireEnvelope → Prop) (b : Bytes) : Prop :=
  ∃ e bytes, P e ∧ e.encode = .ok bytes ∧ meshMaxSingleFrame < bytes.length ∧ b = chunk bytes 0

def Headed (P : WireEnvelope → Prop) : Prop :=
  ∀ a b : WireEnvelope, a.msgType = b.msgType → destinationOf a.payload = destinationOf b.payload → P a → P b

theorem decodeAlike {b x y : Bytes} {a c : WireEnvelope} (long : 144 ≤ b.length)
    (left : WireEnvelope.decode (b ++ x) = .ok a) (right : WireEnvelope.decode (b ++ y) = .ok c) :
    a.msgType = c.msgType ∧ destinationOf a.payload = destinationOf c.payload := by
  have left := decodeOk left
  have right := decodeOk right
  have kind : byteAt (b ++ x) 5 = byteAt (b ++ y) 5 := by
    simp [byteAt, List.getElem?_append_left (show 5 < b.length by omega)]
  have size : readU16 (b ++ x) 102 = readU16 (b ++ y) 102 := by
    rw [readU16, readU16, slicePrefix (by omega), slicePrefix (by omega)]
  constructor
  · have same := left.msgType
    rw [kind, right.msgType] at same
    exact (Option.some.inj same).symm
  · rw [left.payload, right.payload, size, destinationOf, destinationOf, sliceSlice, sliceSlice]
    rw [slicePrefix (by unfold headerSize; omega), slicePrefix (by unfold headerSize; omega)]

theorem decodeHead (headed : Headed P) {b rest : Bytes} (head : HeadOf P b) {e : WireEnvelope}
    (decoded : WireEnvelope.decode (b ++ rest) = .ok e) : P e := by
  obtain ⟨o,bytes,member,encoded,large,rfl⟩ := head
  have whole : chunk bytes 0 ++ bytes.drop sarMaxFragmentData = bytes := by simp [chunk]
  have back : WireEnvelope.decode (chunk bytes 0 ++ bytes.drop sarMaxFragmentData) = .ok o := by
    rw [whole]
    exact decodeEncode encoded
  have long : 144 ≤ (chunk bytes 0).length := by
    simp only [chunk, sarMaxFragmentData, sarHeaderSize, List.length_take, List.length_drop]
    unfold meshMaxSingleFrame at large
    omega
  obtain ⟨kind,named⟩ := decodeAlike long back decoded
  exact headed o e kind named member

theorem fragmentNotEnvelope {frame : Bytes} {f : Fragment} (parsed : parse frame = .ok f) (e : WireEnvelope) :
    WireEnvelope.decode frame ≠ .ok e := by
  intro decoded
  have tagged := (decodeOk decoded).tagged
  have inside := f.inside
  rw [parseBytes parsed] at tagged
  simp only [slice, List.drop_zero, List.take_succ_cons, List.take_zero, magic, List.cons.injEq] at tagged
  obtain ⟨-,-,index,total,-⟩ := tagged
  rw [index, total] at inside
  exact absurd inside (by decide)

theorem airsCases {frame : Bytes} (airs : Airs P frame) :
    (∃ e, P e ∧ WireEnvelope.decode frame = .ok e) ∨
      ((∀ e, WireEnvelope.decode frame ≠ .ok e) ∧
        ∀ f, parse frame = .ok f → f.index.toNat = 0 → HeadOf P f.data) := by
  obtain ⟨e,bytes,segmentId,member,encoded,inside⟩ := airs
  unfold frames at inside
  split at inside
  · rw [List.mem_singleton.mp inside]
    exact .inl ⟨e,member,decodeEncode encoded⟩
  · rename_i large
    split at inside
    · rename_i fits
      obtain ⟨i,range,rfl⟩ := List.mem_map.mp inside
      obtain ⟨f,parsed,-,index,legit⟩ := parsePayload fits segmentId (List.mem_range.mp range)
      refine .inr ⟨fragmentNotEnvelope parsed,?_⟩
      intro g again zero
      rw [parsed] at again
      cases again
      exact ⟨e,bytes,member,encoded,Nat.not_le.mp large,by rw [legit.bytes, zero]⟩
    · cases inside

section
variable {H : WireEnvelope → Prop} {d : MeshDaemon} {now : UInt64}

theorem dispatchAllQuiet (headed : Headed H)
    (handles : ∀ d', Calm P d d' → ∀ e, H e → Quiet P d' (d'.dispatch ed sha256 e now)) {completed : List Bytes}
    (begun : ∀ full ∈ completed, full = [] ∨ ∃ b rest, HeadOf H b ∧ full = b ++ rest) {d' : MeshDaemon}
    (calm : Calm P d d') : Quiet P d' (completed.foldl (MeshDaemon.dispatchDecoded ed sha256 now) d') := by
  induction completed generalizing d' with
  | nil => exact .refl d'
  | cons full rest ih =>
    have first : Quiet P d' (MeshDaemon.dispatchDecoded ed sha256 now d' full) := by
      unfold MeshDaemon.dispatchDecoded
      split
      · rename_i e decoded
        rcases begun full (by simp) with rfl | ⟨b,tail,head,rfl⟩
        · have long := (decodeOk decoded).inside
          simp [headerSize] at long
        · exact handles d' calm e (decodeHead headed head decoded)
      · exact .refl d'
    exact first.trans (ih (fun x member => begun x (by simp [member])) (calm.trans first.toCalm))

theorem receiveCalm (headed : Headed H)
    (handles : ∀ d', Calm P d d' → ∀ e, H e → Quiet P d' (d'.dispatch ed sha256 e now))
    (primed : Primed (HeadOf H) d.rxSar) {frame : Bytes} (airs : Airs H frame) (instant : Nat) :
    Calm P d (d.receive ed sha256 frame now instant) ∧
      Primed (HeadOf H) (d.receive ed sha256 frame now instant).rxSar := by
  have expire : ∀ d' : MeshDaemon, Calm P d d' → Primed (HeadOf H) d'.rxSar →
      Calm P d { d' with rxSar := d'.rxSar.expire instant } ∧ Primed (HeadOf H) (d'.rxSar.expire instant) :=
    fun d' calm first => ⟨⟨calm.identity,calm.table,calm.pending,calm.sent⟩,expirePrimed first instant⟩
  rcases airsCases airs with ⟨e,member,decoded⟩ | ⟨foreign,first⟩
  · -- a whole envelope
    have quiet := handles d (.refl d) e member
    have primed : Primed (HeadOf H) (d.dispatch ed sha256 e now).rxSar := by
      rw [quiet.sar]
      exact primed
    simpa only [MeshDaemon.receive, decoded] using expire _ quiet.toCalm primed
  · cases failed : WireEnvelope.decode frame with
    | ok e => exact absurd failed (foreign e)
    | error err =>
      obtain ⟨kept,begun⟩ := ingestPrimed primed first instant meshSarSession
      have stored : Calm P d { d with rxSar := (d.rxSar.ingest instant meshSarSession frame).2 } :=
        ⟨⟨rfl,rfl⟩,rfl,id,[],(List.append_nil _).symm,by simp⟩
      unfold MeshDaemon.receive
      simp only [failed]
      split
      · rename_i other
        cases other
      · exact expire d (.refl d) primed
      · split
        · rename_i completed ingested
          have quiet := dispatchAllQuiet headed handles (begun completed ingested) stored
          refine expire _ (stored.trans quiet.toCalm) ?_
          rw [quiet.sar]
          exact kept
        · exact expire _ stored kept

theorem sendBeaconQuiet (permitted : ∀ e, e.msgType = .peerQueryRequest → P e) (d : MeshDaemon) (now : UInt64) :
    Quiet P d (d.sendBeacon now) := by
  unfold MeshDaemon.sendBeacon
  split
  · refine Quiet.trans (.still ?_ ?_ ?_ ?_ ?_ ?_) (transmitReportQuiet _ (permitted _ rfl) _)
    all_goals rfl
  · exact .refl d

theorem stepCalm (headed : Headed H) (beacons : ∀ e, e.msgType = .peerQueryRequest → P e)
    (handles : ∀ d', Calm P d d' → ∀ e, H e → Quiet P d' (d'.dispatch ed sha256 e now))
    (primed : Primed (HeadOf H) d.rxSar) {heard : Option Bytes} (airs : ∀ frame ∈ heard, Airs H frame) (instant : Nat) :
    Calm P d (d.step ed sha256 heard now instant).2 ∧
      Primed (HeadOf H) (d.step ed sha256 heard now instant).2.rxSar := by
  have finish : ∀ d' : MeshDaemon, Calm P d d' → Primed (HeadOf H) d'.rxSar →
      Calm P d { d'.sendBeacon now with events := [] } ∧ Primed (HeadOf H) (d'.sendBeacon now).rxSar := by
    intro d' calm first
    have quiet := sendBeaconQuiet beacons d' now
    have after := calm.trans quiet.toCalm
    refine ⟨⟨after.identity,after.table,after.pending,after.sent⟩,?_⟩
    rw [quiet.sar]
    exact first
  unfold MeshDaemon.step
  dsimp only
  cases heard with
  | none => exact finish d (.refl d) primed
  | some frame =>
    dsimp only
    split
    · exact finish d (.refl d) primed
    · obtain ⟨calm,first⟩ := receiveCalm headed handles primed (airs frame rfl) instant
      exact finish _ calm first

end

end OpenPulse.MeshDiscovery
