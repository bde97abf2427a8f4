import OpenPulse.MeshBroadcast
import OpenPulse.MeshDiscovery
import OpenPulse.RouteTables

/-! Route maintenance: what an update or a reject from the air does to a stored
route. A reject names the rejecting hop itself, unsigned; an update is checked
against the key of whoever sent it. Neither asks whether the sender carries the
route. -/
namespace OpenPulse.RouteUpkeep
open ByteCodec Tables Lru Signing Wire Payloads Routes RouteTables Mesh MeshDiscovery Runs

def Worse (held route : RouteEntry) : Prop :=
  held.hops.length < route.hops.length ∨
    route.hops.length = held.hops.length ∧ route.minReliabilityPermille < held.minReliabilityPermille

instance (held route : RouteEntry) : Decidable (Worse held route) := inferInstanceAs (Decidable (_ ∨ _))

def Undisturbed (after : RouteTable) (dst : PeerId) (held : RouteEntry) : Prop :=
  ∃ route, after.bestRoute dst = some route ∧ ¬ Worse held route

variable {t : RouteTable} {dst : PeerId} {held entry : RouteEntry} {now : UInt64}

theorem improvedNotWorse (improved : held.isImprovedBy entry) : ¬ Worse held entry := by
  unfold RouteEntry.isImprovedBy at improved
  rintro (longer | ⟨even,weaker⟩)
  · simp [longer, Nat.not_lt.mpr (Nat.le_of_lt longer)] at improved
  · simp only [even, Nat.lt_irrefl, if_false, decide_eq_true_eq] at improved
    exact UInt16.lt_asymm improved weaker

theorem refreshedNotWorse (held : RouteEntry) (now : UInt64) : ¬ Worse held { held with discoveredAtMs := now } := by
  rintro (longer | ⟨-,weaker⟩)
  · exact Nat.lt_irrefl _ longer
  · exact UInt16.lt_irrefl _ weaker

theorem undisturbedSame (stored : t.bestRoute dst = some held) : Undisturbed t dst held :=
  ⟨held,stored,refreshedNotWorse held held.discoveredAtMs⟩

def TakenUp (ed : Ed25519) (e : WireEnvelope) (now : UInt64) (entry : RouteEntry) : Prop :=
  -- the update of the envelope is well signed by the envelope's source and would store `entry`
  ∃ update last, RelayRouteUpdate.decode e.payload = .ok update ∧ update.replacementHops.getLast? = some last ∧
    verifyRouteUpdate ed update e.srcPeerId = .ok () ∧
    entry = ⟨last.hopPeerId,update.routeId,update.replacementHops,now⟩

/-- An entry for the destination itself must find the held route alive under another id, or not be
worse; an entry for another one must find it alive and not push it out of a full table. -/
def Spares (t : RouteTable) (dst : PeerId) (held entry : RouteEntry) (now : UInt64) : Prop :=
  if entry.destinationPeerId = dst then Live t now held ∧ entry.routeId ≠ held.routeId ∨ ¬ Worse held entry
  else Live t now held ∧ ¬ GivesUp (t.evictExpired now) entry.destinationPeerId dst

theorem updatedNotWorse (stored : t.bestRoute entry.destinationPeerId = some held) :
    ¬ Worse held (updated (t.evictExpired now) entry now) ↔
      Live t now held ∧ entry.routeId ≠ held.routeId ∨ ¬ Worse held entry := by
  by_cases live : Live t now held
  · have kept : (t.evictExpired now).entries.lookup entry.destinationPeerId = some held := evictExpiredKept stored live
    by_cases same : held.routeId = entry.routeId
    · simp [updated, kept, same]
    · by_cases improved : held.isImprovedBy entry
      · simp [updated, confirmed, kept, same, improved, improvedNotWorse improved]
      · simp [updated, confirmed, kept, same, improved, refreshedNotWorse, live, Ne.symm same]
  · have gone : (t.evictExpired now).entries.lookup entry.destinationPeerId = none := evictExpiredGone stored live
    simp [updated, confirmed, gone, live]

theorem applyUpdateSpares (wf : WellFormed t) (stored : t.bestRoute dst = some held) (entry : RouteEntry) (now : UInt64) :
    Undisturbed (t.applyUpdate entry now).2 dst held ↔ Spares t dst held entry now := by
  have clean := evictExpiredWellFormed wf now
  rw [applyUpdateStored wf, Undisturbed, Spares]
  split
  · rename_i here
    subst here
    rw [← updatedNotWorse stored]
    simp [RouteTable.bestRoute, storedHere clean]
  · rename_i other
    simp only [RouteTable.bestRoute, storedOther clean _ (Ne.symm other)]
    by_cases live : Live t now held
    · by_cases given : GivesUp (t.evictExpired now) entry.destinationPeerId dst
      · simp [given]
      · simp only [given, if_false, live, evictExpiredKept stored live, Option.some.injEq, exists_eq_left',
          not_false_eq_true, and_self, iff_true]
        exact refreshedNotWorse held held.discoveredAtMs
    · simp [live, evictExpiredGone stored live]

theorem handleRouteUpdateTable (ed : Ed25519) (d : MeshDaemon) {e : WireEnvelope} {update : RelayRouteUpdate} (now : UInt64)
    (decoded : RelayRouteUpdate.decode e.payload = .ok update) :
    (d.handleRouteUpdate ed e now).routeTable = (applyRouteUpdate ed update e.srcPeerId d.routeTable now).2 := by
  simp only [MeshDaemon.handleRouteUpdate, decoded]
  split <;> rfl

theorem handleRouteUpdateCases (ed : Ed25519) (d : MeshDaemon) (e : WireEnvelope) (now : UInt64) :
    (∃ entry, TakenUp ed e now entry ∧
        (d.handleRouteUpdate ed e now).routeTable = (d.routeTable.applyUpdate entry now).2) ∨
      (∀ entry, ¬ TakenUp ed e now entry) ∧ (d.handleRouteUpdate ed e now).routeTable = d.routeTable := by
  cases decoded : RelayRouteUpdate.decode e.payload with
  | error err =>
    refine .inr ⟨?_,by simp [MeshDaemon.handleRouteUpdate, decoded]⟩
    rintro entry ⟨update,last,ok,-⟩
    simp [decoded] at ok
  | ok update =>
    rw [handleRouteUpdateTable ed d now decoded, applyRouteUpdate]
    cases final : update.replacementHops.getLast? with
    | none =>
      refine .inr ⟨?_,rfl⟩
      rintro entry ⟨other,last,ok,found,-⟩
      cases decoded.symm.trans ok
      simp [final] at found
    | some last =>
      cases verified : verifyRouteUpdate ed update e.srcPeerId with
      | error err =>
        refine .inr ⟨?_,rfl⟩
        rintro entry ⟨other,-,ok,-,signed,-⟩
        cases decoded.symm.trans ok
        simp [verified] at signed
      | ok _ => exact .inl ⟨_,⟨update,last,decoded,final,verified,rfl⟩,rfl⟩

theorem takenUpUnique {ed : Ed25519} {e : WireEnvelope} {other : RouteEntry} (left : TakenUp ed e now entry)
    (right : TakenUp ed e now other) : other = entry := by
  obtain ⟨update,last,decoded,final,-,rfl⟩ := left
  obtain ⟨again,final',decoded',found,-,rfl⟩ := right
  cases decoded.symm.trans decoded'
  cases final.symm.trans found
  rfl

theorem handleRouteUpdateSpares (ed : Ed25519) {d : MeshDaemon} (wf : WellFormed d.routeTable)
    (stored : d.routeTable.bestRoute dst = some held) (e : WireEnvelope) (now : UInt64) :
    Undisturbed (d.handleRouteUpdate ed e now).routeTable dst held ↔
      ∀ entry, TakenUp ed e now entry → Spares d.routeTable dst held entry now := by
  obtain ⟨entry,taken,after⟩ | ⟨refused,after⟩ := handleRouteUpdateCases ed d e now
  · rw [after, applyUpdateSpares wf stored]
    refine ⟨fun spared other again => ?_,fun all => all entry taken⟩
    rwa [takenUpUnique taken again]
  · rw [after]
    exact ⟨fun _ entry taken => absurd taken (refused entry),fun _ => undisturbedSame stored⟩

def TornDown (t : RouteTable) (dst : PeerId) (e : WireEnvelope) : Prop :=
  ∃ reject route, RelayRouteReject.decode e.payload = .ok reject ∧ t.entryByRouteId reject.routeId = some route ∧
    route.destinationPeerId = dst ∧ ∃ hop ∈ route.hops, hop.hopPeerId = reject.rejectHopPeerId

theorem removeLookup (t : RouteTable) (dst k : PeerId) :
    (t.remove dst).2.bestRoute k = if k = dst then none else t.bestRoute k := by
  unfold RouteTable.remove RouteTable.bestRoute
  split
  · exact lookupErase t.entries dst k
  · rename_i absent
    split
    · rename_i same
      subst same
      simpa using absent
    · rfl

/- Whatever the order of the search, only a reject that names the id of the route and one of its
hops tears it down, and any such one does where no other route has the id. -/
theorem tornDownNames (built : Built t) (stored : t.bestRoute dst = some held) {e : WireEnvelope} (torn : TornDown t dst e) :
    ∃ reject, RelayRouteReject.decode e.payload = .ok reject ∧ held.routeId = reject.routeId ∧
      ∃ hop ∈ held.hops, hop.hopPeerId = reject.rejectHopPeerId := by
  obtain ⟨reject,route,decoded,found,leads,named⟩ := torn
  obtain ⟨same,k,there⟩ := foundStored found
  have here : k = dst := (built.keyed there).symm.trans leads
  subst here
  cases stored.symm.trans there
  exact ⟨reject,decoded,same,named⟩

theorem tornDownAlone (built : Built t) (stored : t.bestRoute dst = some held)
    (alone : ∀ k other, t.bestRoute k = some other → other.routeId = held.routeId → k = dst) {e : WireEnvelope}
    {reject : RelayRouteReject} (decoded : RelayRouteReject.decode e.payload = .ok reject) (same : held.routeId = reject.routeId)
    (named : ∃ hop ∈ held.hops, hop.hopPeerId = reject.rejectHopPeerId) : TornDown t dst e := by
  have listed : held ∈ t.order.values t.entries :=
    (t.order.perm t.entries).mem_iff.mpr (List.mem_map.mpr ⟨⟨dst,held⟩,AList.mem_lookup_iff.mp stored,rfl⟩)
  have some' : (t.entryByRouteId reject.routeId).isSome := by
    rw [RouteTable.entryByRouteId, List.find?_isSome]
    exact ⟨held,listed,by simpa using same⟩
  obtain ⟨route,found⟩ := Option.isSome_iff_exists.mp some'
  obtain ⟨known,k,there⟩ := foundStored found
  have here := alone k route there (known.trans same.symm)
  subst here
  cases stored.symm.trans there
  exact ⟨reject,held,decoded,found,built.keyed stored,named⟩

theorem handleRouteRejectTable (d : MeshDaemon) {e : WireEnvelope} {reject : RelayRouteReject}
    (decoded : RelayRouteReject.decode e.payload = .ok reject) :
    (d.handleRouteReject e).routeTable = (applyRouteReject reject d.routeTable).2 := by
  simp only [MeshDaemon.handleRouteReject, decoded]
  split <;> rfl

theorem handleRouteRejectSpares {d : MeshDaemon} (stored : d.routeTable.bestRoute dst = some held) (e : WireEnvelope) :
    Undisturbed (d.handleRouteReject e).routeTable dst held ↔ ¬ TornDown d.routeTable dst e := by
  cases decoded : RelayRouteReject.decode e.payload with
  | error err =>
    refine iff_of_true (by simpa [MeshDaemon.handleRouteReject, decoded] using undisturbedSame stored) ?_
    rintro ⟨reject,route,ok,-⟩
    simp [decoded] at ok
  | ok reject =>
    rw [handleRouteRejectTable d decoded, applyRouteReject]
    cases found : d.routeTable.entryByRouteId reject.routeId with
    | none =>
      refine iff_of_true (undisturbedSame stored) ?_
      rintro ⟨other,route,ok,some,-⟩
      cases decoded.symm.trans ok
      simp [found] at some
    | some route =>
      have torn : TornDown d.routeTable dst e ↔ route.destinationPeerId = dst ∧
          ∃ hop ∈ route.hops, hop.hopPeerId = reject.rejectHopPeerId := by
        constructor
        · rintro ⟨other,same,ok,some,rest⟩
          cases decoded.symm.trans ok
          cases found.symm.trans some
          exact rest
        · exact fun rest => ⟨reject,route,decoded,found,rest⟩
      by_cases named : ∃ hop ∈ route.hops, hop.hopPeerId = reject.rejectHopPeerId
      · have listed : route.hops.any (fun h => h.hopPeerId = reject.rejectHopPeerId) = true := by simpa using named
        simp only [torn, named, and_true, listed, if_true, Undisturbed, removeLookup]
        by_cases here : route.destinationPeerId = dst
        · simp [here]
        · simpa [here, Ne.symm here, Undisturbed] using undisturbedSame stored
      · have unlisted : route.hops.any (fun h => h.hopPeerId = reject.rejectHopPeerId) = false := by simpa using named
        simp only [torn, named, and_false, unlisted, not_false_eq_true, iff_true]
        exact undisturbedSame stored

/- What decides is the table, the decoded payload and the clock. The sender of
the envelope enters only as the key its own update verifies under. -/
theorem routeUndisturbedIff (ed : Ed25519) (d : MeshDaemon) (built : Built d.routeTable) (dst : PeerId)
    (held : RouteEntry) (stored : d.routeTable.bestRoute dst = some held) (e : WireEnvelope) (now : UInt64) :
    (Undisturbed (d.handleRouteUpdate ed e now).routeTable dst held ↔
      ∀ entry, TakenUp ed e now entry → Spares d.routeTable dst held entry now) ∧
    (Undisturbed (d.handleRouteReject e).routeTable dst held ↔ ¬ TornDown d.routeTable dst e) :=
  ⟨handleRouteUpdateSpares ed built.wellFormed stored e now,handleRouteRejectSpares stored e⟩

section
variable {ed : Ed25519} {sha256 : Bytes → Octets 32} {d : MeshDaemon}

def anything (_ : WireEnvelope) : Prop := True

theorem propagateQueryTable (d : MeshDaemon) (e : WireEnvelope) (now : UInt64) :
    (d.propagateQuery e now).routeTable = d.routeTable :=
  (propagateQueryQuiet (P := anything) d e now fun _ _ => trivial).table

theorem transmitEnvelopeTable (d : MeshDaemon) (e : WireEnvelope) : (d.transmitEnvelope e).2.routeTable = d.routeTable :=
  (transmitEnvelopeQuiet (P := anything) d trivial).table

theorem encodeAndTransmitTable (d : MeshDaemon) (e : WireEnvelope) : (d.encodeAndTransmit e).2.routeTable = d.routeTable :=
  (encodeAndTransmitQuiet (P := anything) d trivial).table

theorem handleBroadcastTable (d : MeshDaemon) (e : WireEnvelope) : (d.handleBroadcastFrame e).routeTable = d.routeTable := by
  unfold MeshDaemon.handleBroadcastFrame
  split
  · rfl
  · dsimp only
    split
    · rfl
    · exact transmitEnvelopeTable _ _

theorem handleRelayTable (d : MeshDaemon) (e : WireEnvelope) (now : UInt64) :
    (d.handleRelay ed e now).routeTable = d.routeTable := by
  unfold MeshDaemon.handleRelay
  split
  · rfl
  · split
    · rfl
    · dsimp only
      split
      · split <;> exact transmitEnvelopeTable d _
      · rfl

theorem handleRouteDiscoveryRequestTable (d : MeshDaemon) (e : WireEnvelope) (now : UInt64) :
    (d.handleRouteDiscoveryRequest ed e now).2.routeTable = d.routeTable := by
  unfold MeshDaemon.handleRouteDiscoveryRequest
  split
  · rfl
  · dsimp only
    split
    · rfl
    · exact (sendAnswerQuiet (P := anything) (fun _ _ => trivial) _ _ _ _ now).table

theorem propagateRouteRequestTable (d : MeshDaemon) (e : WireEnvelope) (now : UInt64) :
    (d.propagateRouteRequest e now).routeTable = d.routeTable := by
  unfold MeshDaemon.propagateRouteRequest
  split
  · exact propagateQueryTable d e now
  · exact propagateQueryTable d _ now

theorem handleRouteDiscoveryResponseBuilt (built : Built d.routeTable) (e : WireEnvelope) (now : UInt64) :
    Built (d.handleRouteDiscoveryResponse ed e now).routeTable := by
  unfold MeshDaemon.handleRouteDiscoveryResponse
  split
  · exact built
  · rename_i response _
    have applied : Built (d.routeOriginator.applyResponse ed response e.srcPeerId d.routeTable now).2.2 := by
      obtain ⟨-,-,same | ⟨p,-,recorded⟩⟩ := applyResponseCases ed d.routeOriginator response e.srcPeerId d.routeTable now
      · rw [same]
        exact built
      · rw [recorded]
        exact built.record _ now
    dsimp only
    split <;> exact applied

theorem handleRouteUpdateBuilt (built : Built d.routeTable) (e : WireEnvelope) (now : UInt64) :
    Built (d.handleRouteUpdate ed e now).routeTable := by
  obtain ⟨entry,-,after⟩ | ⟨-,after⟩ := handleRouteUpdateCases ed d e now
  · rw [after]
    exact built.applyUpdate entry now
  · rw [after]
    exact built

theorem handleRouteRejectBuilt (built : Built d.routeTable) (e : WireEnvelope) : Built (d.handleRouteReject e).routeTable := by
  cases decoded : RelayRouteReject.decode e.payload with
  | error err => simpa [MeshDaemon.handleRouteReject, decoded] using built
  | ok reject =>
    rw [handleRouteRejectTable d decoded, applyRouteReject]
    split
    · exact built
    · split
      · exact built.remove _
      · exact built

theorem dispatchBuilt (built : Built d.routeTable) (e : WireEnvelope) (now : UInt64) :
    Built (d.dispatch ed sha256 e now).routeTable := by
  have permits : Permits d.routeResponder.myPeerId d.routeResponder.myPeerId anything :=
    ⟨fun _ _ => trivial,fun _ _ _ => trivial⟩
  unfold MeshDaemon.dispatch
  dsimp only
  split
  next => rwa [handleBroadcastTable]
  next => rwa [handleRelayTable]
  next => rwa [handleRelayTable]
  next query => rwa [(handlePeerQueryRequestQuiet now permits query).table]
  next => rwa [(handlePeerQueryResponseQuiet (P := anything) d _ now).table]
  next =>
    split
    · rwa [handleRouteDiscoveryRequestTable]
    · rwa [propagateRouteRequestTable, handleRouteDiscoveryRequestTable]
  next =>
    split
    · exact handleRouteDiscoveryResponseBuilt built _ now
    · rwa [propagateQueryTable]
  next =>
    rw [propagateQueryTable]
    exact handleRouteUpdateBuilt built _ now
  next =>
    rw [propagateQueryTable]
    exact handleRouteRejectBuilt built _
  next => rwa [propagateQueryTable]

theorem receiveBuilt (built : Built d.routeTable) (bytes : Bytes) (now : UInt64) (instant : Nat) :
    Built (d.receive ed sha256 bytes now instant).routeTable := by
  unfold MeshDaemon.receive
  dsimp only
  split
  · exact dispatchBuilt built _ now
  · exact built
  · split
    · refine List.foldlRecOn (motive := fun d' : MeshDaemon => Built d'.routeTable) _ _ built ?_
      intro d' held full _
      unfold MeshDaemon.dispatchDecoded
      split
      · exact dispatchBuilt held _ now
      · exact held
    · exact built

theorem sendBeaconTable (d : MeshDaemon) (now : UInt64) : (d.sendBeacon now).routeTable = d.routeTable := by
  unfold MeshDaemon.sendBeacon
  split
  · exact (transmitReportQuiet (P := anything) { d with beacon := (d.beacon.nextBeacon now d.localPeerId d.hopLimit).2.2 }
      trivial _).table
  · rfl

theorem stepBuilt (built : Built d.routeTable) (heard : Option Bytes) (now : UInt64) (instant : Nat) :
    Built (d.step ed sha256 heard now instant).2.routeTable := by
  unfold MeshDaemon.step
  cases heard with
  | none => exact (sendBeaconTable d now).symm ▸ built
  | some bytes =>
    dsimp only
    split
    · exact (sendBeaconTable d now).symm ▸ built
    · exact (sendBeaconTable _ now).symm ▸ receiveBuilt built bytes now instant

theorem callBuilt (built : Built d.routeTable) (now : UInt64) (c : MeshBroadcast.Call) :
    Built (MeshBroadcast.call ed d now c).routeTable := by
  cases c with
  | discover destination =>
    unfold MeshBroadcast.call MeshDaemon.discoverRoute
    dsimp only
    split
    · exact built
    · rename_i queryId envelope _
      generalize same : MeshDaemon.encodeAndTransmit _ envelope = after
      have kept : after.2.routeTable = d.routeTable := by
        rw [← same]
        exact encodeAndTransmitTable _ envelope
      obtain ⟨result,next⟩ := after
      cases result <;> exact kept ▸ built
  | send destination sessionId payload =>
    unfold MeshBroadcast.call MeshDaemon.sendViaRoute
    dsimp only
    split
    · exact built.evictExpired now
    · generalize same : MeshDaemon.encodeAndTransmit _ _ = after
      have kept : after.2.routeTable = d.routeTable.evictExpired now := by
        rw [← same]
        exact encodeAndTransmitTable _ _
      obtain ⟨result,next⟩ := after
      cases result <;> exact kept ▸ built.evictExpired now
  | update destination routeChangeReason replacementHops =>
    simp only [MeshBroadcast.call, MeshDaemon.sendRouteUpdate]
    split
    · exact built
    · split
      · exact built
      · unfold MeshDaemon.transmitRouteMaintenance
        dsimp only
        rwa [encodeAndTransmitTable]
  | reject routeId reasonCode trustDecision policyReference destination =>
    unfold MeshBroadcast.call MeshDaemon.sendRouteReject MeshDaemon.transmitRouteMaintenance
    dsimp only
    rwa [encodeAndTransmitTable]

inductive Use where
  | hear (heard : Option Bytes) (now : UInt64) (instant : Nat)
  | call (c : MeshBroadcast.Call) (now : UInt64)

def use (ed : Ed25519) (sha256 : Bytes → Octets 32) (d : MeshDaemon) : Use → MeshDaemon
  | .hear heard now instant => (d.step ed sha256 heard now instant).2
  | .call c now => MeshBroadcast.call ed d now c

theorem daemonBuilt (start : Built d.routeTable) (uses : List Use) : Built (run (use ed sha256) d uses).routeTable := by
  refine runInvariant (I := fun d : MeshDaemon => Built d.routeTable) (fun d u built => ?_) start uses
  cases u with
  | hear heard now instant => exact stepBuilt built heard now instant
  | call c now => exact callBuilt built now c

end

def far : PeerId := filled 32 3
def via : PeerId := filled 32 2
def stranger : Seed := filled 32 9

def heldRoute : RouteEntry := ⟨far,7,[⟨via,1,0,500⟩,⟨far,0,0,1000⟩],0⟩

def holder : MeshDaemon :=
  { MeshDaemon.new tagScheme ⟨fun _ _ => true,[],[]⟩ (filled 32 1) 5 0 60000 .default 8 60000 (filled 32 1)
      "N0CALL" newestFirst with
    routeTable := ((RouteTable.new newestFirst 8 60000).record heldRoute 0).2 }

def maintenance (msgType : WireMsgType) (payload : Bytes) : WireEnvelope where
  msgType
  flags := 0
  sessionId := 0
  srcPeerId := tagScheme.verifyingKey stranger
  dstPeerId := zeros 32
  nonce := zeros 12
  timestampMs := 1
  hopLimit := 5
  hopIndex := 0
  payload
  signature := none

def strangerReject : RelayRouteReject := ⟨7,via,0,0,0⟩

def strangerUpdate : RelayRouteUpdate :=
  -- three hops for the two of the held route, under its id and the stranger's own signature
  (RouteResponder.new tagScheme stranger 0).buildRouteUpdate tagScheme 7 2 0
    [⟨via,1,0,500⟩,⟨filled 32 9,1,0,500⟩,⟨far,0,0,1000⟩]

def updateEnvelope : WireEnvelope := maintenance .relayRouteUpdate (strangerUpdate.encode.toOption.getD [])

theorem holderStored : holder.routeTable.bestRoute far = some heldRoute := by decide +kernel

theorem strangerDisturbs :
    (∀ hop ∈ heldRoute.hops, hop.hopPeerId ≠ tagScheme.verifyingKey stranger) ∧ far ≠ tagScheme.verifyingKey stranger ∧
      holder.routeTable.bestRoute far = some heldRoute ∧
      ¬ Undisturbed (holder.handleRouteReject (maintenance .relayRouteReject strangerReject.encode)).routeTable far heldRoute ∧
      ¬ Undisturbed (holder.handleRouteUpdate tagScheme updateEnvelope 1).routeTable far heldRoute := by
  have removed : (holder.handleRouteReject (maintenance .relayRouteReject strangerReject.encode)).routeTable.bestRoute far =
      none := by decide +kernel
  have replaced : ((holder.handleRouteUpdate tagScheme updateEnvelope 1).routeTable.bestRoute far).map
      (fun route => route.hops.length) = some 3 := by decide +kernel
  refine ⟨by decide +kernel,by decide +kernel,holderStored,?_,?_⟩
  · rintro ⟨route,found,-⟩
    simp [removed] at found
  · rintro ⟨route,found,fair⟩
    rw [found] at replaced
    have three : route.hops.length = 3 := Option.some.inj replaced
    have two : heldRoute.hops.length = 2 := rfl
    exact fair (.inl (by omega))

theorem routeUndisturbedHolder :
    (Undisturbed (holder.handleRouteUpdate tagScheme updateEnvelope 1).routeTable far heldRoute ↔
      ∀ entry, TakenUp tagScheme updateEnvelope 1 entry → Spares holder.routeTable far heldRoute entry 1) ∧
    (Undisturbed (holder.handleRouteReject updateEnvelope).routeTable far heldRoute ↔
      ¬ TornDown holder.routeTable far updateEnvelope) :=
  routeUndisturbedIff tagScheme holder (.record (.new newestFirst 8 60000) heldRoute 0) far heldRoute holderStored updateEnvelope 1

end OpenPulse.RouteUpkeep
