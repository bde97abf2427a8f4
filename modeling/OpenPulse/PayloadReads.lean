import OpenPulse.Payloads
import OpenPulse.WireCodec

/-! The payload decoders with the index reads of the source: whatever the bytes,
none of them leaves the slice it is given. Counts and lengths are the sender's, so
each loop carries the guard that was checked before it. -/
namespace OpenPulse.PayloadReads
open ByteCodec Reads Signing Wire WireCodec Payloads

abbrev Reading (α : Type) := Read WireQueryError α

def u16At (bytes : Bytes) (off : Nat) : Reading UInt16 := do
  let high ← index bytes off
  let low ← index bytes (off + 1)
  return (readBe [high,low]).toUInt16

theorem yieldsU16At {bytes : Bytes} {off : Nat} (inside : off + 2 ≤ bytes.length) :
    Yields (u16At bytes off) (.ok (readU16 bytes off)) := by
  refine yieldsThen (yieldsIndex (by omega)) (yieldsThen (yieldsIndex (by omega)) ?_)
  rw [readU16, sliceIndex inside]
  exact yieldsPure _

def peerQueryResult (bytes : Bytes) : Reading (PeerQueryResult × Nat) :=
  if bytes.length < 79 then throw .malformedPayload
  else do
    let peerId ← readArrIndexed 32 bytes 0
    let callsignHash ← readArrIndexed 32 bytes 32
    let capabilityMask ← readU32Indexed bytes 64
    let lastSeenMs ← readU64Indexed bytes 68
    let trustState ← index bytes 76
    let sigLen ← u16At bytes 77
    let sigEnd := 79 + sigLen.toNat
    if bytes.length < sigEnd then throw .malformedPayload
    else do
      let descriptorSignature ← range bytes 79 sigEnd
      return (⟨peerId,callsignHash,capabilityMask,lastSeenMs,trustState,descriptorSignature⟩,sigEnd)

def peerQueryResults : Nat → Bytes → Nat → Reading (List PeerQueryResult)
  | 0, _, _ => pure []
  | count + 1, bytes, offset => do
    let record ← rest bytes offset
    let (result,consumed) ← peerQueryResult record
    let results ← peerQueryResults count bytes (offset + consumed)
    return result :: results

def peerQueryResponse (bytes : Bytes) : Reading PeerQueryResponse :=
  if bytes.length < 10 then throw .malformedPayload
  else do
    let queryId ← readU64Indexed bytes 0
    let resultCount ← u16At bytes 8
    let results ← peerQueryResults resultCount.toNat bytes 10
    return ⟨queryId,results⟩

theorem yieldsPeerQueryResult (bytes : Bytes) : Yields (peerQueryResult bytes) (PeerQueryResult.decode bytes) := by
  unfold peerQueryResult PeerQueryResult.decode
  refine yieldsIf (fun _ => yieldsThrow _) (fun short => ?_)
  rw [readArrInside (by omega : 0 + 32 ≤ bytes.length), readArrInside (by omega : 32 + 32 ≤ bytes.length)]
  refine yieldsThen (yieldsArr (by omega)) (yieldsThen (yieldsArr (by omega)) ?_)
  refine yieldsThen (yieldsU32 (by omega)) (yieldsThen (yieldsU64 (by omega)) (yieldsThen (yieldsByte (by omega)) ?_))
  refine yieldsThen (yieldsU16At (by omega)) ?_
  refine yieldsIf (fun _ => yieldsThrow _) (fun inside => ?_)
  have signature := @yieldsRange WireQueryError bytes 79 (79 + (readU16 bytes 77).toNat) (by omega) (by omega)
  rw [Nat.add_sub_cancel_left] at signature
  exact yieldsThen signature (yieldsPure _)

theorem peerQueryResultConsumed {bytes : Bytes} {result : PeerQueryResult} {consumed : Nat}
    (ok : PeerQueryResult.decode bytes = .ok (result,consumed)) : consumed ≤ bytes.length := by
  unfold PeerQueryResult.decode at ok
  simp only [bind, Except.bind, throw, throwThe, MonadExceptOf.throw, pure, Except.pure] at ok
  split at ok
  · cases ok
  · split at ok
    · cases ok
    · split at ok
      · cases ok
      · split at ok
        · cases ok
        · rename_i inside
          cases ok
          omega

theorem yieldsPeerQueryResults {bytes : Bytes} (count : Nat) {offset : Nat} (inside : offset ≤ bytes.length) :
    Yields (peerQueryResults count bytes offset) (PeerQueryResponse.readResults count (bytes.drop offset)) := by
  induction count generalizing offset with
  | zero => exact yieldsPure _
  | succ count ih =>
    unfold peerQueryResults PeerQueryResponse.readResults
    refine yieldsThen (yieldsRest inside) (yieldsBind (yieldsPeerQueryResult _) ?_)
    rintro ⟨result,consumed⟩ ok
    have within := peerQueryResultConsumed ok
    rw [List.length_drop] at within
    dsimp only
    rw [List.drop_drop]
    exact yieldsBind (ih (by omega)) (fun _ _ => yieldsPure _)

theorem yieldsPeerQueryResponse (bytes : Bytes) : Yields (peerQueryResponse bytes) (PeerQueryResponse.decode bytes) := by
  unfold peerQueryResponse PeerQueryResponse.decode
  refine yieldsIf (fun _ => yieldsThrow _) (fun short => ?_)
  refine yieldsThen (yieldsU64 (by omega)) (yieldsThen (yieldsU16At (by omega)) ?_)
  exact yieldsBind (yieldsPeerQueryResults _ (by omega)) (fun _ _ => yieldsPure _)

def relayDataChunk (bytes : Bytes) : Reading RelayDataChunk :=
  if bytes.length < 84 then throw .malformedPayload
  else do
    let transferId ← readU64Indexed bytes 0
    let chunkSeq ← readU32Indexed bytes 8
    let totalChunks ← readU32Indexed bytes 12
    let chunkLen ← u16At bytes 16
    let chunkHash ← readArrIndexed 32 bytes 18
    let e2eManifestHash ← readArrIndexed 32 bytes 50
    let sigLen ← u16At bytes 82
    let sigEnd := 84 + sigLen.toNat
    if bytes.length < sigEnd + chunkLen.toNat then throw .malformedPayload
    else do
      let chunkSignature ← range bytes 84 sigEnd
      let chunkData ← range bytes sigEnd (sigEnd + chunkLen.toNat)
      return { transferId, chunkSeq, totalChunks, chunkHash, e2eManifestHash, chunkSignature, chunkData }

theorem yieldsRelayDataChunk (bytes : Bytes) : Yields (relayDataChunk bytes) (RelayDataChunk.decode bytes) := by
  unfold relayDataChunk RelayDataChunk.decode
  refine yieldsIf (fun _ => yieldsThrow _) (fun short => ?_)
  rw [readArrInside (by omega : 18 + 32 ≤ bytes.length), readArrInside (by omega : 50 + 32 ≤ bytes.length)]
  refine yieldsThen (yieldsU64 (by omega)) (yieldsThen (yieldsU32 (by omega)) (yieldsThen (yieldsU32 (by omega)) ?_))
  refine yieldsThen (yieldsU16At (by omega)) (yieldsThen (yieldsArr (by omega)) (yieldsThen (yieldsArr (by omega)) ?_))
  refine yieldsThen (yieldsU16At (by omega)) ?_
  refine yieldsIf (fun _ => yieldsThrow _) (fun inside => ?_)
  generalize (readU16 bytes 82).toNat = sigLen at inside ⊢
  generalize (readU16 bytes 16).toNat = chunkLen at inside ⊢
  have signature := @yieldsRange WireQueryError bytes 84 (84 + sigLen) (by omega) (by omega)
  have data := @yieldsRange WireQueryError bytes (84 + sigLen) (84 + sigLen + chunkLen) (by omega) (by omega)
  rw [Nat.add_sub_cancel_left] at signature data
  exact yieldsThen signature (yieldsThen data (yieldsPure _))

def routeHop (bytes : Bytes) : Reading RouteHop :=
  if bytes.length < RouteHop.size then throw .malformedPayload
  else do
    let hopPeerId ← readArrIndexed 32 bytes 0
    let hopTrustState ← index bytes 32
    let estimatedLatencyMs ← u16At bytes 33
    let estimatedReliabilityPermille ← u16At bytes 35
    return ⟨hopPeerId,hopTrustState,estimatedLatencyMs,estimatedReliabilityPermille⟩

def routeHops : Nat → Bytes → Nat → Reading (List RouteHop)
  | 0, _, _ => pure []
  | count + 1, bytes, offset => do
    let record ← rest bytes offset
    let hop ← routeHop record
    let hops ← routeHops count bytes (offset + RouteHop.size)
    return hop :: hops

def pathFrom : Nat → Bytes → Nat → Reading (List PeerId)
  | 0, _, _ => pure []
  | count + 1, bytes, offset => do
    let id ← readArrIndexed 32 bytes offset
    let path ← pathFrom count bytes (offset + 32)
    return id :: path

def accumulated (bytes : Bytes) : Reading (List PeerId) :=
  if RouteDiscoveryRequest.headerSize < bytes.length then do
    let count ← index bytes RouteDiscoveryRequest.headerSize
    let start := RouteDiscoveryRequest.headerSize + 1
    if bytes.length < start + count.toNat * 32 then throw .malformedPayload
    else pathFrom count.toNat bytes start
  else pure []

def routeDiscoveryRequest (bytes : Bytes) : Reading RouteDiscoveryRequest :=
  if bytes.length < RouteDiscoveryRequest.headerSize then throw .malformedPayload
  else do
    let accumulatedPath ← accumulated bytes
    let routeQueryId ← readU64Indexed bytes 0
    let destinationPeerId ← readArrIndexed 32 bytes 8
    let maxHops ← index bytes 40
    let requiredCapabilityMask ← readU32Indexed bytes 41
    let policyFlags ← u16At bytes 45
    return { routeQueryId, destinationPeerId, maxHops, requiredCapabilityMask, policyFlags, accumulatedPath }

def signatureAt (bytes : Bytes) (hopsEnd : Nat) : Reading Bytes := do
  let sigLen ← u16At bytes hopsEnd
  let sigEnd := hopsEnd + 2 + sigLen.toNat
  if bytes.length < sigEnd then throw .malformedPayload
  else range bytes (hopsEnd + 2) sigEnd

def routeDiscoveryResponse (bytes : Bytes) : Reading RouteDiscoveryResponse :=
  if bytes.length < 19 then throw .malformedPayload
  else do
    let routeQueryId ← readU64Indexed bytes 0
    let routeId ← readU64Indexed bytes 8
    let hopCount ← index bytes 16
    let hopsEnd := 17 + hopCount.toNat * RouteHop.size
    if bytes.length < hopsEnd + 2 then throw .malformedPayload
    else do
      let hops ← routeHops hopCount.toNat bytes 17
      let routeSignature ← signatureAt bytes hopsEnd
      return ⟨routeQueryId,routeId,hops,routeSignature⟩

def relayRouteUpdate (bytes : Bytes) : Reading RelayRouteUpdate :=
  if bytes.length < 14 then throw .malformedPayload
  else do
    let routeId ← readU64Indexed bytes 0
    let previousHopCount ← index bytes 8
    let newHopCount ← index bytes 9
    let routeChangeReason ← u16At bytes 10
    let hopsEnd := 12 + newHopCount.toNat * RouteHop.size
    if bytes.length < hopsEnd + 2 then throw .malformedPayload
    else do
      let replacementHops ← routeHops newHopCount.toNat bytes 12
      let routeUpdateSignature ← signatureAt bytes hopsEnd
      return ⟨routeId,previousHopCount,routeChangeReason,replacementHops,routeUpdateSignature⟩

theorem yieldsRouteHop (bytes : Bytes) : Yields (routeHop bytes) (RouteHop.decode bytes) := by
  unfold routeHop RouteHop.decode RouteHop.size
  refine yieldsIf (fun _ => yieldsThrow _) (fun short => ?_)
  rw [readArrInside (by omega : 0 + 32 ≤ bytes.length)]
  refine yieldsThen (yieldsArr (by omega)) (yieldsThen (yieldsByte (by omega)) ?_)
  exact yieldsThen (yieldsU16At (by omega)) (yieldsThen (yieldsU16At (by omega)) (yieldsPure _))

theorem yieldsRouteHops {bytes : Bytes} (count : Nat) {offset : Nat}
    (inside : offset + count * RouteHop.size ≤ bytes.length) :
    Yields (routeHops count bytes offset) (RouteHop.readHops count (bytes.drop offset)) := by
  induction count generalizing offset with
  | zero => exact yieldsPure _
  | succ count ih =>
    unfold routeHops RouteHop.readHops
    rw [Nat.succ_mul] at inside
    refine yieldsThen (yieldsRest (by omega)) (yieldsBind (yieldsRouteHop _) ?_)
    intro hop _
    rw [List.drop_drop]
    exact yieldsBind (ih (by omega)) (fun _ _ => yieldsPure _)

theorem yieldsPath {bytes : Bytes} (count : Nat) {offset : Nat} (inside : offset + count * 32 ≤ bytes.length) :
    Yields (pathFrom count bytes offset) (RouteDiscoveryRequest.readPath count (bytes.drop offset)) := by
  induction count generalizing offset with
  | zero => exact yieldsPure _
  | succ count ih =>
    unfold pathFrom RouteDiscoveryRequest.readPath
    rw [Nat.succ_mul] at inside
    have here : readArr 32 (bytes.drop offset) 0 = .ok ⟨slice offset 32 bytes,sliceLength (by omega)⟩ := by
      rw [readArrInside (by rw [List.length_drop]; omega)]
      rfl
    rw [here, List.drop_drop]
    exact yieldsThen (yieldsArr (by omega)) (yieldsBind (ih (by omega)) (fun _ _ => yieldsPure _))

theorem yieldsAccumulated (bytes : Bytes) : Yields (accumulated bytes) (RouteDiscoveryRequest.readAccumulated bytes) := by
  unfold accumulated RouteDiscoveryRequest.readAccumulated
  refine yieldsIf (fun longer => ?_) (fun _ => yieldsPure _)
  refine yieldsThen (yieldsByte longer) ?_
  exact yieldsIf (fun _ => yieldsThrow _) (fun inside => yieldsPath _ (by omega))

theorem yieldsRouteDiscoveryRequest (bytes : Bytes) :
    Yields (routeDiscoveryRequest bytes) (RouteDiscoveryRequest.decode bytes) := by
  unfold routeDiscoveryRequest RouteDiscoveryRequest.decode RouteDiscoveryRequest.headerSize
  refine yieldsIf (fun _ => yieldsThrow _) (fun short => ?_)
  rw [readArrInside (by omega : 8 + 32 ≤ bytes.length)]
  refine yieldsBind (yieldsAccumulated bytes) (fun path _ => ?_)
  refine yieldsThen (yieldsU64 (by omega)) (yieldsThen (yieldsArr (by omega)) (yieldsThen (yieldsByte (by omega)) ?_))
  exact yieldsThen (yieldsU32 (by omega)) (yieldsThen (yieldsU16At (by omega)) (yieldsPure _))

theorem yieldsSignature {bytes : Bytes} {hopsEnd : Nat} (inside : hopsEnd + 2 ≤ bytes.length) :
    Yields (signatureAt bytes hopsEnd) (readSignature bytes hopsEnd) := by
  unfold signatureAt readSignature
  refine yieldsThen (yieldsU16At inside) (yieldsIf (fun _ => yieldsThrow _) (fun whole => ?_))
  have signature := @yieldsRange WireQueryError bytes (hopsEnd + 2) (hopsEnd + 2 + (readU16 bytes hopsEnd).toNat)
    (by omega) (by omega)
  rwa [Nat.add_sub_cancel_left] at signature

theorem yieldsRouteDiscoveryResponse (bytes : Bytes) :
    Yields (routeDiscoveryResponse bytes) (RouteDiscoveryResponse.decode bytes) := by
  unfold routeDiscoveryResponse RouteDiscoveryResponse.decode
  refine yieldsIf (fun _ => yieldsThrow _) (fun short => ?_)
  refine yieldsThen (yieldsU64 (by omega)) (yieldsThen (yieldsU64 (by omega)) (yieldsThen (yieldsByte (by omega)) ?_))
  refine yieldsIf (fun _ => yieldsThrow _) (fun inside => ?_)
  refine yieldsBind (yieldsRouteHops _ (by omega)) (fun hops _ => ?_)
  exact yieldsBind (yieldsSignature (by omega)) (fun _ _ => yieldsPure _)

theorem yieldsRelayRouteUpdate (bytes : Bytes) : Yields (relayRouteUpdate bytes) (RelayRouteUpdate.decode bytes) := by
  unfold relayRouteUpdate RelayRouteUpdate.decode
  refine yieldsIf (fun _ => yieldsThrow _) (fun short => ?_)
  refine yieldsThen (yieldsU64 (by omega)) (yieldsThen (yieldsByte (by omega)) (yieldsThen (yieldsByte (by omega)) ?_))
  refine yieldsThen (yieldsU16At (by omega)) ?_
  refine yieldsIf (fun _ => yieldsThrow _) (fun inside => ?_)
  refine yieldsBind (yieldsRouteHops _ (by omega)) (fun hops _ => ?_)
  exact yieldsBind (yieldsSignature (by omega)) (fun _ _ => yieldsPure _)

def broadcastFrame (bytes : Bytes) : Reading BroadcastFrame :=
  if bytes.length < 8 then throw .malformedPayload
  else do
    let callsignHash ← readU32Indexed bytes 0
    let seq ← u16At bytes 4
    let ttl ← index bytes 6
    let flags ← index bytes 7
    let payload ← rest bytes 8
    return ⟨callsignHash,seq,ttl,flags,payload⟩

theorem yieldsBroadcastFrame (bytes : Bytes) : Yields (broadcastFrame bytes) (BroadcastFrame.decode bytes) := by
  unfold broadcastFrame BroadcastFrame.decode
  refine yieldsIf (fun _ => yieldsThrow _) (fun short => ?_)
  refine yieldsThen (yieldsU32 (by omega)) (yieldsThen (yieldsU16At (by omega)) (yieldsThen (yieldsByte (by omega)) ?_))
  exact yieldsThen (yieldsByte (by omega)) (yieldsThen (yieldsRest (by omega)) (yieldsPure _))

end OpenPulse.PayloadReads
