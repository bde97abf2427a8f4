import OpenPulse.Wire

/-! The payloads of the queries and of route discovery and maintenance:
`openpulse-core/src/wire_query.rs`. All integers on the wire are big-endian; a
decoder that reads past a checked length cannot fail. -/
namespace OpenPulse.Payloads
open ByteCodec Signing Wire

structure PeerQueryRequest where
  queryId : UInt64
  capabilityMask : UInt32
  minLinkQuality : UInt16
  trustFilter : UInt8
  maxResults : UInt16
  deriving DecidableEq, Repr

namespace PeerQueryRequest

def encode (q : PeerQueryRequest) : Bytes :=
  be 8 q.queryId.toNat ++ (be 4 q.capabilityMask.toNat ++ (be 2 q.minLinkQuality.toNat ++
    (q.trustFilter :: be 2 q.maxResults.toNat)))

def decode (bytes : Bytes) : Except WireQueryError PeerQueryRequest :=
  if bytes.length < 17 then .error .malformedPayload
  else .ok ⟨readU64 bytes 0,readU32 bytes 8,readU16 bytes 12,byteAt bytes 14,readU16 bytes 15⟩

end PeerQueryRequest

structure PeerQueryResult where
  peerId : PeerId
  callsignHash : Octets 32
  capabilityMask : UInt32
  lastSeenMs : UInt64
  trustState : UInt8
  descriptorSignature : Bytes
  deriving DecidableEq, Repr

namespace PeerQueryResult

def encode (r : PeerQueryResult) : Bytes :=
  let sigLen := min r.descriptorSignature.length 65535
  r.peerId.val ++ (r.callsignHash.val ++ (be 4 r.capabilityMask.toNat ++ (be 8 r.lastSeenMs.toNat ++
    (r.trustState :: (be 2 sigLen ++ r.descriptorSignature.take sigLen)))))

def decode (bytes : Bytes) : Except WireQueryError (PeerQueryResult × Nat) := do
  if bytes.length < 79 then throw .malformedPayload
  let peerId ← readArr 32 bytes 0
  let callsignHash ← readArr 32 bytes 32
  let sigLen := (readU16 bytes 77).toNat
  if bytes.length < 79 + sigLen then throw .malformedPayload
  return (⟨peerId,callsignHash,readU32 bytes 64,readU64 bytes 68,byteAt bytes 76,slice 79 sigLen bytes⟩, 79 + sigLen)

end PeerQueryResult

structure PeerQueryResponse where
  queryId : UInt64
  results : List PeerQueryResult
  deriving DecidableEq, Repr

namespace PeerQueryResponse

def encode (r : PeerQueryResponse) : Except WireQueryError Bytes :=
  if 65535 < r.results.length then .error .payloadTooLong
  else .ok (be 8 r.queryId.toNat ++ (be 2 r.results.length ++ r.results.flatMap PeerQueryResult.encode))

def readResults : Nat → Bytes → Except WireQueryError (List PeerQueryResult)
  | 0, _ => .ok []
  | count + 1, bytes => do
    let (result, consumed) ← PeerQueryResult.decode bytes
    let results ← readResults count (bytes.drop consumed)
    return result :: results

def decode (bytes : Bytes) : Except WireQueryError PeerQueryResponse := do
  if bytes.length < 10 then throw .malformedPayload
  let results ← readResults (readU16 bytes 8).toNat (bytes.drop 10)
  return ⟨readU64 bytes 0,results⟩

end PeerQueryResponse

structure RelayDataChunk where
  transferId : UInt64
  chunkSeq : UInt32
  totalChunks : UInt32
  chunkHash : Octets 32
  e2eManifestHash : Octets 32
  chunkSignature : Bytes
  chunkData : Bytes
  deriving DecidableEq, Repr

namespace RelayDataChunk

def encode (c : RelayDataChunk) : Except WireQueryError Bytes :=
  if 65535 < c.chunkSignature.length ∨ 65535 < c.chunkData.length then .error .payloadTooLong
  else .ok (be 8 c.transferId.toNat ++ (be 4 c.chunkSeq.toNat ++ (be 4 c.totalChunks.toNat ++
    (be 2 c.chunkData.length ++ (c.chunkHash.val ++ (c.e2eManifestHash.val ++ (be 2 c.chunkSignature.length ++
      (c.chunkSignature ++ c.chunkData))))))))

def decode (bytes : Bytes) : Except WireQueryError RelayDataChunk := do
  if bytes.length < 84 then throw .malformedPayload
  let chunkLen := (readU16 bytes 16).toNat
  let chunkHash ← readArr 32 bytes 18
  let e2eManifestHash ← readArr 32 bytes 50
  let sigEnd := 84 + (readU16 bytes 82).toNat
  if bytes.length < sigEnd + chunkLen then throw .malformedPayload
  return { chunkHash, e2eManifestHash
           transferId := readU64 bytes 0
           chunkSeq := readU32 bytes 8
           totalChunks := readU32 bytes 12
           chunkSignature := slice 84 (readU16 bytes 82).toNat bytes
           chunkData := slice sigEnd chunkLen bytes }

end RelayDataChunk

inductive WireTrustState where
  | trusted | unknown | untrusted | revoked
  deriving DecidableEq, Repr

def WireTrustState.code : WireTrustState → UInt8
  | trusted => 0x00
  | unknown => 0x01
  | untrusted => 0x02
  | revoked => 0x03

structure RouteHop where
  hopPeerId : PeerId
  hopTrustState : UInt8
  estimatedLatencyMs : UInt16
  estimatedReliabilityPermille : UInt16
  deriving DecidableEq, Repr

namespace RouteHop

def size : Nat := 37

def encode (h : RouteHop) : Bytes :=
  h.hopPeerId.val ++ (h.hopTrustState :: (be 2 h.estimatedLatencyMs.toNat ++
    be 2 h.estimatedReliabilityPermille.toNat))

def decode (bytes : Bytes) : Except WireQueryError RouteHop := do
  if bytes.length < size then throw .malformedPayload
  let hopPeerId ← readArr 32 bytes 0
  return ⟨hopPeerId,byteAt bytes 32,readU16 bytes 33,readU16 bytes 35⟩

def readHops : Nat → Bytes → Except WireQueryError (List RouteHop)
  | 0, _ => .ok []
  | count + 1, bytes => do
    let hop ← decode bytes
    let hops ← readHops count (bytes.drop size)
    return hop :: hops

end RouteHop

def readSignature (bytes : Bytes) (off : Nat) : Except WireQueryError Bytes :=
  let sigLen := (readU16 bytes off).toNat
  if bytes.length < off + 2 + sigLen then .error .malformedPayload else .ok (slice (off + 2) sigLen bytes)

structure RouteDiscoveryRequest where
  routeQueryId : UInt64
  destinationPeerId : PeerId
  maxHops : UInt8
  requiredCapabilityMask : UInt32
  policyFlags : UInt16
  accumulatedPath : List PeerId
  deriving DecidableEq, Repr

namespace RouteDiscoveryRequest

def headerSize : Nat := 47

def encode (q : RouteDiscoveryRequest) : Bytes :=
  let n := min q.accumulatedPath.length 255
  be 8 q.routeQueryId.toNat ++ (q.destinationPeerId.val ++ (q.maxHops :: (be 4 q.requiredCapabilityMask.toNat ++
    (be 2 q.policyFlags.toNat ++ (n.toUInt8 :: (q.accumulatedPath.take n).flatMap Subtype.val)))))

def readPath : Nat → Bytes → Except WireQueryError (List PeerId)
  | 0, _ => .ok []
  | count + 1, bytes => do
    let id ← readArr 32 bytes 0
    let path ← readPath count (bytes.drop 32)
    return id :: path

def readAccumulated (bytes : Bytes) : Except WireQueryError (List PeerId) :=
  if headerSize < bytes.length then
    let count := (byteAt bytes headerSize).toNat
    if bytes.length < headerSize + 1 + count * 32 then .error .malformedPayload
    else readPath count (bytes.drop (headerSize + 1))
  else .ok []

def decode (bytes : Bytes) : Except WireQueryError RouteDiscoveryRequest := do
  if bytes.length < headerSize then throw .malformedPayload
  let accumulatedPath ← readAccumulated bytes
  let destinationPeerId ← readArr 32 bytes 8
  return { destinationPeerId, accumulatedPath
           routeQueryId := readU64 bytes 0
           maxHops := byteAt bytes 40
           requiredCapabilityMask := readU32 bytes 41
           policyFlags := readU16 bytes 45 }

end RouteDiscoveryRequest

structure RouteDiscoveryResponse where
  routeQueryId : UInt64
  routeId : UInt64
  hops : List RouteHop
  routeSignature : Bytes
  deriving DecidableEq, Repr

namespace RouteDiscoveryResponse

def encode (r : RouteDiscoveryResponse) : Except WireQueryError Bytes :=
  if 8 < r.hops.length then .error .hopCountExceeded
  else if 65535 < r.routeSignature.length then .error .signatureTooLarge
  else .ok (be 8 r.routeQueryId.toNat ++ (be 8 r.routeId.toNat ++ (r.hops.length.toUInt8 ::
    (r.hops.flatMap RouteHop.encode ++ (be 2 r.routeSignature.length ++ r.routeSignature)))))

def decode (bytes : Bytes) : Except WireQueryError RouteDiscoveryResponse := do
  if bytes.length < 19 then throw .malformedPayload
  let hopCount := (byteAt bytes 16).toNat
  let hopsEnd := 17 + hopCount * RouteHop.size
  if bytes.length < hopsEnd + 2 then throw .malformedPayload
  let hops ← RouteHop.readHops hopCount (bytes.drop 17)
  let routeSignature ← readSignature bytes hopsEnd
  return ⟨readU64 bytes 0,readU64 bytes 8,hops,routeSignature⟩

end RouteDiscoveryResponse

structure RelayRouteUpdate where
  routeId : UInt64
  previousHopCount : UInt8
  routeChangeReason : UInt16
  replacementHops : List RouteHop
  routeUpdateSignature : Bytes
  deriving DecidableEq, Repr

namespace RelayRouteUpdate

def encode (u : RelayRouteUpdate) : Except WireQueryError Bytes :=
  if 255 < u.replacementHops.length then .error .hopCountExceeded
  else if 65535 < u.routeUpdateSignature.length then .error .signatureTooLarge
  else .ok (be 8 u.routeId.toNat ++ (u.previousHopCount :: u.replacementHops.length.toUInt8 ::
    (be 2 u.routeChangeReason.toNat ++ (u.replacementHops.flatMap RouteHop.encode ++
      (be 2 u.routeUpdateSignature.length ++ u.routeUpdateSignature)))))

def decode (bytes : Bytes) : Except WireQueryError RelayRouteUpdate := do
  if bytes.length < 14 then throw .malformedPayload
  let newHopCount := (byteAt bytes 9).toNat
  let hopsEnd := 12 + newHopCount * RouteHop.size
  if bytes.length < hopsEnd + 2 then throw .malformedPayload
  let replacementHops ← RouteHop.readHops newHopCount (bytes.drop 12)
  let routeUpdateSignature ← readSignature bytes hopsEnd
  return ⟨readU64 bytes 0,byteAt bytes 8,readU16 bytes 10,replacementHops,routeUpdateSignature⟩

end RelayRouteUpdate

structure RelayRouteReject where
  routeId : UInt64
  rejectHopPeerId : PeerId
  reasonCode : UInt16
  trustDecision : UInt8
  policyReference : UInt16
  deriving DecidableEq, Repr

namespace RelayRouteReject

def encode (r : RelayRouteReject) : Bytes :=
  be 8 r.routeId.toNat ++ (r.rejectHopPeerId.val ++ (be 2 r.reasonCode.toNat ++
    (r.trustDecision :: be 2 r.policyReference.toNat)))

def decode (bytes : Bytes) : Except WireQueryError RelayRouteReject := do
  if bytes.length < 45 then throw .malformedPayload
  let rejectHopPeerId ← readArr 32 bytes 8
  return ⟨readU64 bytes 0,rejectHopPeerId,readU16 bytes 40,byteAt bytes 42,readU16 bytes 43⟩

end RelayRouteReject

structure BroadcastFrame where
  callsignHash : UInt32
  seq : UInt16
  ttl : UInt8
  flags : UInt8
  payload : Bytes
  deriving DecidableEq, Repr

namespace BroadcastFrame

def encode (f : BroadcastFrame) : Bytes :=
  be 4 f.callsignHash.toNat ++ (be 2 f.seq.toNat ++ (f.ttl :: f.flags :: f.payload))

def decode (bytes : Bytes) : Except WireQueryError BroadcastFrame :=
  if bytes.length < 8 then .error .malformedPayload
  else .ok ⟨readU32 bytes 0,readU16 bytes 4,byteAt bytes 6,byteAt bytes 7,bytes.drop 8⟩

end BroadcastFrame

theorem decodeBroadcast (f : BroadcastFrame) : BroadcastFrame.decode f.encode = .ok f := by
  have hash : readU32 f.encode 0 = f.callsignHash := by
    have found : slice 0 4 f.encode = be 4 f.callsignHash.toNat := sliceAt [] _ _ rfl rfl (beLength 4 _)
    rw [readU32, found, readBeBounded f.callsignHash.toNat_lt]
    simp
  have seq : readU16 f.encode 4 = f.seq := by
    have found : slice 4 2 f.encode = be 2 f.seq.toNat := sliceAt (be 4 f.callsignHash.toNat) _ _ rfl (beLength 4 _) (beLength 2 _)
    rw [readU16, found, readBeBounded f.seq.toNat_lt]
    simp
  have rest : f.encode.drop 6 = f.ttl :: f.flags :: f.payload := by simp [BroadcastFrame.encode, List.drop_append]
  have ttl : byteAt f.encode 6 = f.ttl := by simp [byteAt, BroadcastFrame.encode, List.getElem?_append]
  have flags : byteAt f.encode 7 = f.flags := by simp [byteAt, BroadcastFrame.encode, List.getElem?_append]
  have payload : f.encode.drop 8 = f.payload := by
    rw [show 8 = 6 + 2 from rfl, ← List.drop_drop, rest]
    rfl
  have long : ¬ f.encode.length < 8 := by
    simp only [BroadcastFrame.encode, List.length_append, beLength, List.length_cons]
    omega
  rw [BroadcastFrame.decode, if_neg long, hash, seq, ttl, flags, payload]

def destinationOf (payload : Bytes) : Bytes := slice 8 32 payload

theorem destinationEncode (q : RouteDiscoveryRequest) : destinationOf q.encode = q.destinationPeerId.val :=
  sliceAt (be 8 q.routeQueryId.toNat) _ _ rfl (beLength 8 _) q.destinationPeerId.property

theorem readArrVal {n off : Nat} {bytes : Bytes} {arr : Octets n} (ok : readArr n bytes off = .ok arr) :
    arr.val = slice off n bytes := by
  unfold readArr octets at ok
  split at ok
  · rename_i found
    split at found
    · cases found
      cases ok
      rfl
    · cases found
  · cases ok

theorem destinationDecode {payload : Bytes} {q : RouteDiscoveryRequest} (ok : RouteDiscoveryRequest.decode payload = .ok q) :
    q.destinationPeerId.val = destinationOf payload := by
  unfold RouteDiscoveryRequest.decode at ok
  simp only [bind, Except.bind, throw, throwThe, MonadExceptOf.throw, pure, Except.pure] at ok
  split at ok
  · cases ok
  · split at ok
    · cases ok
    · split at ok
      · cases ok
      · rename_i found
        cases ok
        exact readArrVal found

end OpenPulse.Payloads
