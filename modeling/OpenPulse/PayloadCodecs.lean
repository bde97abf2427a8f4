import OpenPulse.PayloadReads

/-! The six payload codecs lose nothing: what fits is decoded as it was encoded,
and an encoding cut inside a record it declares is refused. A broadcast declares
its header only; a route request cut to its header is the one short form that is
accepted. -/
namespace OpenPulse.PayloadCodecs
open ByteCodec Reads Signing Wire WireCodec Payloads

theorem readU32Of {off : Nat} {raw : Bytes} (before : Bytes) (field : UInt32) (after : Bytes)
    (whole : raw = before ++ (be 4 field.toNat ++ after)) (position : before.length = off) : readU32 raw off = field := by
  rw [readU32, sliceAt before _ after whole position (beLength 4 _), readBeBounded field.toNat_lt]
  simp

theorem readLengthOf {off n : Nat} {raw : Bytes} (before after : Bytes) (whole : raw = before ++ (be 2 n ++ after))
    (position : before.length = off) (small : n ≤ 65535) : (readU16 raw off).toNat = n := by
  rw [readU16, sliceAt before _ after whole position (beLength 2 _), readBeBounded (by omega)]
  simp only [Nat.toUInt16_eq, UInt16.toNat_ofNat']
  omega

section Cut
variable {bytes : Bytes} {size off : Nat}

theorem byteTake (inside : off < size) : byteAt (bytes.take size) off = byteAt bytes off := by
  simp [byteAt, List.getD_eq_getElem?_getD, inside]

theorem u16Take (inside : off + 2 ≤ size) : readU16 (bytes.take size) off = readU16 bytes off := by
  rw [readU16, readU16, sliceTake inside]

end Cut

def chunkCodec : Codec WireQueryError RelayDataChunk where
  fits := fun c => c.chunkSignature.length ≤ 65535 ∧ c.chunkData.length ≤ 65535
  encode := RelayDataChunk.encode
  decode := RelayDataChunk.decode
  reads := PayloadReads.relayDataChunk
  cuts := fun total n => n < total

def chunkBytes (c : RelayDataChunk) : Bytes :=
  be 8 c.transferId.toNat ++ (be 4 c.chunkSeq.toNat ++ (be 4 c.totalChunks.toNat ++ (be 2 c.chunkData.length ++
    (c.chunkHash.val ++ (c.e2eManifestHash.val ++ (be 2 c.chunkSignature.length ++ (c.chunkSignature ++ c.chunkData)))))))

theorem chunkLength (c : RelayDataChunk) : (chunkBytes c).length = 84 + c.chunkSignature.length + c.chunkData.length := by
  have hash := c.chunkHash.property
  have manifest := c.e2eManifestHash.property
  simp only [chunkBytes, List.length_append, beLength, hash, manifest]
  omega

theorem chunkSizes {c : RelayDataChunk} (fits : chunkCodec.fits c) :
    (readU16 (chunkBytes c) 16).toNat = c.chunkData.length ∧ (readU16 (chunkBytes c) 82).toNat = c.chunkSignature.length := by
  have hash := c.chunkHash.property
  have manifest := c.e2eManifestHash.property
  constructor
  · exact readLengthOf (be 8 c.transferId.toNat ++ (be 4 c.chunkSeq.toNat ++ be 4 c.totalChunks.toNat)) _
      (by simp only [chunkBytes, List.append_assoc]; rfl) (by simp) fits.2
  · exact readLengthOf (be 8 c.transferId.toNat ++ (be 4 c.chunkSeq.toNat ++ (be 4 c.totalChunks.toNat ++
      (be 2 c.chunkData.length ++ (c.chunkHash.val ++ c.e2eManifestHash.val))))) _
      (by simp only [chunkBytes, List.append_assoc]; rfl) (by simp [hash, manifest]) fits.1

theorem chunkBack {c : RelayDataChunk} (fits : chunkCodec.fits c) : RelayDataChunk.decode (chunkBytes c) = .ok c := by
  have length := chunkLength c
  have hash := c.chunkHash.property
  have manifest := c.e2eManifestHash.property
  obtain ⟨dataSize,sigSize⟩ := chunkSizes fits
  have transferAt : readU64 (chunkBytes c) 0 = c.transferId := readU64Of [] _ _ rfl rfl
  have seqAt : readU32 (chunkBytes c) 8 = c.chunkSeq := readU32Of (be 8 c.transferId.toNat) _ _ rfl (by simp)
  have totalAt : readU32 (chunkBytes c) 12 = c.totalChunks :=
    readU32Of (be 8 c.transferId.toNat ++ be 4 c.chunkSeq.toNat) _ _ (by simp only [chunkBytes, List.append_assoc]; rfl) (by simp)
  let counters := be 8 c.transferId.toNat ++ (be 4 c.chunkSeq.toNat ++ (be 4 c.totalChunks.toNat ++ be 2 c.chunkData.length))
  let sized := counters ++ (c.chunkHash.val ++ (c.e2eManifestHash.val ++ be 2 c.chunkSignature.length))
  have hashAt : readArr 32 (chunkBytes c) 18 = .ok c.chunkHash :=
    readArrOf counters _ _ (by simp only [chunkBytes, counters, List.append_assoc]; rfl) (by simp [counters])
  have manifestAt : readArr 32 (chunkBytes c) 50 = .ok c.e2eManifestHash :=
    readArrOf (counters ++ c.chunkHash.val) _ _ (by simp only [chunkBytes, counters, List.append_assoc]; rfl)
      (by simp [counters, hash])
  have signatureAt : slice 84 c.chunkSignature.length (chunkBytes c) = c.chunkSignature :=
    sliceAt sized _ _ (by simp only [chunkBytes, sized, counters, List.append_assoc]; rfl)
      (by simp [sized, counters, hash, manifest]) rfl
  have dataAt : slice (84 + c.chunkSignature.length) c.chunkData.length (chunkBytes c) = c.chunkData :=
    sliceAt (sized ++ c.chunkSignature) _ [] (by simp [chunkBytes, sized, counters])
      (by simp only [List.length_append, beLength, sized, counters, hash, manifest]) rfl
  have long : ¬ (chunkBytes c).length < 84 := by omega
  have longer : ¬ (chunkBytes c).length < 84 + c.chunkSignature.length + c.chunkData.length := by omega
  simp only [RelayDataChunk.decode, if_neg long, dataSize, sigSize, hashAt, manifestAt, bind, Except.bind, if_neg longer,
    transferAt, seqAt, totalAt, signatureAt, dataAt]
  rfl

theorem chunkCut {c : RelayDataChunk} (fits : chunkCodec.fits c) {n : Nat} (short : n < (chunkBytes c).length) :
    ∃ err, RelayDataChunk.decode ((chunkBytes c).take n) = .error err := by
  have length := chunkLength c
  obtain ⟨dataSize,sigSize⟩ := chunkSizes fits
  have size : ((chunkBytes c).take n).length = n := List.length_take_of_le (by omega)
  unfold RelayDataChunk.decode
  by_cases header : n < 84
  · rw [size, if_pos header]
    exact ⟨_,rfl⟩
  · rw [if_neg (by omega), readArrInside (by omega : 18 + 32 ≤ _), readArrInside (by omega : 50 + 32 ≤ _),
      u16Take (by omega), u16Take (by omega), dataSize, sigSize]
    refine ⟨.malformedPayload,?_⟩
    simp only [bind, Except.bind]
    rw [if_pos (by omega)]
    rfl

theorem chunkAccepted {c : RelayDataChunk} (fits : chunkCodec.fits c) : c.encode = .ok (chunkBytes c) := by
  have small : ¬ (65535 < c.chunkSignature.length ∨ 65535 < c.chunkData.length) := by
    have left := fits.1
    have right := fits.2
    omega
  rw [RelayDataChunk.encode, if_neg small]
  rfl

theorem chunkLossless : chunkCodec.Lossless := by
  apply Codec.lossless chunkBytes
  all_goals dsimp only [chunkCodec]
  · exact fun _ => chunkAccepted
  · exact fun _ => chunkBack
  · exact PayloadReads.yieldsRelayDataChunk
  · exact fun _ fits _ => chunkCut fits

def responseCodec : Codec WireQueryError PeerQueryResponse where
  fits := fun r => r.results.length ≤ 65535 ∧ ∀ result ∈ r.results, result.descriptorSignature.length ≤ 65535
  encode := PeerQueryResponse.encode
  decode := PeerQueryResponse.decode
  reads := PayloadReads.peerQueryResponse
  cuts := fun total n => n < total

section Result
variable {r : PeerQueryResult} (small : r.descriptorSignature.length ≤ 65535)
include small

theorem resultBytes : r.encode = r.peerId.val ++ (r.callsignHash.val ++ (be 4 r.capabilityMask.toNat ++
    (be 8 r.lastSeenMs.toNat ++ (r.trustState :: (be 2 r.descriptorSignature.length ++ r.descriptorSignature))))) := by
  simp only [PeerQueryResult.encode, Nat.min_eq_left small, List.take_length]

theorem resultLength : r.encode.length = 79 + r.descriptorSignature.length := by
  have id := r.peerId.property
  have callsign := r.callsignHash.property
  rw [resultBytes small]
  simp only [List.length_append, List.length_cons, beLength, id, callsign]
  omega

theorem resultSize (rest : Bytes) : (readU16 (r.encode ++ rest) 77).toNat = r.descriptorSignature.length := by
  have id := r.peerId.property
  have callsign := r.callsignHash.property
  refine readLengthOf (r.peerId.val ++ (r.callsignHash.val ++ (be 4 r.capabilityMask.toNat ++
    (be 8 r.lastSeenMs.toNat ++ [r.trustState])))) (r.descriptorSignature ++ rest) ?_ (by simp [id, callsign]) small
  rw [resultBytes small]
  simp only [List.append_assoc, List.cons_append, List.nil_append]

theorem resultBack (rest : Bytes) : PeerQueryResult.decode (r.encode ++ rest) = .ok (r,r.encode.length) := by
  have id := r.peerId.property
  have callsign := r.callsignHash.property
  have size := resultSize small rest
  have length := resultLength small
  have whole := resultBytes small
  generalize r.encode = raw at size length whole ⊢
  let ids := r.peerId.val ++ r.callsignHash.val
  let seen := ids ++ (be 4 r.capabilityMask.toNat ++ be 8 r.lastSeenMs.toNat)
  have idAt : readArr 32 (raw ++ rest) 0 = .ok r.peerId :=
    readArrOf [] _ _ (by rw [whole, List.nil_append, List.append_assoc]) rfl
  have callsignAt : readArr 32 (raw ++ rest) 32 = .ok r.callsignHash :=
    readArrOf r.peerId.val _ _ (by simp only [whole, List.append_assoc]; rfl) id
  have maskAt : readU32 (raw ++ rest) 64 = r.capabilityMask :=
    readU32Of ids _ _ (by simp only [whole, ids, List.append_assoc]; rfl) (by simp [ids, id, callsign])
  have seenAt : readU64 (raw ++ rest) 68 = r.lastSeenMs :=
    readU64Of (ids ++ be 4 r.capabilityMask.toNat) _ _ (by simp only [whole, ids, List.append_assoc]; rfl)
      (by simp [ids, id, callsign])
  have trustAt : byteAt (raw ++ rest) 76 = r.trustState :=
    byteAtOf seen _ _ (by simp only [whole, seen, ids, List.append_assoc]; rfl) (by simp [seen, ids, id, callsign])
  have signatureAt : slice 79 r.descriptorSignature.length (raw ++ rest) = r.descriptorSignature :=
    sliceAt (seen ++ r.trustState :: be 2 r.descriptorSignature.length) _ rest
      (by simp only [whole, seen, ids, List.append_assoc, List.cons_append]) (by simp [seen, ids, id, callsign]) rfl
  have long : ¬ (raw ++ rest).length < 79 := by rw [List.length_append]; omega
  have longer : ¬ (raw ++ rest).length < 79 + r.descriptorSignature.length := by rw [List.length_append]; omega
  simp only [PeerQueryResult.decode, if_neg long, idAt, callsignAt, size, bind, Except.bind, if_neg longer, maskAt, seenAt,
    trustAt, signatureAt, length]
  rfl

theorem resultCut {n : Nat} (short : n < r.encode.length) (rest : Bytes) :
    ∃ err, PeerQueryResult.decode ((r.encode ++ rest).take n) = .error err := by
  have length := resultLength small
  have size := resultSize small rest
  have cut : ((r.encode ++ rest).take n).length = n := List.length_take_of_le (by rw [List.length_append]; omega)
  unfold PeerQueryResult.decode
  by_cases header : n < 79
  · rw [cut, if_pos header]
    exact ⟨_,rfl⟩
  · rw [if_neg (by omega), readArrInside (by omega : 0 + 32 ≤ _), readArrInside (by omega : 32 + 32 ≤ _),
      u16Take (by omega), size]
    refine ⟨.malformedPayload,?_⟩
    simp only [bind, Except.bind]
    rw [if_pos (by omega)]
    rfl

end Result

theorem readResultsBack {results : List PeerQueryResult}
    (small : ∀ r ∈ results, r.descriptorSignature.length ≤ 65535) (rest : Bytes) :
    PeerQueryResponse.readResults results.length (results.flatMap PeerQueryResult.encode ++ rest) = .ok results := by
  induction results with
  | nil => rfl
  | cons r results ih =>
    have first := resultBack (small r List.mem_cons_self) (results.flatMap PeerQueryResult.encode ++ rest)
    have others := ih (fun x inside => small x (List.mem_cons_of_mem _ inside))
    rw [List.flatMap_cons, List.append_assoc, List.length_cons, PeerQueryResponse.readResults, first]
    simp only [bind, Except.bind, List.drop_left, others]
    rfl

theorem readResultsCut {results : List PeerQueryResult} (small : ∀ r ∈ results, r.descriptorSignature.length ≤ 65535)
    {n : Nat} (short : n < (results.flatMap PeerQueryResult.encode).length) :
    ∃ err, PeerQueryResponse.readResults results.length ((results.flatMap PeerQueryResult.encode).take n) = .error err := by
  induction results generalizing n with
  | nil => exact absurd short (Nat.not_lt_zero n)
  | cons r results ih =>
    have here := small r List.mem_cons_self
    rw [List.flatMap_cons] at short ⊢
    rw [List.length_append] at short
    rw [List.length_cons, PeerQueryResponse.readResults]
    by_cases inside : n < r.encode.length
    · obtain ⟨err,refused⟩ := resultCut here inside (results.flatMap PeerQueryResult.encode)
      rw [refused]
      exact ⟨err,rfl⟩
    · obtain ⟨err,refused⟩ := ih (fun x later => small x (List.mem_cons_of_mem _ later))
        (by omega : n - r.encode.length < _)
      refine ⟨err,?_⟩
      rw [List.take_append, List.take_of_length_le (Nat.not_lt.mp inside), resultBack here]
      simp only [bind, Except.bind, List.drop_left, refused]

def responseBytes (r : PeerQueryResponse) : Bytes :=
  be 8 r.queryId.toNat ++ (be 2 r.results.length ++ r.results.flatMap PeerQueryResult.encode)

section Response
variable {r : PeerQueryResponse} (fits : responseCodec.fits r)
include fits

theorem responseAccepted : r.encode = .ok (responseBytes r) := by
  have few := fits.1
  rw [PeerQueryResponse.encode, if_neg (by omega)]
  rfl

theorem responseSize : (readU16 (responseBytes r) 8).toNat = r.results.length :=
  readLengthOf (be 8 r.queryId.toNat) _ rfl (by simp) fits.1

theorem responseBack : PeerQueryResponse.decode (responseBytes r) = .ok r := by
  have size := responseSize fits
  have query : readU64 (responseBytes r) 0 = r.queryId := readU64Of [] _ _ rfl rfl
  have records : (responseBytes r).drop 10 = r.results.flatMap PeerQueryResult.encode ++ [] := by
    rw [responseBytes, ← List.append_assoc, List.append_nil]
    exact List.drop_left' (by simp)
  have long : ¬ (responseBytes r).length < 10 := by
    simp only [responseBytes, List.length_append, beLength]
    omega
  simp only [PeerQueryResponse.decode, if_neg long, size, records, readResultsBack fits.2, bind, Except.bind, query]
  rfl

theorem responseCut {n : Nat} (short : n < (responseBytes r).length) :
    ∃ err, PeerQueryResponse.decode ((responseBytes r).take n) = .error err := by
  have size := responseSize fits
  have cut : ((responseBytes r).take n).length = n := List.length_take_of_le (by omega)
  unfold PeerQueryResponse.decode
  by_cases header : n < 10
  · rw [cut, if_pos header]
    exact ⟨_,rfl⟩
  · have records : ((responseBytes r).take n).drop 10 = (r.results.flatMap PeerQueryResult.encode).take (n - 10) := by
      rw [List.drop_take, responseBytes, ← List.append_assoc, List.drop_left' (by simp)]
    have length : (responseBytes r).length = 10 + (r.results.flatMap PeerQueryResult.encode).length := by
      simp only [responseBytes, List.length_append, beLength]
      omega
    obtain ⟨err,refused⟩ := readResultsCut fits.2 (by omega : n - 10 < _)
    rw [if_neg (by omega), u16Take (by omega), size, records, refused]
    exact ⟨err,rfl⟩

end Response

theorem responseLossless : responseCodec.Lossless := by
  apply Codec.lossless responseBytes
  all_goals dsimp only [responseCodec]
  · exact fun _ => responseAccepted
  · exact fun _ => responseBack
  · exact PayloadReads.yieldsPeerQueryResponse
  · exact fun _ fits _ => responseCut fits

theorem hopLength (h : RouteHop) : h.encode.length = RouteHop.size := by
  have id := h.hopPeerId.property
  simp [RouteHop.encode, RouteHop.size, id]

theorem hopsLength (hops : List RouteHop) : (hops.flatMap RouteHop.encode).length = hops.length * RouteHop.size := by
  induction hops with
  | nil => rfl
  | cons h hops ih => rw [List.flatMap_cons, List.length_append, ih, hopLength, List.length_cons, Nat.succ_mul, Nat.add_comm]

theorem hopBack (h : RouteHop) (rest : Bytes) : RouteHop.decode (h.encode ++ rest) = .ok h := by
  have id := h.hopPeerId.property
  have length := hopLength h
  have idAt : readArr 32 (h.encode ++ rest) 0 = .ok h.hopPeerId :=
    readArrOf [] _ _ (by simp only [RouteHop.encode, List.append_assoc]; rfl) rfl
  have trustAt : byteAt (h.encode ++ rest) 32 = h.hopTrustState :=
    byteAtOf h.hopPeerId.val _ _ (by simp only [RouteHop.encode, List.append_assoc]; rfl) id
  have latencyAt : readU16 (h.encode ++ rest) 33 = h.estimatedLatencyMs :=
    readU16Of (h.hopPeerId.val ++ [h.hopTrustState]) _ _
      (by simp only [RouteHop.encode, List.append_assoc, List.cons_append]; rfl) (by simp [id])
  have reliabilityAt : readU16 (h.encode ++ rest) 35 = h.estimatedReliabilityPermille :=
    readU16Of (h.hopPeerId.val ++ h.hopTrustState :: be 2 h.estimatedLatencyMs.toNat) _ rest
      (by simp only [RouteHop.encode, List.append_assoc, List.cons_append]) (by simp [id])
  have long : ¬ (h.encode ++ rest).length < RouteHop.size := by rw [List.length_append]; omega
  simp only [RouteHop.decode, if_neg long, idAt, bind, Except.bind, trustAt, latencyAt, reliabilityAt]
  rfl

theorem readHopsBack (hops : List RouteHop) (rest : Bytes) :
    RouteHop.readHops hops.length (hops.flatMap RouteHop.encode ++ rest) = .ok hops := by
  induction hops with
  | nil => rfl
  | cons h hops ih =>
    have first := hopBack h (hops.flatMap RouteHop.encode ++ rest)
    rw [List.flatMap_cons, List.append_assoc, List.length_cons, RouteHop.readHops, first]
    simp only [bind, Except.bind, ← hopLength h, List.drop_left, ih]
    rfl

def hopsSigned (hops : List RouteHop) (signature : Bytes) : Bytes :=
  hops.flatMap RouteHop.encode ++ (be 2 signature.length ++ signature)

section Signed
variable {raw start signature : Bytes} {hops : List RouteHop} {off : Nat} (whole : raw = start ++ hopsSigned hops signature)
  (position : start.length = off)
include whole position

theorem signedLength : raw.length = off + hops.length * RouteHop.size + 2 + signature.length := by
  rw [whole, hopsSigned]
  simp only [List.length_append, hopsLength, beLength, position]
  omega

theorem hopsAt : RouteHop.readHops hops.length (raw.drop off) = .ok hops := by
  rw [whole, List.drop_left' position]
  exact readHopsBack hops _

theorem signatureSize (small : signature.length ≤ 65535) :
    (readU16 raw (off + hops.length * RouteHop.size)).toNat = signature.length :=
  readLengthOf (start ++ hops.flatMap RouteHop.encode) signature (by rw [whole, hopsSigned, List.append_assoc])
    (by rw [List.length_append, hopsLength, position]) small

theorem signatureBack (small : signature.length ≤ 65535) :
    readSignature raw (off + hops.length * RouteHop.size) = .ok signature := by
  have length := signedLength whole position
  have size := signatureSize whole position small
  have found : slice (off + hops.length * RouteHop.size + 2) signature.length raw = signature :=
    sliceAt (start ++ (hops.flatMap RouteHop.encode ++ be 2 signature.length)) signature []
      (by simp only [whole, hopsSigned, List.append_assoc, List.append_nil])
      (by simp only [List.length_append, hopsLength, position, beLength]; omega) rfl
  simp only [readSignature, size, found]
  rw [if_neg (by omega)]

theorem signatureCut (small : signature.length ≤ 65535) {n : Nat} (counted : off + hops.length * RouteHop.size + 2 ≤ n)
    (short : n < raw.length) :
    readSignature (raw.take n) (off + hops.length * RouteHop.size) = .error .malformedPayload := by
  have length := signedLength whole position
  have size := signatureSize whole position small
  have cut : (raw.take n).length = n := List.length_take_of_le (by omega)
  simp only [readSignature, u16Take counted, size]
  rw [if_pos (by omega)]

theorem routeCut {α : Type} (small : signature.length ≤ 65535) {n : Nat} (short : n < raw.length)
    (build : List RouteHop → Bytes → α) :
    ∃ err, (do
      if (raw.take n).length < off + hops.length * RouteHop.size + 2 then throw .malformedPayload
      let found ← RouteHop.readHops hops.length ((raw.take n).drop off)
      let signature ← readSignature (raw.take n) (off + hops.length * RouteHop.size)
      return build found signature : Except WireQueryError α) = .error err := by
  have cut : (raw.take n).length = n := List.length_take_of_le (by omega)
  by_cases counted : n < off + hops.length * RouteHop.size + 2
  · rw [cut, if_pos counted]
    exact ⟨_,rfl⟩
  · simp only [cut, if_neg counted, signatureCut whole position small (Nat.not_lt.mp counted) short]
    cases RouteHop.readHops hops.length ((raw.take n).drop off) with
    | error err => exact ⟨err,rfl⟩
    | ok found => exact ⟨_,rfl⟩

end Signed

theorem countByte {n : Nat} (small : n ≤ 255) : n.toUInt8.toNat = n := by
  simp only [Nat.toUInt8_eq, UInt8.toNat_ofNat']
  omega

def routeResponseCodec : Codec WireQueryError RouteDiscoveryResponse where
  fits := fun r => r.hops.length ≤ 8 ∧ r.routeSignature.length ≤ 65535
  encode := RouteDiscoveryResponse.encode
  decode := RouteDiscoveryResponse.decode
  reads := PayloadReads.routeDiscoveryResponse
  cuts := fun total n => n < total

def routeResponseStart (r : RouteDiscoveryResponse) : Bytes :=
  be 8 r.routeQueryId.toNat ++ (be 8 r.routeId.toNat ++ [r.hops.length.toUInt8])

def routeResponseBytes (r : RouteDiscoveryResponse) : Bytes := routeResponseStart r ++ hopsSigned r.hops r.routeSignature

section RouteResponse
variable {r : RouteDiscoveryResponse} (fits : routeResponseCodec.fits r)
include fits

theorem routeResponseAccepted : r.encode = .ok (routeResponseBytes r) := by
  have few := fits.1
  have small := fits.2
  rw [RouteDiscoveryResponse.encode, if_neg (by omega), if_neg (by omega)]
  simp only [routeResponseBytes, routeResponseStart, hopsSigned, List.append_assoc, List.cons_append, List.nil_append]

theorem routeResponseCount : (byteAt (routeResponseBytes r) 16).toNat = r.hops.length := by
  have few := fits.1
  have found : byteAt (routeResponseBytes r) 16 = r.hops.length.toUInt8 :=
    byteAtOf (be 8 r.routeQueryId.toNat ++ be 8 r.routeId.toNat) _ (hopsSigned r.hops r.routeSignature)
      (by simp only [routeResponseBytes, routeResponseStart, List.append_assoc, List.cons_append, List.nil_append]) (by simp)
  rw [found, countByte (by omega)]

theorem routeResponseBack : RouteDiscoveryResponse.decode (routeResponseBytes r) = .ok r := by
  have start : (routeResponseStart r).length = 17 := by simp [routeResponseStart]
  have length := signedLength (rfl : routeResponseBytes r = _) start
  have count := routeResponseCount fits
  have hops := hopsAt (rfl : routeResponseBytes r = _) start
  have signature := signatureBack (rfl : routeResponseBytes r = _) start fits.2
  have queryAt : readU64 (routeResponseBytes r) 0 = r.routeQueryId :=
    readU64Of [] _ _ (by simp only [routeResponseBytes, routeResponseStart, List.append_assoc]; rfl) rfl
  have routeAt : readU64 (routeResponseBytes r) 8 = r.routeId :=
    readU64Of (be 8 r.routeQueryId.toNat) _ _ (by simp only [routeResponseBytes, routeResponseStart, List.append_assoc]; rfl)
      (by simp)
  have long : ¬ (routeResponseBytes r).length < 19 := by omega
  have longer : ¬ (routeResponseBytes r).length < 17 + r.hops.length * RouteHop.size + 2 := by omega
  simp only [RouteDiscoveryResponse.decode, if_neg long, count, if_neg longer, hops, signature, bind, Except.bind, queryAt,
    routeAt]
  rfl

theorem routeResponseCut {n : Nat} (short : n < (routeResponseBytes r).length) :
    ∃ err, RouteDiscoveryResponse.decode ((routeResponseBytes r).take n) = .error err := by
  have start : (routeResponseStart r).length = 17 := by simp [routeResponseStart]
  have count := routeResponseCount fits
  have cut : ((routeResponseBytes r).take n).length = n := List.length_take_of_le (by omega)
  unfold RouteDiscoveryResponse.decode
  by_cases header : n < 19
  · rw [cut, if_pos header]
    exact ⟨_,rfl⟩
  · rw [if_neg (by omega), byteTake (by omega), count]
    exact routeCut (rfl : routeResponseBytes r = _) start fits.2 short _

end RouteResponse

theorem routeResponseLossless : routeResponseCodec.Lossless := by
  apply Codec.lossless routeResponseBytes
  all_goals dsimp only [routeResponseCodec]
  · exact fun _ => routeResponseAccepted
  · exact fun _ => routeResponseBack
  · exact PayloadReads.yieldsRouteDiscoveryResponse
  · exact fun _ fits _ => routeResponseCut fits

def updateCodec : Codec WireQueryError RelayRouteUpdate where
  fits := fun u => u.replacementHops.length ≤ 255 ∧ u.routeUpdateSignature.length ≤ 65535
  encode := RelayRouteUpdate.encode
  decode := RelayRouteUpdate.decode
  reads := PayloadReads.relayRouteUpdate
  cuts := fun total n => n < total

def updateStart (u : RelayRouteUpdate) : Bytes :=
  be 8 u.routeId.toNat ++ (u.previousHopCount :: u.replacementHops.length.toUInt8 :: be 2 u.routeChangeReason.toNat)

def updateBytes (u : RelayRouteUpdate) : Bytes := updateStart u ++ hopsSigned u.replacementHops u.routeUpdateSignature

section Update
variable {u : RelayRouteUpdate} (fits : updateCodec.fits u)
include fits

theorem updateAccepted : u.encode = .ok (updateBytes u) := by
  have few := fits.1
  have small := fits.2
  rw [RelayRouteUpdate.encode, if_neg (by omega), if_neg (by omega)]
  simp only [updateBytes, updateStart, hopsSigned, List.append_assoc, List.cons_append]

theorem updateCount : (byteAt (updateBytes u) 9).toNat = u.replacementHops.length := by
  have found : byteAt (updateBytes u) 9 = u.replacementHops.length.toUInt8 :=
    byteAtOf (be 8 u.routeId.toNat ++ [u.previousHopCount]) _ _
      (by simp only [updateBytes, updateStart, List.append_assoc, List.cons_append]; rfl) (by simp)
  rw [found, countByte fits.1]

theorem updateBack : RelayRouteUpdate.decode (updateBytes u) = .ok u := by
  have start : (updateStart u).length = 12 := by simp [updateStart]
  have length := signedLength (rfl : updateBytes u = _) start
  have count := updateCount fits
  have hops := hopsAt (rfl : updateBytes u = _) start
  have signature := signatureBack (rfl : updateBytes u = _) start fits.2
  have routeAt : readU64 (updateBytes u) 0 = u.routeId :=
    readU64Of [] _ _ (by simp only [updateBytes, updateStart, List.append_assoc]; rfl) rfl
  have previousAt : byteAt (updateBytes u) 8 = u.previousHopCount :=
    byteAtOf (be 8 u.routeId.toNat) _ _ (by simp only [updateBytes, updateStart, List.append_assoc]; rfl) (by simp)
  have reasonAt : readU16 (updateBytes u) 10 = u.routeChangeReason :=
    readU16Of (be 8 u.routeId.toNat ++ [u.previousHopCount,u.replacementHops.length.toUInt8]) _
      (hopsSigned u.replacementHops u.routeUpdateSignature)
      (by simp only [updateBytes, updateStart, List.append_assoc, List.cons_append, List.nil_append]) (by simp)
  have long : ¬ (updateBytes u).length < 14 := by omega
  have longer : ¬ (updateBytes u).length < 12 + u.replacementHops.length * RouteHop.size + 2 := by omega
  simp only [RelayRouteUpdate.decode, if_neg long, count, if_neg longer, hops, signature, bind, Except.bind, routeAt,
    previousAt, reasonAt]
  rfl

theorem updateCut {n : Nat} (short : n < (updateBytes u).length) :
    ∃ err, RelayRouteUpdate.decode ((updateBytes u).take n) = .error err := by
  have start : (updateStart u).length = 12 := by simp [updateStart]
  have count := updateCount fits
  have cut : ((updateBytes u).take n).length = n := List.length_take_of_le (by omega)
  unfold RelayRouteUpdate.decode
  by_cases header : n < 14
  · rw [cut, if_pos header]
    exact ⟨_,rfl⟩
  · rw [if_neg (by omega), byteTake (by omega : 9 < n), count]
    exact routeCut (rfl : updateBytes u = _) start fits.2 short _

end Update

theorem updateLossless : updateCodec.Lossless := by
  apply Codec.lossless updateBytes
  all_goals dsimp only [updateCodec]
  · exact fun _ => updateAccepted
  · exact fun _ => updateBack
  · exact PayloadReads.yieldsRelayRouteUpdate
  · exact fun _ fits _ => updateCut fits

def requestCodec : Codec WireQueryError RouteDiscoveryRequest where
  fits := fun q => q.accumulatedPath.length ≤ 255
  encode := fun q => .ok q.encode
  decode := RouteDiscoveryRequest.decode
  reads := PayloadReads.routeDiscoveryRequest
  cuts := fun total n => n < total ∧ n ≠ RouteDiscoveryRequest.headerSize

def requestHeader (q : RouteDiscoveryRequest) : Bytes :=
  be 8 q.routeQueryId.toNat ++ (q.destinationPeerId.val ++ (q.maxHops :: (be 4 q.requiredCapabilityMask.toNat ++
    be 2 q.policyFlags.toNat)))

theorem requestHeaderLength (q : RouteDiscoveryRequest) : (requestHeader q).length = RouteDiscoveryRequest.headerSize := by
  have destination := q.destinationPeerId.property
  simp [requestHeader, RouteDiscoveryRequest.headerSize, destination]

theorem requestFields (q : RouteDiscoveryRequest) {rest : Bytes} {path : List PeerId}
    (accumulated : RouteDiscoveryRequest.readAccumulated (requestHeader q ++ rest) = .ok path) :
    RouteDiscoveryRequest.decode (requestHeader q ++ rest) = .ok { q with accumulatedPath := path } := by
  have destination := q.destinationPeerId.property
  have header := requestHeaderLength q
  have queryAt : readU64 (requestHeader q ++ rest) 0 = q.routeQueryId :=
    readU64Of [] _ _ (by simp only [requestHeader, List.append_assoc]; rfl) rfl
  have destinationAt : readArr 32 (requestHeader q ++ rest) 8 = .ok q.destinationPeerId :=
    readArrOf (be 8 q.routeQueryId.toNat) _ _ (by simp only [requestHeader, List.append_assoc]; rfl) (by simp)
  let named := be 8 q.routeQueryId.toNat ++ q.destinationPeerId.val
  have hopsAt : byteAt (requestHeader q ++ rest) 40 = q.maxHops :=
    byteAtOf named _ _ (by simp only [requestHeader, named, List.append_assoc]; rfl) (by simp [named, destination])
  have maskAt : readU32 (requestHeader q ++ rest) 41 = q.requiredCapabilityMask :=
    readU32Of (named ++ [q.maxHops]) _ _ (by simp only [requestHeader, named, List.append_assoc, List.cons_append]; rfl)
      (by simp [named, destination])
  have flagsAt : readU16 (requestHeader q ++ rest) 45 = q.policyFlags :=
    readU16Of (named ++ q.maxHops :: be 4 q.requiredCapabilityMask.toNat) _ rest
      (by simp only [requestHeader, named, List.append_assoc, List.cons_append]) (by simp [named, destination])
  have long : ¬ (requestHeader q ++ rest).length < RouteDiscoveryRequest.headerSize := by rw [List.length_append]; omega
  simp only [RouteDiscoveryRequest.decode, if_neg long, accumulated, destinationAt, bind, Except.bind, queryAt, hopsAt,
    maskAt, flagsAt]
  rfl

theorem pathLength (path : List PeerId) : (path.flatMap Subtype.val).length = path.length * 32 := by
  induction path with
  | nil => rfl
  | cons id path ih =>
    rw [List.flatMap_cons, List.length_append, ih, id.property, List.length_cons, Nat.succ_mul, Nat.add_comm]

theorem readPathBack (path : List PeerId) : RouteDiscoveryRequest.readPath path.length (path.flatMap Subtype.val) = .ok path := by
  induction path with
  | nil => rfl
  | cons id path ih =>
    have here : readArr 32 (id.val ++ path.flatMap Subtype.val) 0 = .ok id := readArrOf [] id _ rfl rfl
    have later : (id.val ++ path.flatMap Subtype.val).drop 32 = path.flatMap Subtype.val := List.drop_left' id.property
    rw [List.flatMap_cons, List.length_cons, RouteDiscoveryRequest.readPath, here, later, ih]
    rfl

section Request
variable {q : RouteDiscoveryRequest} (fits : requestCodec.fits q)
include fits

theorem requestBytes : q.encode = requestHeader q ++ (q.accumulatedPath.length.toUInt8 :: q.accumulatedPath.flatMap Subtype.val) := by
  have few : q.accumulatedPath.length ≤ 255 := fits
  simp only [RouteDiscoveryRequest.encode, Nat.min_eq_left few, List.take_length, requestHeader, List.append_assoc,
    List.cons_append]

theorem requestLength : q.encode.length = RouteDiscoveryRequest.headerSize + 1 + q.accumulatedPath.length * 32 := by
  rw [requestBytes fits, List.length_append, List.length_cons, pathLength, requestHeaderLength]
  omega

theorem requestCount : (byteAt q.encode RouteDiscoveryRequest.headerSize).toNat = q.accumulatedPath.length := by
  rw [byteAtOf (requestHeader q) _ _ (requestBytes fits) (requestHeaderLength q), countByte fits]

theorem requestBack : RouteDiscoveryRequest.decode q.encode = .ok q := by
  have length := requestLength fits
  have count := requestCount fits
  have behind : q.encode.drop (RouteDiscoveryRequest.headerSize + 1) = q.accumulatedPath.flatMap Subtype.val := by
    rw [requestBytes fits, ← requestHeaderLength q, ← List.drop_drop, List.drop_left]
    rfl
  have accumulated : RouteDiscoveryRequest.readAccumulated q.encode = .ok q.accumulatedPath := by
    simp only [RouteDiscoveryRequest.readAccumulated, count, behind, readPathBack]
    rw [if_pos (by omega), if_neg (by omega)]
  rw [requestBytes fits] at accumulated ⊢
  exact requestFields q accumulated

theorem requestCut {n : Nat} (short : n < q.encode.length) (other : n ≠ RouteDiscoveryRequest.headerSize) :
    ∃ err, RouteDiscoveryRequest.decode (q.encode.take n) = .error err := by
  have length := requestLength fits
  have count := requestCount fits
  have cut : (q.encode.take n).length = n := List.length_take_of_le (by omega)
  unfold RouteDiscoveryRequest.decode
  by_cases header : n < RouteDiscoveryRequest.headerSize
  · rw [cut, if_pos header]
    exact ⟨_,rfl⟩
  · have refused : RouteDiscoveryRequest.readAccumulated (q.encode.take n) = .error .malformedPayload := by
      simp only [RouteDiscoveryRequest.readAccumulated, byteTake (by omega : RouteDiscoveryRequest.headerSize < n), count]
      rw [if_pos (by omega), if_pos (by omega)]
    rw [if_neg (by omega), refused]
    exact ⟨_,rfl⟩

theorem requestHeaderOnly :
    RouteDiscoveryRequest.decode (q.encode.take RouteDiscoveryRequest.headerSize) = .ok { q with accumulatedPath := [] } := by
  have header : q.encode.take RouteDiscoveryRequest.headerSize = requestHeader q ++ [] := by
    rw [requestBytes fits, ← requestHeaderLength q, List.take_left, List.append_nil]
  have none : RouteDiscoveryRequest.readAccumulated (requestHeader q ++ []) = .ok [] := by
    have length := requestHeaderLength q
    rw [RouteDiscoveryRequest.readAccumulated, if_neg (by rw [List.append_nil]; omega)]
  rw [header]
  exact requestFields q none

end Request

theorem requestLossless : requestCodec.Lossless := by
  apply Codec.lossless RouteDiscoveryRequest.encode
  all_goals dsimp only [requestCodec]
  · exact fun _ _ => rfl
  · exact fun _ => requestBack
  · exact PayloadReads.yieldsRouteDiscoveryRequest
  · exact fun _ fits _ cut => requestCut fits cut.1 cut.2

def broadcastCodec : Codec WireQueryError BroadcastFrame where
  fits := fun _ => True
  encode := fun f => .ok f.encode
  decode := BroadcastFrame.decode
  reads := PayloadReads.broadcastFrame
  cuts := fun total n => n < total ∧ n < 8

theorem broadcastCut (f : BroadcastFrame) {n : Nat} (short : n < 8) :
    ∃ err, BroadcastFrame.decode (f.encode.take n) = .error err := by
  have cut : (f.encode.take n).length ≤ n := List.length_take_le _ _
  rw [BroadcastFrame.decode, if_pos (by omega)]
  exact ⟨_,rfl⟩

theorem broadcastLossless : broadcastCodec.Lossless := by
  apply Codec.lossless BroadcastFrame.encode
  all_goals dsimp only [broadcastCodec]
  · exact fun _ _ => rfl
  · exact fun f _ => decodeBroadcast f
  · exact PayloadReads.yieldsBroadcastFrame
  · exact fun f _ _ cut => broadcastCut f cut.2

theorem payloadsLossless :
    responseCodec.Lossless ∧ chunkCodec.Lossless ∧ requestCodec.Lossless ∧ routeResponseCodec.Lossless ∧
    updateCodec.Lossless ∧ broadcastCodec.Lossless ∧
    ∀ q, requestCodec.fits q →
      RouteDiscoveryRequest.decode (q.encode.take RouteDiscoveryRequest.headerSize) = .ok { q with accumulatedPath := [] } :=
  ⟨responseLossless,chunkLossless,requestLossless,routeResponseLossless,updateLossless,broadcastLossless,
    fun _ => requestHeaderOnly⟩

end OpenPulse.PayloadCodecs
