import OpenPulse.Handshake

/-! The post-quantum handshake frames: `openpulse-core/src/pq_handshake.rs`. The
ML-DSA signature covers the transmitted prefix and is always there; the Ed25519 one
covers the same prefix and is left out when the modes are post-quantum only. ML-DSA-44
and ML-KEM-768 are parameters. -/
namespace OpenPulse.PqHandshake
open ByteCodec Signing Trust Bodies HandshakeWire Handshake

def mlDsa44PubkeySize : Nat := 1312
def mlDsa44SigSize : Nat := 2420
def mlKem768EkSize : Nat := 1184
def mlKem768CtSize : Nat := 1088
def mlKem768SsSize : Nat := 32

/-- ML-DSA-44; `wellFormed` tells whether the bytes of a signature decode. -/
structure MlDsa44 where
  verifyingKey : Octets 32 → Octets mlDsa44PubkeySize
  sign : Octets 32 → Bytes → Octets mlDsa44SigSize
  wellFormed : Octets mlDsa44SigSize → Bool
  verify : Octets mlDsa44PubkeySize → Bytes → Octets mlDsa44SigSize → Bool

/-- ML-KEM-768; `wellFormed` tells whether an encapsulation key decodes, `coins` is what the generator draws. -/
structure MlKem768 where
  wellFormed : Octets mlKem768EkSize → Bool
  encapsulate : (coins : Octets 32) → Octets mlKem768EkSize → Octets mlKem768CtSize × Octets mlKem768SsSize

inductive PqFault where
  | wire (error : WireError)
  | stale (error : HandshakeError)
  | dstStationEmpty
  | dstStationOmitted
  | modesDeclared (count : Nat)
  | requestFlag (hasClassical : Bool)
  | answerFlag (hasClassical : Bool) (selectedMode : SigningMode)
  | unknownMode (byte : UInt8)
  | trailerLength (len expected : Nat) (hasClassical : Bool)
  deriving DecidableEq, Repr

def presence (here : Bool) : String := if here then "present" else "absent"

def PqFault.message : PqFault → String
  | wire error => error.display
  | stale error => error.message
  | dstStationEmpty => "PQ CONREQ dst_station is empty; use \"*\" for a broadcast request (#1178)"
  | dstStationOmitted => "PQ CONREQ dst_station is empty"
  | modesDeclared count =>
    "PQ CONREQ declares " ++ toString count ++ " signing modes, over the " ++ toString Caps.signingModes ++ " cap"
  | requestFlag hasClassical =>
    "PQ CONREQ says classical signature " ++ presence hasClassical ++ " but its signed modes imply " ++
      presence (!hasClassical)
  | answerFlag hasClassical selectedMode =>
    "PQ CONACK says classical signature " ++ presence hasClassical ++ " but its signed mode " ++ selectedMode.debug ++
      " implies otherwise"
  | unknownMode byte => "unknown signing mode " ++ hexByte byte
  | trailerLength len expected hasClassical =>
    "PQ frame carries " ++ toString len ++ " trailing signature bytes; the signed body says it should carry " ++
      toString expected ++ " (classical signature " ++ presence hasClassical ++ ")"

inductive PqHandshakeError where
  | invalidPublicKey
  | invalidSignature
  | invalidCiphertext
  | trustPolicyRejected (error : TrustError)
  | sessionIdMismatch (expected got : String)
  | serializationError (fault : PqFault)
  | publicKeyMismatch
  | unauthorizedMode
  deriving DecidableEq, Repr

def PqHandshakeError.message : PqHandshakeError → String
  | invalidPublicKey => "invalid ML-DSA-44 public key"
  | invalidSignature => "invalid ML-DSA-44 or Ed25519 signature"
  | invalidCiphertext => "invalid ML-KEM-768 ciphertext or key"
  | trustPolicyRejected error => "trust policy rejected: " ++ error.debug
  | sessionIdMismatch expected got => "session ID mismatch: expected " ++ expected ++ ", got " ++ got
  | serializationError fault => "serialization error: " ++ fault.message
  | publicKeyMismatch => "public key in frame does not match stored trusted key"
  | unauthorizedMode => "selected mode was not offered by the initiator"

def serialization (error : WireError) : PqHandshakeError := .serializationError (.wire error)

def rd {α : Type} (r : BodyReader α) : ByteReader PqHandshakeError α := fun buf => (r buf).mapError serialization

structure PqConReqParams where
  stationId : String
  dstStation : String
  pqSigningKey : Bytes
  kemEk : Bytes
  signingModes : List SigningMode
  sessionId : UInt64
  timestampMs : UInt64
  deriving DecidableEq, Repr

structure PqConReq where
  stationId : String
  dstStation : String
  timestampMs : UInt64
  classicalPubkey : Bytes
  pqPubkey : Bytes
  kemPubkey : Bytes
  signingModes : List SigningMode
  sessionId : UInt64
  classicalSignature : Bytes
  pqSignature : Bytes
  deriving DecidableEq, Repr

structure PqConAckParams where
  stationId : String
  pqSigningKey : Bytes
  reqKemEk : Bytes
  selectedMode : SigningMode
  conreqHash : Octets 32
  timestampMs : UInt64
  deriving DecidableEq, Repr

structure PqConAck where
  stationId : String
  conreqHash : Octets 32
  timestampMs : UInt64
  classicalPubkey : Bytes
  pqPubkey : Bytes
  kemCiphertext : Bytes
  selectedMode : SigningMode
  classicalSignature : Bytes
  pqSignature : Bytes
  deriving DecidableEq, Repr

def isPqOnly (modes : List SigningMode) : Bool := decide (.pq ∈ modes) && !decide (.hybrid ∈ modes)

def seedArray (seed : Bytes) : Except PqHandshakeError (Octets 32) :=
  if fits : seed.length = 32 then .ok ⟨seed,fits⟩ else .error .invalidPublicKey

def mlDsaSign (dsa : MlDsa44) (signingKeySeed message : Bytes) : Except PqHandshakeError Bytes := do
  let seed ← seedArray signingKeySeed
  return (dsa.sign seed message).val

/-- A message without its tag is answered with no signature at all. -/
def ed25519Sign (ed : Ed25519) (domain : SigningDomain) (classicalSeed : Seed) (message : Bytes) : Bytes :=
  match signInBand ed domain classicalSeed message with
  | .ok sig => sig.val
  | .error _ => []

def encodePqConreqBody (stationId dstStation : String) (classicalPubkey pqPubkey kemPubkey : Bytes)
    (signingModes : List SigningMode) (sessionId timestampMs : UInt64) (hasClassicalSig : Bool) : BodyWriter := do
  BodyWriter.strCapped "station_id" stationId Caps.stationId
  BodyWriter.strCapped "dst_station" dstStation Caps.stationId
  BodyWriter.fixed "classical_pubkey" classicalPubkey pubkeyLen
  BodyWriter.fixed "pq_pubkey" pqPubkey mlDsa44PubkeySize
  BodyWriter.fixed "kem_pubkey" kemPubkey mlKem768EkSize
  writeModes signingModes
  BodyWriter.u64 sessionId
  BodyWriter.u64 timestampMs
  BodyWriter.u8 hasClassicalSig.toUInt8

def createPqConreq (ed : Ed25519) (dsa : MlDsa44) (params : PqConReqParams) (classicalSeed : Seed) :
    Except PqHandshakeError Bytes :=
  if params.dstStation = "" then .error (.serializationError .dstStationEmpty)
  else do
    let seed ← seedArray params.pqSigningKey
    let hasClassical := !isPqOnly params.signingModes
    let body ← (finish (encodePqConreqBody params.stationId params.dstStation (ed.verifyingKey classicalSeed).val
      (dsa.verifyingKey seed).val params.kemEk params.signingModes params.sessionId params.timestampMs
        hasClassical)).mapError serialization
    let signed ← (signedPrefixWithMagic magicPqConreq body).mapError serialization
    let pqSignature ← mlDsaSign dsa params.pqSigningKey signed
    return signed ++ ((if hasClassical then ed25519Sign ed .pqConReq classicalSeed signed else []) ++ pqSignature)

def splitPqTrailer (trailer : Bytes) (hasClassical : Bool) : Except PqHandshakeError (Bytes × Bytes) :=
  let expected := if hasClassical then sigLen + mlDsa44SigSize else mlDsa44SigSize
  if trailer.length ≠ expected then .error (.serializationError (.trailerLength trailer.length expected hasClassical))
  else .ok (if hasClassical then (trailer.take sigLen,trailer.drop sigLen) else ([],trailer))

def readPqConreq (trailer : Bytes) : ByteReader PqHandshakeError PqConReq := do
  let stationId ← rd (BodyReader.strCapped "station_id" Caps.stationId)
  let dstStation ← rd (BodyReader.strCapped "dst_station" Caps.stationId)
  let classicalPubkey ← rd (BodyReader.fixed "classical_pubkey" pubkeyLen)
  let pqPubkey ← rd (BodyReader.fixed "pq_pubkey" mlDsa44PubkeySize)
  let kemPubkey ← rd (BodyReader.fixed "kem_pubkey" mlKem768EkSize)
  let n ← rd (BodyReader.u8 "signing_modes count")
  if Caps.signingModes < n.toNat then throw (.serializationError (.modesDeclared n.toNat))
  else do
    let signingModes ← rd (readModes n.toNat [])
    let sessionId ← rd (BodyReader.u64 "session_id")
    let timestampMs ← rd (BodyReader.u64 "timestamp_ms")
    let flag ← rd (BodyReader.u8 "has_classical_sig")
    let hasClassical := flag != 0
    rd (BodyReader.finish "PQ CONREQ")
    if dstStation = "" then throw (.serializationError .dstStationOmitted)
    else if hasClassical ≠ !isPqOnly signingModes then throw (.serializationError (.requestFlag hasClassical))
    else do
      let (classicalSignature,pqSignature) ← splitPqTrailer trailer hasClassical
      return ⟨stationId,dstStation,timestampMs,classicalPubkey,pqPubkey,kemPubkey,signingModes,sessionId,
        classicalSignature,pqSignature⟩

def decodePqConreq (bytes : Bytes) : Except PqHandshakeError PqConReq := do
  let (spans,trailer) ← (splitFrameVariable bytes magicPqConreq "PQ CONREQ").mapError serialization
  return (← (readPqConreq trailer).run spans.body).1

def ekArray (raw : Bytes) : Except PqHandshakeError (Octets mlKem768EkSize) :=
  if fits : raw.length = mlKem768EkSize then .ok ⟨raw,fits⟩ else .error .invalidPublicKey

def encapsulationKey (kem : MlKem768) (raw : Bytes) : Except PqHandshakeError (Octets mlKem768EkSize) := do
  let ek ← ekArray raw
  if kem.wellFormed ek = false then throw .invalidPublicKey else return ek

def encodePqConackBody (params : PqConAckParams) (classicalPubkey pqPubkey kemCiphertext : Bytes) (hasClassical : Bool) :
    BodyWriter := do
  BodyWriter.strCapped "station_id" params.stationId Caps.stationId
  BodyWriter.fixed "classical_pubkey" classicalPubkey pubkeyLen
  BodyWriter.fixed "pq_pubkey" pqPubkey mlDsa44PubkeySize
  BodyWriter.fixed "kem_ciphertext" kemCiphertext mlKem768CtSize
  BodyWriter.u8 params.selectedMode.toWire
  BodyWriter.fixed "conreq_hash" params.conreqHash.val conreqHashLen
  BodyWriter.u64 params.timestampMs
  BodyWriter.u8 hasClassical.toUInt8

def createPqConack (ed : Ed25519) (dsa : MlDsa44) (kem : MlKem768) (coins : Octets 32) (params : PqConAckParams)
    (classicalSeed : Seed) : Except PqHandshakeError (Bytes × Bytes) := do
  let seed ← seedArray params.pqSigningKey
  let ek ← encapsulationKey kem params.reqKemEk
  let (ct,ss) := kem.encapsulate coins ek
  let hasClassical := params.selectedMode != .pq
  let body ← (finish (encodePqConackBody params (ed.verifyingKey classicalSeed).val (dsa.verifyingKey seed).val ct.val
    hasClassical)).mapError serialization
  let signed ← (signedPrefixWithMagic magicPqConack body).mapError serialization
  let pqSignature ← mlDsaSign dsa params.pqSigningKey signed
  return (signed ++ ((if hasClassical then ed25519Sign ed .pqConAck classicalSeed signed else []) ++ pqSignature),ss.val)

def readPqConack (trailer : Bytes) : ByteReader PqHandshakeError PqConAck := do
  let stationId ← rd (BodyReader.strCapped "station_id" Caps.stationId)
  let classicalPubkey ← rd (BodyReader.fixed "classical_pubkey" pubkeyLen)
  let pqPubkey ← rd (BodyReader.fixed "pq_pubkey" mlDsa44PubkeySize)
  let kemCiphertext ← rd (BodyReader.fixed "kem_ciphertext" mlKem768CtSize)
  let modeByte ← rd (BodyReader.u8 "selected_mode")
  match SigningMode.fromWire modeByte with
  | none => throw (.serializationError (.unknownMode modeByte))
  | some selectedMode => do
    let conreqHash ← rd (BodyReader.array conreqHashLen "conreq_hash")
    let timestampMs ← rd (BodyReader.u64 "timestamp_ms")
    let flag ← rd (BodyReader.u8 "has_classical_sig")
    let hasClassical := flag != 0
    rd (BodyReader.finish "PQ CONACK")
    if hasClassical ≠ (selectedMode != .pq) then throw (.serializationError (.answerFlag hasClassical selectedMode))
    else do
      let (classicalSignature,pqSignature) ← splitPqTrailer trailer hasClassical
      return ⟨stationId,conreqHash,timestampMs,classicalPubkey,pqPubkey,kemCiphertext,selectedMode,classicalSignature,
        pqSignature⟩

def decodePqConack (bytes : Bytes) : Except PqHandshakeError PqConAck := do
  let (spans,trailer) ← (splitFrameVariable bytes magicPqConack "PQ CONACK").mapError serialization
  return (← (readPqConack trailer).run spans.body).1

def mlDsaVerify (dsa : MlDsa44) (vkBytes message sigBytes : Bytes) : Except PqHandshakeError Unit :=
  if key : vkBytes.length = mlDsa44PubkeySize then
    if sig : sigBytes.length = mlDsa44SigSize then
      if dsa.wellFormed ⟨sigBytes,sig⟩ = false then .error .invalidSignature
      else if dsa.verify ⟨vkBytes,key⟩ message ⟨sigBytes,sig⟩ = false then .error .invalidSignature
      else .ok ()
    else .error .invalidSignature
  else .error .invalidPublicKey

def freshPq (freshness : Option Freshness) (timestampMs : UInt64) : Except PqHandshakeError Unit :=
  (checkFreshness freshness timestampMs).mapError fun e => .serializationError (.stale e)

def bindClassicalKey (trustStore : TrustStore) (stationId : String) (classicalPubkey : Bytes) :
    Except PqHandshakeError Unit :=
  match trustStore.pubkeyFor stationId with
  | none => .ok ()
  | some storedKey =>
    if classicalPubkey.length ≠ 32 then .error .publicKeyMismatch
    else if classicalPubkey ≠ storedKey.val then .error .publicKeyMismatch
    else .ok ()

def verifyPqConreq (ed : Ed25519) (dsa : MlDsa44) (kem : MlKem768) (bytes : Bytes) (trustStore : TrustStore)
    (policy : PolicyProfile) (localMinMode : SigningMode) (freshness : Option Freshness) :
    Except PqHandshakeError (PqConReq × HandshakeDecision) := do
  let (spans,_) ← (splitFrameVariable bytes magicPqConreq "PQ CONREQ").mapError serialization
  let req ← decodePqConreq bytes
  mlDsaVerify dsa req.pqPubkey spans.signedPrefix req.pqSignature
  if isPqOnly req.signingModes = false ∧
      verifyEd25519 ed .pqConReq req.classicalPubkey spans.signedPrefix req.classicalSignature = false then
    throw .invalidSignature
  else do
    freshPq freshness req.timestampMs
    bindClassicalKey trustStore req.stationId req.classicalPubkey
    let _ ← encapsulationKey kem req.kemPubkey
    let decision ← (evaluatePeer trustStore policy localMinMode req.stationId req.signingModes).mapError
      PqHandshakeError.trustPolicyRejected
    return (req,decision)

def verifyPqConack (ed : Ed25519) (dsa : MlDsa44) (sha256 : Bytes → Octets 32) (bytes conreqBytes : Bytes)
    (reqSigningModes : List SigningMode) (trustStore : TrustStore) (policy : PolicyProfile) (localMinMode : SigningMode)
    (freshness : Option Freshness) : Except PqHandshakeError (PqConAck × HandshakeDecision) := do
  let (spans,_) ← (splitFrameVariable bytes magicPqConack "PQ CONACK").mapError serialization
  let ack ← decodePqConack bytes
  if ack.conreqHash ≠ sha256 conreqBytes then
    throw (.sessionIdMismatch (hexShort (sha256 conreqBytes).val) (hexShort ack.conreqHash.val))
  else if ack.selectedMode ∉ reqSigningModes then throw .unauthorizedMode
  else do
    mlDsaVerify dsa ack.pqPubkey spans.signedPrefix ack.pqSignature
    if ack.selectedMode ≠ .pq ∧
        verifyEd25519 ed .pqConAck ack.classicalPubkey spans.signedPrefix ack.classicalSignature = false then
      throw .invalidSignature
    else do
      freshPq freshness ack.timestampMs
      bindClassicalKey trustStore ack.stationId ack.classicalPubkey
      let decision ← (evaluatePeer trustStore policy localMinMode ack.stationId [ack.selectedMode]).mapError
        PqHandshakeError.trustPolicyRejected
      return (ack,decision)

end OpenPulse.PqHandshake
