import OpenPulse.HandshakeWire
import OpenPulse.Trust

/-! The signed connect request and its acknowledgement: `openpulse-core/src/handshake.rs`.
A frame is built and signed in one step and is verified from the bytes that arrived. -/
namespace OpenPulse.Handshake
open ByteCodec Signing Trust Bodies HandshakeWire

structure ConReqParams where
  stationId : String
  dstStation : String
  signingModes : List SigningMode
  sessionId : UInt64
  stationGrid : String
  profileName : String
  profileFingerprint : UInt64
  timestampMs : UInt64
  kexPubkey : Bytes
  deriving DecidableEq, Repr

structure ConReq where
  stationId : String
  dstStation : String
  pubkey : Bytes
  kexPubkey : Bytes
  signingModes : List SigningMode
  sessionId : UInt64
  stationGrid : String
  profileName : String
  profileFingerprint : UInt64
  timestampMs : UInt64
  signature : Bytes
  deriving DecidableEq, Repr

structure ConAckParams where
  stationId : String
  selectedMode : SigningMode
  conreqHash : Octets 32
  stationGrid : String
  profileName : String
  profileFingerprint : UInt64
  timestampMs : UInt64
  kexPubkey : Bytes
  deriving DecidableEq, Repr

structure ConAck where
  stationId : String
  pubkey : Bytes
  kexPubkey : Bytes
  selectedMode : SigningMode
  conreqHash : Octets 32
  stationGrid : String
  profileName : String
  profileFingerprint : UInt64
  timestampMs : UInt64
  signature : Bytes
  deriving DecidableEq, Repr

def writeModes (modes : List SigningMode) : BodyWriter := do
  BodyWriter.u8 modes.length.toUInt8
  modes.forM fun m => BodyWriter.u8 m.toWire

/-- An unknown mode in an offer is skipped. -/
def readModes : Nat → List SigningMode → BodyReader (List SigningMode)
  | 0, known => pure known
  | n + 1, known => do
    let b ← BodyReader.u8 "signing_mode"
    readModes n (match SigningMode.fromWire b with | some m => known ++ [m] | none => known)

namespace ConReq

def writeBody (params : ConReqParams) (pubkey : PeerId) : BodyWriter := do
  BodyWriter.strCapped "station_id" params.stationId Caps.stationId
  BodyWriter.strCapped "dst_station" params.dstStation Caps.stationId
  BodyWriter.fixed "pubkey" pubkey.val pubkeyLen
  BodyWriter.fixed "kex_pubkey" params.kexPubkey kexPubkeyLen
  writeModes params.signingModes
  BodyWriter.u64 params.sessionId
  BodyWriter.strCapped "station_grid" params.stationGrid Caps.grid
  BodyWriter.strCapped "profile_name" params.profileName Caps.profileName
  BodyWriter.u64 params.profileFingerprint
  BodyWriter.u64 params.timestampMs

def create (ed : Ed25519) (params : ConReqParams) (signingKeySeed : Seed) : Except WireError Bytes :=
  if params.dstStation = "" then .error .dstStationEmpty
  else if params.stationId = "" then .error .stationIdEmpty
  else if Caps.signingModes < params.signingModes.length then .error (.modesOffered params.signingModes.length)
  else do
    let body ← finish (writeBody params (ed.verifyingKey signingKeySeed))
    let signed ← signedPrefixWithMagic magicConreq body
    let sig ← (signInBand ed .conReq signingKeySeed signed).mapError WireError.signing
    return signed ++ sig.val

def readBody (signature : Bytes) : BodyReader ConReq := do
  let stationId ← BodyReader.strCapped "station_id" Caps.stationId
  let dstStation ← BodyReader.strCapped "dst_station" Caps.stationId
  let pubkey ← BodyReader.fixed "pubkey" pubkeyLen
  let kexPubkey ← BodyReader.fixed "kex_pubkey" kexPubkeyLen
  let n ← BodyReader.u8 "signing_modes count"
  if Caps.signingModes < n.toNat then throw (.modesDeclared "CONREQ" n.toNat)
  else do
    let signingModes ← readModes n.toNat []
    let sessionId ← BodyReader.u64 "session_id"
    let stationGrid ← BodyReader.strCapped "station_grid" Caps.grid
    let profileName ← BodyReader.strCapped "profile_name" Caps.profileName
    let profileFingerprint ← BodyReader.u64 "profile_fingerprint"
    let timestampMs ← BodyReader.u64 "timestamp_ms"
    BodyReader.finish "CONREQ"
    if dstStation = "" then throw .dstStationOmitted
    else if stationId = "" then throw .stationIdEmpty
    else return ⟨stationId,dstStation,pubkey,kexPubkey,signingModes,sessionId,stationGrid,profileName,
      profileFingerprint,timestampMs,signature⟩

def decode (bytes : Bytes) : Except WireError ConReq := do
  let spans ← splitFrame bytes magicConreq "CONREQ"
  return (← (readBody spans.signature).run spans.body).1

def isAddressedTo (req : ConReq) (callsign : String) : Bool := req.dstStation == "*" || req.dstStation == callsign

end ConReq

namespace ConAck

def writeBody (params : ConAckParams) (pubkey : PeerId) : BodyWriter := do
  BodyWriter.strCapped "station_id" params.stationId Caps.stationId
  BodyWriter.fixed "pubkey" pubkey.val pubkeyLen
  BodyWriter.fixed "kex_pubkey" params.kexPubkey kexPubkeyLen
  BodyWriter.u8 params.selectedMode.toWire
  BodyWriter.fixed "conreq_hash" params.conreqHash.val conreqHashLen
  BodyWriter.strCapped "station_grid" params.stationGrid Caps.grid
  BodyWriter.strCapped "profile_name" params.profileName Caps.profileName
  BodyWriter.u64 params.profileFingerprint
  BodyWriter.u64 params.timestampMs

def create (ed : Ed25519) (params : ConAckParams) (signingKeySeed : Seed) : Except WireError Bytes := do
  let body ← finish (writeBody params (ed.verifyingKey signingKeySeed))
  let signed ← signedPrefixWithMagic magicConack body
  let sig ← (signInBand ed .conAck signingKeySeed signed).mapError WireError.signing
  return signed ++ sig.val

def readBody (signature : Bytes) : BodyReader ConAck := do
  let stationId ← BodyReader.strCapped "station_id" Caps.stationId
  let pubkey ← BodyReader.fixed "pubkey" pubkeyLen
  let kexPubkey ← BodyReader.fixed "kex_pubkey" kexPubkeyLen
  let modeByte ← BodyReader.u8 "selected_mode"
  match SigningMode.fromWire modeByte with
  | none => throw (.unknownMode modeByte)
  | some selectedMode => do
    let conreqHash ← BodyReader.array conreqHashLen "conreq_hash"
    let stationGrid ← BodyReader.strCapped "station_grid" Caps.grid
    let profileName ← BodyReader.strCapped "profile_name" Caps.profileName
    let profileFingerprint ← BodyReader.u64 "profile_fingerprint"
    let timestampMs ← BodyReader.u64 "timestamp_ms"
    BodyReader.finish "CONACK"
    return ⟨stationId,pubkey,kexPubkey,selectedMode,conreqHash,stationGrid,profileName,profileFingerprint,
      timestampMs,signature⟩

def decode (bytes : Bytes) : Except WireError ConAck := do
  let spans ← splitFrame bytes magicConack "CONACK"
  return (← (readBody spans.signature).run spans.body).1

end ConAck

inductive HandshakeError where
  | invalidSignature
  | publicKeyMismatch
  | sessionIdMismatch (expected got : String)
  | trustFailure (error : TrustError)
  | encoding (error : WireError)
  | unofferedSigningMode
  | staleTimestamp (skewMs maxSkewMs : UInt64)
  | missingTimestamp
  deriving DecidableEq, Repr

def HandshakeError.message : HandshakeError → String
  | invalidSignature => "invalid Ed25519 signature"
  | publicKeyMismatch => "frame public key does not match the trusted key for this station"
  | sessionIdMismatch expected got => "session ID mismatch: expected " ++ expected ++ ", got " ++ got
  | trustFailure error => "trust evaluation failed: " ++ error.debug
  | encoding error => "encoding error: " ++ error.display
  | unofferedSigningMode => "responder selected a signing mode the initiator never offered"
  | staleTimestamp skewMs maxSkewMs =>
    "handshake timestamp is stale: " ++ toString skewMs ++ " ms skew exceeds " ++ toString maxSkewMs ++ " ms"
  | missingTimestamp => "handshake carries no timestamp but freshness is required"

structure Freshness where
  nowMs : UInt64
  maxSkewMs : UInt64
  deriving DecidableEq, Repr

def absDiff (a b : UInt64) : UInt64 := if a < b then b - a else a - b

def Freshness.check (f : Freshness) (timestampMs : UInt64) : Except HandshakeError Unit :=
  if timestampMs = 0 then .error .missingTimestamp
  else
    let skewMs := absDiff f.nowMs timestampMs
    if f.maxSkewMs < skewMs then .error (.staleTimestamp skewMs f.maxSkewMs) else .ok ()

def checkFreshness (freshness : Option Freshness) (timestampMs : UInt64) : Except HandshakeError Unit :=
  match freshness with
  | some f => f.check timestampMs
  | none => .ok ()

structure TrustStore where
  pubkeyFor : String → Option PeerId
  trustLevel : String → PublicKeyTrustLevel

def verifyEd25519 (ed : Ed25519) (domain : SigningDomain) (pubkeyBytes message sigBytes : Bytes) : Bool :=
  if key : pubkeyBytes.length = 32 then
    if sig : sigBytes.length = 64 then verifyInBand ed domain ⟨pubkeyBytes,key⟩ message ⟨sigBytes,sig⟩ else false
  else false

def certSourceForTrust : PublicKeyTrustLevel → CertificateSource
  | .full => .outOfBand
  | _ => .overAir

/-- A station without a stored key passes, and is trusted as an unknown one. -/
def bindFrameKey (trustStore : TrustStore) (stationId : String) (framePubkey : Bytes) : Except HandshakeError Unit :=
  match trustStore.pubkeyFor stationId with
  | none => .ok ()
  | some stored =>
    if framePubkey.length ≠ 32 then .error .invalidSignature
    else if framePubkey ≠ stored.val then .error .publicKeyMismatch
    else .ok ()

def evaluatePeer (trustStore : TrustStore) (policy : PolicyProfile) (localMinMode : SigningMode) (stationId : String)
    (modes : List SigningMode) : Except TrustError HandshakeDecision :=
  let keyTrust := trustStore.trustLevel stationId
  evaluateHandshake policy localMinMode modes keyTrust (certSourceForTrust keyTrust) false

def verifyConreq (ed : Ed25519) (bytes : Bytes) (trustStore : TrustStore) (policy : PolicyProfile)
    (localMinMode : SigningMode) (freshness : Option Freshness) : Except HandshakeError (ConReq × HandshakeDecision) := do
  let spans ← (splitFrame bytes magicConreq "CONREQ").mapError HandshakeError.encoding
  let req ← (ConReq.decode bytes).mapError HandshakeError.encoding
  if verifyEd25519 ed .conReq req.pubkey spans.signedPrefix spans.signature = false then throw .invalidSignature
  else do
    checkFreshness freshness req.timestampMs
    bindFrameKey trustStore req.stationId req.pubkey
    let decision ← (evaluatePeer trustStore policy localMinMode req.stationId req.signingModes).mapError
      HandshakeError.trustFailure
    return (req,decision)

def hexShort (b : Bytes) : String := String.ofList ((b.take 8).flatMap fun x => Hex.padded 2 x.toNat)

def verifyConack (ed : Ed25519) (sha256 : Bytes → Octets 32) (bytes conreqBytes : Bytes) (offeredModes : List SigningMode)
    (trustStore : TrustStore) (policy : PolicyProfile) (localMinMode : SigningMode) (freshness : Option Freshness) :
    Except HandshakeError (ConAck × HandshakeDecision) := do
  let spans ← (splitFrame bytes magicConack "CONACK").mapError HandshakeError.encoding
  let ack ← (ConAck.decode bytes).mapError HandshakeError.encoding
  if verifyEd25519 ed .conAck ack.pubkey spans.signedPrefix spans.signature = false then throw .invalidSignature
  else if ack.conreqHash ≠ sha256 conreqBytes then
    throw (.sessionIdMismatch (hexShort (sha256 conreqBytes).val) (hexShort ack.conreqHash.val))
  else if ack.selectedMode ∉ offeredModes then throw .unofferedSigningMode
  else do
    checkFreshness freshness ack.timestampMs
    bindFrameKey trustStore ack.stationId ack.pubkey
    let decision ← (evaluatePeer trustStore policy localMinMode ack.stationId [ack.selectedMode]).mapError
      HandshakeError.trustFailure
    return (ack,decision)

end OpenPulse.Handshake
