import OpenPulse.HpxRuns
import OpenPulse.OtaRate
import OpenPulse.ByteCodec
import OpenPulse.Trust

/-! The modem engine as a transmitter with a secure session: `openpulse-modem/src/engine.rs`.
Codecs, modulation plugins and the audio backend are given from outside. The scheduler
hands every payload back as it is, so its stages are left out; so are events and logs. -/
namespace OpenPulse.Engine
open ByteCodec Hpx HpxRuns OtaRate Trust

inductive ModemError where
  | modulation (text : String)
  | demodulation (text : String)
  | frame (text : String)
  | pluginNotFound (mode : String)
  | configuration (text : String)
  | audio (text : String)
  | fec (text : String)
  | channelBusy
  | arqMaxRetries (attempts : Nat)
  deriving DecidableEq, Repr

def crcBit (crc : UInt16) : UInt16 := if crc &&& 0x8000 ≠ 0 then (crc <<< 1) ^^^ 0x1021 else crc <<< 1

def crcByte (crc : UInt16) (b : UInt8) : UInt16 := crcBit^[8] (crc ^^^ (b.toUInt16 <<< 8))

def crc16 (data : Bytes) : UInt16 := data.foldl crcByte 0xFFFF

structure Frame where
  sequence : UInt16
  payload : Bytes
  small : payload.length ≤ 255

def Frame.wireOverhead : Nat := 4 + 1 + 2 + 1 + 2

def Frame.body (f : Frame) : Bytes :=
  [0x4F,0x50,0x4C,0x53,1] ++ be 2 f.sequence.toNat ++ be 1 f.payload.length ++ f.payload

def Frame.encode (f : Frame) : Bytes := f.body ++ be 2 (crc16 f.body).toNat

theorem frameLength (f : Frame) : f.encode.length = f.payload.length + Frame.wireOverhead := by
  simp only [Frame.encode, Frame.body, Frame.wireOverhead, List.length_append, List.length_cons, List.length_nil, beLength]
  omega

def scrambleSeed : UInt16 := 0x1FF

def keystreamBit (byte : UInt8) (state : UInt16) (bit : Nat) : UInt8 × UInt16 :=
  (byte ||| ((state &&& 1).toUInt8 <<< bit.toUInt8),
    ((state >>> 1) ||| (((state ^^^ (state >>> 5)) &&& 1) <<< 8)) &&& 0x1FF)

def keystream : Nat → UInt16 → Bytes
  | 0, _ => []
  | n + 1, state =>
    let (byte,state) := (List.range 8).foldl (fun (byte,state) bit => keystreamBit byte state bit) (0,state)
    byte::keystream n state

def scrambled (data : Bytes) : Bytes := data.zipWith (· ^^^ ·) (keystream data.length scrambleSeed)

structure SecureSessionParams where
  localMinimumMode : SigningMode
  peerSupportedModes : List SigningMode
  keyTrust : PublicKeyTrustLevel
  certificateSource : CertificateSource
  pskValidated : Bool
  deriving DecidableEq, Repr

structure ModemEngine where
  hpx : SessionState
  trustPolicyProfile : PolicyProfile
  activeHandshake : Option HandshakeDecision
  ackMacKey : Option (Octets 32)
  csmaEnabled : Bool
  defaultDevice : Option String
  sequence : UInt16
  framesTransmitted : UInt64
  deriving DecidableEq

def ModemEngine.new : ModemEngine := ⟨.new,.balanced,none,none,false,none,0,0⟩

/- The codecs of `openpulse-core/src/fec.rs`, `ldpc.rs` and `turbo.rs`. -/
structure Codecs where
  rs : Bytes → Bytes
  rsStrong : Bytes → Bytes
  interleave : (depth : Nat) → Bytes → Bytes
  conv : Bytes → Bytes
  softConcat : Bytes → Bytes
  shortRs : (eccLen : Nat) → Bytes → Except ModemError Bytes
  ldpc : Bytes → Bytes
  ldpcHighRate : Bytes → Bytes
  turbo : Bytes → Except ModemError Bytes

/- What one call meets outside the engine: the carrier detect, the persistence draw, the
plugins, the shaping of the samples for the air, the output device and the log of frames. -/
structure Radio (Sample : Type) where
  busy : Bool
  drawn : Bool
  plugins : String → Option (Bytes → Except ModemError (List Sample))
  shape : String → List Sample → List Sample
  openOutput : Option String → Except String Unit
  write : List Sample → Except String Unit
  flush : Except String Unit
  logFrame : Except String Unit

/- `emitted` is what the output stream was given. -/
structure Transmitted (Sample : Type) where
  result : Except ModemError Unit
  emitted : Option (List Sample)
  engine : ModemEngine

def HpxState.debug : HpxState → String
  | .idle => "Idle"
  | .discovery => "Discovery"
  | .training => "Training"
  | .activeTransfer => "ActiveTransfer"
  | .recovery => "Recovery"
  | .relayActive => "RelayActive"
  | .teardown => "Teardown"
  | .failed => "Failed"

def HpxEvent.debug : HpxEvent → String
  | .startSession => "StartSession"
  | .localCancel => "LocalCancel"
  | .remoteTeardown => "RemoteTeardown"
  | .discoveryOk => "DiscoveryOk"
  | .discoveryTimeout => "DiscoveryTimeout"
  | .trainingOk => "TrainingOk"
  | .trainingTimeout => "TrainingTimeout"
  | .transferComplete => "TransferComplete"
  | .transferError => "TransferError"
  | .qualityDrop => "QualityDrop"
  | .recoveryOk => "RecoveryOk"
  | .recoveryTimeout => "RecoveryTimeout"
  | .relayRouteFound => "RelayRouteFound"
  | .relayPolicyFailed => "RelayPolicyFailed"
  | .signatureVerificationFailed => "SignatureVerificationFailed"

def HpxStateError.text : HpxStateError → String
  | .invalidTransition state event =>
    String.join ["invalid HPX transition: ",HpxState.debug state," + ",HpxEvent.debug event]
  | .terminalState => "HPX session is already in terminal failed state"
  | .sessionNotFound key => String.join ["HPX session not found: ",key]

def ConnectionTrustLevel.lower : ConnectionTrustLevel → String
  | .rejected => "rejected"
  | .low => "low"
  | .unverified => "unverified"
  | .reduced => "reduced"
  | .pskVerified => "pskverified"
  | .verified => "verified"

def ConnectionTrustLevel.rank : ConnectionTrustLevel → Nat
  | .rejected => 0
  | .low => 1
  | .unverified => 2
  | .reduced => 3
  | .pskVerified => 4
  | .verified => 5

def PolicyProfile.lower : PolicyProfile → String
  | .strict => "strict"
  | .balanced => "balanced"
  | .permissive => "permissive"

def minimumTrustForProfile : PolicyProfile → ConnectionTrustLevel
  | .strict => .verified
  | .balanced => .pskVerified
  | .permissive => .reduced

def saturatingAdd (a b : UInt64) : UInt64 := if 2 ^ 64 ≤ a.toNat + b.toNat then 0xFFFFFFFFFFFFFFFF else a + b

namespace ModemEngine

def withHpx (g : ModemEngine) (hpx : SessionState) : ModemEngine := { g with hpx }

@[simp] theorem withHpxSession (g : ModemEngine) (hpx : SessionState) : (g.withHpx hpx).hpx = hpx := rfl

@[simp] theorem withHpxProfile (g : ModemEngine) (hpx : SessionState) :
    (g.withHpx hpx).trustPolicyProfile = g.trustPolicyProfile := rfl

@[simp] theorem withHpxHandshake (g : ModemEngine) (hpx : SessionState) :
    (g.withHpx hpx).activeHandshake = g.activeHandshake := rfl

@[simp] theorem withHpxTwice (g : ModemEngine) (first last : SessionState) : (g.withHpx first).withHpx last = g.withHpx last := rfl

section SecureSession

variable (g : ModemEngine)

def hpxApplyEvent (event : HpxEvent) (timestampMs : UInt64) : Except ModemError HpxTransition × ModemEngine :=
  match g.hpx.dispatch event timestampMs with
  | .error e => (.error (.configuration (HpxStateError.text e)),g)
  | .ok (transition,hpx) => (.ok transition,g.withHpx hpx)

def beginSecureSession (params : SecureSessionParams) (timestampMs : UInt64) :
    Except ModemError HandshakeDecision × ModemEngine :=
  match g.hpxApplyEvent .startSession timestampMs with
  | (.error e,g) => (.error e,g)
  | (.ok _,g) =>
    match g.hpxApplyEvent .discoveryOk (saturatingAdd timestampMs 1) with
    | (.error e,g) => (.error e,g)
    | (.ok _,g) =>
      match evaluateHandshake g.trustPolicyProfile params.localMinimumMode params.peerSupportedModes params.keyTrust
          params.certificateSource params.pskValidated with
      | .error e =>
        (.error (.configuration (String.join ["secure handshake rejected: ",e.debug])),
          (g.hpxApplyEvent .signatureVerificationFailed (saturatingAdd timestampMs 2)).2)
      | .ok handshake =>
        let required := minimumTrustForProfile g.trustPolicyProfile
        if ConnectionTrustLevel.rank handshake.trust.decision < ConnectionTrustLevel.rank required then
          (.error (.configuration (String.join ["secure handshake trust '",ConnectionTrustLevel.lower handshake.trust.decision,
              "' is below required '",ConnectionTrustLevel.lower required,"' for profile '",
              PolicyProfile.lower g.trustPolicyProfile,"', reason_code=",handshake.trust.reasonCode])),
            (g.hpxApplyEvent .signatureVerificationFailed (saturatingAdd timestampMs 2)).2)
        else
          match g.hpxApplyEvent .trainingOk (saturatingAdd timestampMs 3) with
          | (.error e,g) => (.error e,g)
          | (.ok _,g) => (.ok handshake,{ g with activeHandshake := some handshake })

def endSecureSession (timestampMs : UInt64) : Except ModemError Unit × ModemEngine :=
  if g.hpx.state = .idle then (.ok (),{ g with activeHandshake := none })
  else
    match g.hpxApplyEvent .localCancel timestampMs with
    | (.error e,g) => (.error e,g)
    | (.ok _,g) =>
      match g.hpxApplyEvent .transferComplete (saturatingAdd timestampMs 1) with
      | (.error e,g) => (.error e,g)
      | (.ok _,g) => (.ok (),{ g with activeHandshake := none })

def setAckMacKey (key : Option (Octets 32)) : ModemEngine := { g with ackMacKey := key }

def sessionGate : Except ModemError Unit :=
  if g.hpx.state = .idle then .ok ()
  else if g.hpx.state ≠ .activeTransfer then
    .error (.configuration "cannot transmit: secure session is not in active transfer")
  else if g.activeHandshake.isNone then .error (.configuration "cannot transmit: secure handshake not established")
  else .ok ()

end SecureSession

section Transmission

variable {Sample : Type} (g : ModemEngine) (codecs : Codecs) (data : Bytes) (mode : String) (device : Option String)
  (radio : Radio Sample)

def csmaCheck : Except ModemError Unit :=
  if g.csmaEnabled = false then .ok ()
  else if radio.busy then .error .channelBusy
  else if radio.drawn then .ok ()
  else .error .channelBusy

def stageEncodeFrame : Except ModemError (Bytes × ModemEngine) :=
  if small : data.length ≤ 255 then .ok (Frame.encode ⟨g.sequence,data,small⟩,{ g with sequence := g.sequence + 1 })
  else .error (.frame (String.join ["payload too large: ",Nat.repr data.length," bytes (max 255)"]))

def stageEmitOutput (samples : List Sample) : Transmitted Sample :=
  match radio.openOutput (device.or g.defaultDevice) with
  | .error e => ⟨.error (.audio e),none,g⟩
  | .ok () =>
    let written := radio.shape mode samples
    match radio.write written with
    | .error e => ⟨.error (.audio e),some written,g⟩
    | .ok () =>
      match radio.flush with
      | .error e => ⟨.error (.audio e),some written,g⟩
      | .ok () =>
        match radio.logFrame with
        | .error e => ⟨.error (.configuration e),some written,g⟩
        | .ok () => ⟨.ok (),some written,{ g with framesTransmitted := g.framesTransmitted + 1 }⟩

/- What the ten arms share: they differ in how the frame is coded. -/
def transmitCoded (code : Bytes → Except ModemError Bytes) : Transmitted Sample :=
  match g.csmaCheck radio with
  | .error e => ⟨.error e,none,g⟩
  | .ok () =>
    match g.stageEncodeFrame data with
    | .error e => ⟨.error e,none,g⟩
    | .ok (wire,g) =>
      match code wire with
      | .error e => ⟨.error e,none,g⟩
      | .ok coded =>
        match radio.plugins mode with
        | none => ⟨.error (.pluginNotFound mode),none,g⟩
        | some modulate =>
          match modulate (scrambled coded) with
          | .error e => ⟨.error e,none,g⟩
          | .ok samples => g.stageEmitOutput mode device radio samples

def transmit : Transmitted Sample :=
  match g.sessionGate with
  | .error e => ⟨.error e,none,g⟩
  | .ok () => g.transmitCoded data mode device radio .ok

def transmitWithFec : Transmitted Sample := g.transmitCoded data mode device radio fun wire => .ok (codecs.rs wire)

def transmitWithFecInterleaved (depth : Nat) : Transmitted Sample :=
  g.transmitCoded data mode device radio fun wire => .ok (codecs.interleave depth (codecs.rs wire))

def transmitWithConcatenatedFec : Transmitted Sample :=
  g.transmitCoded data mode device radio fun wire => .ok (codecs.conv (codecs.rs wire))

def transmitWithSoftViterbiFec : Transmitted Sample :=
  g.transmitCoded data mode device radio fun wire => .ok (codecs.softConcat (codecs.rs wire))

def transmitWithStrongFec : Transmitted Sample :=
  g.transmitCoded data mode device radio fun wire => .ok (codecs.rsStrong wire)

def transmitWithLdpc : Transmitted Sample := g.transmitCoded data mode device radio fun wire => .ok (codecs.ldpc wire)

def transmitWithLdpcHighRate : Transmitted Sample :=
  g.transmitCoded data mode device radio fun wire => .ok (codecs.ldpcHighRate wire)

def turboMaxInfoBytes : Nat := 764

def transmitWithTurbo : Transmitted Sample :=
  g.transmitCoded data mode device radio fun wire =>
    if turboMaxInfoBytes < wire.length then
      .error (.frame (String.join ["turbo: encoded frame ",Nat.repr wire.length," B exceeds one-block limit of ",
        Nat.repr turboMaxInfoBytes," B; split payload at call site"]))
    else codecs.turbo wire

def shortFecDataEccLen : Nat := 32

def shortFecDataMaxPayload : Nat := 255 - shortFecDataEccLen - Frame.wireOverhead

def transmitWithShortFecData : Transmitted Sample :=
  if shortFecDataMaxPayload < data.length then
    ⟨.error (.frame (String.join ["ShortRs data frame: payload ",Nat.repr data.length," bytes exceeds maximum ",
      Nat.repr shortFecDataMaxPayload])),none,g⟩
  else g.transmitCoded data mode device radio (codecs.shortRs shortFecDataEccLen)

def rsBlockCount (dataLen dataPerBlock : Nat) : Nat := max ((4 + dataLen + dataPerBlock - 1) / dataPerBlock) 1

def freeRsStrengthening (fec : FecMode) (encodeInputLen : Nat) : FecMode :=
  if fec = .rs ∧ rsBlockCount encodeInputLen (255 - 64) = rsBlockCount encodeInputLen (255 - 32) then .rsStrong else fec

def defaultInterleaverDepth : Nat := 5 * 20

def transmitWithFecMode (fec : FecMode) : Transmitted Sample :=
  match fec with
  | .none => g.transmit data mode device radio
  | .rs =>
    match freeRsStrengthening .rs (data.length + Frame.wireOverhead) with
    | .rsStrong => g.transmitWithStrongFec codecs data mode device radio
    | _ => g.transmitWithFec codecs data mode device radio
  | .rsInterleaved => g.transmitWithFecInterleaved codecs data mode device radio defaultInterleaverDepth
  | .concatenated => g.transmitWithConcatenatedFec codecs data mode device radio
  | .shortRs => g.transmitWithShortFecData codecs data mode device radio
  | .rsStrong => g.transmitWithStrongFec codecs data mode device radio
  | .softConcatenated => g.transmitWithSoftViterbiFec codecs data mode device radio
  | .ldpc => g.transmitWithLdpc codecs data mode device radio
  | .ldpcHighRate => g.transmitWithLdpcHighRate codecs data mode device radio
  | .turbo => g.transmitWithTurbo codecs data mode device radio

end Transmission

end ModemEngine

def Radio.willing : Radio Nat where
  busy := false
  drawn := true
  plugins _ := some fun _ => .ok [0]
  shape _ samples := samples
  openOutput _ := .ok ()
  write _ := .ok ()
  flush := .ok ()
  logFrame := .ok ()

structure SameLink (g g' : ModemEngine) : Prop where
  hpx : g'.hpx = g.hpx
  profile : g'.trustPolicyProfile = g.trustPolicyProfile
  handshake : g'.activeHandshake = g.activeHandshake
  key : g'.ackMacKey = g.ackMacKey

theorem sameLinkRefl (g : ModemEngine) : SameLink g g := ⟨rfl,rfl,rfl,rfl⟩

theorem sameLinkTrans {a b c : ModemEngine} (first : SameLink a b) (second : SameLink b c) : SameLink a c :=
  ⟨second.hpx.trans first.hpx,second.profile.trans first.profile,second.handshake.trans first.handshake,
    second.key.trans first.key⟩

section Frames

variable {Sample : Type} {g : ModemEngine} {codecs : Codecs} {data : Bytes} {mode : String} {device : Option String}
  {radio : Radio Sample}

theorem emitSame (samples : List Sample) : SameLink g (g.stageEmitOutput mode device radio samples).engine := by
  unfold ModemEngine.stageEmitOutput
  cases radio.openOutput (device.or g.defaultDevice) with
  | error e => exact sameLinkRefl g
  | ok opened =>
    dsimp only
    cases radio.write (radio.shape mode samples) with
    | error e => exact sameLinkRefl g
    | ok written =>
      cases radio.flush with
      | error e => exact sameLinkRefl g
      | ok flushed =>
        cases radio.logFrame with
        | error e => exact sameLinkRefl g
        | ok logged => exact ⟨rfl,rfl,rfl,rfl⟩

theorem encodeFits (g : ModemEngine) (small : data.length ≤ 255) :
    g.stageEncodeFrame data = .ok (Frame.encode ⟨g.sequence,data,small⟩,{ g with sequence := g.sequence + 1 }) := dif_pos small

theorem encodeRefused (g : ModemEngine) (large : ¬ data.length ≤ 255) : g.stageEncodeFrame data =
    .error (.frame (String.join ["payload too large: ",Nat.repr data.length," bytes (max 255)"])) := dif_neg large

inductive Coded (g : ModemEngine) (data : Bytes) (mode : String) (device : Option String) (radio : Radio Sample)
    (code : Bytes → Except ModemError Bytes) : Transmitted Sample → Prop where
  | waits {e} (busy : g.csmaCheck radio = .error e) : Coded g data mode device radio code ⟨.error e,none,g⟩
  | oversized {text} (clear : g.csmaCheck radio = .ok ()) (large : ¬ data.length ≤ 255) :
      Coded g data mode device radio code ⟨.error (.frame text),none,g⟩
  | uncodable {e} (clear : g.csmaCheck radio = .ok ()) (small : data.length ≤ 255)
      (refused : code (Frame.encode ⟨g.sequence,data,small⟩) = .error e) :
      Coded g data mode device radio code ⟨.error e,none,{ g with sequence := g.sequence + 1 }⟩
  | unknown (clear : g.csmaCheck radio = .ok ()) (small : data.length ≤ 255) (missing : radio.plugins mode = none) :
      Coded g data mode device radio code ⟨.error (.pluginNotFound mode),none,{ g with sequence := g.sequence + 1 }⟩
  | unmodulated {coded modulate e} (clear : g.csmaCheck radio = .ok ()) (small : data.length ≤ 255)
      (made : code (Frame.encode ⟨g.sequence,data,small⟩) = .ok coded) (found : radio.plugins mode = some modulate)
      (refused : modulate (scrambled coded) = .error e) :
      Coded g data mode device radio code ⟨.error e,none,{ g with sequence := g.sequence + 1 }⟩
  | emits {coded modulate samples} (clear : g.csmaCheck radio = .ok ()) (small : data.length ≤ 255)
      (made : code (Frame.encode ⟨g.sequence,data,small⟩) = .ok coded) (found : radio.plugins mode = some modulate)
      (modulated : modulate (scrambled coded) = .ok samples) :
      Coded g data mode device radio code
        (ModemEngine.stageEmitOutput { g with sequence := g.sequence + 1 } mode device radio samples)

theorem codedGoes (code : Bytes → Except ModemError Bytes) :
    Coded g data mode device radio code (g.transmitCoded data mode device radio code) := by
  unfold ModemEngine.transmitCoded
  cases clear : g.csmaCheck radio with
  | error e => exact .waits clear
  | ok idle =>
    dsimp only
    by_cases small : data.length ≤ 255
    · rw [encodeFits g small]
      dsimp only
      cases made : code (Frame.encode ⟨g.sequence,data,small⟩) with
      | error e => exact .uncodable clear small made
      | ok coded =>
        cases found : radio.plugins mode with
        | none => exact .unknown clear small found
        | some modulate =>
          dsimp only
          cases modulated : modulate (scrambled coded) with
          | error e => exact .unmodulated clear small made found modulated
          | ok samples => exact .emits clear small made found modulated
    · rw [encodeRefused g small]
      exact .oversized clear small

theorem codedSame (code : Bytes → Except ModemError Bytes) :
    SameLink g (g.transmitCoded data mode device radio code).engine := by
  have goes := @codedGoes Sample g data mode device radio code
  generalize g.transmitCoded data mode device radio code = sent at goes ⊢
  cases goes with
  | waits busy => exact sameLinkRefl g
  | oversized clear large => exact sameLinkRefl g
  | uncodable clear small refused => exact ⟨rfl,rfl,rfl,rfl⟩
  | unknown clear small missing => exact ⟨rfl,rfl,rfl,rfl⟩
  | unmodulated clear small made found refused => exact ⟨rfl,rfl,rfl,rfl⟩
  | emits clear small made found modulated =>
    have counted : SameLink g { g with sequence := g.sequence + 1 } := ⟨rfl,rfl,rfl,rfl⟩
    exact sameLinkTrans counted (emitSame _)

theorem transmitSame : SameLink g (g.transmit data mode device radio).engine := by
  unfold ModemEngine.transmit
  cases g.sessionGate with
  | error e => exact sameLinkRefl g
  | ok opened => exact codedSame _

theorem fecModeSame (fec : FecMode) : SameLink g (g.transmitWithFecMode codecs data mode device radio fec).engine := by
  cases fec with
  | none => exact transmitSame
  | rs =>
    simp only [ModemEngine.transmitWithFecMode]
    split
    · exact codedSame _
    · exact codedSame _
  | shortRs =>
    simp only [ModemEngine.transmitWithFecMode, ModemEngine.transmitWithShortFecData]
    split
    · exact sameLinkRefl g
    · exact codedSame _
  | _ => exact codedSame _

theorem transmitGated (sent : (g.transmit data mode device radio).emitted.isSome) : g.sessionGate = .ok () := by
  unfold ModemEngine.transmit at sent
  cases gate : g.sessionGate with
  | error e =>
    rw [gate] at sent
    cases sent
  | ok opened => rfl

theorem emitKeyless (key : Option (Octets 32)) (samples : List Sample) :
    (g.setAckMacKey key).stageEmitOutput mode device radio samples =
      let sent := g.stageEmitOutput mode device radio samples
      ⟨sent.result,sent.emitted,sent.engine.setAckMacKey key⟩ := by
  simp only [ModemEngine.stageEmitOutput, ModemEngine.setAckMacKey]
  cases radio.openOutput (device.or g.defaultDevice) with
  | error e => rfl
  | ok opened =>
    dsimp only
    cases radio.write (radio.shape mode samples) with
    | error e => rfl
    | ok written =>
      cases radio.flush with
      | error e => rfl
      | ok flushed => cases radio.logFrame <;> rfl

theorem codedKeyless (key : Option (Octets 32)) (code : Bytes → Except ModemError Bytes) :
    (g.setAckMacKey key).transmitCoded data mode device radio code =
      let sent := g.transmitCoded data mode device radio code
      ⟨sent.result,sent.emitted,sent.engine.setAckMacKey key⟩ := by
  have csma : (g.setAckMacKey key).csmaCheck radio = g.csmaCheck radio := rfl
  simp only [ModemEngine.transmitCoded, csma]
  cases g.csmaCheck radio with
  | error e => rfl
  | ok clear =>
    dsimp only
    by_cases small : data.length ≤ 255
    · simp only [encodeFits _ small]
      have wire : (g.setAckMacKey key).sequence = g.sequence := rfl
      rw [wire]
      cases code (Frame.encode ⟨g.sequence,data,small⟩) with
      | error e => rfl
      | ok coded =>
        cases radio.plugins mode with
        | none => rfl
        | some modulate =>
          dsimp only
          cases modulate (scrambled coded) with
          | error e => rfl
          | ok samples => exact @emitKeyless Sample { g with sequence := g.sequence + 1 } mode device radio key samples
    · simp only [encodeRefused _ small]

theorem transmitKeyless (key : Option (Octets 32)) :
    (g.setAckMacKey key).transmit data mode device radio =
      let sent := g.transmit data mode device radio
      ⟨sent.result,sent.emitted,sent.engine.setAckMacKey key⟩ := by
  have gate : (g.setAckMacKey key).sessionGate = g.sessionGate := rfl
  simp only [ModemEngine.transmit, gate]
  cases g.sessionGate with
  | error e => rfl
  | ok opened => exact codedKeyless key _

end Frames

theorem gateOpen (g : ModemEngine) :
    g.sessionGate = .ok () ↔ g.hpx.state = .idle ∨ (g.hpx.state = .activeTransfer ∧ g.activeHandshake.isSome) := by
  unfold ModemEngine.sessionGate
  cases g.hpx.state <;> cases g.activeHandshake <;> simp

section Session

variable {g : ModemEngine} {event : HpxEvent} {params : SecureSessionParams}

theorem eventRefused {e : HpxStateError} (told : handle g.hpx.state event = .error e) (timestampMs : UInt64) :
    g.hpxApplyEvent event timestampMs = (.error (.configuration (HpxStateError.text e)),g) := by
  simp only [ModemEngine.hpxApplyEvent, SessionState.dispatch, told]

theorem eventTaken {target : HpxState} {code : HpxReasonCode} {reason : String}
    (told : handle g.hpx.state event = .ok (target,code,reason)) (timestampMs : UInt64) :
    g.hpxApplyEvent event timestampMs = (.ok (g.hpx.advance event timestampMs target code reason).1,
      g.withHpx (g.hpx.advance event timestampMs target code reason).2) := by
  simp only [ModemEngine.hpxApplyEvent, SessionState.dispatch, told]

theorem eventReaches {target : HpxState} {code : HpxReasonCode} {reason : String}
    (told : handle g.hpx.state event = .ok (target,code,reason)) (plain : target ≠ .recovery) (timestampMs : UInt64) :
    ∃ transition hpx, g.hpxApplyEvent event timestampMs = (.ok transition,g.withHpx hpx) ∧ hpx.state = target := by
  refine ⟨_,_,eventTaken told timestampMs,?_⟩
  simp [SessionState.advance, plain]

theorem eventEdge (g : ModemEngine) (event : HpxEvent) (timestampMs : UInt64) :
    (∃ e, g.hpxApplyEvent event timestampMs = (.error e,g)) ∨
      ∃ transition hpx, g.hpxApplyEvent event timestampMs = (.ok transition,g.withHpx hpx) ∧
        Edge g.hpx.state hpx.state ∧ (event = .startSession ↔ g.hpx.state = .idle) := by
  cases told : handle g.hpx.state event with
  | error e => exact .inl ⟨_,eventRefused told timestampMs⟩
  | ok answer =>
    obtain ⟨target,code,reason⟩ := answer
    have moved := @advanceMoved g.hpx event timestampMs target code reason told
    exact .inr ⟨_,_,eventTaken told timestampMs,moved.edge,(handleEdge told).2⟩

structure Admits (profile : PolicyProfile) (params : SecureSessionParams) (decision : HandshakeDecision) : Prop where
  evaluated : evaluateHandshake profile params.localMinimumMode params.peerSupportedModes params.keyTrust
    params.certificateSource params.pskValidated = .ok decision
  trusted : ConnectionTrustLevel.rank (minimumTrustForProfile profile) ≤ ConnectionTrustLevel.rank decision.trust.decision

theorem trainingReached (idle : g.hpx.state = .idle) (timestampMs : UInt64) :
    ∃ started discovered hpx hpx', g.hpxApplyEvent .startSession timestampMs = (.ok started,g.withHpx hpx) ∧
      (g.withHpx hpx).hpxApplyEvent .discoveryOk (saturatingAdd timestampMs 1) = (.ok discovered,g.withHpx hpx') ∧
      hpx'.state = .training := by
  have first : handle g.hpx.state .startSession = .ok (.discovery,.success,"Session started") := by rw [idle]; rfl
  obtain ⟨started,hpx,starts,discovery⟩ := eventReaches first (by decide) timestampMs
  have second : handle (g.withHpx hpx).hpx.state .discoveryOk = .ok (.training,.success,"Peer discovered and verified") := by
    rw [ModemEngine.withHpxSession, discovery]
    rfl
  obtain ⟨discovered,hpx',discovers,training⟩ := eventReaches second (by decide) (saturatingAdd timestampMs 1)
  exact ⟨started,discovered,hpx,hpx',starts,discovers,training⟩

theorem beginGranted {decision : HandshakeDecision} (idle : g.hpx.state = .idle)
    (admits : Admits g.trustPolicyProfile params decision) (timestampMs : UInt64) :
    ∃ hpx, g.beginSecureSession params timestampMs = (.ok decision,{ g.withHpx hpx with activeHandshake := some decision }) ∧
      hpx.state = .activeTransfer := by
  obtain ⟨started,discovered,hpx,hpx',starts,discovers,training⟩ := trainingReached idle timestampMs
  have third : handle (g.withHpx hpx').hpx.state .trainingOk = .ok (.activeTransfer,.success,"Training complete") := by
    rw [ModemEngine.withHpxSession, training]
    rfl
  obtain ⟨trained,hpx'',trains,active⟩ := eventReaches third (by decide) (saturatingAdd timestampMs 3)
  have trusted := not_lt.mpr admits.trusted
  refine ⟨hpx'',?_,active⟩
  simp only [ModemEngine.beginSecureSession, starts, discovers, ModemEngine.withHpxProfile, admits.evaluated, trusted,
    if_false, trains, ModemEngine.withHpxTwice]

theorem beginRefused (idle : g.hpx.state = .idle) (refused : ∀ decision, ¬ Admits g.trustPolicyProfile params decision)
    (timestampMs : UInt64) : ∃ e hpx,
      g.beginSecureSession params timestampMs = (.error e,g.withHpx hpx) ∧ hpx.state = .failed := by
  obtain ⟨started,discovered,hpx,hpx',starts,discovers,training⟩ := trainingReached idle timestampMs
  have last : handle (g.withHpx hpx').hpx.state .signatureVerificationFailed =
      .ok (.failed,.signatureFailure,"Training authentication failed") := by
    rw [ModemEngine.withHpxSession, training]
    rfl
  obtain ⟨failed,hpx'',fails,terminal⟩ := eventReaches last (by decide) (saturatingAdd timestampMs 2)
  cases evaluated : evaluateHandshake g.trustPolicyProfile params.localMinimumMode params.peerSupportedModes params.keyTrust
      params.certificateSource params.pskValidated with
  | error e =>
    have answer : g.beginSecureSession params timestampMs =
        (.error (.configuration (String.join ["secure handshake rejected: ",e.debug])),g.withHpx hpx'') := by
      simp only [ModemEngine.beginSecureSession, starts, discovers, ModemEngine.withHpxProfile, evaluated, fails,
        ModemEngine.withHpxTwice]
    exact ⟨_,hpx'',answer,terminal⟩
  | ok decision =>
    have below := not_le.mp fun trusted => refused decision ⟨evaluated,trusted⟩
    have answer : ∃ e, g.beginSecureSession params timestampMs = (.error e,g.withHpx hpx'') := by
      simp only [ModemEngine.beginSecureSession, starts, discovers, ModemEngine.withHpxProfile, evaluated, below, if_true,
        fails, ModemEngine.withHpxTwice]
      exact ⟨_,rfl⟩
    obtain ⟨e,answer⟩ := answer
    exact ⟨e,hpx'',answer,terminal⟩

theorem beginAway (away : g.hpx.state ≠ .idle) (params : SecureSessionParams) (timestampMs : UInt64) :
    ∃ e, g.beginSecureSession params timestampMs = (.error e,g) := by
  rcases eventEdge g .startSession timestampMs with ⟨e,refused⟩ | ⟨transition,hpx,accepted,edge,starts⟩
  · exact ⟨e,by simp only [ModemEngine.beginSecureSession, refused]⟩
  · exact absurd (starts.mp rfl) away

theorem endIdle (idle : g.hpx.state = .idle) (timestampMs : UInt64) :
    g.endSecureSession timestampMs = (.ok (),{ g with activeHandshake := none }) := if_pos idle

theorem endRefused (stuck : g.hpx.state = .teardown ∨ g.hpx.state = .failed) (timestampMs : UInt64) :
    ∃ e, g.endSecureSession timestampMs = (.error e,g) := by
  have away : g.hpx.state ≠ .idle := by rcases stuck with state | state <;> simp [state]
  have told : ∃ e, handle g.hpx.state .localCancel = .error e := by
    rcases stuck with state | state
    · exact ⟨_,by rw [state]; rfl⟩
    · exact ⟨_,by rw [state]; rfl⟩
  obtain ⟨e,refused⟩ := told
  refine ⟨.configuration (HpxStateError.text e),?_⟩
  rw [ModemEngine.endSecureSession, if_neg away, eventRefused refused]

theorem endOpen (opened : g.hpx.state ≠ .idle ∧ g.hpx.state ≠ .teardown ∧ g.hpx.state ≠ .failed) (timestampMs : UInt64) :
    ∃ hpx, g.endSecureSession timestampMs = (.ok (),{ g.withHpx hpx with activeHandshake := none }) ∧ hpx.state = .idle := by
  have told : ∃ reason, handle g.hpx.state .localCancel = .ok (.teardown,.success,reason) := by
    obtain ⟨away,running,alive⟩ := opened
    cases state : g.hpx.state with
    | idle => exact absurd state away
    | teardown => exact absurd state running
    | failed => exact absurd state alive
    | _ => exact ⟨_,rfl⟩
  obtain ⟨reason,cancel⟩ := told
  obtain ⟨cancelled,hpx,cancels,teardown⟩ := eventReaches cancel (by decide) timestampMs
  have complete : handle (g.withHpx hpx).hpx.state .transferComplete = .ok (.idle,.success,"Teardown succeeded") := by
    rw [ModemEngine.withHpxSession, teardown]
    rfl
  obtain ⟨completed,hpx',completes,idle⟩ := eventReaches complete (by decide) (saturatingAdd timestampMs 1)
  refine ⟨hpx',?_,idle⟩
  simp only [ModemEngine.endSecureSession, opened.1, if_false, cancels, completes, ModemEngine.withHpxTwice]

end Session

end OpenPulse.Engine
