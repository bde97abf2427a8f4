import OpenPulse.B2f
import OpenPulse.HandshakeAgreement
import OpenPulse.KeyDerivation
import OpenPulse.Sar
import OpenPulse.KeyedTx
import OpenPulse.Words

/-! The daemon's link to one peer: the connect commands and both sides of the signed
handshake, from `openpulse-daemon/src/lib.rs` and `logbook.rs`. A command answers with the
control events it sends; the edges of the key are kept by the key itself. -/
namespace OpenPulse.DaemonLink
open ByteCodec Engine Handshake HandshakeWire KeyedTx Sar SharedPtt Signing Tables Trust

structure PendingHandshake where
  sessionId : UInt64
  peerCallsign : String
  startedAt : Nat
  kexSecret : Octets 32
  conreqBytes : Bytes
  offeredModes : List SigningMode
  deriving DecidableEq

structure VerifiedPeer where
  callsign : String
  grid : String
  pubkey : Bytes
  profileCompatible : Option Bool
  deriving DecidableEq

structure PendingQso where
  peer : String
  startMs : UInt64
  submode : String
  freqHz : Option UInt64
  gridsquare : Option String
  deriving DecidableEq

/- `peerGrids` is the configured table as a callsign is looked up in it, in lower case. -/
structure Logbook where
  peerGrids : String → Option String
  pending : Option PendingQso

namespace Logbook

def beginQso (l : Logbook) (peer submode : String) (freqHz : Option UInt64) (nowMs : UInt64) : Logbook :=
  { l with pending := some ⟨peer,nowMs,submode,freqHz,l.peerGrids peer⟩ }

def setPendingPeerGrid (l : Logbook) (grid : String) : Logbook :=
  if grid = "" then l else { l with pending := l.pending.map fun p => { p with gridsquare := some grid } }

/-- The record itself goes to a file, whose failures are only logged. -/
def endQso (l : Logbook) : Logbook := { l with pending := none }

def pendingGrid (l : Logbook) : Option String := l.pending.bind PendingQso.gridsquare

end Logbook

structure RuntimeControlState where
  localCallsign : String
  localGrid : String
  localOtaLadder : Option (String × UInt64)
  stationSeed : Seed
  trustStore : TrustStore
  lastFreqHz : Option UInt64
  ptt : Station
  logbook : Logbook
  qsyPendingToken : Option String
  pendingHandshake : Option PendingHandshake
  verifiedPeers : Table String VerifiedPeer
  lastVerifiedCallsign : Option String

structure Daemon where
  state : RuntimeControlState
  engine : ModemEngine

inductive ControlEvent where
  | commandError (command reason : String)
  | rfConnectionChanged (connected : Bool) (peer : Option String)
  | qsyPending (token : String)
  | peerVerified (callsign grid : String)
  deriving DecidableEq, Repr

structure Crypto where
  ed : Ed25519
  primitives : KeyDerivation.Primitives

structure World (Sample : Type) where
  nowMs : UInt64
  keying : Keying
  kexSecret : Octets 32
  mode : String
  radios : Nat → Radio Sample

namespace RuntimeControlState
variable (s : RuntimeControlState)

def lastVerifiedPeer : Option VerifiedPeer := s.lastVerifiedCallsign.bind fun c => s.verifiedPeers.lookup c

def otaSuppressedByPeer : Bool := s.lastVerifiedPeer.any fun p => p.profileCompatible == some false

def localCallsignValid : Bool :=
  let c := B2f.trim s.localCallsign.toList
  !c.isEmpty && !Words.eqIgnoreAsciiCase c "N0CALL".toList

def otaLadder : String × UInt64 := s.localOtaLadder.getD ("",0)

end RuntimeControlState

def ModemError.text : ModemError → String
  | .modulation text => String.join ["modulation failed: ",text]
  | .demodulation text => String.join ["demodulation failed: ",text]
  | .frame text => String.join ["frame encoding/decoding error: ",text]
  | .pluginNotFound mode => String.join ["plugin not found for mode '",mode,"'"]
  | .configuration text => String.join ["configuration error: ",text]
  | .audio text => String.join ["audio error: ",text]
  | .fec text => String.join ["FEC error: ",text]
  | .channelBusy => "channel busy: CSMA deferred transmission"
  | .arqMaxRetries attempts =>
    String.join ["ARQ failed: all ",Nat.repr attempts," transmit attempts exhausted without acknowledgement"]

section Transmission

variable {Sample : Type} (w : World Sample)

def transmitAll : Nat → List Bytes → ModemEngine → Except ModemError Unit × ModemEngine
  | _, [], g => (.ok (),g)
  | i, frag::frags, g =>
    let sent := g.transmit frag w.mode none (w.radios i)
    match sent.result with
    | .error e => (.error e,sent.engine)
    | .ok () => transmitAll (i + 1) frags sent.engine

def transmitHandshakeFrame (d : Daemon) (frame : Bytes) : Bool × Daemon :=
  match sarEncode 0 frame with
  | .error _ => (false,d)
  | .ok fragments =>
    let out := keyedTransmit w.keying d.state.ptt d.engine (transmitAll w 0 fragments)
    (out.1.isOk,⟨{ d.state with ptt := out.2.1 },out.2.2⟩)

end Transmission

section Commands

variable {Sample : Type} (crypto : Crypto) (w : World Sample)

def wildcardRefusal : String :=
  "cannot dial \"*\": a wildcard CONREQ is answered by every station in                              range and no reply can ever match it. Dial a specific callsign."

/-- A peer the store does not know is dialled as a trusted one. -/
def dialTrust (s : RuntimeControlState) (callsign : String) : PublicKeyTrustLevel :=
  if s.trustStore.trustLevel callsign = .unknown then .full else s.trustStore.trustLevel callsign

def dialParams (s : RuntimeControlState) (callsign : String) : SecureSessionParams :=
  ⟨.normal,[.normal,.psk],dialTrust s callsign,.outOfBand,false⟩

def conreqParams (s : RuntimeControlState) (callsign : String) : ConReqParams :=
  ⟨s.localCallsign,callsign,[.normal],w.nowMs,s.localGrid,s.otaLadder.1,s.otaLadder.2,w.nowMs,
    (crypto.primitives.publicKey w.kexSecret).val⟩

def connectPeer (callsign : String) (d : Daemon) : List ControlEvent × Daemon :=
  if callsign = "*" then ([.commandError "connect_peer" wildcardRefusal],d)
  else
    match ConReq.create crypto.ed (conreqParams crypto w d.state callsign) d.state.stationSeed with
    | .error e =>
      ([.commandError "connect_peer"
        (String.join ["cannot build the signed handshake, so no connection was opened: ",e.display])],d)
    | .ok conreqFrame =>
      match d.engine.beginSecureSession (dialParams d.state callsign) w.nowMs with
      | (.error e,engine) =>
        ([.commandError "connect_peer" (String.join ["secure session start failed: ",ModemError.text e])],{ d with engine })
      | (.ok _,engine) =>
        let token := String.join ["qsy-",Nat.repr w.nowMs.toNat]
        let logbook := d.state.logbook.beginQso callsign w.mode d.state.lastFreqHz w.nowMs
        let d := (transmitHandshakeFrame w ⟨{ d.state with logbook, qsyPendingToken := some token },engine⟩ conreqFrame).2
        let pending : PendingHandshake := ⟨w.nowMs,callsign,w.keying.now,w.kexSecret,conreqFrame,[.normal]⟩
        ([.rfConnectionChanged true (some callsign),.qsyPending token],
          { d with state := { d.state with pendingHandshake := some pending } })

def disconnectPeer (d : Daemon) : List ControlEvent × Daemon :=
  match d.engine.endSecureSession w.nowMs with
  | (.error e,engine) =>
    ([.commandError "disconnect_peer" (String.join ["secure session end failed: ",ModemError.text e])],{ d with engine })
  | (.ok (),engine) =>
    ([.rfConnectionChanged false none],
      ⟨{ d.state with qsyPendingToken := none, logbook := d.state.logbook.endQso },engine⟩)

end Commands

section Responding

variable {Sample : Type} (crypto : Crypto) (w : World Sample)

def handshakeMaxSkewMs : UInt64 := 120000

def freshness : Option Freshness := some ⟨w.nowMs,handshakeMaxSkewMs⟩

def keyOf (raw : Bytes) : Option (Octets 32) := if whole : raw.length = 32 then some ⟨raw,whole⟩ else none

/-- A key derived and armed; HKDF does not fail at 32 bytes. -/
def armKey (secret : Octets 32) (kexPubkey : Bytes) (g : ModemEngine) : ModemEngine :=
  match keyOf kexPubkey with
  | some peerKex => g.setAckMacKey (KeyDerivation.deriveAckKey crypto.primitives secret peerKex)
  | none => g

def ladderCompatible (localOtaLadder : Option (String × UInt64)) (peerProfileFingerprint : UInt64) : Option Bool :=
  localOtaLadder.bind fun ladder =>
    if peerProfileFingerprint ≠ 0 then some (ladder.2 == peerProfileFingerprint) else none

def recordVerifiedPeer (callsign grid : String) (pubkey : Bytes) (peerProfileFingerprint : UInt64) (d : Daemon) :
    List ControlEvent × Daemon :=
  let peer : VerifiedPeer := ⟨callsign,grid,pubkey,ladderCompatible d.state.localOtaLadder peerProfileFingerprint⟩
  ([.peerVerified callsign grid],
    { d with state := { d.state with
      verifiedPeers := d.state.verifiedPeers.insert callsign peer
      lastVerifiedCallsign := some callsign
      logbook := if grid = "" then d.state.logbook else d.state.logbook.setPendingPeerGrid grid } })

def conackParams (s : RuntimeControlState) (bytes kexPublic : Bytes) : ConAckParams :=
  ⟨s.localCallsign,.normal,crypto.primitives.sha256 bytes,s.localGrid,s.otaLadder.1,s.otaLadder.2,w.nowMs,kexPublic⟩

def replyKex (req : ConReq) : Bytes :=
  match keyOf req.kexPubkey with
  | some _ => (crypto.primitives.publicKey w.kexSecret).val
  | none => []

def handleInboundConreq (bytes : Bytes) (d : Daemon) : List ControlEvent × Daemon :=
  match verifyConreq crypto.ed bytes d.state.trustStore .permissive .normal (freshness w) with
  | .error _ => ([],d)
  | .ok (req,_) =>
    if req.isAddressedTo d.state.localCallsign = false then ([],d)
    else if d.state.localCallsignValid = false then ([],d)
    else
      let d := { d with engine := armKey crypto w.kexSecret req.kexPubkey d.engine }
      match ConAck.create crypto.ed (conackParams crypto w d.state bytes (replyKex crypto w req)) d.state.stationSeed with
      | .error _ => ([],d)
      | .ok frame =>
        match transmitHandshakeFrame w d frame with
        | (false,d) => ([],d)
        | (true,d) => recordVerifiedPeer req.stationId req.stationGrid req.pubkey req.profileFingerprint d

def dropPending (d : Daemon) : Daemon := { d with state := { d.state with pendingHandshake := none } }

def handleInboundConack (bytes : Bytes) (d : Daemon) : List ControlEvent × Daemon :=
  match ConAck.decode bytes with
  | .error _ => ([],d)
  | .ok ack =>
    match d.state.pendingHandshake with
    | none => ([],d)
    | some pending =>
      if ack.conreqHash ≠ crypto.primitives.sha256 pending.conreqBytes then ([],d)
      else if ack.stationId ≠ pending.peerCallsign then ([],d)
      else
        match verifyConack crypto.ed crypto.primitives.sha256 bytes pending.conreqBytes pending.offeredModes
            d.state.trustStore .permissive .normal (freshness w) with
        | .error _ => ([],dropPending d)
        | .ok _ =>
          let d := { d with engine := armKey crypto pending.kexSecret ack.kexPubkey d.engine }
          let (events,d) := recordVerifiedPeer ack.stationId ack.stationGrid ack.pubkey ack.profileFingerprint d
          (events,dropPending d)

def dispatchHandshake (assembled : Bytes) (d : Daemon) : List ControlEvent × Daemon :=
  if magicConreq.isPrefixOf assembled then handleInboundConreq crypto w assembled d
  else if magicConack.isPrefixOf assembled then handleInboundConack crypto w assembled d
  else ([],d)

end Responding

section Bursts

variable {Sample : Type} {w : World Sample} {d : Daemon}

theorem burstSame (i : Nat) (frags : List Bytes) (g : ModemEngine) : SameLink g (transmitAll w i frags g).2 := by
  induction frags generalizing i g with
  | nil => exact sameLinkRefl g
  | cons frag frags ih =>
    have sent := @transmitSame Sample g frag w.mode none (w.radios i)
    simp only [transmitAll]
    cases (g.transmit frag w.mode none (w.radios i)).result with
    | error e => exact sent
    | ok done => exact sameLinkTrans sent (ih (i + 1) _)

theorem burstKeyless (key : Option (Octets 32)) (i : Nat) (frags : List Bytes) (g : ModemEngine) :
    transmitAll w i frags (g.setAckMacKey key) =
      ((transmitAll w i frags g).1,(transmitAll w i frags g).2.setAckMacKey key) := by
  induction frags generalizing i g with
  | nil => rfl
  | cons frag frags ih =>
    simp only [transmitAll, transmitKeyless]
    cases (g.transmit frag w.mode none (w.radios i)).result with
    | error e => rfl
    | ok done => exact ih (i + 1) _

structure SameButPtt (d d' : Daemon) : Prop where
  state : ∃ ptt, d'.state = { d.state with ptt }
  engine : SameLink d.engine d'.engine

theorem frameSame (frame : Bytes) : SameButPtt d (transmitHandshakeFrame w d frame).2 := by
  unfold transmitHandshakeFrame
  cases sarEncode 0 frame with
  | error e => exact ⟨⟨_,rfl⟩,sameLinkRefl _⟩
  | ok fragments =>
    refine ⟨⟨_,rfl⟩,?_⟩
    dsimp only
    rcases keyCases w.keying d.state.ptt with held | faulty | free
    · rw [(keyedHeld held _ _).1]
      exact sameLinkRefl _
    · obtain ⟨ptt,failed,-⟩ := keyedFaulty faulty d.engine (transmitAll w 0 fragments)
      rw [failed]
      exact sameLinkRefl _
    · obtain ⟨ptt,sent,-⟩ := keyedFree free d.engine (transmitAll w 0 fragments)
      rw [sent]
      exact burstSame 0 fragments d.engine

structure Goes (w : World Sample) (frame : Bytes) (d : Daemon) : Prop where
  free : Free w.keying d.state.ptt
  sends : ∃ fragments, sarEncode 0 frame = .ok fragments ∧ (transmitAll w 0 fragments d.engine).1 = .ok ()

theorem frameGoes (frame : Bytes) : (transmitHandshakeFrame w d frame).1 = true ↔ Goes w frame d := by
  unfold transmitHandshakeFrame
  cases encoded : sarEncode 0 frame with
  | error e =>
    refine ⟨fun sent => absurd sent Bool.false_ne_true,fun goes => ?_⟩
    obtain ⟨fragments,whole,-⟩ := goes.sends
    rw [encoded] at whole
    cases whole
  | ok fragments =>
    dsimp only
    rcases keyCases w.keying d.state.ptt with held | faulty | free
    · rw [(keyedHeld held _ _).1]
      refine ⟨fun sent => absurd sent Bool.false_ne_true,fun goes => ?_⟩
      rw [goes.free.idle] at held
      cases held
    · obtain ⟨ptt,failed,-⟩ := keyedFaulty faulty d.engine (transmitAll w 0 fragments)
      rw [failed]
      refine ⟨fun sent => absurd sent Bool.false_ne_true,fun goes => ?_⟩
      have taken := goes.free.takes faulty.controller
      rw [faulty.refuses] at taken
      cases taken
    · obtain ⟨ptt,sent,-⟩ := keyedFree free d.engine (transmitAll w 0 fragments)
      have sending : Goes w frame d ↔ (transmitAll w 0 fragments d.engine).1 = .ok () := by
        constructor
        · intro goes
          obtain ⟨same,whole,sends⟩ := goes.sends
          cases Except.ok.inj (encoded.symm.trans whole)
          exact sends
        · intro sends
          exact ⟨free,fragments,encoded,sends⟩
      rw [sent, sending]
      generalize transmitAll w 0 fragments d.engine = out
      obtain ⟨burst,engine⟩ := out
      cases burst <;> simp [Except.isOk, Except.toBool, Except.mapError]

end Bursts

section Handlers

variable {Sample : Type} {crypto : Crypto} {w : World Sample} {bytes : Bytes} {d : Daemon}

structure Answers (crypto : Crypto) (w : World Sample) (bytes : Bytes) (req : ConReq) (d : Daemon) : Prop where
  verified : ∃ decision, verifyConreq crypto.ed bytes d.state.trustStore .permissive .normal (freshness w) = .ok (req,decision)
  addressed : req.isAddressedTo d.state.localCallsign = true
  valid : d.state.localCallsignValid = true

def Replies (crypto : Crypto) (w : World Sample) (bytes : Bytes) (req : ConReq) (d : Daemon) : Prop :=
  ∃ frame, ConAck.create crypto.ed (conackParams crypto w d.state bytes (replyKex crypto w req)) d.state.stationSeed = .ok frame ∧
    Goes w frame d

def armed (crypto : Crypto) (w : World Sample) (req : ConReq) (d : Daemon) : Daemon :=
  { d with engine := armKey crypto w.kexSecret req.kexPubkey d.engine }

theorem armKeyKeyless (secret : Octets 32) (kexPubkey : Bytes) (g : ModemEngine) :
    ∃ key, armKey crypto secret kexPubkey g = g.setAckMacKey key := by
  unfold armKey
  cases keyOf kexPubkey with
  | none => exact ⟨g.ackMacKey,rfl⟩
  | some peerKex => exact ⟨_,rfl⟩

theorem goesArmed (req : ConReq) (frame : Bytes) : Goes w frame (armed crypto w req d) ↔ Goes w frame d := by
  obtain ⟨key,keyed⟩ := @armKeyKeyless crypto w.kexSecret req.kexPubkey d.engine
  have burst : ∀ fragments, (transmitAll w 0 fragments (armed crypto w req d).engine).1 =
      (transmitAll w 0 fragments d.engine).1 := by
    intro fragments
    rw [armed, keyed, burstKeyless]
  constructor
  · rintro ⟨free,fragments,encoded,sends⟩
    exact ⟨free,fragments,encoded,by rw [← burst]; exact sends⟩
  · rintro ⟨free,fragments,encoded,sends⟩
    exact ⟨free,fragments,encoded,by rw [burst]; exact sends⟩

theorem answersOnce {req req' : ConReq} (first : Answers crypto w bytes req d) (second : Answers crypto w bytes req' d) :
    req = req' := by
  obtain ⟨decision,verified⟩ := first.verified
  obtain ⟨decision',verified'⟩ := second.verified
  exact (Prod.mk.inj (Except.ok.inj (verified.symm.trans verified'))).1

theorem conreqIgnored (quiet : ∀ req, ¬ Answers crypto w bytes req d) : handleInboundConreq crypto w bytes d = ([],d) := by
  unfold handleInboundConreq
  cases verified : verifyConreq crypto.ed bytes d.state.trustStore .permissive .normal (freshness w) with
  | error e => rfl
  | ok accepted =>
    obtain ⟨req,decision⟩ := accepted
    dsimp only
    cases addressed : req.isAddressedTo d.state.localCallsign with
    | false => rw [if_pos rfl]
    | true =>
      cases valid : d.state.localCallsignValid with
      | false => simp
      | true => exact absurd ⟨⟨decision,verified⟩,addressed,valid⟩ (quiet req)

theorem conreqHalf {req : ConReq} (answers : Answers crypto w bytes req d) (mute : ¬ Replies crypto w bytes req d) :
    ∃ d', handleInboundConreq crypto w bytes d = ([],d') ∧ SameButPtt (armed crypto w req d) d' := by
  obtain ⟨decision,verified⟩ := answers.verified
  simp only [handleInboundConreq, verified, answers.addressed, answers.valid, Bool.true_eq_false, if_false]
  cases created : ConAck.create crypto.ed (conackParams crypto w d.state bytes (replyKex crypto w req)) d.state.stationSeed with
  | error e => exact ⟨armed crypto w req d,rfl,⟨_,rfl⟩,sameLinkRefl _⟩
  | ok frame =>
    have same := @frameSame Sample w (armed crypto w req d) frame
    have silent : (transmitHandshakeFrame w (armed crypto w req d) frame).1 = false := by
      rw [← Bool.not_eq_true, frameGoes, goesArmed]
      exact fun goes => mute ⟨frame,created,goes⟩
    generalize out : transmitHandshakeFrame w (armed crypto w req d) frame = sent at same silent
    obtain ⟨gone,d'⟩ := sent
    subst silent
    unfold armed at out
    simp only [out]
    exact ⟨d',rfl,same⟩

theorem conreqRecords {req : ConReq} (answers : Answers crypto w bytes req d) (replies : Replies crypto w bytes req d) :
    ∃ d', SameButPtt (armed crypto w req d) d' ∧
      handleInboundConreq crypto w bytes d = recordVerifiedPeer req.stationId req.stationGrid req.pubkey req.profileFingerprint d' := by
  obtain ⟨decision,verified⟩ := answers.verified
  obtain ⟨frame,created,goes⟩ := replies
  have same := @frameSame Sample w (armed crypto w req d) frame
  have sent : (transmitHandshakeFrame w (armed crypto w req d) frame).1 = true :=
    (frameGoes frame).mpr ((goesArmed req frame).mpr goes)
  generalize out : transmitHandshakeFrame w (armed crypto w req d) frame = result at same sent
  obtain ⟨gone,d'⟩ := result
  subst sent
  unfold armed at out
  simp only [handleInboundConreq, verified, answers.addressed, answers.valid, Bool.true_eq_false, if_false, created, out]
  exact ⟨d',same,rfl⟩

structure Completes (crypto : Crypto) (w : World Sample) (bytes : Bytes) (pending : PendingHandshake) (ack : ConAck)
    (d : Daemon) : Prop where
  dialling : d.state.pendingHandshake = some pending
  dialled : ack.stationId = pending.peerCallsign
  verified : ∃ decision, verifyConack crypto.ed crypto.primitives.sha256 bytes pending.conreqBytes pending.offeredModes
    d.state.trustStore .permissive .normal (freshness w) = .ok (ack,decision)

theorem conackRecords {pending : PendingHandshake} {ack : ConAck} (completes : Completes crypto w bytes pending ack d) :
    handleInboundConack crypto w bytes d = ([.peerVerified ack.stationId ack.stationGrid],
      dropPending (recordVerifiedPeer ack.stationId ack.stationGrid ack.pubkey ack.profileFingerprint
        { d with engine := armKey crypto pending.kexSecret ack.kexPubkey d.engine }).2) := by
  obtain ⟨decision,verified⟩ := completes.verified
  obtain ⟨spans,split,decoded,signed,bound,rest⟩ := verifyConackIff.mp verified
  simp only [handleInboundConack, decoded, completes.dialling, bound, completes.dialled, verified, ne_eq, not_true_eq_false,
    if_false]
  rfl

inductive ConackTold (crypto : Crypto) (w : World Sample) (bytes : Bytes) (d : Daemon) : List ControlEvent × Daemon → Prop where
  | ignored : ConackTold crypto w bytes d ([],d)
  | rejected {pending : PendingHandshake} {e : HandshakeError} (dialling : d.state.pendingHandshake = some pending)
      (failed : verifyConack crypto.ed crypto.primitives.sha256 bytes pending.conreqBytes pending.offeredModes
        d.state.trustStore .permissive .normal (freshness w) = .error e) : ConackTold crypto w bytes d ([],dropPending d)
  | recorded {pending : PendingHandshake} {ack : ConAck} (completes : Completes crypto w bytes pending ack d) :
      ConackTold crypto w bytes d (handleInboundConack crypto w bytes d)

theorem conackTold (crypto : Crypto) (w : World Sample) (bytes : Bytes) (d : Daemon) :
    ConackTold crypto w bytes d (handleInboundConack crypto w bytes d) := by
  by_cases answered : ∃ pending ack, Completes crypto w bytes pending ack d
  · obtain ⟨pending,ack,completes⟩ := answered
    exact .recorded completes
  unfold handleInboundConack
  cases decoded : ConAck.decode bytes with
  | error e => exact .ignored
  | ok ack =>
    cases dialling : d.state.pendingHandshake with
    | none => exact .ignored
    | some pending =>
      dsimp only
      by_cases bound : ack.conreqHash = crypto.primitives.sha256 pending.conreqBytes
      · rw [if_neg (not_not.mpr bound)]
        by_cases dialled : ack.stationId = pending.peerCallsign
        · rw [if_neg (not_not.mpr dialled)]
          cases verified : verifyConack crypto.ed crypto.primitives.sha256 bytes pending.conreqBytes pending.offeredModes
              d.state.trustStore .permissive .normal (freshness w) with
          | error e => exact .rejected dialling verified
          | ok accepted =>
            obtain ⟨ack',decision⟩ := accepted
            obtain ⟨spans,split,decoded',rest⟩ := verifyConackIff.mp verified
            cases Except.ok.inj (decoded.symm.trans decoded')
            exact absurd ⟨pending,ack,dialling,dialled,decision,verified⟩ answered
        · rw [if_pos dialled]
          exact .ignored
      · rw [if_pos bound]
        exact .ignored

end Handlers

theorem honestConreq {ed : Ed25519} (correct : ed.Correct) {p : ConReqParams} (ok : p.Acceptable) (seed : Seed) {store : TrustStore}
    {policy : PolicyProfile} {min : SigningMode} {freshness : Option Freshness} {decision : HandshakeDecision}
    (fresh : checkFreshness freshness p.timestampMs = .ok ())
    (bound : bindFrameKey store p.stationId (ed.verifyingKey seed).val = .ok ())
    (evaluated : evaluatePeer store policy min p.stationId p.signingModes = .ok decision) :
    let body := p.layout (ed.verifyingKey seed)
    verifyConreq ed (signedFrame ed magicConreq seed body) store policy min freshness =
      .ok (p.fields (ed.verifyingKey seed) (ed.sign seed (framed magicConreq body)),decision) := by
  intro body
  have small : body.length < 65536 := Nat.lt_of_le_of_lt (ConReqParams.layoutLength ok _) (by decide)
  have signed : verifyEd25519 ed .conReq (ed.verifyingKey seed).val (framed magicConreq body)
      (ed.sign seed (framed magicConreq body)).val = true :=
    verifyEd25519Iff.mpr ⟨_,_,rfl,rfl,(verifyInBandIff ed rfl).mpr ⟨framedTag .conReq body,correct seed _⟩⟩
  exact verifyConreqIff.mpr ⟨_,(@splitFrameIff _ magicConreq _ _ rfl).mpr ⟨body,_,small,rfl,rfl⟩,
    ConReqParams.layoutDecodes ok _ _,signed,fresh,bound,evaluated⟩

namespace Bench

def crypto : Crypto := ⟨tagScheme,KeyDerivation.shortMessages⟩

def store : TrustStore := ⟨fun _ => none,fun _ => .unknown⟩

def station : Daemon where
  state :=
    { localCallsign := "DC0SK", localGrid := "JO31", localOtaLadder := some ("hpx_hf",17), stationSeed := filled 32 9
      trustStore := store, lastFreqHz := some 14070000, ptt := SharedPtt.new true 180000, logbook := ⟨fun _ => none,none⟩
      qsyPendingToken := none, pendingHandshake := none, verifiedPeers := ∅, lastVerifiedCallsign := none }
  engine := .new

def evening : World Nat := ⟨1500,⟨0,true,true⟩,filled 32 3,"BPSK250",fun _ => .willing⟩

def request (stationId : String) (key : UInt8) (fingerprint : UInt64) : ConReqParams :=
  ⟨stationId,"DC0SK",[.normal],77,"FN31","hpx_hf",fingerprint,1300,(filled 32 key).val⟩

def frameOf (p : ConReqParams) (seed : Seed) : Bytes := signedFrame tagScheme magicConreq seed (p.layout seed)

def heard (p : ConReqParams) (seed : Seed) : ConReq :=
  p.fields seed (tagScheme.sign seed (framed magicConreq (p.layout seed)))

theorem requestAcceptable {stationId : String} (named : stationId ≠ "") (short : (utf8 stationId).length ≤ Caps.stationId)
    (key : UInt8) (fingerprint : UInt64) : (request stationId key fingerprint).Acceptable where
  addressed := (by decide : "DC0SK" ≠ "")
  named := named
  modes := (by decide : 1 ≤ Caps.signingModes)
  stationId := short
  dstStation := (by decide : (utf8 "DC0SK").length ≤ Caps.stationId)
  kexPubkey := (filled 32 key).property
  stationGrid := (by decide : (utf8 "FN31").length ≤ Caps.grid)
  profileName := (by decide : (utf8 "hpx_hf").length ≤ Caps.profileName)

def firstSeen : HandshakeDecision := ⟨.normal,classifyConnectionTrust .unknown .overAir false,.permissive⟩

theorem firstSeenEvaluated : evaluateHandshake .permissive .normal [.normal] .unknown .overAir false = .ok firstSeen := by decide

theorem requestAnswered {stationId : String} (named : stationId ≠ "") (short : (utf8 stationId).length ≤ Caps.stationId)
    (key : UInt8) (fingerprint : UInt64) (seed : Seed) {d : Daemon} (knows : d.state.trustStore = store)
    (called : d.state.localCallsign = "DC0SK") :
    Answers crypto evening (frameOf (request stationId key fingerprint) seed)
      (heard (request stationId key fingerprint) seed) d where
  verified := by
    rw [knows]
    have fresh : checkFreshness (freshness evening) 1300 = .ok () := by decide
    have bound : bindFrameKey store stationId (tagScheme.verifyingKey seed).val = .ok () := rfl
    have evaluated : evaluatePeer store .permissive .normal stationId [.normal] = .ok firstSeen := firstSeenEvaluated
    exact ⟨_,honestConreq tagSchemeCorrect (requestAcceptable named short key fingerprint) seed fresh bound evaluated⟩
  addressed := by
    rw [called]
    rfl
  valid := by
    rw [RuntimeControlState.localCallsignValid, called]
    decide

theorem payloadsShort (segmentId : UInt16) (data : Bytes) : ∀ frag ∈ payloads segmentId data, frag.length ≤ 255 := by
  intro frag member
  obtain ⟨i,-,rfl⟩ := List.mem_map.mp member
  have piece : (chunk data i).length ≤ 251 := List.length_take_le ..
  simp only [payloadOf, List.length_cons]
  omega

theorem willingBurst (frags : List Bytes) (short : ∀ frag ∈ frags, frag.length ≤ 255) (i : Nat) (g : ModemEngine)
    (opened : g.sessionGate = .ok ()) (clear : g.csmaEnabled = false) : (transmitAll evening i frags g).1 = .ok () := by
  induction frags generalizing i g with
  | nil => rfl
  | cons frag frags ih =>
    have small : frag.length ≤ 255 := short frag List.mem_cons_self
    have taken : g.transmit frag evening.mode none (evening.radios i) = ⟨.ok (),some [0],
        { g with sequence := g.sequence + 1, framesTransmitted := g.framesTransmitted + 1 }⟩ := by
      simp [ModemEngine.transmit, opened, ModemEngine.transmitCoded, ModemEngine.csmaCheck, clear,
        ModemEngine.stageEncodeFrame, small, evening, Radio.willing, ModemEngine.stageEmitOutput]
    simp only [transmitAll, taken]
    exact ih (fun f member => short f (List.mem_cons_of_mem _ member)) (i + 1) _ opened clear

theorem heardDecodes {p : ConReqParams} (acceptable : p.Acceptable) (seed : Seed) :
    ConReq.decode (frameOf p seed) = .ok (heard p seed) :=
  ConReqParams.layoutDecodes acceptable seed _

theorem dispatchRequest {Sample : Type} (w : World Sample) (p : ConReqParams) (seed : Seed) (d : Daemon) :
    dispatchHandshake crypto w (frameOf p seed) d = handleInboundConreq crypto w (frameOf p seed) d := by
  have magic : magicConreq <+: frameOf p seed := (framedTag .conReq _).trans (List.prefix_append _ _)
  rw [dispatchHandshake, if_pos (List.isPrefixOf_iff_prefix.mpr magic)]

theorem replied (req : ConReq) (agrees : req.kexPubkey.length = 32) (bytes : Bytes) {d : Daemon}
    (local' : d.state.localCallsign = "DC0SK" ∧ d.state.localGrid = "JO31" ∧ d.state.localOtaLadder = some ("hpx_hf",17))
    (free : d.state.ptt.armed = false) (opened : d.engine.sessionGate = .ok ()) (clear : d.engine.csmaEnabled = false) :
    Replies crypto evening bytes req d := by
  obtain ⟨callsign,grid,ladder⟩ := local'
  have acceptable : (conackParams crypto evening d.state bytes (replyKex crypto evening req)).Acceptable := by
    refine ⟨?_,?_,?_,?_⟩
    · simp only [conackParams, callsign]
      decide
    · simp only [conackParams, replyKex, keyOf, agrees, dite_true]
      rfl
    · simp only [conackParams, grid]
      decide
    · simp only [conackParams, RuntimeControlState.otaLadder, ladder, Option.getD_some]
      decide
  have created := (ConAckParams.createIff tagScheme _ d.state.stationSeed _).mpr ⟨acceptable,rfl⟩
  have body := ConAckParams.layoutLength acceptable (tagScheme.verifyingKey d.state.stationSeed)
  generalize ConAckParams.layout _ _ = raw at created body
  have fits : ¬ sarMaxSegmentData < (signedFrame tagScheme magicConack d.state.stationSeed raw).length := by
    have signature := (tagScheme.sign d.state.stationSeed (framed magicConack raw)).property
    rw [signedFrame, List.length_append, signature]
    simp only [framed, List.length_append, List.length_cons, beLength, magicConack, List.length_nil, sarMaxSegmentData,
      sarMaxFragmentData, sarHeaderSize]
    omega
  exact ⟨_,created,⟨free,fun _ => rfl⟩,_,if_neg fits,willingBurst _ (payloadsShort 0 _) 0 _ opened clear⟩

end Bench

end OpenPulse.DaemonLink
