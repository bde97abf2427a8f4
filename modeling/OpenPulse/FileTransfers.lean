import OpenPulse.DaemonLink
import OpenPulse.FxCodec
import OpenPulse.FxSessions
import OpenPulse.Json
import OpenPulse.Resume

/-! File transfers of the daemon in both directions: `openpulse-daemon/src/filexfer.rs` over the
sessions of `openpulse-filexfer`. Fragments to send are queued for the burst drain. What the
directories held, which writes went through and the clocks come with each call; the control events
sent so far are kept in the state. -/
namespace OpenPulse.FileTransfers
open ByteCodec Compression FxWire Signing Sar Tables FileBlocks Downloads FxSessions
open Receiver (ReceiverSession OfferDecision)
open Sender (SenderSession)

def fxControlSegmentId : UInt16 := 0xFFFF
def fxControlSession : String := "filexfer-ctrl"
def filexferSarTimeoutSecs : Nat := 300
def defaultBlockSize : UInt32 := 16384

structure OfferPolicy where
  enabled : Bool := false
  maxFileBytes : UInt64 := 1024 * 1024
  autoAcceptMaxBytes : UInt64 := 0
  requireVerifiedPeer : Bool := true
  deriving DecidableEq, Repr

def OfferPolicy.decide (policy : OfferPolicy) (offer : FileOffer) (sigVerified : Bool) : OfferDecision :=
  if policy.enabled = false then .reject .featureDisabled
  else if policy.maxFileBytes < offer.fileSize then .reject .tooLarge
  else if policy.requireVerifiedPeer && !sigVerified then .reject .untrustedPeer
  else if offer.fileSize ≤ policy.autoAcceptMaxBytes then .autoAccept
  else .prompt

structure FileTransferPolicy extends Downloads.FileTransferPolicy where
  offer : OfferPolicy
  allowedPeers : List String
  partialTtlHours : UInt64
  timeouts : Timeouts

/- What the daemon calls and does not define: the codecs of a block, the signatures, the hash, and
the upper case of the standard library. -/
structure Library where
  codecs : Codecs
  ed : Ed25519
  sha256 : Bytes → Octets 32
  uppercase : String → String

def FileTransferPolicy.peerAllowed (lib : Library) (policy : FileTransferPolicy) (callsign : String) : Bool :=
  policy.allowedPeers.isEmpty || policy.allowedPeers.contains (lib.uppercase callsign)

inductive Written where
  | done
  | failed (left : Option Nat) (error : String)
  deriving DecidableEq, Repr

/- `removed` tells the files a removal reaches, `listing` what a directory showed and could be read,
in any order, and `stale` the partial directories older than the configured hours. -/
structure World where
  nowMs : UInt64
  instant : Nat
  timestampSecs : Nat
  write : Path → Written
  removed : Path → Bool
  stale : String → Bool
  listing : List (String × Bytes) → List (String × Bytes)
  listed : ∀ entries, ∀ e ∈ listing entries, e ∈ entries

def World.put (w : World) (disk : Disk) (path : Path) (bytes : Bytes) : Disk × Option String :=
  match w.write path with
  | .done => (disk.insert path bytes,none)
  | .failed none error => (disk,some error)
  | .failed (some n) error => (disk.insert path (bytes.take n),some error)

def World.removeDirAll (w : World) (disk : Disk) (dir : Path) : Disk :=
  retain (fun path bytes => if dir.isPrefixOf path && w.removed path then none else some bytes) disk

def subdirs (disk : Disk) (dir : Path) : List String :=
  (disk.keys.filter dir.isPrefixOf).filterMap fun p => if dir.length + 1 < p.length then p[dir.length]? else none

structure FxRxState where
  receiver : ReceiverSession
  assembler : BlockAssembler
  offer : FileOffer
  sender : String
  peerPubkey : Option PeerId
  fileReceivedEmitted : Bool
  partialDir : Path

structure FxTxState where
  sender : SenderSession
  file : Bytes
  offer : FileOffer
  recipient : String

structure FileSummary where
  name : String
  sender : String
  size : Nat
  verified : Bool
  path : Path
  timestampSecs : Nat
  deriving DecidableEq, Repr

inductive ControlEvent where
  | commandError (command reason : String)
  | fileOffered (transferId : UInt32) (sender name : String) (size : UInt64) (sha256Hex mime : String)
      (autoAccepted signatureValid : Bool)
  | fileProgress (transferId : UInt32) (direction name : String) (blocksDone blocksTotal : UInt16) (bytesDone bytesTotal : Nat)
  | fileReceived (transferId : UInt32) (sender name : String) (size : Nat) (path : Path) (verified : Bool)
  | fileSent (transferId : UInt32) (recipient name : String) (receiptValid : Option Bool)
  | fileFailed (transferId : UInt32) (direction reason : String)
  deriving DecidableEq, Repr

structure RuntimeControlState extends DaemonLink.RuntimeControlState where
  filexferSar : SarReassembler
  filexferFramesRouted : UInt64
  fileRx : Option FxRxState
  fileTx : Option FxTxState
  filexferPolicy : FileTransferPolicy
  filexferTxQueue : List (Bytes × String)
  receivedFiles : List FileSummary
  disk : Disk
  events : List ControlEvent

def RuntimeControlState.send (rs : RuntimeControlState) (event : ControlEvent) : RuntimeControlState :=
  { rs with events := rs.events ++ [event] }

def reasonText : Reason → String
  | .operatorDeclined => "OperatorDeclined"
  | .featureDisabled => "FeatureDisabled"
  | .tooLarge => "TooLarge"
  | .quotaExceeded => "QuotaExceeded"
  | .busy => "Busy"
  | .untrustedPeer => "UntrustedPeer"
  | .timeout => "Timeout"
  | .unsupportedVersion => "UnsupportedVersion"
  | .operatorCancel => "OperatorCancel"
  | .stall => "Stall"

def blockBytes (offer : FileOffer) (blocksDone : UInt16) : Nat :=
  min (blocksDone.toNat * offer.blockSize.toNat) offer.fileSize.toNat

section Queueing
variable (lib : Library) (mode : String)

def queued (fragments : Except ε (List Bytes)) (rs : RuntimeControlState) : RuntimeControlState :=
  match fragments with
  | .ok fragments => { rs with filexferTxQueue := rs.filexferTxQueue ++ fragments.map fun f => (f,mode) }
  | .error _ => rs

def enqueueCtrl (frame : Bytes) (rs : RuntimeControlState) : RuntimeControlState :=
  queued mode (sarEncode fxControlSegmentId frame) rs

def enqueueBlock (transferId : UInt32) (blockIndex : UInt16) (block : Bytes) (missing : Option Bytes) (rs : RuntimeControlState) :
    RuntimeControlState :=
  queued mode (encodeBlock lib.codecs transferId blockIndex block missing) rs

def reject (transferId : UInt32) (reason : Reason) : Bytes := FxFrame.encode (.fileReject transferId reason)

end Queueing

structure TransferManifest where
  payloadHash : Bytes
  payloadSize : UInt64
  senderId : String
  signature : Bytes

def manifestBody (payloadHash : Bytes) (payloadSize : UInt64) (senderId : String) : Bytes :=
  let hash := List.intercalate [','] (payloadHash.map fun b => Nat.toDigits 10 b.toNat)
  utf8 (String.ofList ("\x7b\"payload_hash\":[".toList ++ hash ++ "],\"payload_size\":".toList ++
    Nat.toDigits 10 payloadSize.toNat ++ ",\"sender_id\":".toList ++ Json.text senderId ++ ['}']))

def TransferManifest.sign (lib : Library) (payload : Bytes) (senderId : String) (seed : Seed) : Except SigningError TransferManifest :=
  let hash := (lib.sha256 payload).val
  (signInDomain lib.ed .manifest seed (manifestBody hash payload.length.toUInt64 senderId)).map fun signature =>
    ⟨hash,payload.length.toUInt64,senderId,signature.val⟩

def octets? (n : Nat) (raw : Bytes) : Option (Octets n) := if length : raw.length = n then some ⟨raw,length⟩ else none

def fromManifest (lib : Library) (transferId : UInt32) (manifest : TransferManifest) (name mime : String) (blockSize : UInt32)
    (seed : Seed) : Option FileOffer := do
  if minBlockSize ≤ blockSize.toNat ∧ blockSize.toNat ≤ maxBlockSize then
    let sha256 ← octets? 32 manifest.payloadHash
    let blockCount ← blockCount manifest.payloadSize.toNat blockSize.toNat
    let senderId ← (SenderId.new manifest.senderId).toOption
    let offer : FileOffer := ⟨transferId,0,manifest.payloadSize,sha256,blockSize,blockCount,senderId,name,mime,zeros 64⟩
    let signature ← (signInDomain lib.ed .fileOffer seed offer.signingBytes).toOption
    return { offer with signature }
  else none

def countersign (lib : Library) (payload : Bytes) (senderId : String) (seed : Seed) : Octets 64 :=
  ((TransferManifest.sign lib payload senderId seed).toOption.bind fun m => octets? 64 m.signature).getD (zeros 64)

section Storing
variable (lib : Library) (w : World)

def persistBlock (disk : Disk) (partialDir : Path) (blockIndex : UInt16) (block : Bytes) : Disk :=
  (w.put disk (partialDir ++ [Resume.blockFile blockIndex]) block).1

def purgeStalePartials (policy : FileTransferPolicy) (sender : String) (disk : Disk) : Disk :=
  if policy.partialTtlHours = 0 then disk
  else
    let base := peerDir policy.toFileTransferPolicy sender ++ [partialSubdir]
    (subdirs disk base).foldl (fun disk name => if w.stale name then w.removeDirAll disk (base ++ [name]) else disk) disk

def noFreeName : String := "no free filename after 10000 collisions; refusing to overwrite"

def writeFile (policy : FileTransferPolicy) (disk : Disk) (sender name : String) (payload : Bytes) (verified : Bool) :
    Except String Path × Disk :=
  let base := if verified then sanitizeFilename name else sanitizeFilename name ++ ".unverified"
  match uniquePath disk (peerDir policy.toFileTransferPolicy sender) base with
  | none => (.error noFreeName,disk)
  | some path =>
    match w.put disk path payload with
    | (disk,none) => (.ok path,disk)
    | (disk,some error) => (.error error,disk)

def integrity (fx : FxRxState) (payload : Bytes) : Bool × Bool :=
  (lib.sha256 payload == fx.offer.sha256,fx.peerPubkey.any fun pk => (fx.offer.verifySignature lib.ed pk).isOk)

def completeStatus : Bool × Bool → CompleteStatus
  | (true,true) => .verifiedOk
  | (false,_) => .hashMismatch
  | (true,false) => .signatureInvalid

def storePayload (payload : Bytes) (verified : Bool) (s : FxRxState × RuntimeControlState) : FxRxState × RuntimeControlState :=
  let (fx,rs) := s
  match writeFile w rs.filexferPolicy rs.disk fx.sender fx.offer.name payload verified with
  | (.ok path,disk) =>
    let summary : FileSummary := ⟨fx.offer.name,fx.sender,payload.length,verified,path,w.timestampSecs⟩
    let rs := { rs with disk := w.removeDirAll disk fx.partialDir, receivedFiles := rs.receivedFiles ++ [summary] }
    ({ fx with fileReceivedEmitted := true },
      rs.send (.fileReceived fx.offer.transferId fx.sender fx.offer.name payload.length path verified))
  | (.error e,disk) =>
    ({ fx with fileReceivedEmitted := true },
      ({ rs with disk } : RuntimeControlState).send (.fileFailed fx.offer.transferId "rx" (String.join ["write failed: ",e])))

def reassembleVerifyWrite (s : FxRxState × RuntimeControlState) : (CompleteStatus × Octets 64) × FxRxState × RuntimeControlState :=
  let (fx,rs) := s
  match fx.assembler.reassemble with
  | none => ((.sizeMismatch,zeros 64),fx,rs)
  | some payload =>
    if payload.length ≠ fx.offer.fileSize.toNat then ((.sizeMismatch,zeros 64),fx,rs)
    else
      let checks := integrity lib fx payload
      let verified := checks.1 && checks.2
      let countersig := if verified then countersign lib payload fx.offer.senderId.id rs.stationSeed else zeros 64
      ((completeStatus checks,countersig),storePayload w payload verified (fx,rs))

end Storing

section Receiving
variable (lib : Library) (w : World) (mode : String)

def emitTerminal (transferId : UInt32) (result : TransferResult) (fx : FxRxState) (rs : RuntimeControlState) : RuntimeControlState :=
  match result with
  | .received verified =>
    if fx.fileReceivedEmitted then rs
    else rs.send (.fileReceived transferId fx.sender fx.offer.name fx.offer.fileSize.toNat [] verified)
  | .rejected reason | .cancelled reason | .failed reason => rs.send (.fileFailed transferId "rx" (reasonText reason))
  | .sent _ => rs

def rxAction (verify : FxRxState × RuntimeControlState → FxRxState × RuntimeControlState)
    (s : FxRxState × RuntimeControlState) : FxAction → FxRxState × RuntimeControlState
  | .transmit frame => (s.1,enqueueCtrl mode frame s.2)
  | .progress transferId blocksDone blocksTotal =>
    (s.1,s.2.send (.fileProgress transferId "rx" s.1.offer.name blocksDone blocksTotal (blockBytes s.1.offer blocksDone)
      s.1.offer.fileSize.toNat))
  | .verify _ => verify s
  | .finished outcome => (s.1,emitTerminal outcome.transferId outcome.result s.1 s.2)
  | .sendBlock .. | .prompt _ => s

/- What a verification answers holds no other verification, so the recursion of the source goes one
level deep. -/
def finishVerify (s : FxRxState × RuntimeControlState) : FxRxState × RuntimeControlState :=
  let (result,fx,rs) := reassembleVerifyWrite lib w s
  let (more,receiver) := fx.receiver.setVerifyResult result.1 result.2
  more.foldl (rxAction mode id) ({ fx with receiver },rs)

def driveRxActions (actions : List FxAction) (s : FxRxState × RuntimeControlState) : FxRxState × RuntimeControlState :=
  actions.foldl (rxAction mode (finishVerify lib w mode)) s

def settleRx (s : FxRxState × RuntimeControlState) : RuntimeControlState :=
  { s.2 with fileRx := if s.1.receiver.isTerminal then none else some s.1 }

def callRx (fx : FxRxState) (out : List FxAction × ReceiverSession) (rs : RuntimeControlState) : RuntimeControlState :=
  settleRx (driveRxActions lib w mode out.1 ({ fx with receiver := out.2 },{ rs with fileRx := none }))

def offerKey (rs : RuntimeControlState) (offer : FileOffer) : Option PeerId :=
  (rs.verifiedPeers.lookup offer.senderId.id).bind fun vp => octets? 32 vp.pubkey

def offerDecision (rs : RuntimeControlState) (offer : FileOffer) (sender : String) (sigValid : Bool) : OfferDecision :=
  if rs.filexferPolicy.peerAllowed lib sender = false then .reject .untrustedPeer
  else if Resume.offerGeometryOk offer = false then .reject .tooLarge
  else if quotaWouldExceed rs.filexferPolicy.toFileTransferPolicy rs.disk sender offer.fileSize.toNat then .reject .quotaExceeded
  else rs.filexferPolicy.offer.decide offer sigValid

def onOffer (offer : FileOffer) (rs : RuntimeControlState) : RuntimeControlState :=
  if rs.fileRx.isSome then enqueueCtrl mode (reject offer.transferId .busy) rs
  else
    let peerPubkey := offerKey rs offer
    let sigValid := peerPubkey.any fun pk => (offer.verifySignature lib.ed pk).isOk
    let sender := if sigValid then offer.senderId.id else ""
    let decision := offerDecision lib rs offer sender sigValid
    let rs := rs.send (.fileOffered offer.transferId sender offer.name offer.fileSize (hex offer.sha256.val) offer.mime
      (decision = .autoAccept) sigValid)
    let rs := { rs with disk := purgeStalePartials w rs.filexferPolicy sender rs.disk }
    let partialDir := partialDirFor rs.filexferPolicy.toFileTransferPolicy sender offer.sha256.val
    let (held,assembler) := Resume.loadPartials offer (w.listing (Resume.readDir rs.disk partialDir)) (Resume.assemblerFor offer)
    let out := Receiver.resume offer decision held rs.filexferPolicy.timeouts w.nowMs
    callRx lib w mode ⟨out.2,assembler,offer,sender,peerPubkey,false,partialDir⟩ out rs

def acceptOffer (transferId : UInt32) (rs : RuntimeControlState) : RuntimeControlState :=
  match rs.fileRx with
  | none => rs
  | some fx =>
    if fx.offer.transferId = transferId then callRx lib w mode fx (fx.receiver.accept w.nowMs) rs
    else callRx lib w mode fx ([],fx.receiver) rs

def rejectOffer (transferId : UInt32) (rs : RuntimeControlState) : RuntimeControlState :=
  match rs.fileRx with
  | none => rs
  | some fx =>
    if fx.offer.transferId = transferId then callRx lib w mode fx (fx.receiver.reject .operatorDeclined) rs
    else callRx lib w mode fx ([],fx.receiver) rs

def onInboundCancel (transferId : UInt32) (reason : Reason) (rs : RuntimeControlState) : RuntimeControlState :=
  if rs.fileRx.map (fun fx => fx.offer.transferId) = some transferId then
    ({ rs with fileRx := none } : RuntimeControlState).send (.fileFailed transferId "rx" (reasonText reason))
  else rs

/- Only an accepted transfer has its blocks written and acknowledged. -/
def onBlockFragment (bytes : Bytes) (rs : RuntimeControlState) : RuntimeControlState :=
  match rs.fileRx with
  | none => rs
  | some fx =>
    if fx.receiver.isReceiving = false then rs
    else
      match fx.assembler.ingestFragment lib.codecs w.instant bytes with
      | (.complete blockIndex,assembler) =>
        let disk := match assembler.block blockIndex with
          | some block => persistBlock w rs.disk fx.partialDir blockIndex block
          | none => rs.disk
        let rs := enqueueCtrl mode (FxFrame.encode (.blockAck fx.offer.transferId blockIndex true [])) { rs with disk }
        callRx lib w mode { fx with assembler } (fx.receiver.noteBlockComplete blockIndex w.nowMs) rs
      | (_,assembler) => callRx lib w mode { fx with assembler } ([],fx.receiver) rs

end Receiving

section Sending
variable (lib : Library) (w : World) (mode : String)

def txAction (fx : FxTxState) (rs : RuntimeControlState) : FxAction → RuntimeControlState
  | .transmit frame => enqueueCtrl mode frame rs
  | .sendBlock blockIndex missing =>
    let start := min (blockIndex.toNat * fx.offer.blockSize.toNat) fx.file.length
    let stop := min (start + fx.offer.blockSize.toNat) fx.file.length
    enqueueBlock lib mode fx.offer.transferId blockIndex ((fx.file.take stop).drop start) missing rs
  | .progress transferId blocksDone blocksTotal =>
    rs.send (.fileProgress transferId "tx" fx.offer.name blocksDone blocksTotal (blockBytes fx.offer blocksDone) fx.offer.fileSize.toNat)
  | .finished outcome =>
    match outcome.result with
    | .sent peerVerified => rs.send (.fileSent outcome.transferId fx.recipient fx.offer.name (some peerVerified))
    | .rejected reason | .cancelled reason | .failed reason => rs.send (.fileFailed outcome.transferId "tx" (reasonText reason))
    | .received _ => rs
  | .verify _ | .prompt _ => rs

def driveTxActions (fx : FxTxState) (actions : List FxAction) (rs : RuntimeControlState) : RuntimeControlState :=
  actions.foldl (txAction lib mode fx) rs

def callTx (fx : FxTxState) (out : List FxAction × SenderSession) (rs : RuntimeControlState) : RuntimeControlState :=
  { driveTxActions lib mode fx out.1 rs with fileTx := if out.2.isTerminal then none else some { fx with sender := out.2 } }

def fileName (path : String) : Option String :=
  match ((path.splitOn "/").filter fun part => part ≠ "" ∧ part ≠ ".").getLast? with
  | some part => if part = ".." then none else some part
  | none => none

def sendError (reason : String) (rs : RuntimeControlState) : RuntimeControlState := rs.send (.commandError "send_file" reason)

def sendFile (recipient path : String) (contents : Except String Bytes) (rs : RuntimeControlState) : RuntimeControlState :=
  if rs.fileTx.isSome || rs.fileRx.isSome then sendError "a file transfer is already active" rs
  else
    match contents with
    | .error e => sendError (String.join ["cannot read '",path,"': ",e]) rs
    | .ok file =>
      if rs.filexferPolicy.offer.maxFileBytes.toNat < file.length then
        sendError (String.join ["file is ",Nat.repr file.length," bytes, over max_file_bytes ",
          Nat.repr rs.filexferPolicy.offer.maxFileBytes.toNat]) rs
      else
        match TransferManifest.sign lib file rs.localCallsign rs.stationSeed with
        | .error _ => sendError "failed to sign the transfer manifest" rs
        | .ok manifest =>
          match fromManifest lib (w.nowMs.toUInt32 ^^^ 0x5f5f5f5f) manifest ((fileName path).getD "file.bin")
              "application/octet-stream" defaultBlockSize rs.stationSeed with
          | none => sendError "could not build the offer (file too large?)" rs
          | some offer =>
            let out := Sender.new offer rs.filexferPolicy.timeouts w.nowMs
            callTx lib mode ⟨out.2,file,offer,recipient⟩ out rs

def onTxFrame (frame : FxFrame) (rs : RuntimeControlState) : RuntimeControlState :=
  match rs.fileTx with
  | none => rs
  | some fx =>
    if frame.transferId = fx.offer.transferId then callTx lib mode fx (fx.sender.apply frame w.nowMs) rs
    else callTx lib mode fx ([],fx.sender) rs

def onTxCancel (transferId : UInt32) (reason : Reason) (rs : RuntimeControlState) : RuntimeControlState :=
  if rs.fileTx.map (fun fx => fx.offer.transferId) = some transferId then
    ({ rs with fileTx := none } : RuntimeControlState).send (.fileFailed transferId "tx" (reasonText reason))
  else rs

end Sending

section Routing
variable (lib : Library) (mode : String)

def cancelTransfer (transferId : UInt32) (rs : RuntimeControlState) : RuntimeControlState :=
  let rs :=
    if rs.fileRx.map (fun fx => fx.offer.transferId) = some transferId then
      let rs := enqueueCtrl mode (FxFrame.encode (.fileCancel transferId .operatorCancel)) rs
      ({ rs with fileRx := none } : RuntimeControlState).send (.fileFailed transferId "rx" "operator-cancel")
    else rs
  match rs.fileTx with
  | some fx => if fx.offer.transferId = transferId then { driveTxActions lib mode fx fx.sender.cancel.1 rs with fileTx := none } else rs
  | none => rs

def pollTimeouts (w : World) (now : UInt64) (rs : RuntimeControlState) : RuntimeControlState :=
  let rs := match rs.fileTx with
    | none => rs
    | some fx => callTx lib mode fx (fx.sender.pollTimeout now) rs
  match rs.fileRx with
  | none => rs
  | some fx => callRx lib w mode fx (fx.receiver.pollTimeout now) rs

def onControlFrame (w : World) (assembled : Bytes) (rs : RuntimeControlState) : RuntimeControlState :=
  match FxFrame.decode assembled with
  | .ok (.fileOffer offer) => onOffer lib w mode offer rs
  | .ok (.fileCancel transferId reason) => onTxCancel transferId reason (onInboundCancel transferId reason rs)
  | .ok (.fileData ..) => rs
  | .ok frame => onTxFrame lib w mode frame rs
  | .error _ => rs

/- The worlds are those of the frames one fragment completes. -/
def routeInboundFragment (worlds : Nat → World) (bytes : Bytes) (segmentId : UInt16) (rs : RuntimeControlState) : RuntimeControlState :=
  let rs := { rs with filexferFramesRouted := saturatingAdd rs.filexferFramesRouted 1 }
  if rs.localCallsignValid = false then rs
  else if segmentId = fxControlSegmentId then
    match rs.filexferSar.ingest (worlds 0).instant fxControlSession bytes with
    | (.error _,sar) => { rs with filexferSar := sar }
    | (.ok completed,sar) =>
      completed.zipIdx.foldl (fun rs frame => onControlFrame lib mode (worlds frame.2) frame.1 rs) { rs with filexferSar := sar }
  else onBlockFragment lib (worlds 0) mode bytes rs

/- `link` is whatever the rest of the daemon does between two calls, handshakes among it, and
`drain` hands the queue to the transmitter. -/
inductive Event where
  | fragment (bytes : Bytes) (segmentId : UInt16)
  | acceptFile (transferId : UInt32)
  | rejectFile (transferId : UInt32)
  | cancelFile (transferId : UInt32)
  | sendFile (recipient path : String) (contents : Except String Bytes)
  | pollTimeouts (now : UInt64)
  | link (link : DaemonLink.RuntimeControlState)
  | drain

structure Call where
  event : Event
  mode : String
  worlds : Nat → World

def step (rs : RuntimeControlState) (call : Call) : RuntimeControlState :=
  match call.event with
  | .fragment bytes segmentId => routeInboundFragment lib call.mode call.worlds bytes segmentId rs
  | .acceptFile transferId => acceptOffer lib (call.worlds 0) call.mode transferId rs
  | .rejectFile transferId => rejectOffer lib (call.worlds 0) call.mode transferId rs
  | .cancelFile transferId => cancelTransfer lib call.mode transferId rs
  | .sendFile recipient path contents => sendFile lib (call.worlds 0) call.mode recipient path contents rs
  | .pollTimeouts now => pollTimeouts lib call.mode (call.worlds 0) now rs
  | .link link => { rs with toRuntimeControlState := link }
  | .drain => { rs with filexferTxQueue := [] }

end Routing

end OpenPulse.FileTransfers
