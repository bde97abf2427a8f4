import OpenPulse.Hex
import OpenPulse.Tables

/-! The session reactor: `openpulse-core/src/hpx.rs`. Each state has a handler that
says where an event leads; `dispatch` makes every change of a session, and logs it.
The reactor holds any number of sessions under keys of its own making. -/
namespace OpenPulse.Hpx
open Tables

inductive HpxState where
  | idle | discovery | training | activeTransfer | recovery | relayActive | teardown | failed
  deriving DecidableEq, Repr

inductive HpxEvent where
  | startSession | localCancel | remoteTeardown | discoveryOk | discoveryTimeout | trainingOk | trainingTimeout
  | transferComplete | transferError | qualityDrop | recoveryOk | recoveryTimeout | relayRouteFound | relayPolicyFailed
  | signatureVerificationFailed
  deriving DecidableEq, Repr

inductive HpxReasonCode where
  | success | timeout | signatureFailure | qualityDrop | retriesExhausted | recoveryTimeout | relayPolicyFailed
  | recoveryAttemptsExhausted | manifestVerificationFailed | unclassified
  deriving DecidableEq, Repr

structure HpxTransition where
  timestampMs : UInt64
  fromState : HpxState
  toState : HpxState
  event : HpxEvent
  reasonCode : HpxReasonCode
  reasonString : String
  sessionId : Option String
  deriving DecidableEq, Repr

inductive HpxStateError where
  | invalidTransition (state : HpxState) (event : HpxEvent)
  | terminalState
  | sessionNotFound (key : String)
  deriving DecidableEq, Repr

structure SessionState where
  state : HpxState
  sessionId : Option String
  recoveryAttempts : UInt8
  arqRetriesForChunk : UInt8
  transitions : List HpxTransition
  deriving DecidableEq, Repr

def SessionState.new : SessionState := ⟨.idle,none,0,0,[]⟩

abbrev HandlerResult := Except HpxStateError (HpxState × HpxReasonCode × String)

def ok (target : HpxState) (msg : String) : HandlerResult := .ok (target,.success,msg)

def failInv (state : HpxState) (event : HpxEvent) : HandlerResult := .error (.invalidTransition state event)

def handleIdle : HpxEvent → HandlerResult
  | .startSession => ok .discovery "Session started"
  | event => failInv .idle event

def handleDiscovery : HpxEvent → HandlerResult
  | .discoveryOk => ok .training "Peer discovered and verified"
  | .discoveryTimeout => .ok (.failed,.timeout,"Discovery timeout")
  | .signatureVerificationFailed => .ok (.failed,.signatureFailure,"Discovery signature verification failed")
  | .localCancel => ok .teardown "Local cancel during discovery"
  | event => failInv .discovery event

def handleTraining : HpxEvent → HandlerResult
  | .trainingOk => ok .activeTransfer "Training complete"
  | .relayRouteFound => ok .relayActive "Relay route activated"
  | .trainingTimeout => .ok (.failed,.timeout,"Training timeout")
  | .signatureVerificationFailed => .ok (.failed,.signatureFailure,"Training authentication failed")
  | .localCancel => ok .teardown "Local cancel during training"
  | event => failInv .training event

def handleActiveTransfer : HpxEvent → HandlerResult
  | .transferComplete => ok .teardown "Transfer complete"
  | .transferError => .ok (.recovery,.retriesExhausted,"Transfer error, entering recovery")
  | .qualityDrop => .ok (.recovery,.qualityDrop,"Quality drop, entering recovery")
  | .relayRouteFound => ok .relayActive "Relay route activated"
  | .signatureVerificationFailed => .ok (.recovery,.signatureFailure,"Frame authentication failed")
  | .localCancel => ok .teardown "Local cancel during transfer"
  | .remoteTeardown => ok .teardown "Remote teardown requested"
  | event => failInv .activeTransfer event

def handleRecovery : HpxEvent → HandlerResult
  | .recoveryOk => ok .activeTransfer "Recovery complete"
  | .recoveryTimeout => .ok (.failed,.recoveryTimeout,"Recovery timeout")
  | .relayRouteFound => ok .relayActive "Relay route activated"
  | .localCancel => ok .teardown "Local cancel during recovery"
  | event => failInv .recovery event

def handleRelayActive : HpxEvent → HandlerResult
  | .transferComplete => ok .teardown "Relay transfer complete"
  | .trainingOk => ok .activeTransfer "Relay path confirmed, entering active transfer"
  | .transferError => .ok (.recovery,.retriesExhausted,"Relay transfer error")
  | .relayPolicyFailed => .ok (.failed,.relayPolicyFailed,"Relay policy failed")
  | .localCancel => ok .teardown "Local cancel during relay transfer"
  | event => failInv .relayActive event

def handleTeardown : HpxEvent → HandlerResult
  | .transferComplete => ok .idle "Teardown succeeded"
  | .transferError => .ok (.failed,.manifestVerificationFailed,"Teardown failed")
  | event => failInv .teardown event

def handle : HpxState → HpxEvent → HandlerResult
  | .idle => handleIdle
  | .discovery => handleDiscovery
  | .training => handleTraining
  | .activeTransfer => handleActiveTransfer
  | .recovery => handleRecovery
  | .relayActive => handleRelayActive
  | .teardown => handleTeardown
  | .failed => fun _ => .error .terminalState

def maxRecoveryAttempts : UInt8 := 4
def maxArqRetriesPerChunk : UInt8 := 6

def saturatingSucc (n : UInt8) : UInt8 := if n = 255 then 255 else n + 1

def wireId (timestampMs : UInt64) (length : Nat) : String :=
  String.ofList (Hex.padded 16 timestampMs.toNat ++ '-' :: Hex.padded 4 length)

namespace SessionState

def started (s : SessionState) (event : HpxEvent) (timestampMs : UInt64) : Option String :=
  if event = .startSession ∧ s.sessionId.isNone then some (wireId timestampMs s.transitions.length) else s.sessionId

/-- The session after an accepted event; the early return of the source is the first branch. -/
def advance (s : SessionState) (event : HpxEvent) (timestampMs : UInt64) (toState : HpxState) (reasonCode : HpxReasonCode)
    (reasonString : String) : HpxTransition × SessionState :=
  let sessionId := s.started event timestampMs
  let entered := toState = .recovery ∧ s.state ≠ .recovery
  let recoveryAttempts := if entered then saturatingSucc s.recoveryAttempts else s.recoveryAttempts
  if entered ∧ maxRecoveryAttempts < recoveryAttempts then
    let transition : HpxTransition := ⟨timestampMs,s.state,.failed,event,.recoveryAttemptsExhausted,
      "Recovery attempts exhausted",sessionId⟩
    (transition,{ s with state := .failed, sessionId, recoveryAttempts, transitions := s.transitions ++ [transition] })
  else
    let arqRetriesForChunk := if toState = .activeTransfer ∨ toState = .idle then 0 else s.arqRetriesForChunk
    let sessionId := if toState = .idle then none else sessionId
    let recoveryAttempts := if toState = .idle then 0 else recoveryAttempts
    let transition : HpxTransition := ⟨timestampMs,s.state,toState,event,reasonCode,reasonString,sessionId⟩
    (transition,{ state := toState, sessionId, recoveryAttempts, arqRetriesForChunk
                  transitions := s.transitions ++ [transition] })

def dispatch (s : SessionState) (event : HpxEvent) (timestampMs : UInt64) :
    Except HpxStateError (HpxTransition × SessionState) :=
  match handle s.state event with
  | .error err => .error err
  | .ok (toState,reasonCode,reasonString) => .ok (s.advance event timestampMs toState reasonCode reasonString)

end SessionState

structure HpxReactor where
  sessions : Table String SessionState
  nextId : UInt64

/- No allocation exceeds `isize::MAX` bytes, so no table holds more entries than
this: an insertion into a full one stops the program. -/
def maxEntries : Nat := 0x7FFFFFFFFFFFFFFF

namespace HpxReactor
variable (r : HpxReactor)

def new : HpxReactor := ⟨∅,0⟩

def sessionKey (id : UInt64) : String := String.ofList ('s' :: Hex.padded 8 id.toNat)

def createSession : Option (String × HpxReactor) :=
  if Tables.size r.sessions < maxEntries then
    some (sessionKey r.nextId,{ sessions := r.sessions.insert (sessionKey r.nextId) .new, nextId := r.nextId + 1 })
  else none

def recordArqRetry (key : String) : Except HpxStateError Unit × HpxReactor :=
  match r.sessions.lookup key with
  | none => (.error (.sessionNotFound key),r)
  | some s =>
    let retried := { s with arqRetriesForChunk := saturatingSucc s.arqRetriesForChunk }
    let after := { r with sessions := r.sessions.insert key retried }
    if maxArqRetriesPerChunk < retried.arqRetriesForChunk then (.error (.invalidTransition s.state .transferError),after)
    else (.ok (),after)

def resetArqRetryCounter (key : String) : HpxReactor :=
  match r.sessions.lookup key with
  | none => r
  | some s => { r with sessions := r.sessions.insert key { s with arqRetriesForChunk := 0 } }

def dispatch (key : String) (event : HpxEvent) (timestampMs : UInt64) : Except HpxStateError HpxTransition × HpxReactor :=
  match r.sessions.lookup key with
  | none => (.error (.sessionNotFound key),r)
  | some s =>
    match s.dispatch event timestampMs with
    | .error err => (.error err,r)
    | .ok (transition,s') => (.ok transition,{ r with sessions := r.sessions.insert key s' })

end HpxReactor

end OpenPulse.Hpx
