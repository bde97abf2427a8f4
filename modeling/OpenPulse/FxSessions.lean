import OpenPulse.Runs
import OpenPulse.Bitmap
import OpenPulse.FxWire

/-! The two state machines of a file transfer: `openpulse-filexfer/src/sender.rs`
and `receiver.rs`. They perform no I/O: a call answers with the actions its
caller must carry out. Frames of another transfer, or frames the state does not
expect, are ignored. -/
namespace OpenPulse.FxSessions
open ByteCodec Bitmap FxWire Runs

structure Timeouts where
  offerMs : UInt64 := 60000
  blockStallMs : UInt64 := 120000
  verifyMs : UInt64 := 60000
  deriving DecidableEq, Repr

inductive TransferResult where
  | sent (peerVerified : Bool)
  | received (verified : Bool)
  | rejected (reason : Reason)
  | cancelled (reason : Reason)
  | failed (reason : Reason)
  deriving DecidableEq, Repr

structure Outcome where
  transferId : UInt32
  result : TransferResult
  deriving DecidableEq, Repr

inductive FxAction where
  | transmit (frame : Bytes)
  | sendBlock (blockIndex : UInt16) (missing : Option Bytes)
  | prompt (transferId : UInt32)
  | verify (transferId : UInt32)
  | progress (transferId : UInt32) (blocksDone blocksTotal : UInt16)
  | finished (outcome : Outcome)
  deriving DecidableEq, Repr

def FxAction.isFinished : FxAction → Bool
  | .finished _ => true
  | _ => false

def saturatingAdd (a b : UInt64) : UInt64 := UInt64.ofNat (min (a.toNat + b.toNat) (2 ^ 64 - 1))

namespace Sender

def defaultMaxBlockRetries : UInt8 := 4

inductive State where
  | offering
  | sending (block : UInt16)
  | awaitVerify
  | terminal
  deriving DecidableEq, Repr

structure SenderSession where
  transferId : UInt32
  blockCount : UInt16
  state : State
  timeouts : Timeouts
  deadline : UInt64
  retries : UInt8
  maxBlockRetries : UInt8
  held : List Bool
  deriving DecidableEq, Repr

def new (offer : FileOffer) (timeouts : Timeouts) (nowMs : UInt64) : List FxAction × SenderSession :=
  ([.transmit (FxFrame.encode (.fileOffer offer))],
    { transferId := offer.transferId
      blockCount := offer.blockCount
      state := .offering
      timeouts := timeouts
      deadline := saturatingAdd nowMs timeouts.offerMs
      retries := 0
      maxBlockRetries := defaultMaxBlockRetries
      held := List.replicate offer.blockCount.toNat false })

namespace SenderSession

def isTerminal (s : SenderSession) : Bool := s.state == .terminal

def progress (s : SenderSession) (blocksDone : UInt16) : FxAction := .progress s.transferId blocksDone s.blockCount

def finish (s : SenderSession) (result : TransferResult) : List FxAction × SenderSession :=
  ([.finished ⟨s.transferId,result⟩],{ s with state := .terminal })

def armStall (s : SenderSession) (nowMs : UInt64) : SenderSession :=
  { s with deadline := saturatingAdd nowMs s.timeouts.blockStallMs }

def beginBlock (s : SenderSession) (block : UInt16) (missing : Option Bytes) (nowMs : UInt64) : List FxAction × SenderSession :=
  ([.sendBlock block missing, s.progress block],armStall { s with state := .sending block } nowMs)

-- The loop of `next_unheld`: past the held blocks at the front.
def skipHeld : List Bool → Nat → Nat
  | true::rest, i => skipHeld rest (i + 1)
  | _, i => i

def nextUnheld (s : SenderSession) (start : Nat) : Nat := skipHeld (s.held.drop start) start

def markHeld (s : SenderSession) (haveBitmap : Bytes) : SenderSession :=
  { s with held := s.held.mapIdx fun i h => h || (decide (i < s.blockCount.toNat) && bitIsSet haveBitmap i) }

def advance (s : SenderSession) (next : Nat) (nowMs : UInt64) : List FxAction × SenderSession :=
  if next < s.blockCount.toNat then s.beginBlock next.toUInt16 none nowMs
  else
    ([s.progress s.blockCount],
      { s with state := .awaitVerify, deadline := saturatingAdd nowMs s.timeouts.verifyMs })

def onAccept (s : SenderSession) (haveBitmap : Bytes) (nowMs : UInt64) : List FxAction × SenderSession :=
  let s := { s.markHeld haveBitmap with retries := 0 }
  s.advance (s.nextUnheld 0) nowMs

def onBlockAck (s : SenderSession) (block blockIndex : UInt16) (complete : Bool) (missing : Bytes) (nowMs : UInt64) :
    List FxAction × SenderSession :=
  if blockIndex ≠ block then ([],s)
  else if complete then
    let s := { s with retries := 0 }
    s.advance (s.nextUnheld (block.toNat + 1)) nowMs
  else if s.retries < s.maxBlockRetries then
    ([.sendBlock block (some missing)],armStall { s with retries := s.retries + 1 } nowMs)
  else s.finish (.failed .stall)

-- A FileCancel is taken before the state is looked at.
def apply (s : SenderSession) (frame : FxFrame) (nowMs : UInt64) : List FxAction × SenderSession :=
  if frame.transferId ≠ s.transferId then ([],s)
  else
    match frame with
    | .fileCancel _ reason => s.finish (.cancelled reason)
    | frame =>
      match s.state, frame with
      | .offering, .fileReject _ reason => s.finish (.rejected reason)
      | .offering, .fileAccept _ haveBitmap => s.onAccept haveBitmap nowMs
      | .sending block, .blockAck _ blockIndex complete missing => s.onBlockAck block blockIndex complete missing nowMs
      | .awaitVerify, .fileComplete _ status _ => s.finish (.sent status.isOk)
      | _, _ => ([],s)

def pollTimeout (s : SenderSession) (nowMs : UInt64) : List FxAction × SenderSession :=
  if s.isTerminal || nowMs < s.deadline then ([],s)
  else
    match s.state with
    | .offering => s.finish (.failed .timeout)
    | .sending _ => s.finish (.failed .stall)
    | .awaitVerify => s.finish (.sent false)
    | .terminal => ([],s)

def cancel (s : SenderSession) : List FxAction × SenderSession :=
  if s.isTerminal then ([],s)
  else
    let out := s.finish (.cancelled .operatorCancel)
    (.transmit (FxFrame.encode (.fileCancel s.transferId .operatorCancel)) :: out.1,out.2)

end SenderSession

inductive Call where
  | apply (frame : FxFrame) (nowMs : UInt64)
  | pollTimeout (nowMs : UInt64)
  | cancel
  deriving DecidableEq, Repr

def call (s : SenderSession) : Call → List FxAction × SenderSession
  | .apply frame nowMs => s.apply frame nowMs
  | .pollTimeout nowMs => s.pollTimeout nowMs
  | .cancel => s.cancel

end Sender

namespace Receiver

inductive OfferDecision where
  | autoAccept
  | prompt
  | reject (reason : Reason)
  deriving DecidableEq, Repr

inductive State where
  | awaitingDecision | receiving | verifying | terminal
  deriving DecidableEq, Repr

structure ReceiverSession where
  transferId : UInt32
  blockCount : UInt16
  state : State
  blocksDone : List Bool
  doneCount : UInt16
  timeouts : Timeouts
  deadline : UInt64
  held : List Bool
  deriving DecidableEq, Repr

def bitmapFromBools (bools : List Bool) : Bytes := if bools.all (! ·) then [] else ofFlags bools

namespace ReceiverSession

def isTerminal (s : ReceiverSession) : Bool := s.state == .terminal
def isReceiving (s : ReceiverSession) : Bool := s.state == .receiving

def progress (s : ReceiverSession) : FxAction := .progress s.transferId s.doneCount s.blockCount

def rejectNow (s : ReceiverSession) (reason : Reason) : List FxAction × ReceiverSession :=
  ([.transmit (FxFrame.encode (.fileReject s.transferId reason)), .finished ⟨s.transferId,.rejected reason⟩],
    { s with state := .terminal })

def verifyWhenDone (s : ReceiverSession) (actions : List FxAction) (nowMs : UInt64) : List FxAction × ReceiverSession :=
  if s.doneCount = s.blockCount then
    (actions ++ [.verify s.transferId],
      { s with state := .verifying, deadline := saturatingAdd nowMs s.timeouts.verifyMs })
  else (actions,s)

def beginReceiving (s : ReceiverSession) (nowMs : UInt64) : List FxAction × ReceiverSession :=
  let s := { s with state := .receiving, deadline := saturatingAdd nowMs s.timeouts.blockStallMs }
  s.verifyWhenDone [.transmit (FxFrame.encode (.fileAccept s.transferId (bitmapFromBools s.held))), s.progress] nowMs

def accept (s : ReceiverSession) (nowMs : UInt64) : List FxAction × ReceiverSession :=
  if s.state ≠ .awaitingDecision then ([],s) else s.beginReceiving nowMs

def reject (s : ReceiverSession) (reason : Reason) : List FxAction × ReceiverSession :=
  if s.state ≠ .awaitingDecision then ([],s) else s.rejectNow reason

def markDone (s : ReceiverSession) (blockIndex : UInt16) (nowMs : UInt64) : ReceiverSession :=
  { s with
    blocksDone := s.blocksDone.set blockIndex.toNat true
    doneCount := s.doneCount + 1
    deadline := saturatingAdd nowMs s.timeouts.blockStallMs }

def noteBlockComplete (s : ReceiverSession) (blockIndex : UInt16) (nowMs : UInt64) : List FxAction × ReceiverSession :=
  if s.state ≠ .receiving then ([],s)
  else
    match s.blocksDone[blockIndex.toNat]? with
    | some false =>
      (s.markDone blockIndex nowMs).verifyWhenDone [(s.markDone blockIndex nowMs).progress] nowMs
    | some true => ([],s)
    | none => ([],s)

def setVerifyResult (s : ReceiverSession) (status : CompleteStatus) (countersignature : Octets 64) :
    List FxAction × ReceiverSession :=
  if s.state ≠ .verifying then ([],s)
  else
    ([.transmit (FxFrame.encode (.fileComplete s.transferId status countersignature)),
        .finished ⟨s.transferId,.received status.isOk⟩],
      { s with state := .terminal })

def apply (s : ReceiverSession) (frame : FxFrame) : List FxAction × ReceiverSession :=
  if frame.transferId ≠ s.transferId then ([],s)
  else
    match frame with
    | .fileCancel _ reason =>
      if s.isTerminal then ([],s) else ([.finished ⟨s.transferId,.cancelled reason⟩],{ s with state := .terminal })
    | _ => ([],s)

def pollTimeout (s : ReceiverSession) (nowMs : UInt64) : List FxAction × ReceiverSession :=
  if s.isTerminal || nowMs < s.deadline then ([],s)
  else
    match s.state with
    | .awaitingDecision => s.rejectNow .timeout
    | .receiving | .verifying => ([.finished ⟨s.transferId,.failed .stall⟩],{ s with state := .terminal })
    | .terminal => ([],s)

end ReceiverSession

def heldMask (offer : FileOffer) (held : List Bool) : List Bool :=
  (List.range offer.blockCount.toNat).map fun i => held[i]?.getD false

def resume (offer : FileOffer) (decision : OfferDecision) (held : List Bool) (timeouts : Timeouts) (nowMs : UInt64) :
    List FxAction × ReceiverSession :=
  let mask := heldMask offer held
  let s : ReceiverSession :=
    { transferId := offer.transferId
      blockCount := offer.blockCount
      state := .awaitingDecision
      blocksDone := mask
      doneCount := (mask.countP id).toUInt16
      timeouts := timeouts
      deadline := 0
      held := mask }
  match decision with
  | .reject reason => s.rejectNow reason
  | .autoAccept => s.beginReceiving nowMs
  | .prompt => ([.prompt s.transferId],{ s with deadline := saturatingAdd nowMs timeouts.offerMs })

def new (offer : FileOffer) (decision : OfferDecision) (timeouts : Timeouts) (nowMs : UInt64) :
    List FxAction × ReceiverSession := resume offer decision [] timeouts nowMs

inductive Call where
  | accept (nowMs : UInt64)
  | reject (reason : Reason)
  | noteBlockComplete (blockIndex : UInt16) (nowMs : UInt64)
  | setVerifyResult (status : CompleteStatus) (countersignature : Octets 64)
  | apply (frame : FxFrame)
  | pollTimeout (nowMs : UInt64)
  deriving DecidableEq, Repr

def call (s : ReceiverSession) : Call → List FxAction × ReceiverSession
  | .accept nowMs => s.accept nowMs
  | .reject reason => s.reject reason
  | .noteBlockComplete blockIndex nowMs => s.noteBlockComplete blockIndex nowMs
  | .setVerifyResult status countersignature => s.setVerifyResult status countersignature
  | .apply frame => s.apply frame
  | .pollTimeout nowMs => s.pollTimeout nowMs

end Receiver

namespace Sender
open SenderSession

theorem finishCloses (s : SenderSession) (result : TransferResult) :
    Closes isTerminal FxAction.isFinished (s.finish result) :=
  Or.inr ⟨[],.finished ⟨s.transferId,result⟩,rfl,by simp,rfl,rfl⟩

theorem silentCloses {s : SenderSession} (running : s.isTerminal = false) : Closes isTerminal FxAction.isFinished ([],s) :=
  Or.inl ⟨by simp,running⟩

theorem advanceCloses (s : SenderSession) (next : Nat) (nowMs : UInt64) :
    Closes isTerminal FxAction.isFinished (s.advance next nowMs) := by
  unfold advance
  split
  · exact Or.inl ⟨by simp [beginBlock, FxAction.isFinished, progress],rfl⟩
  · exact Or.inl ⟨by simp [FxAction.isFinished, progress],rfl⟩

theorem onBlockAckCloses {s : SenderSession} (running : s.isTerminal = false) (block blockIndex : UInt16) (complete : Bool)
    (missing : Bytes) (nowMs : UInt64) :
    Closes isTerminal FxAction.isFinished (s.onBlockAck block blockIndex complete missing nowMs) := by
  unfold onBlockAck
  split
  · exact silentCloses running
  · split
    · exact advanceCloses ..
    · split
      · exact Or.inl ⟨by simp [FxAction.isFinished],running⟩
      · exact finishCloses ..

theorem applyCloses {s : SenderSession} (running : s.isTerminal = false) (frame : FxFrame) (nowMs : UInt64) :
    Closes isTerminal FxAction.isFinished (s.apply frame nowMs) := by
  unfold SenderSession.apply
  split
  · exact silentCloses running
  · split
    · exact finishCloses ..
    · split
      · exact finishCloses ..
      · exact advanceCloses ..
      · exact onBlockAckCloses running ..
      · exact finishCloses ..
      · exact silentCloses running

theorem pollTimeoutCloses {s : SenderSession} (running : s.isTerminal = false) (nowMs : UInt64) :
    Closes isTerminal FxAction.isFinished (s.pollTimeout nowMs) := by
  unfold SenderSession.pollTimeout
  split
  · exact silentCloses running
  · split
    · exact finishCloses ..
    · exact finishCloses ..
    · exact finishCloses ..
    · exact silentCloses running

theorem callCloses (s : SenderSession) (c : Call) (running : s.isTerminal = false) :
    Closes isTerminal FxAction.isFinished (call s c) := by
  cases c with
  | apply frame nowMs => exact applyCloses running frame nowMs
  | pollTimeout nowMs => exact pollTimeoutCloses running nowMs
  | cancel =>
    simp only [call, SenderSession.cancel, running, Bool.false_eq_true, if_false]
    exact Or.inr ⟨[_],.finished ⟨s.transferId,.cancelled .operatorCancel⟩,rfl,by simp [FxAction.isFinished],rfl,rfl⟩

/-- A FileCancel of this transfer, applied after the end. -/
def LateCancel (s : SenderSession) : Call → Prop
  | .apply (.fileCancel transferId _) _ => s.isTerminal = true ∧ transferId = s.transferId
  | _ => False

theorem terminalApply {s : SenderSession} (finished : s.isTerminal = true) (frame : FxFrame) (nowMs : UInt64) :
    s.apply frame nowMs = ([],s) ∨
      ∃ reason, frame = .fileCancel s.transferId reason ∧ s.apply frame nowMs = s.finish (.cancelled reason) := by
  have state : s.state = .terminal := by simpa [isTerminal] using finished
  unfold SenderSession.apply
  split
  · exact Or.inl rfl
  next own =>
    split
    next t reason => exact Or.inr ⟨reason,by simpa [FxFrame.transferId] using own,rfl⟩
    next => exact Or.inl (by simp only [state])

theorem terminalCall {s : SenderSession} (finished : s.isTerminal = true) (c : Call) :
    (call s c).2.isTerminal = true ∧ ((call s c).1 = [] ↔ ¬ LateCancel s c) := by
  cases c with
  | pollTimeout nowMs => simp [call, SenderSession.pollTimeout, finished, LateCancel]
  | cancel => simp [call, SenderSession.cancel, finished, LateCancel]
  | apply frame nowMs =>
    simp only [call]
    rcases terminalApply finished frame nowMs with silent | ⟨reason,rfl,again⟩
    · refine ⟨by rw [silent]; exact finished,?_⟩
      rw [silent]
      refine iff_of_true rfl ?_
      intro late
      cases frame <;> simp only [LateCancel] at late
      case fileCancel t reason =>
        have talks : s.apply (.fileCancel t reason) nowMs = s.finish (.cancelled reason) := by
          simp [SenderSession.apply, FxFrame.transferId, late.2]
        rw [talks] at silent
        cases silent
    · rw [again]
      exact ⟨rfl,by simp [SenderSession.finish, LateCancel, finished]⟩

theorem endsOnceIff (offer : FileOffer) (timeouts : Timeouts) (nowMs : UInt64) (calls : List Call) :
    EndsOnce FxAction.isFinished ((new offer timeouts nowMs).1 ++ outputs call (new offer timeouts nowMs).2 calls) ↔
      EveryStep (fun s c => (call s c).2) (fun s c => ¬ LateCancel s c) (new offer timeouts nowMs).2 calls := by
  rw [endsOnceQuiet (by simp [new, FxAction.isFinished]),
    outputsEndOnce callCloses (fun s c finished => (terminalCall finished c).1) rfl]
  have same : ∀ s c, (s.isTerminal = true → (call s c).1 = []) ↔ ¬ LateCancel s c := by
    intro s c
    constructor
    · intro silent late
      have finished : s.isTerminal = true := by
        cases c with
        | apply frame nowMs => cases frame <;> first | exact late.1 | exact late.elim
        | pollTimeout nowMs => exact late.elim
        | cancel => exact late.elim
      exact (terminalCall finished c).2.mp (silent finished) late
    · intro onTime finished
      exact (terminalCall finished c).2.mpr onTime
  simp only [same]

end Sender

namespace Receiver
open ReceiverSession

theorem verifyWhenDoneCloses {s : ReceiverSession} {actions : List FxAction} (running : s.isTerminal = false)
    (quiet : ∀ a ∈ actions, a.isFinished = false) (nowMs : UInt64) :
    Closes isTerminal FxAction.isFinished (s.verifyWhenDone actions nowMs) := by
  unfold verifyWhenDone
  split
  · refine Or.inl ⟨?_,rfl⟩
    intro a member
    rcases List.mem_append.mp member with old | new
    · exact quiet a old
    · obtain rfl := List.mem_singleton.mp new
      rfl
  · exact Or.inl ⟨quiet,running⟩

theorem rejectNowCloses (s : ReceiverSession) (reason : Reason) :
    Closes isTerminal FxAction.isFinished (s.rejectNow reason) :=
  Or.inr ⟨[_],.finished ⟨s.transferId,.rejected reason⟩,rfl,by simp [FxAction.isFinished],rfl,rfl⟩

theorem beginReceivingCloses (s : ReceiverSession) (nowMs : UInt64) :
    Closes isTerminal FxAction.isFinished (s.beginReceiving nowMs) :=
  verifyWhenDoneCloses rfl (by simp [FxAction.isFinished, progress]) nowMs

theorem silentCloses {s : ReceiverSession} (running : s.isTerminal = false) : Closes isTerminal FxAction.isFinished ([],s) :=
  Or.inl ⟨by simp,running⟩

theorem aloneCloses (s : ReceiverSession) (outcome : Outcome) :
    Closes isTerminal FxAction.isFinished ([.finished outcome],{ s with state := .terminal }) :=
  Or.inr ⟨[],.finished outcome,rfl,by simp,rfl,rfl⟩

theorem callCloses (s : ReceiverSession) (c : Call) (running : s.isTerminal = false) :
    Closes isTerminal FxAction.isFinished (call s c) := by
  cases c with
  | accept nowMs =>
    simp only [call, ReceiverSession.accept]
    split
    · exact silentCloses running
    · exact beginReceivingCloses s nowMs
  | reject reason =>
    simp only [call, ReceiverSession.reject]
    split
    · exact silentCloses running
    · exact rejectNowCloses s reason
  | noteBlockComplete blockIndex nowMs =>
    simp only [call, ReceiverSession.noteBlockComplete]
    split
    · exact silentCloses running
    · split
      · apply verifyWhenDoneCloses
        · exact running
        · simp [FxAction.isFinished, progress]
      · exact silentCloses running
      · exact silentCloses running
  | setVerifyResult status countersignature =>
    simp only [call, ReceiverSession.setVerifyResult]
    split
    · exact silentCloses running
    · exact Or.inr ⟨[_],.finished ⟨s.transferId,.received status.isOk⟩,rfl,by simp [FxAction.isFinished],rfl,rfl⟩
  | apply frame =>
    simp only [call, ReceiverSession.apply, running, Bool.false_eq_true, if_false]
    split
    · exact silentCloses running
    · split
      · exact aloneCloses s _
      · exact silentCloses running
  | pollTimeout nowMs =>
    simp only [call, ReceiverSession.pollTimeout]
    split
    · exact silentCloses running
    · split
      · exact rejectNowCloses s .timeout
      · exact aloneCloses s _
      · exact aloneCloses s _
      · exact silentCloses running

theorem terminalCall {s : ReceiverSession} (finished : s.isTerminal = true) (c : Call) : call s c = ([],s) := by
  have state : s.state = .terminal := by simpa [isTerminal] using finished
  cases c with
  | accept nowMs => simp [call, ReceiverSession.accept, state]
  | reject reason => simp [call, ReceiverSession.reject, state]
  | noteBlockComplete blockIndex nowMs => simp [call, ReceiverSession.noteBlockComplete, state]
  | setVerifyResult status countersignature => simp [call, ReceiverSession.setVerifyResult, state]
  | apply frame =>
    simp only [call, ReceiverSession.apply, finished, if_true]
    split
    · rfl
    · split
      · rfl
      · rfl
  | pollTimeout nowMs => simp [call, ReceiverSession.pollTimeout, finished]

theorem outputsTerminal {s : ReceiverSession} (finished : s.isTerminal = true) (calls : List Call) :
    outputs call s calls = [] := by
  induction calls with
  | nil => rfl
  | cons c calls ih => simp [outputs, terminalCall finished c, ih]

theorem resumeCloses (offer : FileOffer) (decision : OfferDecision) (held : List Bool) (timeouts : Timeouts) (nowMs : UInt64) :
    Closes isTerminal FxAction.isFinished (resume offer decision held timeouts nowMs) := by
  unfold resume
  cases decision with
  | autoAccept => exact beginReceivingCloses ..
  | prompt => exact Or.inl ⟨by simp [FxAction.isFinished],rfl⟩
  | reject reason => exact rejectNowCloses ..

theorem endsOnce (offer : FileOffer) (decision : OfferDecision) (held : List Bool) (timeouts : Timeouts) (nowMs : UInt64)
    (calls : List Call) :
    EndsOnce FxAction.isFinished ((resume offer decision held timeouts nowMs).1 ++
      outputs call (resume offer decision held timeouts nowMs).2 calls) := by
  rcases resumeCloses offer decision held timeouts nowMs with ⟨quiet,running⟩ | ⟨before,a,split,quiet,ends,finished⟩
  · rw [endsOnceQuiet quiet, outputsEndOnce callCloses (fun s c finished => by rw [terminalCall finished c]; exact finished) running]
    have silent : ∀ s es, EveryStep (fun s c => (call s c).2) (fun s c => s.isTerminal = true → (call s c).1 = []) s es := by
      intro s es
      induction es generalizing s with
      | nil => trivial
      | cons c es ih => exact ⟨fun finished => by rw [terminalCall finished c],ih _⟩
    exact silent _ calls
  · rw [split, endsOnceFinal quiet ends]
    exact outputsTerminal finished calls

end Receiver

/- A sender ends once exactly when no FileCancel of its transfer reaches it after
its end; a receiver always ends once. -/
theorem sessionsEndOnce (offer : FileOffer) (timeouts : Timeouts) (nowMs : UInt64) (sent : List Sender.Call)
    (decision : Receiver.OfferDecision) (held : List Bool) (received : List Receiver.Call) :
    (EndsOnce FxAction.isFinished
        ((Sender.new offer timeouts nowMs).1 ++ outputs Sender.call (Sender.new offer timeouts nowMs).2 sent) ↔
      EveryStep (fun s c => (Sender.call s c).2) (fun s c => ¬ Sender.LateCancel s c)
        (Sender.new offer timeouts nowMs).2 sent) ∧
    EndsOnce FxAction.isFinished
      ((Receiver.resume offer decision held timeouts nowMs).1 ++
        outputs Receiver.call (Receiver.resume offer decision held timeouts nowMs).2 received) :=
  ⟨Sender.endsOnceIff offer timeouts nowMs sent,Receiver.endsOnce offer decision held timeouts nowMs received⟩

def oneBlockOffer : FileOffer where
  transferId := 7
  flags := 0
  fileSize := 100
  sha256 := filled 32 1
  blockSize := 1024
  blockCount := 1
  senderId := ⟨"W1AW",by decide⟩
  name := "a.txt"
  mime := "text/plain"
  signature := filled 64 2

theorem cancelsCross :
    let s := (Sender.new oneBlockOffer {} 0).2
    outputs Sender.call s [.cancel, .apply (.fileCancel 7 .operatorCancel) 5] =
        [.transmit (FxFrame.encode (.fileCancel 7 .operatorCancel)), .finished ⟨7,.cancelled .operatorCancel⟩,
          .finished ⟨7,.cancelled .operatorCancel⟩] ∧
      ¬ EndsOnce FxAction.isFinished ((Sender.new oneBlockOffer {} 0).1 ++
        outputs Sender.call s [.cancel, .apply (.fileCancel 7 .operatorCancel) 5]) := by
  intro s
  have twice : outputs Sender.call s [.cancel, .apply (.fileCancel 7 .operatorCancel) 5] =
      [.transmit (FxFrame.encode (.fileCancel 7 .operatorCancel)), .finished ⟨7,.cancelled .operatorCancel⟩,
        .finished ⟨7,.cancelled .operatorCancel⟩] := rfl
  refine ⟨twice,?_⟩
  rw [twice]
  intro once
  have late := once [_,_] (.finished ⟨7,.cancelled .operatorCancel⟩) [.finished ⟨7,.cancelled .operatorCancel⟩] rfl rfl
  cases late

end OpenPulse.FxSessions
