import OpenPulse.FxSessions

/-! A sender and a receiver of one transfer on a channel that loses, duplicates
and reorders. Whatever a session has transmitted may be heard by the other any
number of times at any later moment. The receiver's daemon adds frames of its
own: block acknowledgements, a refusal when it is busy, a cancel by its operator;
these may reach the sender with any content. The blocks layer and the
verification of the payload drive the receiver from outside. -/
namespace OpenPulse.FxProtocol
open ByteCodec Bitmap FxWire FxSessions Runs
open Sender (SenderSession)
open Receiver (ReceiverSession)

structure Net where
  -- the two sessions with everything they have put out, and the blocks reported to the receiver
  sender : SenderSession
  receiver : ReceiverSession
  senderLog : List FxAction
  receiverLog : List FxAction
  noted : List UInt16
  deriving DecidableEq, Repr

def transmitted (log : List FxAction) : List Bytes :=
  log.filterMap fun
    | .transmit frame => some frame
    | _ => none

def Net.air (net : Net) : List Bytes := transmitted net.senderLog ++ transmitted net.receiverLog

inductive Move where
  | senderHears (bytes : Bytes) (nowMs : UInt64)
  | blockAcked (blockIndex : UInt16) (complete : Bool) (missing : Bytes) (nowMs : UInt64)
  | refused (reason : Reason) (nowMs : UInt64)
  | cancelHeard (reason : Reason) (nowMs : UInt64)
  | senderTimeout (nowMs : UInt64)
  | senderCancel
  | receiverHears (bytes : Bytes)
  | accept (nowMs : UInt64)
  | reject (reason : Reason)
  | noted (blockIndex : UInt16) (nowMs : UInt64)
  | verified (status : CompleteStatus) (countersignature : Octets 64)
  | receiverTimeout (nowMs : UInt64)
  deriving DecidableEq, Repr

namespace Net

def senderActs (net : Net) (out : List FxAction × SenderSession) : Net :=
  { net with sender := out.2, senderLog := net.senderLog ++ out.1 }

def receiverActs (net : Net) (out : List FxAction × ReceiverSession) : Net :=
  { net with receiver := out.2, receiverLog := net.receiverLog ++ out.1 }

def heard (net : Net) (bytes : Bytes) : Option FxFrame :=
  if bytes ∈ net.air then
    match FxFrame.decode bytes with
    | .ok frame => some frame
    | .error _ => none
  else none

def step (net : Net) : Move → Net
  | .senderHears bytes nowMs =>
    match net.heard bytes with
    | some frame => net.senderActs (net.sender.apply frame nowMs)
    | none => net
  | .blockAcked blockIndex complete missing nowMs =>
    net.senderActs (net.sender.apply (.blockAck net.sender.transferId blockIndex complete missing) nowMs)
  | .refused reason nowMs => net.senderActs (net.sender.apply (.fileReject net.sender.transferId reason) nowMs)
  | .cancelHeard reason nowMs => net.senderActs (net.sender.apply (.fileCancel net.sender.transferId reason) nowMs)
  | .senderTimeout nowMs => net.senderActs (net.sender.pollTimeout nowMs)
  | .senderCancel => net.senderActs net.sender.cancel
  | .receiverHears bytes =>
    match net.heard bytes with
    | some frame => net.receiverActs (net.receiver.apply frame)
    | none => net
  | .accept nowMs => net.receiverActs (net.receiver.accept nowMs)
  | .reject reason => net.receiverActs (net.receiver.reject reason)
  | .noted blockIndex nowMs =>
    { net.receiverActs (net.receiver.noteBlockComplete blockIndex nowMs) with
      noted := if net.receiver.isReceiving then blockIndex::net.noted else net.noted }
  | .verified status countersignature => net.receiverActs (net.receiver.setVerifyResult status countersignature)
  | .receiverTimeout nowMs => net.receiverActs (net.receiver.pollTimeout nowMs)

end Net

def start (offer : FileOffer) (decision : Receiver.OfferDecision) (held : List Bool) (timeouts : Timeouts × Timeouts)
    (nowMs : UInt64 × UInt64) : Net where
  sender := (Sender.new offer timeouts.1 nowMs.1).2
  receiver := (Receiver.resume offer decision held timeouts.2 nowMs.2).2
  senderLog := (Sender.new offer timeouts.1 nowMs.1).1
  receiverLog := (Receiver.resume offer decision held timeouts.2 nowMs.2).1
  noted := []

def begun (log : List FxAction) : List Nat :=
  log.filterMap fun
    | .sendBlock block none => some block.toNat
    | _ => none

def isRetry (block : UInt16) : FxAction → Bool
  | .sendBlock b (some _) => b == block
  | _ => false

def retriesOf (block : UInt16) (log : List FxAction) : Nat := log.countP (isRetry block)

def isVerify : FxAction → Bool
  | .verify _ => true
  | _ => false

def verifies (log : List FxAction) : Nat := log.countP isVerify

def wanted (haveBitmap : Bytes) (n : Nat) : List Nat := (List.range n).filter fun i => !bitIsSet haveBitmap i

def Accepts (transferId : UInt32) (receiverLog : List FxAction) (haveBitmap : Bytes) : Prop :=
  .transmit (FxFrame.encode (.fileAccept transferId haveBitmap)) ∈ receiverLog

def Verified (transferId : UInt32) (receiverLog : List FxAction) : Prop :=
  .finished ⟨transferId,.received true⟩ ∈ receiverLog

@[simp] theorem begunAppend (xs ys : List FxAction) : begun (xs ++ ys) = begun xs ++ begun ys := List.filterMap_append
@[simp] theorem retriesOfAppend (block : UInt16) (xs ys : List FxAction) :
    retriesOf block (xs ++ ys) = retriesOf block xs + retriesOf block ys := List.countP_append
@[simp] theorem verifiesAppend (xs ys : List FxAction) : verifies (xs ++ ys) = verifies xs + verifies ys := List.countP_append

theorem wantedSucc (haveBitmap : Bytes) (n : Nat) :
    wanted haveBitmap (n + 1) = wanted haveBitmap n ++ (if bitIsSet haveBitmap n then [] else [n]) := by
  unfold wanted
  rw [List.range_succ, List.filter_append]
  cases held : bitIsSet haveBitmap n <;> simp [held]

theorem wantedPrefix (haveBitmap : Bytes) {m n : Nat} (le : m ≤ n) : wanted haveBitmap m <+: wanted haveBitmap n := by
  induction n, le using Nat.le_induction with
  | base => exact List.prefix_rfl
  | succ n _ ih =>
    rw [wantedSucc]
    exact ih.trans (List.prefix_append ..)

theorem skipHeldSpec {haveBitmap : Bytes} {n first : Nat} (inside : first ≤ n) :
    ∃ next, SenderSession.skipHeld (((List.range n).map (bitIsSet haveBitmap)).drop first) first = next ∧ first ≤ next ∧
      next ≤ n ∧ wanted haveBitmap next = wanted haveBitmap first ∧ (next < n → bitIsSet haveBitmap next = false) := by
  induction remaining : n - first generalizing first with
  | zero =>
    obtain rfl : first = n := by omega
    refine ⟨first,?_,Nat.le_refl _,Nat.le_refl _,rfl,fun before => absurd before (Nat.lt_irrefl _)⟩
    rw [List.drop_eq_nil_of_le (by simp)]
    rfl
  | succ k ih =>
    have here : first < n := by omega
    have cons : ((List.range n).map (bitIsSet haveBitmap)).drop first =
        bitIsSet haveBitmap first :: ((List.range n).map (bitIsSet haveBitmap)).drop (first + 1) := by
      rw [List.drop_eq_getElem_cons (by simpa using here)]
      simp
    rw [cons]
    cases held : bitIsSet haveBitmap first with
    | true =>
      obtain ⟨next,found,after,upTo,same,free⟩ := ih (show first + 1 ≤ n by omega) (by omega)
      refine ⟨next,found,by omega,upTo,?_,free⟩
      rw [same, wantedSucc, held, if_pos rfl, List.append_nil]
    | false => exact ⟨first,rfl,Nat.le_refl _,inside,rfl,fun _ => held⟩

section SenderSide
variable (transferId : UInt32) (blockCount : UInt16)

def SenderPhase (s : SenderSession) (log rlog : List FxAction) : Sender.State → Prop
  | .offering => begun log = [] ∧ (∀ c, retriesOf c log = 0) ∧ s.held = List.replicate blockCount.toNat false
  | .sending block => ∃ haveBitmap, Accepts transferId rlog haveBitmap ∧
      s.held = (List.range blockCount.toNat).map (bitIsSet haveBitmap) ∧ block < blockCount ∧
      begun log = wanted haveBitmap (block.toNat + 1) ∧ retriesOf block log = s.retries.toNat ∧
      ∀ c, block < c → retriesOf c log = 0
  | .awaitVerify => ∃ haveBitmap, Accepts transferId rlog haveBitmap ∧ begun log = wanted haveBitmap blockCount.toNat
  | .terminal => True

structure SenderHolds (s : SenderSession) (log rlog : List FxAction) : Prop where
  ids : s.transferId = transferId ∧ s.blockCount = blockCount ∧ s.maxBlockRetries = 4
  phase : SenderPhase transferId blockCount s log rlog s.state
  unsent : s.state ≠ .terminal → ∀ ok, .finished ⟨transferId,.sent ok⟩ ∉ log
  ordered : begun log = [] ∨
    ∃ haveBitmap, Accepts transferId rlog haveBitmap ∧ begun log <+: wanted haveBitmap blockCount.toNat
  retried : ∀ c, retriesOf c log ≤ 4
  sentAll : ∀ ok, .finished ⟨transferId,.sent ok⟩ ∈ log →
    ∃ haveBitmap, Accepts transferId rlog haveBitmap ∧ begun log = wanted haveBitmap blockCount.toNat
  sentVerified : .finished ⟨transferId,.sent true⟩ ∈ log → Verified transferId rlog

def Backed (rlog : List FxAction) : FxFrame → Prop
  | .fileAccept t haveBitmap => t = transferId → Accepts transferId rlog haveBitmap
  | .fileComplete t status _ => t = transferId → status.isOk = true → Verified transferId rlog
  | _ => True

end SenderSide

section SenderKeeps
variable {transferId : UInt32} {blockCount : UInt16} {s : SenderSession} {log rlog : List FxAction}

theorem senderHoldsMono {more : List FxAction} (holds : SenderHolds transferId blockCount s log rlog) :
    SenderHolds transferId blockCount s log (rlog ++ more) := by
  have accepts : ∀ {b}, Accepts transferId rlog b → Accepts transferId (rlog ++ more) b := List.mem_append_left more
  refine ⟨holds.ids,?_,holds.unsent,?_,holds.retried,?_,?_⟩
  · have phase := holds.phase
    revert phase
    cases s.state with
    | offering => exact id
    | sending block => exact fun ⟨b,sent,rest⟩ => ⟨b,accepts sent,rest⟩
    | awaitVerify => exact fun ⟨b,sent,rest⟩ => ⟨b,accepts sent,rest⟩
    | terminal => exact id
  · exact holds.ordered.imp id fun ⟨b,sent,rest⟩ => ⟨b,accepts sent,rest⟩
  · intro ok member
    obtain ⟨b,sent,rest⟩ := holds.sentAll ok member
    exact ⟨b,accepts sent,rest⟩
  · exact fun member => List.mem_append_left more (holds.sentVerified member)

theorem senderHoldsSilent (holds : SenderHolds transferId blockCount s log rlog) :
    SenderHolds transferId blockCount s (log ++ []) rlog := by rwa [List.append_nil]

theorem senderHoldsFinish (holds : SenderHolds transferId blockCount s log rlog) (lead : List FxAction) (result : TransferResult)
    (plain : begun lead = [] ∧ (∀ c, retriesOf c lead = 0) ∧ ∀ o, .finished o ∉ lead)
    (sent : ∀ ok, result = .sent ok →
      (∃ b, Accepts transferId rlog b ∧ begun log = wanted b blockCount.toNat) ∧ (ok = true → Verified transferId rlog)) :
    SenderHolds transferId blockCount { s with state := .terminal } (log ++ (lead ++ [.finished ⟨s.transferId,result⟩])) rlog := by
  have begunSame : begun (log ++ (lead ++ [.finished ⟨s.transferId,result⟩])) = begun log := by
    have last : begun [.finished ⟨s.transferId,result⟩] = [] := rfl
    rw [begunAppend, begunAppend, plain.1, last, List.append_nil, List.append_nil]
  have reported : ∀ {ok}, .finished ⟨transferId,.sent ok⟩ ∈ log ++ (lead ++ [.finished ⟨s.transferId,result⟩]) →
      .finished ⟨transferId,.sent ok⟩ ∈ log ∨ result = .sent ok := by
    intro ok member
    rcases List.mem_append.mp member with old | new
    · exact Or.inl old
    · rcases List.mem_append.mp new with before | last
      · exact absurd before (plain.2.2 _)
      · have same := List.mem_singleton.mp last
        simp only [FxAction.finished.injEq, Outcome.mk.injEq] at same
        exact Or.inr same.2.symm
  refine ⟨holds.ids,trivial,fun running => absurd rfl running,?_,?_,?_,?_⟩
  · rw [begunSame]
    exact holds.ordered
  · intro c
    rw [retriesOfAppend, retriesOfAppend, plain.2.1 c]
    simpa [retriesOf, isRetry] using holds.retried c
  · intro ok member
    rw [begunSame]
    rcases reported member with old | new
    · exact holds.sentAll ok old
    · exact (sent ok new).1
  · intro member
    rcases reported member with old | new
    · exact holds.sentVerified old
    · exact (sent true new).2 rfl

theorem senderHoldsFinished (holds : SenderHolds transferId blockCount s log rlog) {result : TransferResult}
    (unsent : ∀ ok, result ≠ .sent ok) :
    SenderHolds transferId blockCount (s.finish result).2 (log ++ (s.finish result).1) rlog :=
  senderHoldsFinish holds [] result (by simp [begun, retriesOf]) fun ok same => absurd same (unsent ok)

theorem senderHoldsGoOn (holds : SenderHolds transferId blockCount s log rlog) (running : s.state ≠ .terminal)
    {next : SenderSession} {new : List FxAction}
    (ids : next.transferId = transferId ∧ next.blockCount = blockCount ∧ next.maxBlockRetries = 4)
    (quiet : ∀ o, .finished o ∉ new) (phase : SenderPhase transferId blockCount next (log ++ new) rlog next.state)
    (ordered : ∃ b, Accepts transferId rlog b ∧ begun (log ++ new) <+: wanted b blockCount.toNat)
    (retried : ∀ c, retriesOf c (log ++ new) ≤ 4) : SenderHolds transferId blockCount next (log ++ new) rlog := by
  have unsent : ∀ ok, .finished ⟨transferId,.sent ok⟩ ∉ log ++ new := by
    intro ok member
    rcases List.mem_append.mp member with old | fresh
    · exact holds.unsent running ok old
    · exact quiet _ fresh
  exact ⟨ids,phase,fun _ => unsent,Or.inr ordered,retried,fun ok member => absurd member (unsent ok),
    fun member => absurd member (unsent true)⟩

theorem senderHoldsAdvance (holds : SenderHolds transferId blockCount s log rlog) (running : s.state ≠ .terminal)
    {haveBitmap : Bytes} {first : Nat} (inside : first ≤ blockCount.toNat) (accepted : Accepts transferId rlog haveBitmap)
    (ready : SenderSession)
    (ids : ready.transferId = transferId ∧ ready.blockCount = blockCount ∧ ready.maxBlockRetries = 4) (reset : ready.retries = 0)
    (held : ready.held = (List.range blockCount.toNat).map (bitIsSet haveBitmap))
    (begunBefore : begun log = wanted haveBitmap first)
    (fresh : ∀ c : UInt16, first ≤ c.toNat → retriesOf c log = 0) (nowMs : UInt64) :
    SenderHolds transferId blockCount (ready.advance (ready.nextUnheld first) nowMs).2
      (log ++ (ready.advance (ready.nextUnheld first) nowMs).1) rlog := by
  obtain ⟨next,found,after,upTo,passed,free⟩ := @skipHeldSpec haveBitmap _ _ inside
  have target : ready.nextUnheld first = next := by rw [SenderSession.nextUnheld, held, found]
  have blockBound := blockCount.toNat_lt
  rw [target, SenderSession.advance, ids.2.1]
  split
  next more =>
    have number : next.toUInt16.toNat = next := by simp; omega
    have grown : begun (log ++ [.sendBlock next.toUInt16 none, ready.progress next.toUInt16]) = wanted haveBitmap (next + 1) := by
      have last : begun [.sendBlock next.toUInt16 none, ready.progress next.toUInt16] = [next] := by
        simp [begun, SenderSession.progress, number]
      rw [begunAppend, begunBefore, last, wantedSucc, free more, passed]
      rfl
    have retriesSame : ∀ c, retriesOf c (log ++ [.sendBlock next.toUInt16 none, ready.progress next.toUInt16]) =
        retriesOf c log := by
      intro c
      simp [retriesOf, isRetry, SenderSession.progress]
    refine senderHoldsGoOn holds running ids (by simp [SenderSession.beginBlock, SenderSession.progress])
      ⟨haveBitmap,accepted,held,?_,?_,?_,?_⟩ ⟨haveBitmap,accepted,?_⟩ ?_
    · rw [UInt16.lt_iff_toNat_lt, number]
      exact more
    · rw [number]
      exact grown
    · change retriesOf next.toUInt16 (log ++ [.sendBlock next.toUInt16 none, ready.progress next.toUInt16]) = ready.retries.toNat
      rw [retriesSame, reset, fresh _ (by rw [number]; exact after)]
      rfl
    · intro c later
      rw [UInt16.lt_iff_toNat_lt, number] at later
      exact (retriesSame c).trans (fresh c (by omega))
    · change begun (log ++ [.sendBlock next.toUInt16 none, ready.progress next.toUInt16]) <+: _
      rw [grown]
      exact wantedPrefix haveBitmap more
    · intro c
      exact Nat.le_trans (Nat.le_of_eq (retriesSame c)) (holds.retried c)
  next done =>
    obtain rfl : next = blockCount.toNat := by omega
    have all : begun (log ++ [ready.progress blockCount]) = wanted haveBitmap blockCount.toNat := by
      have last : begun [ready.progress blockCount] = [] := rfl
      rw [begunAppend, begunBefore, last, List.append_nil, passed]
    refine senderHoldsGoOn holds running ⟨ids.1,rfl,ids.2.2⟩ (by simp [SenderSession.progress]) ⟨haveBitmap,accepted,all⟩
      ⟨haveBitmap,accepted,?_⟩ ?_
    · exact all ▸ List.prefix_rfl
    · intro c
      simpa [retriesOf, isRetry, SenderSession.progress] using holds.retried c

theorem senderHoldsAccept (holds : SenderHolds transferId blockCount s log rlog) (offering : s.state = .offering)
    {haveBitmap : Bytes} (accepted : Accepts transferId rlog haveBitmap) (nowMs : UInt64) :
    SenderHolds transferId blockCount (s.onAccept haveBitmap nowMs).2 (log ++ (s.onAccept haveBitmap nowMs).1) rlog := by
  have phase := holds.phase
  rw [offering] at phase
  obtain ⟨none,fresh,held⟩ := phase
  have marked : (s.markHeld haveBitmap).held = (List.range blockCount.toNat).map (bitIsSet haveBitmap) := by
    apply List.ext_getElem (by simp [SenderSession.markHeld, held])
    intro i left right
    have inside : i < blockCount.toNat := by simpa using right
    simp [SenderSession.markHeld, held, holds.ids.2.1, inside]
  exact senderHoldsAdvance holds (by simp [offering]) (Nat.zero_le _) accepted
    { s.markHeld haveBitmap with retries := 0 } holds.ids rfl marked none (fun c _ => fresh c) nowMs

theorem senderHoldsBlockAck (holds : SenderHolds transferId blockCount s log rlog) {block : UInt16}
    (sending : s.state = .sending block) (blockIndex : UInt16) (complete : Bool) (missing : Bytes) (nowMs : UInt64) :
    SenderHolds transferId blockCount (s.onBlockAck block blockIndex complete missing nowMs).2
      (log ++ (s.onBlockAck block blockIndex complete missing nowMs).1) rlog := by
  have phase := holds.phase
  rw [sending] at phase
  obtain ⟨b,accepted,held,inside,begunHere,retriedHere,later⟩ := phase
  rw [UInt16.lt_iff_toNat_lt] at inside
  unfold SenderSession.onBlockAck
  split
  · exact senderHoldsSilent holds
  · split
    · refine senderHoldsAdvance holds (by simp [sending]) (Nat.succ_le_of_lt inside) accepted { s with retries := 0 }
        holds.ids rfl held begunHere ?_ nowMs
      intro c after
      exact later c (UInt16.lt_iff_toNat_lt.mpr after)
    · split
      next left =>
        rw [holds.ids.2.2, UInt8.lt_iff_toNat_lt] at left
        have small : s.retries.toNat < 4 := left
        have begunSame : begun (log ++ [.sendBlock block (some missing)]) = begun log := by simp [begun]
        have counted : ∀ c, retriesOf c (log ++ [.sendBlock block (some missing)]) =
            retriesOf c log + if block = c then 1 else 0 := by
          intro c
          simp [retriesOf, isRetry, List.countP_cons]
        refine senderHoldsGoOn holds (by simp [sending]) holds.ids (by simp) ?_ ⟨b,accepted,?_⟩ ?_
        · simp only [SenderSession.armStall, sending]
          refine ⟨b,accepted,held,UInt16.lt_iff_toNat_lt.mpr inside,?_,?_,?_⟩
          · rw [begunSame, begunHere]
          · rw [counted, retriedHere, if_pos rfl, UInt8.toNat_add]
            simp only [UInt8.toNat_one]
            omega
          · intro c after
            have other : block ≠ c := by
              rintro rfl
              exact absurd after (by simp)
            rw [counted, later c after, if_neg other]
        · rw [begunSame, begunHere]
          exact wantedPrefix b inside
        · intro c
          rw [counted]
          split
          next same =>
            subst same
            omega
          next => exact holds.retried c
      next => exact senderHoldsFinished holds (by simp)

theorem senderHoldsApply (holds : SenderHolds transferId blockCount s log rlog) {frame : FxFrame}
    (backed : Backed transferId rlog frame) (nowMs : UInt64) :
    SenderHolds transferId blockCount (s.apply frame nowMs).2 (log ++ (s.apply frame nowMs).1) rlog := by
  unfold SenderSession.apply
  split
  · exact senderHoldsSilent holds
  next own =>
    have ours : frame.transferId = transferId := (not_not.mp own).trans holds.ids.1
    split
    · exact senderHoldsFinished holds (by simp)
    · split
      · exact senderHoldsFinished holds (by simp)
      next t haveBitmap _ offering _ => exact senderHoldsAccept holds offering (backed ours) nowMs
      next sending _ => exact senderHoldsBlockAck holds sending ..
      next t status sig _ awaiting _ =>
        have phase := holds.phase
        rw [awaiting] at phase
        refine senderHoldsFinish holds [] _ (by simp [begun, retriesOf]) ?_
        intro ok same
        refine ⟨phase,?_⟩
        intro good
        exact backed ours ((TransferResult.sent.inj same).trans good)
      · exact senderHoldsSilent holds

theorem senderHoldsTimeout (holds : SenderHolds transferId blockCount s log rlog) (nowMs : UInt64) :
    SenderHolds transferId blockCount (s.pollTimeout nowMs).2 (log ++ (s.pollTimeout nowMs).1) rlog := by
  unfold SenderSession.pollTimeout
  split
  · exact senderHoldsSilent holds
  · split
    · exact senderHoldsFinished holds (by simp)
    · exact senderHoldsFinished holds (by simp)
    next awaiting =>
      have phase := holds.phase
      rw [awaiting] at phase
      refine senderHoldsFinish holds [] _ (by simp [begun, retriesOf]) ?_
      rintro ok same
      obtain rfl := TransferResult.sent.inj same
      exact ⟨phase,by simp⟩
    · exact senderHoldsSilent holds

theorem senderHoldsCancel (holds : SenderHolds transferId blockCount s log rlog) :
    SenderHolds transferId blockCount s.cancel.2 (log ++ s.cancel.1) rlog := by
  unfold SenderSession.cancel
  split
  · exact senderHoldsSilent holds
  · exact senderHoldsFinish holds [.transmit _] _ (by simp [begun, retriesOf, isRetry]) (by simp)

end SenderKeeps

theorem encodeType {f g : FxFrame} (same : f.encode = g.encode) : f.frameType = g.frameType := by
  have tails := List.append_cancel_left same
  exact (List.cons.inj (List.cons.inj tails).2).1

section ReceiverSide
variable (transferId : UInt32) (blockCount : UInt16) (mask : List Bool)

def Accepted (log : List FxAction) : Prop := ∃ haveBitmap, Accepts transferId log haveBitmap

def FromReceiver (log : List FxAction) : FxFrame → Prop
  | .fileAccept t haveBitmap => t = transferId ∧ haveBitmap = Receiver.bitmapFromBools mask
  | .fileComplete _ status _ => .finished ⟨transferId,.received status.isOk⟩ ∈ log
  | .fileReject _ _ => True
  | _ => False

def ReceiverPhase (log : List FxAction) (doneCount : UInt16) : Receiver.State → Prop
  | .awaitingDecision => ¬ Accepted transferId log
  | .receiving => Accepted transferId log ∧ doneCount ≠ blockCount
  | .verifying => Accepted transferId log ∧ doneCount = blockCount
  | .terminal => True

def Settled (log : List FxAction) (doneCount : UInt16) : Prop :=
  -- the verification is issued once, exactly when an accepted transfer has every block
  verifies log = 1 ∧ Accepted transferId log ∧ doneCount = blockCount ∨
    verifies log = 0 ∧ ¬ (Accepted transferId log ∧ doneCount = blockCount)

structure ReceiverHolds (s : ReceiverSession) (log : List FxAction) (noted : List UInt16) : Prop where
  ids : s.transferId = transferId ∧ s.blockCount = blockCount ∧ s.held = mask
  size : s.blocksDone.length = blockCount.toNat
  counted : s.doneCount.toNat = s.blocksDone.countP id
  provenance : ∀ i < blockCount.toNat,
    s.blocksDone[i]? = some true ↔ mask[i]? = some true ∨ ∃ b ∈ noted, b.toNat = i
  phase : ReceiverPhase transferId blockCount log s.doneCount s.state
  settled : Settled transferId blockCount log s.doneCount
  receipts : ∀ ok, .finished ⟨transferId,.received ok⟩ ∈ log → Accepted transferId log ∧ s.doneCount = blockCount
  frames : ∀ bytes, .transmit bytes ∈ log → ∃ f : FxFrame, bytes = f.encode ∧ FromReceiver transferId mask log f

end ReceiverSide

section ReceiverKeeps
variable {transferId : UInt32} {blockCount : UInt16} {mask : List Bool} {s : ReceiverSession} {log : List FxAction}
  {noted : List UInt16}

theorem acceptedAppend {new : List FxAction}
    (none : ∀ b, .transmit (FxFrame.encode (.fileAccept transferId b)) ∉ new) :
    Accepted transferId (log ++ new) ↔ Accepted transferId log := by
  constructor
  · rintro ⟨b,member⟩
    rcases List.mem_append.mp member with old | fresh
    · exact ⟨b,old⟩
    · exact absurd fresh (none b)
  · rintro ⟨b,member⟩
    exact ⟨b,List.mem_append_left new member⟩

theorem fromReceiverMono {new : List FxAction} {f : FxFrame} (old : FromReceiver transferId mask log f) :
    FromReceiver transferId mask (log ++ new) f := by
  cases f with
  | fileComplete t status sig => exact List.mem_append_left new old
  | fileAccept => exact old
  | fileReject => exact old
  | fileOffer => exact old
  | fileData => exact old
  | blockAck => exact old
  | fileCancel => exact old

theorem framesAppend {new : List FxAction}
    (frames : ∀ bytes, .transmit bytes ∈ log → ∃ f : FxFrame, bytes = f.encode ∧ FromReceiver transferId mask log f)
    (added : ∀ bytes, .transmit bytes ∈ new → ∃ f : FxFrame, bytes = f.encode ∧ FromReceiver transferId mask (log ++ new) f) :
    ∀ bytes, .transmit bytes ∈ log ++ new → ∃ f : FxFrame, bytes = f.encode ∧ FromReceiver transferId mask (log ++ new) f := by
  intro bytes member
  rcases List.mem_append.mp member with old | fresh
  · obtain ⟨f,same,backed⟩ := frames bytes old
    exact ⟨f,same,fromReceiverMono backed⟩
  · exact added bytes fresh

theorem receiverHoldsSilent (holds : ReceiverHolds transferId blockCount mask s log noted) :
    ReceiverHolds transferId blockCount mask s (log ++ []) noted := by rwa [List.append_nil]

theorem receiverHoldsFinish (holds : ReceiverHolds transferId blockCount mask s log noted) (lead : List FxAction)
    (result : TransferResult) (quiet : verifies lead = 0 ∧ ∀ o, .finished o ∉ lead)
    (none : ∀ b, .transmit (FxFrame.encode (.fileAccept transferId b)) ∉ lead)
    (added : ∀ bytes, .transmit bytes ∈ lead →
      ∃ f : FxFrame, bytes = f.encode ∧ FromReceiver transferId mask (log ++ (lead ++ [.finished ⟨transferId,result⟩])) f)
    (receipt : ∀ ok, result = .received ok → Accepted transferId log ∧ s.doneCount = blockCount) :
    ReceiverHolds transferId blockCount mask { s with state := .terminal }
      (log ++ (lead ++ [.finished ⟨transferId,result⟩])) noted := by
  have accepted : Accepted transferId (log ++ (lead ++ [.finished ⟨transferId,result⟩])) ↔ Accepted transferId log := by
    apply acceptedAppend
    intro b member
    rcases List.mem_append.mp member with old | last
    · exact none b old
    · cases List.mem_singleton.mp last
  have verifiesSame : verifies (log ++ (lead ++ [.finished ⟨transferId,result⟩])) = verifies log := by
    have last : verifies [.finished ⟨transferId,result⟩] = 0 := rfl
    rw [verifiesAppend, verifiesAppend, quiet.1, last, Nat.add_zero]
  refine ⟨holds.ids,holds.size,holds.counted,holds.provenance,trivial,?_,?_,framesAppend holds.frames ?_⟩
  · unfold Settled
    rw [verifiesSame, accepted]
    exact holds.settled
  · intro ok member
    rw [accepted]
    rcases List.mem_append.mp member with old | fresh
    · exact holds.receipts ok old
    · rcases List.mem_append.mp fresh with before | last
      · exact absurd before (quiet.2 _)
      · have same := List.mem_singleton.mp last
        simp only [FxAction.finished.injEq, Outcome.mk.injEq, true_and] at same
        exact receipt ok same.symm
  · intro bytes member
    rcases List.mem_append.mp member with old | last
    · exact added bytes old
    · cases List.mem_singleton.mp last

theorem receiverHoldsAlone (holds : ReceiverHolds transferId blockCount mask s log noted) {result : TransferResult}
    (other : ∀ ok, result ≠ .received ok) :
    ReceiverHolds transferId blockCount mask { s with state := .terminal } (log ++ [.finished ⟨s.transferId,result⟩]) noted := by
  obtain rfl := holds.ids.1
  exact receiverHoldsFinish holds [] result (by simp [verifies]) (by simp) (by simp) fun ok same => absurd same (other ok)

theorem receiverHoldsRejectNow (holds : ReceiverHolds transferId blockCount mask s log noted) (reason : Reason) :
    ReceiverHolds transferId blockCount mask (s.rejectNow reason).2 (log ++ (s.rejectNow reason).1) noted := by
  obtain rfl := holds.ids.1
  refine receiverHoldsFinish holds [.transmit (FxFrame.encode (.fileReject s.transferId reason))] (.rejected reason)
    ⟨rfl,by simp⟩ ?_ ?_ (by simp)
  · intro b member
    have same := FxAction.transmit.inj (List.mem_singleton.mp member)
    exact absurd (encodeType same) (by simp [FxFrame.frameType])
  · intro bytes member
    exact ⟨_,FxAction.transmit.inj (List.mem_singleton.mp member),trivial⟩

theorem receiverHoldsVerified (holds : ReceiverHolds transferId blockCount mask s log noted) (status : CompleteStatus)
    (countersignature : Octets 64) :
    ReceiverHolds transferId blockCount mask (s.setVerifyResult status countersignature).2
      (log ++ (s.setVerifyResult status countersignature).1) noted := by
  obtain rfl := holds.ids.1
  unfold ReceiverSession.setVerifyResult
  split
  · exact receiverHoldsSilent holds
  next verifying =>
    have phase := holds.phase
    rw [not_not.mp verifying] at phase
    refine receiverHoldsFinish holds [.transmit (FxFrame.encode (.fileComplete s.transferId status countersignature))]
      (.received status.isOk) ⟨rfl,by simp⟩ ?_ ?_ fun _ _ => phase
    · intro b member
      have same := FxAction.transmit.inj (List.mem_singleton.mp member)
      exact absurd (encodeType same) (by simp [FxFrame.frameType])
    · intro bytes member
      exact ⟨_,FxAction.transmit.inj (List.mem_singleton.mp member),by simp [FromReceiver]⟩

theorem receiverHoldsVerifyWhenDone (s : ReceiverSession) {lead : List FxAction}
    (ids : s.transferId = transferId ∧ s.blockCount = blockCount ∧ s.held = mask)
    (size : s.blocksDone.length = blockCount.toNat) (counted : s.doneCount.toNat = s.blocksDone.countP id)
    (provenance : ∀ i < blockCount.toNat,
      s.blocksDone[i]? = some true ↔ mask[i]? = some true ∨ ∃ b ∈ noted, b.toNat = i)
    (receiving : s.state = .receiving) (accepted : Accepted transferId (log ++ lead)) (none : verifies (log ++ lead) = 0)
    (receipts : ∀ ok, .finished ⟨transferId,.received ok⟩ ∉ log ++ lead)
    (frames : ∀ bytes, .transmit bytes ∈ log ++ lead →
      ∃ f : FxFrame, bytes = f.encode ∧ FromReceiver transferId mask (log ++ lead) f) (nowMs : UInt64) :
    ReceiverHolds transferId blockCount mask (s.verifyWhenDone lead nowMs).2 (log ++ (s.verifyWhenDone lead nowMs).1) noted := by
  unfold ReceiverSession.verifyWhenDone
  rw [ids.2.1]
  split
  next done =>
    change ReceiverHolds transferId blockCount mask _ (log ++ (lead ++ [.verify s.transferId])) noted
    rw [← List.append_assoc]
    have still : Accepted transferId ((log ++ lead) ++ [.verify s.transferId]) := (acceptedAppend (by simp)).mpr accepted
    refine ⟨⟨ids.1,rfl,ids.2.2⟩,size,counted,provenance,⟨still,done⟩,Or.inl ⟨?_,still,done⟩,?_,framesAppend frames (by simp)⟩
    · rw [verifiesAppend, none]
      rfl
    · intro ok member
      rcases List.mem_append.mp member with old | last
      · exact absurd old (receipts ok)
      · cases List.mem_singleton.mp last
  next missing =>
    refine ⟨ids,size,counted,provenance,?_,Or.inr ⟨none,fun both => missing both.2⟩,fun ok member => absurd member (receipts ok),frames⟩
    rw [receiving]
    exact ⟨accepted,missing⟩

theorem noReceipt (holds : ReceiverHolds transferId blockCount mask s log noted)
    (pending : ¬ (Accepted transferId log ∧ s.doneCount = blockCount)) (ok : Bool) :
    .finished ⟨transferId,.received ok⟩ ∉ log := fun member => pending (holds.receipts ok member)

theorem noVerify (holds : ReceiverHolds transferId blockCount mask s log noted)
    (pending : ¬ (Accepted transferId log ∧ s.doneCount = blockCount)) : verifies log = 0 := by
  rcases holds.settled with ⟨-,done⟩ | ⟨none,-⟩
  · exact absurd done pending
  · exact none

theorem receiverHoldsBegin (holds : ReceiverHolds transferId blockCount mask s log noted) (deciding : s.state = .awaitingDecision)
    (nowMs : UInt64) :
    ReceiverHolds transferId blockCount mask (s.beginReceiving nowMs).2 (log ++ (s.beginReceiving nowMs).1) noted := by
  obtain rfl := holds.ids.1
  obtain rfl := holds.ids.2.2
  have phase := holds.phase
  rw [deciding] at phase
  have pending : ¬ (Accepted s.transferId log ∧ s.doneCount = blockCount) := fun both => phase both.1
  refine receiverHoldsVerifyWhenDone
    { s with state := .receiving, deadline := saturatingAdd nowMs s.timeouts.blockStallMs } ⟨rfl,holds.ids.2.1,rfl⟩ holds.size holds.counted holds.provenance rfl ?_ ?_ ?_
    (framesAppend holds.frames ?_) nowMs
  · exact ⟨Receiver.bitmapFromBools s.held,by simp [Accepts]⟩
  · rw [verifiesAppend, noVerify holds pending]
    rfl
  · intro ok member
    rcases List.mem_append.mp member with old | new
    · exact noReceipt holds pending ok old
    · simp [ReceiverSession.progress] at new
  · intro bytes member
    rcases List.mem_cons.mp member with first | rest
    · exact ⟨_,FxAction.transmit.inj first,rfl,rfl⟩
    · simp [ReceiverSession.progress] at rest

theorem countSetDone {flags : List Bool} {i : Nat} (missing : flags[i]? = some false) :
    (flags.set i true).countP id = flags.countP id + 1 := by
  obtain ⟨inside,vacant⟩ := List.getElem?_eq_some_iff.mp missing
  rw [List.countP_set inside]
  simp [vacant]

theorem receiverHoldsNoted (holds : ReceiverHolds transferId blockCount mask s log noted) (block : UInt16) (nowMs : UInt64) :
    ReceiverHolds transferId blockCount mask (s.noteBlockComplete block nowMs).2
      (log ++ (s.noteBlockComplete block nowMs).1) (if s.isReceiving then block::noted else noted) := by
  unfold ReceiverSession.noteBlockComplete
  split
  next other =>
    have idle : s.isReceiving = false := by simpa [ReceiverSession.isReceiving] using other
    rw [idle]
    exact receiverHoldsSilent holds
  next same =>
    have receiving : s.state = .receiving := not_not.mp same
    have busy : s.isReceiving = true := by simp [ReceiverSession.isReceiving, receiving]
    have phase := holds.phase
    rw [receiving] at phase
    have pending : ¬ (Accepted transferId log ∧ s.doneCount = blockCount) := fun both => phase.2 both.2
    rw [busy, if_pos rfl]
    -- A block already done, or out of range, changes nothing but the report.
    have onlyReported : (∀ i < blockCount.toNat, block.toNat = i → s.blocksDone[i]? = some true) →
        ReceiverHolds transferId blockCount mask s (log ++ []) (block::noted) := by
      intro known
      rw [List.append_nil]
      refine { holds with provenance := ?_ }
      intro i inside
      rw [holds.provenance i inside]
      constructor
      · exact Or.imp id fun ⟨b,member,position⟩ => ⟨b,List.mem_cons_of_mem _ member,position⟩
      · rintro (held | ⟨b,member,position⟩)
        · exact Or.inl held
        · rcases List.mem_cons.mp member with rfl | old
          · exact (holds.provenance i inside).mp (known i inside position)
          · exact Or.inr ⟨b,old,position⟩
    split
    next missing =>
      have inside : block.toNat < s.blocksDone.length := (List.getElem?_eq_some_iff.mp missing).1
      refine receiverHoldsVerifyWhenDone (s.markDone block nowMs) holds.ids
        (by simpa [ReceiverSession.markDone] using holds.size) ?_ ?_ receiving ?_ ?_ ?_
        (framesAppend holds.frames ?_) nowMs
      · have bound := List.countP_le_length (p := id) (l := s.blocksDone.set block.toNat true)
        have small := blockCount.toNat_lt
        rw [List.length_set, holds.size, countSetDone missing] at bound
        rw [ReceiverSession.markDone, countSetDone missing, UInt16.toNat_add, holds.counted]
        simp only [UInt16.toNat_one]
        omega
      · intro i here
        rw [ReceiverSession.markDone, List.getElem?_set]
        by_cases position : block.toNat = i
        · simp [position, show i < s.blocksDone.length by omega]
        · rw [if_neg position, holds.provenance i here]
          simp [position]
      · exact (acceptedAppend (by simp [ReceiverSession.progress])).mpr phase.1
      · rw [verifiesAppend, noVerify holds pending]
        rfl
      · intro ok member
        rcases List.mem_append.mp member with old | new
        · exact noReceipt holds pending ok old
        · simp [ReceiverSession.progress] at new
      · simp [ReceiverSession.progress]
    next done =>
      apply onlyReported
      rintro i - rfl
      exact done
    next outside =>
      apply onlyReported
      rintro i inside rfl
      rw [← holds.size] at inside
      simp [List.getElem?_eq_getElem inside] at outside

theorem receiverHoldsApply (holds : ReceiverHolds transferId blockCount mask s log noted) (frame : FxFrame) :
    ReceiverHolds transferId blockCount mask (s.apply frame).2 (log ++ (s.apply frame).1) noted := by
  unfold ReceiverSession.apply
  split
  · exact receiverHoldsSilent holds
  · split
    · split
      · exact receiverHoldsSilent holds
      · exact receiverHoldsAlone holds (by simp)
    · exact receiverHoldsSilent holds

theorem receiverHoldsTimeout (holds : ReceiverHolds transferId blockCount mask s log noted) (nowMs : UInt64) :
    ReceiverHolds transferId blockCount mask (s.pollTimeout nowMs).2 (log ++ (s.pollTimeout nowMs).1) noted := by
  unfold ReceiverSession.pollTimeout
  split
  · exact receiverHoldsSilent holds
  · split
    · exact receiverHoldsRejectNow holds .timeout
    · exact receiverHoldsAlone holds (by simp)
    · exact receiverHoldsAlone holds (by simp)
    · exact receiverHoldsSilent holds

theorem receiverHoldsAccept (holds : ReceiverHolds transferId blockCount mask s log noted) (nowMs : UInt64) :
    ReceiverHolds transferId blockCount mask (s.accept nowMs).2 (log ++ (s.accept nowMs).1) noted := by
  unfold ReceiverSession.accept
  split
  · exact receiverHoldsSilent holds
  next deciding => exact receiverHoldsBegin holds (not_not.mp deciding) nowMs

theorem receiverHoldsReject (holds : ReceiverHolds transferId blockCount mask s log noted) (reason : Reason) :
    ReceiverHolds transferId blockCount mask (s.reject reason).2 (log ++ (s.reject reason).1) noted := by
  unfold ReceiverSession.reject
  split
  · exact receiverHoldsSilent holds
  · exact receiverHoldsRejectNow holds reason

theorem encodeAcceptInj {t u : UInt32} {a b : Bytes}
    (same : FxFrame.encode (.fileAccept t a) = FxFrame.encode (.fileAccept u b)) : a = b := by
  have bodies := (List.cons.inj (List.cons.inj (List.append_cancel_left same)).2).2
  have rests := (List.append_inj bodies (by simp)).2
  exact (List.append_inj rests (by simp)).2

theorem acceptsOnly (holds : ReceiverHolds transferId blockCount mask s log noted) {haveBitmap : Bytes}
    (accepts : Accepts transferId log haveBitmap) : haveBitmap = Receiver.bitmapFromBools mask := by
  obtain ⟨f,same,backed⟩ := holds.frames _ accepts
  have kind := encodeType same
  cases f with
  | fileAccept t b =>
    obtain ⟨-,rfl⟩ := backed
    exact encodeAcceptInj same
  | fileComplete => simp [FxFrame.frameType] at kind
  | fileReject => simp [FxFrame.frameType] at kind
  | fileOffer => exact backed.elim
  | fileData => exact backed.elim
  | blockAck => exact backed.elim
  | fileCancel => exact backed.elim

theorem bitmapFromBoolsBit (bools : List Bool) (i : Nat) :
    bitIsSet (Receiver.bitmapFromBools bools) i = true ↔ bools[i]? = some true := by
  unfold Receiver.bitmapFromBools
  split
  next clear =>
    refine iff_of_false (by simp [bitIsSet]) ?_
    intro set
    have off := List.all_eq_true.mp clear true (List.mem_of_getElem? set)
    cases off
  next =>
    rw [bitIsSetOfFlags]
    cases bools[i]? <;> simp

theorem doneIff (holds : ReceiverHolds transferId blockCount mask s log noted) :
    s.doneCount = blockCount ↔
      ∀ i < blockCount.toNat, mask[i]? = some true ∨ ∃ b ∈ noted, b.toNat = i := by
  rw [← UInt16.toNat_inj, holds.counted, ← holds.size, List.countP_eq_length]
  constructor
  · intro all i inside
    rw [← holds.provenance i (by rw [← holds.size]; exact inside), List.getElem?_eq_getElem inside]
    exact congrArg some (all _ (List.getElem_mem inside))
  · intro all flag member
    obtain ⟨i,inside,rfl⟩ := List.getElem_of_mem member
    have done := (holds.provenance i (by rw [← holds.size]; exact inside)).mpr (all i inside)
    rw [List.getElem?_eq_getElem inside] at done
    exact Option.some.inj done

end ReceiverKeeps

structure Holds (transferId : UInt32) (blockCount : UInt16) (mask : List Bool) (net : Net) : Prop where
  sender : SenderHolds transferId blockCount net.sender net.senderLog net.receiverLog
  receiver : ReceiverHolds transferId blockCount mask net.receiver net.receiverLog net.noted
  senderFrames : ∀ bytes, .transmit bytes ∈ net.senderLog →
    ∃ f : FxFrame, bytes = f.encode ∧ (f.frameType = 1 ∨ f.frameType = 7)
  short : mask.length < 65536

section Both
variable {transferId : UInt32} {blockCount : UInt16} {mask : List Bool} {net : Net}

theorem bitmapShort (short : mask.length < 65536) : (Receiver.bitmapFromBools mask).length < 65536 := by
  unfold Receiver.bitmapFromBools
  split
  · simp
  · rw [ofFlagsLength]
    omega

theorem memTransmitted {log : List FxAction} {bytes : Bytes} (member : bytes ∈ transmitted log) : .transmit bytes ∈ log := by
  obtain ⟨a,inLog,same⟩ := List.mem_filterMap.mp member
  cases a with
  | transmit frame =>
    obtain rfl := Option.some.inj same
    exact inLog
  | sendBlock => cases same
  | prompt => cases same
  | verify => cases same
  | progress => cases same
  | finished => cases same

/- What comes off the air as an acceptance or a completion is what the receiver's
session has put there: the type byte separates the kinds and these two read back
exactly. -/
theorem heardBacked (holds : Holds transferId blockCount mask net) {bytes : Bytes} {g : FxFrame}
    (heard : net.heard bytes = some g) : Backed transferId net.receiverLog g := by
  unfold Net.heard at heard
  split at heard
  next onAir =>
    split at heard
    next frame decoded =>
      obtain rfl := Option.some.inj heard
      rcases List.mem_append.mp onAir with fromSender | fromReceiver
      · obtain ⟨f,rfl,kind⟩ := holds.senderFrames bytes (memTransmitted fromSender)
        rw [← FxFrame.decodeEncodeType decoded] at kind
        cases frame with
        | fileAccept => simp [FxFrame.frameType] at kind
        | fileComplete => simp [FxFrame.frameType] at kind
        | fileOffer => trivial
        | fileReject => trivial
        | fileData => trivial
        | blockAck => trivial
        | fileCancel => trivial
      · have sent := memTransmitted fromReceiver
        obtain ⟨f,rfl,backed⟩ := holds.receiver.frames bytes sent
        cases f with
        | fileAccept t b =>
          obtain ⟨rfl,rfl⟩ := backed
          rw [FxFrame.decodeFileAccept t (bitmapShort holds.short)] at decoded
          obtain rfl := Except.ok.inj decoded
          exact fun _ => sent
        | fileComplete t status sig =>
          rw [FxFrame.decodeFileComplete] at decoded
          obtain rfl := Except.ok.inj decoded
          intro _ good
          have receipt : .finished ⟨transferId,.received status.isOk⟩ ∈ net.receiverLog := backed
          rwa [good] at receipt
        | fileReject t reason =>
          rw [FxFrame.decodeFileReject] at decoded
          obtain rfl := Except.ok.inj decoded
          trivial
        | fileOffer => exact backed.elim
        | fileData => exact backed.elim
        | blockAck => exact backed.elim
        | fileCancel => exact backed.elim
    next => cases heard
  next => cases heard

theorem applyTransmitsNothing (s : SenderSession) (frame : FxFrame) (nowMs : UInt64) (bytes : Bytes) :
    .transmit bytes ∉ (s.apply frame nowMs).1 := by
  have advances : ∀ (s : SenderSession) next, .transmit bytes ∉ (s.advance next nowMs).1 := by
    intro s next
    unfold SenderSession.advance
    split
    · simp [SenderSession.beginBlock, SenderSession.progress]
    · simp [SenderSession.progress]
  have acks : ∀ block blockIndex complete missing, .transmit bytes ∉ (s.onBlockAck block blockIndex complete missing nowMs).1 := by
    intro block blockIndex complete missing
    unfold SenderSession.onBlockAck
    split
    · simp
    · split
      · exact advances _ _
      · split
        · simp
        · simp [SenderSession.finish]
  unfold SenderSession.apply
  split
  · simp
  · split
    · simp [SenderSession.finish]
    · split
      · simp [SenderSession.finish]
      · exact advances _ _
      · exact acks _ _ _ _
      · simp [SenderSession.finish]
      · simp

theorem timeoutTransmitsNothing (s : SenderSession) (nowMs : UInt64) (bytes : Bytes) :
    .transmit bytes ∉ (s.pollTimeout nowMs).1 := by
  unfold SenderSession.pollTimeout
  split
  · simp
  · split <;> simp [SenderSession.finish]

theorem senderFramesAppend {log new : List FxAction}
    (frames : ∀ bytes, .transmit bytes ∈ log → ∃ f : FxFrame, bytes = f.encode ∧ (f.frameType = 1 ∨ f.frameType = 7))
    (added : ∀ bytes, .transmit bytes ∈ new → ∃ f : FxFrame, bytes = f.encode ∧ (f.frameType = 1 ∨ f.frameType = 7)) :
    ∀ bytes, .transmit bytes ∈ log ++ new → ∃ f : FxFrame, bytes = f.encode ∧ (f.frameType = 1 ∨ f.frameType = 7) := by
  intro bytes member
  rcases List.mem_append.mp member with old | fresh
  · exact frames bytes old
  · exact added bytes fresh

theorem holdsSenderApply (holds : Holds transferId blockCount mask net) {frame : FxFrame}
    (backed : Backed transferId net.receiverLog frame) (nowMs : UInt64) :
    Holds transferId blockCount mask (net.senderActs (net.sender.apply frame nowMs)) where
  sender := senderHoldsApply holds.sender backed nowMs
  receiver := holds.receiver
  senderFrames := senderFramesAppend holds.senderFrames fun _ member => absurd member (applyTransmitsNothing _ _ _ _)
  short := holds.short

theorem holdsReceiverActs (holds : Holds transferId blockCount mask net) {out : List FxAction × ReceiverSession}
    {noted : List UInt16} (receiver : ReceiverHolds transferId blockCount mask out.2 (net.receiverLog ++ out.1) noted) :
    Holds transferId blockCount mask { net.receiverActs out with noted } where
  sender := senderHoldsMono holds.sender
  receiver := receiver
  senderFrames := holds.senderFrames
  short := holds.short

theorem holdsStep (net : Net) (move : Move) (holds : Holds transferId blockCount mask net) :
    Holds transferId blockCount mask (net.step move) := by
  cases move with
  | senderHears bytes nowMs =>
    simp only [Net.step]
    split
    next frame heard => exact holdsSenderApply holds (heardBacked holds heard) nowMs
    next => exact holds
  | blockAcked blockIndex complete missing nowMs => exact holdsSenderApply holds (by trivial) nowMs
  | refused reason nowMs => exact holdsSenderApply holds (by trivial) nowMs
  | cancelHeard reason nowMs => exact holdsSenderApply holds (by trivial) nowMs
  | senderTimeout nowMs =>
    exact ⟨senderHoldsTimeout holds.sender nowMs,holds.receiver,
      senderFramesAppend holds.senderFrames fun _ member => absurd member (timeoutTransmitsNothing _ _ _),holds.short⟩
  | senderCancel =>
    refine ⟨senderHoldsCancel holds.sender,holds.receiver,senderFramesAppend holds.senderFrames ?_,holds.short⟩
    intro bytes member
    unfold SenderSession.cancel at member
    split at member
    · simp at member
    · rcases List.mem_cons.mp member with first | rest
      · exact ⟨_,FxAction.transmit.inj first,Or.inr rfl⟩
      · simp [SenderSession.finish] at rest
  | receiverHears bytes =>
    simp only [Net.step]
    split
    next frame heard => exact holdsReceiverActs holds (receiverHoldsApply holds.receiver frame)
    next => exact holds
  | accept nowMs => exact holdsReceiverActs holds (receiverHoldsAccept holds.receiver nowMs)
  | reject reason => exact holdsReceiverActs holds (receiverHoldsReject holds.receiver reason)
  | noted blockIndex nowMs => exact holdsReceiverActs holds (receiverHoldsNoted holds.receiver blockIndex nowMs)
  | verified status countersignature =>
    exact holdsReceiverActs holds (receiverHoldsVerified holds.receiver status countersignature)
  | receiverTimeout nowMs => exact holdsReceiverActs holds (receiverHoldsTimeout holds.receiver nowMs)

theorem receiverStarts (offer : FileOffer) (decision : Receiver.OfferDecision) (held : List Bool) (timeouts : Timeouts)
    (nowMs : UInt64) :
    ReceiverHolds offer.transferId offer.blockCount (Receiver.heldMask offer held)
      (Receiver.resume offer decision held timeouts nowMs).2 (Receiver.resume offer decision held timeouts nowMs).1 [] := by
  have length : (Receiver.heldMask offer held).length = offer.blockCount.toNat := by simp [Receiver.heldMask]
  have waiting : ∀ deadline, ReceiverHolds offer.transferId offer.blockCount (Receiver.heldMask offer held)
      { transferId := offer.transferId, blockCount := offer.blockCount, state := .awaitingDecision,
        blocksDone := Receiver.heldMask offer held, doneCount := ((Receiver.heldMask offer held).countP id).toUInt16,
        timeouts := timeouts, deadline := deadline, held := Receiver.heldMask offer held } [] [] := by
    intro deadline
    have nothing : ¬ Accepted offer.transferId [] := by simp [Accepted, Accepts]
    refine ⟨⟨rfl,rfl,rfl⟩,length,?_,by simp,nothing,Or.inr ⟨rfl,fun both => nothing both.1⟩,by simp,by simp⟩
    have bound := List.countP_le_length (p := id) (l := Receiver.heldMask offer held)
    have small := offer.blockCount.toNat_lt
    rw [length] at bound
    simp only [Nat.toUInt16_eq, UInt16.toNat_ofNat']
    omega
  unfold Receiver.resume
  cases decision with
  | autoAccept => exact receiverHoldsBegin (waiting 0) rfl nowMs
  | reject reason => exact receiverHoldsRejectNow (waiting 0) reason
  | prompt =>
    have before := waiting (saturatingAdd nowMs timeouts.offerMs)
    have nothing : ¬ Accepted offer.transferId [.prompt offer.transferId] := by simp [Accepted, Accepts]
    exact ⟨before.ids,before.size,before.counted,before.provenance,nothing,Or.inr ⟨rfl,fun both => nothing both.1⟩,by simp,by simp⟩

theorem startHolds (offer : FileOffer) (decision : Receiver.OfferDecision) (held : List Bool) (timeouts : Timeouts × Timeouts)
    (nowMs : UInt64 × UInt64) :
    Holds offer.transferId offer.blockCount (Receiver.heldMask offer held) (start offer decision held timeouts nowMs) where
  sender := by
    refine ⟨⟨rfl,rfl,rfl⟩,⟨rfl,fun _ => rfl,rfl⟩,?_,Or.inl rfl,fun c => Nat.zero_le 4,?_,?_⟩
    · intro _ ok member
      simp [start, Sender.new] at member
    · intro ok member
      simp [start, Sender.new] at member
    · intro member
      simp [start, Sender.new] at member
  receiver := receiverStarts offer decision held timeouts.2 nowMs.2
  senderFrames := by
    intro bytes member
    exact ⟨_,FxAction.transmit.inj (List.mem_singleton.mp member),Or.inl rfl⟩
  short := by
    have small := offer.blockCount.toNat_lt
    simp only [Receiver.heldMask, List.length_map, List.length_range]
    exact small

end Both

def AllHeld (offer : FileOffer) (held : List Bool) (net : Net) : Prop :=
  -- every block of the offer was on disk at the start or has been reported complete
  ∀ i < offer.blockCount.toNat, (Receiver.heldMask offer held)[i]? = some true ∨ ∃ b ∈ net.noted, b.toNat = i

theorem transferSafety (offer : FileOffer) (decision : Receiver.OfferDecision) (held : List Bool)
    (timeouts : Timeouts × Timeouts) (nowMs : UInt64 × UInt64) (moves : List Move) :
    let net := run Net.step (start offer decision held timeouts nowMs) moves
    (.finished ⟨offer.transferId,.sent true⟩ ∈ net.senderLog →
      .finished ⟨offer.transferId,.received true⟩ ∈ net.receiverLog ∧ AllHeld offer held net) ∧
    (begun net.senderLog = [] ∨ ∃ haveBitmap, Accepts offer.transferId net.receiverLog haveBitmap ∧
      begun net.senderLog <+: wanted haveBitmap offer.blockCount.toNat) ∧
    (∀ ok, .finished ⟨offer.transferId,.sent ok⟩ ∈ net.senderLog → ∃ haveBitmap,
      Accepts offer.transferId net.receiverLog haveBitmap ∧
        begun net.senderLog = wanted haveBitmap offer.blockCount.toNat) ∧
    (∀ haveBitmap, Accepts offer.transferId net.receiverLog haveBitmap →
      ∀ i, bitIsSet haveBitmap i = true ↔ (Receiver.heldMask offer held)[i]? = some true) ∧
    (∀ block, retriesOf block net.senderLog ≤ 4) ∧
    (verifies net.receiverLog = 1 ↔ Accepted offer.transferId net.receiverLog ∧ AllHeld offer held net) ∧
    verifies net.receiverLog ≤ 1 := by
  intro net
  have holds : Holds offer.transferId offer.blockCount (Receiver.heldMask offer held) net :=
    runInvariant holdsStep (startHolds offer decision held timeouts nowMs) moves
  have done : net.receiver.doneCount = offer.blockCount ↔ AllHeld offer held net := doneIff holds.receiver
  refine ⟨?_,holds.sender.ordered,holds.sender.sentAll,?_,holds.sender.retried,?_,?_⟩
  · intro sent
    have receipt := holds.sender.sentVerified sent
    exact ⟨receipt,done.mp (holds.receiver.receipts true receipt).2⟩
  · intro haveBitmap accepts i
    rw [acceptsOnly holds.receiver accepts]
    exact bitmapFromBoolsBit _ i
  · rw [← done]
    rcases holds.receiver.settled with ⟨once,both⟩ | ⟨none,not⟩
    · exact iff_of_true once both
    · exact iff_of_false (by omega) not
  · rcases holds.receiver.settled with ⟨once,-⟩ | ⟨none,-⟩ <;> omega

def twoBlockOffer : FileOffer := { oneBlockOffer with fileSize := 1500, blockCount := 2 }

def verifiedMoves : List Move :=
  [.senderHears (FxFrame.encode (.fileAccept 7 [1])) 10, .blockAcked 1 false [1] 20, .noted 1 30, .blockAcked 1 true [] 40,
    .verified .verifiedOk (filled 64 0), .senderHears (FxFrame.encode (.fileComplete 7 .verifiedOk (filled 64 0))) 50]

theorem transferSafetyResumed :
    let net := run Net.step (start twoBlockOffer .autoAccept [true] ({},{}) (0,0)) verifiedMoves
    .finished ⟨7,.sent true⟩ ∈ net.senderLog ∧ begun net.senderLog = [1] ∧ retriesOf 1 net.senderLog = 1 ∧
      .finished ⟨7,.received true⟩ ∈ net.receiverLog ∧ AllHeld twoBlockOffer [true] net := by
  have sent : .finished ⟨7,.sent true⟩ ∈
      (run Net.step (start twoBlockOffer .autoAccept [true] ({},{}) (0,0)) verifiedMoves).senderLog := by decide +kernel
  exact ⟨sent,by decide +kernel,by decide +kernel,
    (transferSafety twoBlockOffer .autoAccept [true] ({},{}) (0,0) verifiedMoves).1 sent⟩

end OpenPulse.FxProtocol
