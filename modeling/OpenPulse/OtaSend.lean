import OpenPulse.FreeRs
import OpenPulse.KeyedTx
import OpenPulse.OtaRate

/-! Sending one message at the rate the peer leads: `ota_send_with_ptt` and `run_ota_retry` of
`openpulse-daemon/src/server.rs` with what they call of `openpulse-modem/src/engine.rs`. What the key
and the transmission answer, and which acknowledgements are decoded in the window behind it, is
given from outside. -/
namespace OpenPulse.OtaSend
open ByteCodec OtaRate
open OpenPulse.Engine (Frame)
open KeyedTx (KeyedTxError)

inductive OtaAttempt where
  | delivered | nack | timeout | pttFault
  deriving DecidableEq, Repr

inductive OtaSendStop where
  | delivered | peerSilent | retriesExhausted | noSession | pttFault
  deriving DecidableEq, Repr

def maxRetries : Nat := 3
def maxSilentAckWindows : Nat := 2

section Policy
variable {S A : Type} (attempt : Nat → S → Option A × S) (outcome : A → OtaAttempt)

def retryFrom : Nat → Nat → Nat → S → OtaSendStop × List A × S
  | 0, _, _, s => (.retriesExhausted,[],s)
  | left + 1, i, timeouts, s =>
    match attempt i s with
    | (none,s) => (.noSession,[],s)
    | (some a,s) =>
      match outcome a with
      | .delivered => (.delivered,[a],s)
      | .pttFault => (.pttFault,[a],s)
      | .nack =>
        let (stop,rest,s) := retryFrom left (i + 1) 0 s
        (stop,a :: rest,s)
      | .timeout =>
        if maxSilentAckWindows ≤ timeouts + 1 then (.peerSilent,[a],s)
        else
          let (stop,rest,s) := retryFrom left (i + 1) (timeouts + 1) s
          (stop,a :: rest,s)

def runOtaRetry (s : S) : OtaSendStop × List A × S := retryFrom attempt outcome (maxRetries + 1) 0 0 s

variable {attempt outcome}

theorem retryLength (left i timeouts : Nat) (s : S) : (retryFrom attempt outcome left i timeouts s).2.1.length ≤ left := by
  induction left generalizing i timeouts s with
  | zero => exact Nat.le_refl 0
  | succ left ih =>
    rw [retryFrom]
    split
    · exact Nat.zero_le _
    · split
      · exact Nat.succ_le_succ (Nat.zero_le left)
      · exact Nat.succ_le_succ (Nat.zero_le left)
      · exact Nat.succ_le_succ (ih _ _ _)
      · split
        · exact Nat.succ_le_succ (Nat.zero_le left)
        · exact Nat.succ_le_succ (ih _ _ _)

variable (outcome) in
def FewSilent (timeouts : Nat) (attempts : List A) : Prop := ∀ k n,
  (∀ j < n, (attempts[k + j]?).map outcome = some .timeout) → (if k = 0 then timeouts else 0) + n ≤ maxSilentAckWindows

theorem fewNone {timeouts : Nat} (within : timeouts ≤ maxSilentAckWindows) : FewSilent outcome timeouts [] := by
  intro k n silent
  have zero : n = 0 := by
    by_contra some
    cases silent 0 (Nat.pos_of_ne_zero some)
  split <;> omega

theorem fewBehind {next : Nat} {a : A} {rest : List A} (few : FewSilent outcome next rest) {k n : Nat}
    (silent : ∀ j < n, ((a :: rest)[k + 1 + j]?).map outcome = some .timeout) : n ≤ maxSilentAckWindows := by
  have behind := few k n fun j inside => by
    have here := silent j inside
    rwa [show k + 1 + j = k + j + 1 by omega, List.getElem?_cons_succ] at here
  omega

theorem fewCons {timeouts next : Nat} (within : timeouts ≤ maxSilentAckWindows) {a : A} (carries : outcome a = .timeout → next = timeouts + 1)
    {rest : List A} (few : FewSilent outcome next rest) : FewSilent outcome timeouts (a :: rest) := by
  intro k n silent
  cases k with
  | succ k =>
    have behind := fewBehind few silent
    rwa [if_neg (Nat.succ_ne_zero k), Nat.zero_add]
  | zero =>
    rw [if_pos rfl]
    cases n with
    | zero => exact within
    | succ n =>
      have counted := carries (Option.some.inj (silent 0 (Nat.succ_pos n)))
      have onward := few 0 n fun j inside => by
        have here := silent (j + 1) (Nat.succ_lt_succ inside)
        rwa [← Nat.add_assoc, List.getElem?_cons_succ] at here
      rw [if_pos rfl] at onward
      omega

theorem fewOther {timeouts : Nat} (within : timeouts ≤ maxSilentAckWindows) {a : A} (other : outcome a ≠ .timeout) {rest : List A}
    (few : FewSilent outcome 0 rest) : FewSilent outcome timeouts (a :: rest) :=
  fewCons within (fun timeout => absurd timeout other) few

theorem retrySilent {left i timeouts : Nat} (below : timeouts < maxSilentAckWindows) (s : S) :
    FewSilent outcome timeouts (retryFrom attempt outcome left i timeouts s).2.1 := by
  induction left generalizing i timeouts s with
  | zero => exact fewNone (Nat.le_of_lt below)
  | succ left ih =>
    have within := Nat.le_of_lt below
    have start : FewSilent outcome 0 ([] : List A) := fewNone (Nat.zero_le _)
    rw [retryFrom]
    split
    · exact fewNone within
    · split
      · rename_i delivered
        exact fewOther within (by rw [delivered]; decide) start
      · rename_i fault
        exact fewOther within (by rw [fault]; decide) start
      · rename_i nack
        exact fewOther within (by rw [nack]; decide) (ih (by decide) _)
      · split
        · exact fewCons within (fun _ => rfl) (fewNone below)
        · rename_i more
          exact fewCons within (fun _ => rfl) (ih (Nat.not_le.mp more) _)

theorem retryReaches {I : S → Prop} {left i timeouts : Nat} {s : S} (start : I s)
    (keeps : ∀ j, i ≤ j → j + 1 < i + left → ∀ s s' a, I s → attempt j s = (some a,s') → outcome a ≠ .delivered → I s') :
    ∀ a ∈ (retryFrom attempt outcome left i timeouts s).2.1, ∃ j s, I s ∧ (attempt j s).1 = some a := by
  induction left generalizing i timeouts s with
  | zero => exact fun a member => absurd member List.not_mem_nil
  | succ left ih =>
    cases made : attempt i s with
    | mk result s' =>
      rw [retryFrom, made]
      cases result with
      | none => exact fun a member => absurd member List.not_mem_nil
      | some a =>
        have here : ∃ j s, I s ∧ (attempt j s).1 = some a := ⟨i,s,start,congrArg Prod.fst made⟩
        have only : ∀ b ∈ [a], ∃ j s, I s ∧ (attempt j s).1 = some b := fun b member => by rwa [List.mem_singleton.mp member]
        have onward : outcome a ≠ .delivered → ∀ timeouts, ∀ b ∈ a :: (retryFrom attempt outcome left (i + 1) timeouts s').2.1,
            ∃ j s, I s ∧ (attempt j s).1 = some b := by
          intro more timeouts b member
          rcases List.mem_cons.mp member with rfl | later
          · exact here
          · cases left with
            | zero => exact absurd later List.not_mem_nil
            | succ left =>
              have kept : I s' := keeps i (Nat.le_refl i) (by omega) s s' a start made more
              exact ih kept (fun j above inside => keeps j (by omega) (by omega)) b later
        dsimp only
        cases shown : outcome a with
        | delivered => exact only
        | pttFault => exact only
        | nack => exact onward (by rw [shown]; decide) 0
        | timeout =>
          dsimp only
          split
          · exact only
          · exact onward (by rw [shown]; decide) _

theorem retryHead {left i timeouts : Nat} {s s' : S} {a : A} (made : attempt i s = (some a,s')) :
    a ∈ (retryFrom attempt outcome (left + 1) i timeouts s).2.1 := by
  rw [retryFrom, made]
  dsimp only
  split
  · exact List.mem_singleton_self a
  · exact List.mem_singleton_self a
  · exact List.mem_cons_self
  · split
    · exact List.mem_singleton_self a
    · exact List.mem_cons_self

theorem retryOnward {left i timeouts : Nat} {s s' : S} {a b : A} (made : attempt i s = (some a,s')) (nack : outcome a = .nack)
    (later : b ∈ (retryFrom attempt outcome left (i + 1) 0 s').2.1) : b ∈ (retryFrom attempt outcome (left + 1) i timeouts s).2.1 := by
  rw [retryFrom, made]
  dsimp only
  rw [nack]
  exact List.mem_cons_of_mem a later

theorem retryDelivered {left i timeouts : Nat} {s : S} (stopped : (retryFrom attempt outcome left i timeouts s).1 = .delivered) :
    ∃ s' a, (attempt (i + (retryFrom attempt outcome left i timeouts s).2.1.length - 1) s').1 = some a ∧ outcome a = .delivered ∧
      a ∈ (retryFrom attempt outcome left i timeouts s).2.1 := by
  induction left generalizing i timeouts s with
  | zero => cases stopped
  | succ left ih =>
    cases made : attempt i s with
    | mk result s' =>
      rw [retryFrom, made] at stopped ⊢
      cases result with
      | none => cases stopped
      | some a =>
        have onward : ∀ timeouts, (retryFrom attempt outcome left (i + 1) timeouts s').1 = .delivered →
            ∃ s'' b, (attempt (i + (a :: (retryFrom attempt outcome left (i + 1) timeouts s').2.1).length - 1) s'').1 = some b ∧
              outcome b = .delivered ∧ b ∈ a :: (retryFrom attempt outcome left (i + 1) timeouts s').2.1 := by
          intro timeouts later
          obtain ⟨s'',b,answer,given,member⟩ := ih later
          refine ⟨s'',b,?_,given,List.mem_cons_of_mem a member⟩
          rwa [List.length_cons, show i + ((retryFrom attempt outcome left (i + 1) timeouts s').2.1.length + 1) - 1 =
            i + 1 + (retryFrom attempt outcome left (i + 1) timeouts s').2.1.length - 1 by omega]
        dsimp only at stopped ⊢
        cases shown : outcome a with
        | delivered => exact ⟨s,a,congrArg Prod.fst made,shown,List.mem_singleton_self a⟩
        | pttFault =>
          rw [shown] at stopped
          cases stopped
        | nack =>
          rw [shown] at stopped
          exact onward 0 stopped
        | timeout =>
          rw [shown] at stopped
          dsimp only at stopped ⊢
          split at stopped
          · cases stopped
          · rename_i more
            rw [if_neg more]
            exact onward _ stopped

end Policy

structure AckFrame where
  ackType : AckType
  sessionHash : UInt16
  reverseAck : Option AckType
  recommendedLevel : Option SpeedLevel
  deriving DecidableEq, Repr

/- FNV-1a, folded to sixteen bits. -/
def AckFrame.hashSessionId (sessionId : String) : UInt16 :=
  let hash : UInt32 := sessionId.toUTF8.toList.foldl (fun hash byte => (hash ^^^ byte.toUInt32) * 16777619) 2166136261
  (hash ^^^ (hash >>> 16)).toUInt16

def mfsk16OtaMaxPayload : Nat := 223 - 4 - 10

structure ModemEngine (Snr : Type) where
  ota : Option (OtaRateController Snr)
  ackMacKey : Option Bytes

namespace ModemEngine
variable {Snr : Type} (g : ModemEngine Snr)

def otaTxMode : Option String := g.ota.bind fun o => o.profile.modeFor o.txLevel

def otaTxFec : FecMode := (g.ota.map fun o => o.profile.fecFor o.txLevel).getD .none

def otaPayloadFitsTxRung (bodyLen : Nat) : Bool :=
  if g.otaTxMode = some "MFSK16" then decide (bodyLen ≤ mfsk16OtaMaxPayload) else true

def applyOtaAck (frame : AckFrame) : ModemEngine Snr :=
  match g.ota, frame.recommendedLevel with
  | some o, some level => { g with ota := some (o.adoptRecommendation level) }
  | _, _ => g

def sessionOk (expected : Option UInt16) (ack : AckFrame) : Bool :=
  g.ackMacKey.isSome || expected.all (fun h => ack.sessionHash == h)

def receiveOtaAckWithin (heard : List AckFrame) (expected : Option UInt16) : Option AckFrame := heard.find? (g.sessionOk expected)

end ModemEngine

structure Window where
  keyedTransmit : Except KeyedTxError Unit
  heard : List AckFrame

structure Attempted (Snr : Type) where
  engine : ModemEngine Snr
  keyed : Option (String × FecMode)
  outcome : OtaAttempt

section Send
variable {Snr : Type} (body : Bytes) (peer : String) (world : Nat → Window)

def expectedHash : Option UInt16 := if peer.isEmpty then none else some (AckFrame.hashSessionId peer)

def attempt (i : Nat) (g : ModemEngine Snr) : Option (Attempted Snr) × ModemEngine Snr :=
  match g.otaTxMode with
  | none => (none,g)
  | some mode =>
    let fec := FreeRs.freeRsStrengthening g.otaTxFec (body.length + Frame.wireOverhead)
    match (world i).keyedTransmit with
    | .error .assert => (some ⟨g,none,.pttFault⟩,g)
    | .error .alreadyKeyed => (some ⟨g,none,.nack⟩,g)
    | .error (.transmit _) => (some ⟨g,some (mode,fec),.nack⟩,g)
    | .ok () =>
      match g.receiveOtaAckWithin (world i).heard (expectedHash peer) with
      | some ack => (some ⟨g,some (mode,fec),if ack.ackType = .nack then .nack else .delivered⟩,g.applyOtaAck ack)
      | none => (some ⟨g,some (mode,fec),.timeout⟩,g)

/- Nothing is attempted with a body the rung cannot carry. -/
def otaSendWithPtt (g : ModemEngine Snr) : Option OtaSendStop × List (Attempted Snr) × ModemEngine Snr :=
  if g.otaPayloadFitsTxRung body.length then
    let (stop,attempts,g) := runOtaRetry (attempt body peer world) Attempted.outcome g
    (some stop,attempts,g)
  else (none,[],g)

end Send

section Runs
variable {Snr : Type} {body : Bytes} {peer : String} {world : Nat → Window} {g g' : ModemEngine Snr} {i : Nat}

theorem attemptCases {a : Attempted Snr} (made : attempt body peer world i g = (some a,g')) : a.engine = g ∧
    ((g' = g ∧ a.outcome ≠ .delivered) ∨ ∃ ack, g.receiveOtaAckWithin (world i).heard (expectedHash peer) = some ack ∧
      g' = g.applyOtaAck ack ∧ (a.outcome = .delivered ↔ ack.ackType ≠ .nack)) := by
  rw [attempt] at made
  split at made
  · cases made
  · dsimp only at made
    split at made
    · cases made
      exact ⟨rfl,.inl ⟨rfl,by simp⟩⟩
    · cases made
      exact ⟨rfl,.inl ⟨rfl,by simp⟩⟩
    · cases made
      exact ⟨rfl,.inl ⟨rfl,by simp⟩⟩
    · split at made
      · rename_i ack heard
        cases made
        refine ⟨rfl,.inr ⟨ack,heard,rfl,?_⟩⟩
        by_cases nack : ack.ackType = .nack
        · simp [nack]
        · simp [nack]
      · cases made
        exact ⟨rfl,.inl ⟨rfl,by simp⟩⟩

theorem attemptKey {a : Attempted Snr} (made : attempt body peer world i g = (some a,g')) : g'.ackMacKey = g.ackMacKey := by
  obtain ⟨-,⟨same,-⟩ | ⟨ack,-,adopted,-⟩⟩ := attemptCases made
  · rw [same]
  · rw [adopted, ModemEngine.applyOtaAck]
    split <;> rfl

/-- For the peer: under the session's key, from whom it is addressed to, or from anyone when it is addressed to nobody. -/
def ForPeer (g : ModemEngine Snr) (peer : String) (ack : AckFrame) : Prop :=
  g.ackMacKey.isSome = true ∨ peer.isEmpty = true ∨ ack.sessionHash = AckFrame.hashSessionId peer

theorem receivedForPeer {heard : List AckFrame} {ack : AckFrame} (received : g.receiveOtaAckWithin heard (expectedHash peer) = some ack) :
    ack ∈ heard ∧ ForPeer g peer ack := by
  refine ⟨List.mem_of_find?_eq_some received,?_⟩
  have ok : g.sessionOk (expectedHash peer) ack = true := List.find?_some received
  rw [ModemEngine.sessionOk, Bool.or_eq_true, expectedHash] at ok
  rcases ok with key | hash
  · exact .inl key
  · split at hash
    · exact .inr (.inl ‹_›)
    · exact .inr (.inr (beq_iff_eq.mp hash))

def Moved (g : ModemEngine Snr) (o : OtaRateController Snr) (g' : ModemEngine Snr) : Prop :=
  ∃ level, g' = { g with ota := some { o with txLevel := level } } ∧ o.profile.modeFor level ≠ some "MFSK16"

/- What may come between two attempts without moving the rung onto the sub-floor one. -/
def OffSubFloor (g : ModemEngine Snr) (o : OtaRateController Snr) (peer : String) (w : Window) : Prop :=
  ∀ ack level, g.receiveOtaAckWithin w.heard (expectedHash peer) = some ack → ack.ackType = .nack → ack.recommendedLevel = some level →
    o.profile.modeFor (o.clampMapped level) ≠ some "MFSK16"

theorem adoptMoved {o : OtaRateController Snr} (moved : Moved g o g') {ack : AckFrame}
    (off : o.locked.isSome = true ∨ ∀ level, ack.recommendedLevel = some level → o.profile.modeFor (o.clampMapped level) ≠ some "MFSK16") :
    Moved g o (g'.applyOtaAck ack) := by
  obtain ⟨level,rfl,away⟩ := moved
  cases recommended : ack.recommendedLevel with
  | none =>
    rw [ModemEngine.applyOtaAck, recommended]
    exact ⟨level,rfl,away⟩
  | some next =>
    rw [ModemEngine.applyOtaAck, recommended]
    dsimp only
    rw [OtaRateController.adoptRecommendation]
    split
    · exact ⟨level,rfl,away⟩
    · rename_i free
      exact ⟨o.clampMapped next,rfl,off.resolve_left free next recommended⟩

theorem movedFits {o : OtaRateController Snr} (moved : Moved g o g') (n : Nat) : g'.otaPayloadFitsTxRung n = true := by
  obtain ⟨level,rfl,away⟩ := moved
  exact if_neg away

structure Bounded (body : Bytes) (peer : String) (world : Nat → Window) (g : ModemEngine Snr) : Prop where
  few : (otaSendWithPtt body peer world g).2.1.length ≤ maxRetries + 1
  heard : ∀ k, ¬ ∀ j < maxSilentAckWindows + 1, ((otaSendWithPtt body peer world g).2.1[k + j]?).map Attempted.outcome = some .timeout
  acked : (otaSendWithPtt body peer world g).1 = some .delivered →
    ∃ ack ∈ (world ((otaSendWithPtt body peer world g).2.1.length - 1)).heard, ForPeer g peer ack ∧ ack.ackType ≠ .nack

structure Orderly (body : Bytes) (peer : String) (world : Nat → Window) (g : ModemEngine Snr) : Prop
    extends Bounded body peer world g where
  carried : ∀ a ∈ (otaSendWithPtt body peer world g).2.1, a.keyed.isSome = true → a.engine.otaPayloadFitsTxRung body.length = true

theorem sendBounded (body : Bytes) (peer : String) (world : Nat → Window) (g : ModemEngine Snr) : Bounded body peer world g := by
  constructor
  case few =>
    unfold otaSendWithPtt
    split
    · exact retryLength _ 0 0 g
    · exact Nat.zero_le _
  case heard =>
    unfold otaSendWithPtt
    intro k silent
    split at silent
    · have few : FewSilent Attempted.outcome 0 (runOtaRetry (attempt body peer world) Attempted.outcome g).2.1 := retrySilent (by decide) g
      have row := few k (maxSilentAckWindows + 1) silent
      omega
    · cases silent 0 (by decide)
  case acked =>
    unfold otaSendWithPtt
    split
    · intro stopped
      obtain ⟨s,a,answer,delivered,member⟩ := retryDelivered (Option.some.inj stopped)
      obtain ⟨j,s',key,again⟩ := retryReaches (I := fun s => s.ackMacKey = g.ackMacKey) rfl
        (fun j _ _ s s' a same made _ => (attemptKey made).trans same) a member
      obtain ⟨here,⟨-,undelivered⟩ | ⟨ack,received,-,given⟩⟩ := attemptCases (Prod.ext answer rfl)
      · exact absurd delivered undelivered
      · obtain ⟨there,-⟩ := attemptCases (Prod.ext again rfl)
        obtain ⟨member,own⟩ := receivedForPeer received
        rw [Nat.zero_add] at member
        refine ⟨ack,member,?_,given.mp delivered⟩
        rw [ForPeer, ← key, ← there, here]
        exact own
    · intro stopped
      cases stopped

def Steady (body : Bytes) (peer : String) (world : Nat → Window) (g : ModemEngine Snr) : Prop :=
  body.length ≤ mfsk16OtaMaxPayload ∨ g.otaTxMode = some "MFSK16" ∨
    ∀ o, g.ota = some o → o.locked.isSome = true ∨ ∀ i < maxRetries, OffSubFloor g o peer (world i)

theorem smallFits (small : body.length ≤ mfsk16OtaMaxPayload) (g : ModemEngine Snr) : g.otaPayloadFitsTxRung body.length = true := by
  unfold ModemEngine.otaPayloadFitsTxRung
  split
  · exact decide_eq_true small
  · rfl

theorem subFloorRefused (large : ¬ body.length ≤ mfsk16OtaMaxPayload) (sub : g.otaTxMode = some "MFSK16") :
    otaSendWithPtt body peer world g = (none,[],g) := by
  have refused : g.otaPayloadFitsTxRung body.length = false := by
    rw [ModemEngine.otaPayloadFitsTxRung, if_pos sub]
    exact decide_eq_false large
  rw [otaSendWithPtt, refused]
  rfl

theorem attemptsKeep {I : ModemEngine Snr → Prop} (start : I g)
    (keeps : ∀ i < maxRetries, ∀ s s' a, I s → attempt body peer world i s = (some a,s') → a.outcome ≠ .delivered → I s') :
    ∀ a ∈ (otaSendWithPtt body peer world g).2.1, I a.engine := by
  intro a member
  unfold otaSendWithPtt at member
  split at member
  · obtain ⟨j,s,kept,answer⟩ := retryReaches start (fun j _ inside => keeps j (by rw [maxRetries] at inside ⊢; omega)) a member
    obtain ⟨here,-⟩ := attemptCases (Prod.ext answer rfl)
    rwa [here]
  · exact absurd member List.not_mem_nil

theorem steadyCarried (steady : Steady body peer world g) :
    ∀ a ∈ (otaSendWithPtt body peer world g).2.1, a.keyed.isSome = true → a.engine.otaPayloadFitsTxRung body.length = true := by
  intro a member _
  by_cases small : body.length ≤ mfsk16OtaMaxPayload
  · exact smallFits small a.engine
  by_cases sub : g.otaTxMode = some "MFSK16"
  · rw [subFloorRefused small sub] at member
    exact absurd member List.not_mem_nil
  have off := (steady.resolve_left small).resolve_left sub
  cases session : g.ota with
  | none =>
    have none : a.engine.ota = none := by
      refine attemptsKeep (I := fun s => s.ota = none) session (fun i _ s s' a idle made _ => ?_) a member
      obtain ⟨-,⟨same,-⟩ | ⟨ack,-,adopted,-⟩⟩ := attemptCases made
      · rwa [same]
      · rw [adopted, ModemEngine.applyOtaAck, idle]
        exact idle
    rw [ModemEngine.otaPayloadFitsTxRung, ModemEngine.otaTxMode, none]
    rfl
  | some o =>
    have start : Moved g o g := by
      refine ⟨o.txLevel,?_,?_⟩
      · cases g
        rw [← session]
      · intro mode
        refine sub ?_
        rw [ModemEngine.otaTxMode, session]
        exact mode
    have kept : Moved g o a.engine := by
      refine attemptsKeep start (fun i inside s s' b moved made undelivered => ?_) a member
      obtain ⟨-,⟨same,-⟩ | ⟨ack,received,adopted,given⟩⟩ := attemptCases made
      · rwa [same]
      · have nack : ack.ackType = .nack := by
          by_contra other
          exact undelivered (given.mpr other)
        have heard : g.receiveOtaAckWithin (world i).heard (expectedHash peer) = some ack := by
          obtain ⟨level,rfl,-⟩ := moved
          exact received
        rw [adopted]
        exact adoptMoved moved ((off o session).imp_right fun away level => away i inside ack level heard nack)
    exact movedFits kept _

def steppingDown (peer : String) (level : SpeedLevel) (_ : Nat) : Window :=
  ⟨.ok (),[⟨.nack,AckFrame.hashSessionId peer,none,some level⟩]⟩

theorem downshiftHeard (g : ModemEngine Snr) (peer : String) (level : SpeedLevel) (i : Nat) :
    g.receiveOtaAckWithin (steppingDown peer level i).heard (expectedHash peer) =
      some ⟨.nack,AckFrame.hashSessionId peer,none,some level⟩ := by
  have ok : g.sessionOk (expectedHash peer) ⟨.nack,AckFrame.hashSessionId peer,none,some level⟩ = true := by
    rw [ModemEngine.sessionOk, Bool.or_eq_true, expectedHash]
    right
    split
    · rfl
    · exact beq_self_eq_true _
  exact List.find?_cons_of_pos ok

theorem attemptDown {mode : String} (has : g.otaTxMode = some mode) (level : SpeedLevel) (i : Nat) :
    ∃ fec, attempt body peer (steppingDown peer level) i g =
      (some ⟨g,some (mode,fec),.nack⟩,g.applyOtaAck ⟨.nack,AckFrame.hashSessionId peer,none,some level⟩) := by
  refine ⟨FreeRs.freeRsStrengthening g.otaTxFec (body.length + Frame.wireOverhead),?_⟩
  rw [attempt, has]
  dsimp only
  rw [downshiftHeard]
  rfl

theorem downshiftKeys (large : ¬ body.length ≤ mfsk16OtaMaxPayload) {mode : String} (has : g.otaTxMode = some mode)
    (away : mode ≠ "MFSK16") {o : OtaRateController Snr} (session : g.ota = some o) (free : o.locked.isSome = false)
    {level : SpeedLevel} (onto : o.profile.modeFor (o.clampMapped level) = some "MFSK16") :
    ∃ a ∈ (otaSendWithPtt body peer (steppingDown peer level) g).2.1, a.keyed.isSome = true ∧
      a.engine.otaPayloadFitsTxRung body.length = false := by
  have fits : g.otaPayloadFitsTxRung body.length = true := if_neg (by rw [has]; exact fun same => away (Option.some.inj same))
  have adopted : g.applyOtaAck ⟨.nack,AckFrame.hashSessionId peer,none,some level⟩ =
      { g with ota := some { o with txLevel := o.clampMapped level } } := by
    rw [ModemEngine.applyOtaAck, session]
    dsimp only
    rw [OtaRateController.adoptRecommendation, if_neg (by rw [free]; decide)]
  have sub : ModemEngine.otaTxMode { g with ota := some { o with txLevel := o.clampMapped level } } = some "MFSK16" := onto
  obtain ⟨_,first⟩ := @attemptDown Snr body peer g mode has level 0
  obtain ⟨fec,second⟩ := @attemptDown Snr body peer _ _ sub level 1
  refine ⟨⟨{ g with ota := some { o with txLevel := o.clampMapped level } },some ("MFSK16",fec),.nack⟩,?_,rfl,?_⟩
  · unfold otaSendWithPtt
    rw [if_pos fits]
    exact retryOnward first rfl (by rw [adopted]; exact retryHead second)
  · rw [ModemEngine.otaPayloadFitsTxRung, if_pos sub]
    exact decide_eq_false large

/-- No acknowledgement at all can lead the rung to one that is too small. -/
def Clear (body : Bytes) (g : ModemEngine Snr) : Prop :=
  body.length ≤ mfsk16OtaMaxPayload ∨ g.otaTxMode = none ∨ g.otaTxMode = some "MFSK16" ∨
    ∀ o, g.ota = some o → o.locked.isSome = true ∨ ∀ level, o.profile.modeFor (o.clampMapped level) ≠ some "MFSK16"

theorem idleCarried (idle : g.otaTxMode = none) : (otaSendWithPtt body peer world g).2.1 = [] := by
  have none : attempt body peer world 0 g = (none,g) := by rw [attempt, idle]
  unfold otaSendWithPtt
  split
  · change (retryFrom (attempt body peer world) Attempted.outcome (maxRetries + 1) 0 0 g).2.1 = []
    rw [retryFrom, none]
  · rfl

theorem clearCarried (clear : Clear body g) (peer : String) (world : Nat → Window) :
    ∀ a ∈ (otaSendWithPtt body peer world g).2.1, a.keyed.isSome = true → a.engine.otaPayloadFitsTxRung body.length = true := by
  rcases clear with small | idle | sub | off
  · exact steadyCarried (.inl small)
  · rw [idleCarried idle]
    exact fun a member => absurd member List.not_mem_nil
  · exact steadyCarried (.inr (.inl sub))
  · exact steadyCarried (.inr (.inr fun o session => (off o session).imp_right fun away i _ ack level _ _ _ => away level))

/-- A send is bounded always and holds the key for nothing too large while no acknowledgement between two attempts moves the rung
onto the sub-floor one. Whatever is acknowledged, that is so exactly when no acknowledgement can. -/
theorem otaSend (body : Bytes) (peer : String) (g : ModemEngine Snr) :
    (∀ world, Bounded body peer world g) ∧ (∀ world, Steady body peer world g → Orderly body peer world g) ∧
    ((∀ world, Orderly body peer world g) ↔ Clear body g) := by
  refine ⟨fun world => sendBounded body peer world g,fun world steady => ⟨sendBounded body peer world g,steadyCarried steady⟩,
    fun orderly => ?_,fun clear world => ⟨sendBounded body peer world g,clearCarried clear peer world⟩⟩
  by_contra leads
  simp only [Clear, not_or, not_forall] at leads
  obtain ⟨large,some',away,o,session,unlocked,level,onto⟩ := leads
  obtain ⟨mode,has⟩ := Option.ne_none_iff_exists'.mp some'
  obtain ⟨a,member,keyed,small⟩ := @downshiftKeys Snr body peer g large mode has (fun same => away (by rw [has, same])) o session
    (Bool.eq_false_iff.mpr unlocked) level (not_not.mp onto)
  have fits := (orderly (steppingDown peer level)).carried a member keyed
  rw [small] at fits
  cases fits

end Runs

/- The HF ladder of `profile.rs`. Its thresholds are tenths of decibels. -/
def hpxHf : SessionProfile Int where
  modes
    | .sl1 => some "MFSK16"
    | .sl2 => some "BPSK31"
    | .sl3 => some "BPSK63"
    | .sl4 => some "BPSK100"
    | .sl5 => some "BPSK250"
    | .sl6 => some "QPSK250-D"
    | .sl7 => some "OFDM52"
    | .sl8 => some "OFDM52-8PSK"
    | .sl9 | .sl12 => some "OFDM52-16QAM"
    | .sl10 | .sl13 => some "OFDM52-32QAM"
    | .sl11 | .sl14 => some "OFDM52-64QAM"
    | _ => none
  initialLevel := .sl2
  nackThreshold := 3
  snrFloors
    | .sl2 => some 30
    | .sl3 => some 40
    | .sl4 => some 45
    | .sl5 => some 50
    | .sl6 => some 70
    | .sl7 => some 90
    | .sl8 => some 100
    | .sl9 => some 120
    | .sl10 => some 140
    | .sl11 => some 160
    | .sl12 => some 180
    | .sl13 => some 190
    | .sl14 => some 200
    | _ => none
  snrCeilings
    | .sl1 => some 50
    | .sl2 => some 60
    | .sl3 => some 65
    | .sl4 => some 70
    | .sl5 => some 90
    | .sl6 => some 110
    | .sl7 => some 120
    | .sl8 => some 140
    | .sl9 => some 160
    | .sl10 => some 180
    | .sl11 => some 200
    | .sl12 => some 210
    | .sl13 => some 220
    | _ => none
  fecModes
    | .sl1 | .sl2 | .sl3 | .sl4 | .sl5 | .sl6 => some .rs
    | .sl7 | .sl8 | .sl9 | .sl10 | .sl11 => some .softConcatenated
    | .sl12 | .sl13 | .sl14 => some .ldpcHighRate
    | _ => none

def hfEngine : ModemEngine Int := ⟨some (.new hpxHf),none⟩

theorem otaSendShort : Orderly [0x68,0x69] "W1AW" (steppingDown "W1AW" .sl1) hfEngine :=
  (otaSend [0x68,0x69] "W1AW" hfEngine).2.1 (steppingDown "W1AW" .sl1) (.inl (by decide))

theorem otaSendOversized :
    ∃ a ∈ (otaSendWithPtt (List.replicate 220 0) "W1AW" (steppingDown "W1AW" .sl1) hfEngine).2.1, a.keyed.isSome = true ∧
      a.engine.otaPayloadFitsTxRung (List.replicate 220 (0 : UInt8)).length = false :=
  @downshiftKeys Int _ _ hfEngine (by rw [List.length_replicate]; decide) "BPSK31" (by decide) (by decide) (.new hpxHf) rfl rfl .sl1
    (by decide)

end OpenPulse.OtaSend
