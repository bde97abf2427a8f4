import OpenPulse.RendezvousAssembler
import OpenPulse.Runs

/-! The two ends of a rendezvous: `RendezvousInitiator` and `respond` of
`openpulse-discovery/src/rendezvous.rs`, over an air that keeps what was said once
for ever, so that a message may be heard late, twice, out of order or not at all. -/
namespace OpenPulse.Rendezvous
open Runs
open B2f (trim)

inductive RendezvousOutcome where
  | send (msg : RendezvousMsg)
  | qsy (channel switchInSlots : UInt8)
  | rejected (reason : RejectReason)
  | timedOut
  deriving DecidableEq, Repr

structure RendezvousInitiator where
  peer : List Char
  token : List Char
  slotsWaited : Nat
  timeoutSlots : Nat
  done : Bool
  deriving DecidableEq, Repr

namespace RendezvousInitiator

def start (peer token : List Char) (channels : List UInt8) (timeoutSlots : Nat) : RendezvousInitiator × RendezvousMsg :=
  (⟨toUpper (trim peer),toUpper token,0,timeoutSlots,false⟩,.propose (toUpper token) channels)

variable (i : RendezvousInitiator)

def onMessage (msg : RendezvousMsg) : Option RendezvousOutcome × RendezvousInitiator :=
  if i.done || msg.token != i.token then (none,i)
  else
    match msg with
    | .accept _ channel switchInSlots => (some (.qsy channel switchInSlots),{ i with done := true })
    | .reject _ reason => (some (.rejected reason),{ i with done := true })
    | .propose _ _ => (none,i)

def onSlot : Option RendezvousOutcome × RendezvousInitiator :=
  if i.done then (none,i)
  else
    let i := { i with slotsWaited := i.slotsWaited + 1 }
    if i.timeoutSlots ≤ i.slotsWaited then (some .timedOut,{ i with done := true }) else (none,i)

end RendezvousInitiator

def respond (propose : RendezvousMsg) (available : List UInt8) (switchInSlots : UInt8) : RendezvousOutcome :=
  match propose with
  | .propose token channels =>
    match channels.find? (available.contains ·) with
    | some channel => .send (.accept token channel switchInSlots)
    | none => .send (.reject token .noCommonFreq)
  | _ => .rejected .other

structure Exchange where
  initiator : RendezvousInitiator
  air : List RendezvousMsg
  reported : List RendezvousOutcome
  deriving DecidableEq

/- What is heard or answered was said before; what is injected never need have been. -/
inductive Move where
  | slot
  | hear (msg : RendezvousMsg)
  | answer (msg : RendezvousMsg)
  | inject (msg : RendezvousMsg)
  deriving DecidableEq

structure Responder where
  available : List UInt8
  switchInSlots : UInt8

namespace Exchange

def start (peer token : List Char) (channels : List UInt8) (timeoutSlots : Nat) : Exchange :=
  let (initiator,proposal) := RendezvousInitiator.start peer token channels timeoutSlots
  ⟨initiator,[proposal],[]⟩

def report (x : Exchange) (out : Option RendezvousOutcome × RendezvousInitiator) : Exchange :=
  { x with initiator := out.2, reported := x.reported ++ out.1.toList }

def say (x : Exchange) : RendezvousOutcome → Exchange
  | .send msg => { x with air := x.air ++ [msg] }
  | _ => x

def move (r : Responder) (x : Exchange) : Move → Exchange
  | .slot => x.report x.initiator.onSlot
  | .hear msg => if msg ∈ x.air then x.report (x.initiator.onMessage msg) else x
  | .answer msg => if msg ∈ x.air then x.say (respond msg r.available r.switchInSlots) else x
  | .inject msg => { x with air := x.air ++ [msg] }

end Exchange

inductive Heard (i : RendezvousInitiator) : RendezvousMsg → Option RendezvousOutcome × RendezvousInitiator → Prop where
  | nothing {msg} (stray : ∀ t c s, msg = .accept t c s → i.done = true ∨ t ≠ i.token) : Heard i msg (none,i)
  | accepted {channel switchInSlots} (waiting : i.done = false) :
      Heard i (.accept i.token channel switchInSlots) (some (.qsy channel switchInSlots),{ i with done := true })
  | rejected {reason} (waiting : i.done = false) :
      Heard i (.reject i.token reason) (some (.rejected reason),{ i with done := true })

theorem heard (i : RendezvousInitiator) (msg : RendezvousMsg) : Heard i msg (i.onMessage msg) := by
  unfold RendezvousInitiator.onMessage
  by_cases strange : (i.done || msg.token != i.token) = true
  · rw [if_pos strange]
    refine .nothing ?_
    rintro t c s rfl
    simpa [RendezvousMsg.token] using strange
  · rw [if_neg strange]
    simp only [Bool.or_eq_true, bne_iff_ne, not_or, not_not, Bool.not_eq_true] at strange
    obtain ⟨waiting,same⟩ := strange
    cases msg with
    | propose token channels => exact .nothing (by simp)
    | accept token channel slots =>
      cases same
      exact .accepted waiting
    | reject token reason =>
      cases same
      exact .rejected waiting

theorem slotReports (i : RendezvousInitiator) :
    (i.onSlot.1 = none ∧ i.onSlot.2.done = i.done) ∨ (i.done = false ∧ i.onSlot.1 = some .timedOut ∧ i.onSlot.2.done = true) := by
  unfold RendezvousInitiator.onSlot
  cases closed : i.done with
  | true => exact .inl ⟨rfl,closed⟩
  | false =>
    simp only [Bool.false_eq_true, if_false]
    split
    · exact .inr ⟨trivial,rfl,rfl⟩
    · exact .inl ⟨rfl,rfl⟩

theorem slotNames (i : RendezvousInitiator) (c s : UInt8) : i.onSlot.1 ≠ some (.qsy c s) := by
  rcases slotReports i with ⟨quiet,-⟩ | ⟨-,expired,-⟩
  · rw [quiet]
    simp
  · rw [expired]
    simp

theorem sayKeeps (x : Exchange) (out : RendezvousOutcome) :
    (x.say out).initiator = x.initiator ∧ (x.say out).reported = x.reported := by
  cases out <;> exact ⟨rfl,rfl⟩

/-- Nothing is reported while the initiator waits, and one outcome at most after that. -/
def Once (x : Exchange) : Prop := (x.initiator.done = false → x.reported = []) ∧ x.reported.length ≤ 1

theorem onceReport {x : Exchange} (once : Once x) {out : Option RendezvousOutcome × RendezvousInitiator}
    (closes : (out.1 = none ∧ out.2.done = x.initiator.done) ∨ (x.initiator.done = false ∧ out.2.done = true)) :
    Once (x.report out) := by
  obtain ⟨outcome,i⟩ := out
  rcases closes with ⟨rfl,same⟩ | ⟨waiting,closed⟩
  · have kept : Once (x.report (none,i)) ↔ Once x := by
      change i.done = x.initiator.done at same
      simp [Once, Exchange.report, same]
    exact kept.mpr once
  · refine ⟨fun still => ?_,?_⟩
    · rw [show (x.report (outcome,i)).initiator.done = true from closed] at still
      cases still
    · rw [Exchange.report, once.1 waiting]
      cases outcome <;> simp

theorem onceMove (r : Responder) (x : Exchange) (m : Move) (once : Once x) : Once (x.move r m) := by
  cases m with
  | slot =>
    refine onceReport once ?_
    rcases slotReports x.initiator with quiet | ⟨waiting,-,closed⟩
    · exact .inl quiet
    · exact .inr ⟨waiting,closed⟩
  | hear msg =>
    by_cases said : msg ∈ x.air
    · rw [Exchange.move, if_pos said]
      refine onceReport once ?_
      have made := heard x.initiator msg
      generalize x.initiator.onMessage msg = out at made
      cases made with
      | nothing stray => exact .inl ⟨rfl,rfl⟩
      | accepted waiting => exact .inr ⟨waiting,rfl⟩
      | rejected waiting => exact .inr ⟨waiting,rfl⟩
    · rwa [Exchange.move, if_neg said]
  | answer msg =>
    by_cases said : msg ∈ x.air
    · obtain ⟨initiator,reported⟩ := sayKeeps x (respond msg r.available r.switchInSlots)
      rwa [Exchange.move, if_pos said, Once, initiator, reported]
    · rwa [Exchange.move, if_neg said]
  | inject msg => exact once

def Named (channels : List UInt8) (x : Exchange) : Prop := ∀ c s, .qsy c s ∈ x.reported → c ∈ channels

/-- No acceptance of a channel that was not proposed reaches an initiator that waits for one. -/
def Offered (channels : List UInt8) (x : Exchange) (m : Move) : Prop :=
  ∀ c s, m = .hear (.accept x.initiator.token c s) → .accept x.initiator.token c s ∈ x.air → x.initiator.done = false →
    c ∈ channels

theorem namedReport {channels : List UInt8} {x : Exchange} (named : Named channels x)
    (out : Option RendezvousOutcome × RendezvousInitiator) :
    Named channels (x.report out) ↔ ∀ c s, out.1 = some (.qsy c s) → c ∈ channels := by
  simp only [Named, Exchange.report, List.mem_append, Option.mem_toList]
  constructor
  · intro all c s made
    exact all c s (.inr made)
  · rintro all c s (old | new)
    · exact named c s old
    · exact all c s new

theorem namedExact {channels : List UInt8} {r : Responder} {x : Exchange} (named : Named channels x) (m : Move) :
    Named channels (x.move r m) ↔ Offered channels x m := by
  have aside : (∀ c s, m ≠ .hear (.accept x.initiator.token c s)) → Offered channels x m :=
    fun other c s same => absurd same (other c s)
  cases m with
  | slot =>
    rw [Exchange.move, namedReport named]
    refine ⟨fun _ => aside (by simp),fun _ c s made => ?_⟩
    exact absurd made (slotNames x.initiator c s)
  | hear msg =>
    by_cases said : msg ∈ x.air
    · rw [Exchange.move, if_pos said, namedReport named]
      have made := heard x.initiator msg
      generalize x.initiator.onMessage msg = out at made ⊢
      cases made with
      | nothing stray =>
        refine ⟨fun _ c s same _ waiting => ?_,fun _ c s none' => by cases none'⟩
        rcases stray _ c s (Move.hear.inj same) with closed | other
        · rw [waiting] at closed
          cases closed
        · exact absurd rfl other
      | @accepted channel slots waiting =>
        constructor
        · intro all c s same _ _
          cases same
          exact all _ _ rfl
        · intro offered c s same
          cases same
          exact offered _ _ rfl said waiting
      | rejected waiting => exact ⟨fun _ => aside (by simp),fun _ c s none' => by cases none'⟩
    · rw [Exchange.move, if_neg said]
      refine ⟨fun _ c s same heard' => ?_,fun _ => named⟩
      cases same
      exact absurd heard' said
  | answer msg =>
    refine ⟨fun _ => aside (by simp),fun _ => ?_⟩
    by_cases said : msg ∈ x.air
    · obtain ⟨-,reported⟩ := sayKeeps x (respond msg r.available r.switchInSlots)
      rwa [Exchange.move, if_pos said, Named, reported]
    · rwa [Exchange.move, if_neg said]
  | inject msg => exact ⟨fun _ => aside (by simp),fun _ => named⟩

/-- What the air holds, and what is reported, when nothing was injected. -/
structure Authentic (r : Responder) (token : List Char) (channels : List UInt8) (x : Exchange) : Prop where
  said : ∀ msg ∈ x.air, msg = .propose token channels ∨
    respond (.propose token channels) r.available r.switchInSlots = .send msg
  agreed : ∀ c s, .qsy c s ∈ x.reported → channels.find? (r.available.contains ·) = some c

theorem acceptRanked {r : Responder} {token t : List Char} {channels : List UInt8} {c s : UInt8}
    (reply : respond (.propose token channels) r.available r.switchInSlots = .send (.accept t c s)) :
    channels.find? (r.available.contains ·) = some c := by
  simp only [respond] at reply
  split at reply
  · rename_i channel found
    cases reply
    exact found
  · cases reply

theorem replyUnanswered {r : Responder} {token : List Char} {channels : List UInt8} {msg : RendezvousMsg}
    (reply : respond (.propose token channels) r.available r.switchInSlots = .send msg) :
    respond msg r.available r.switchInSlots = .rejected .other := by
  simp only [respond] at reply
  split at reply
  · cases reply
    rfl
  · cases reply
    rfl

theorem authenticMove {r : Responder} {token : List Char} {channels : List UInt8} {x : Exchange}
    (authentic : Authentic r token channels x) {m : Move} (own : ∀ msg, m ≠ .inject msg) :
    Authentic r token channels (x.move r m) := by
  have reports : ∀ out : Option RendezvousOutcome × RendezvousInitiator,
      (∀ c s, out.1 = some (.qsy c s) → channels.find? (r.available.contains ·) = some c) →
      Authentic r token channels (x.report out) := by
    intro out fine
    refine ⟨authentic.said,fun c s member => ?_⟩
    rcases List.mem_append.mp member with old | new
    · exact authentic.agreed c s old
    · exact fine c s (Option.mem_toList.mp new)
  cases m with
  | slot =>
    refine reports _ fun c s made => ?_
    exact absurd made (slotNames x.initiator c s)
  | hear msg =>
    by_cases said : msg ∈ x.air
    · rw [Exchange.move, if_pos said]
      refine reports _ fun c s made => ?_
      have known := authentic.said msg said
      have taken := heard x.initiator msg
      generalize x.initiator.onMessage msg = out at taken made
      cases taken with
      | nothing stray => cases made
      | accepted waiting =>
        cases made
        rcases known with same | reply
        · cases same
        · exact acceptRanked reply
      | rejected waiting => cases made
    · rwa [Exchange.move, if_neg said]
  | answer msg =>
    by_cases said : msg ∈ x.air
    · rw [Exchange.move, if_pos said]
      rcases authentic.said msg said with rfl | reply
      · cases answer : respond (.propose token channels) r.available r.switchInSlots with
        | send reply =>
          refine ⟨fun msg member => ?_,authentic.agreed⟩
          rcases List.mem_append.mp member with old | new
          · exact authentic.said msg old
          · rw [List.mem_singleton.mp new]
            exact .inr answer
        | qsy | rejected | timedOut => exact authentic
      · rw [replyUnanswered reply]
        exact authentic
    · rwa [Exchange.move, if_neg said]
  | inject msg => exact absurd rfl (own msg)

section Runs

variable (r : Responder) (peer token : List Char) (channels : List UInt8) (timeoutSlots : Nat) (moves : List Move)

theorem authenticRun (own : ∀ msg, .inject msg ∉ moves) :
    Authentic r (toUpper token) channels (run (Exchange.move r) (.start peer token channels timeoutSlots) moves) := by
  induction moves using List.reverseRecOn with
  | nil => exact ⟨fun msg member => .inl (List.mem_singleton.mp member),fun c s member => by cases member⟩
  | append_singleton moves m ih =>
    rw [runAppend]
    refine authenticMove (ih fun msg member => own msg (List.mem_append_left _ member)) ?_
    rintro msg rfl
    exact own msg (by simp)

theorem rendezvousAgreesIff :
    ((∀ x ∈ reached (Exchange.move r) (.start peer token channels timeoutSlots) moves, Named channels x) ↔
      EveryStep (Exchange.move r) (Offered channels) (.start peer token channels timeoutSlots) moves) ∧
    ((∀ msg, .inject msg ∉ moves) →
      ∀ c s, .qsy c s ∈ (run (Exchange.move r) (.start peer token channels timeoutSlots) moves).reported →
        channels.find? (r.available.contains ·) = some c) ∧
    (run (Exchange.move r) (.start peer token channels timeoutSlots) moves).reported.length ≤ 1 := by
  refine ⟨?_,?_,?_⟩
  · have start : Named channels (.start peer token channels timeoutSlots) := by
      intro c s member
      cases member
    exact reachedIff (I := fun _ => True) (fun _ _ _ => trivial) (fun _ m _ named => namedExact named m) trivial start
  · intro own
    exact (authenticRun r peer token channels timeoutSlots moves own).agreed
  · have start : Once (.start peer token channels timeoutSlots) := ⟨fun _ => rfl,Nat.zero_le 1⟩
    exact (runInvariant (onceMove r) start moves).2

end Runs

def forged : RendezvousMsg := .accept ['R','7'] 200 4

theorem unproposedChannelReported : ¬ ∀ x ∈ reached (Exchange.move ⟨[9],4⟩)
      (.start "KN4CRD".toList ['R','7'] [3,9] 8) [.inject forged,.hear forged], Named [3,9] x := by
  intro all
  have named := all ⟨⟨"KN4CRD".toList,['R','7'],0,8,true⟩,[.propose ['R','7'] [3,9],forged],[.qsy 200 4]⟩ (by decide)
  exact absurd (named 200 4 (by decide)) (by decide)

end OpenPulse.Rendezvous
