import Mathlib.Algebra.Group.Nat.Defs
import OpenPulse.Grids

/-! `ScanPlanner` of `openpulse-modem/src/engine.rs`: at which samples of a growing buffer
the receiver tries to begin a frame, and where it takes up again behind an anchor that
proved undecodable. -/
namespace OpenPulse.Planner
open Grids

structure ScanPlanner where
  step : Nat
  minFrameSamples : Nat
  lastTriedEnd : Nat
  firstEnergyPos : Option Nat
  lastRetryAtSecs : Option Nat
  settleFailures : Nat
  settleFailureLimit : Nat
  deriving DecidableEq, Repr

def retryStartSecs : Nat := 12
def retryIntervalSecs : Nat := 2
def sweepOffsets : Nat := 9
def settleFailureLimit : Nat := 2 * sweepOffsets

def usizeMax : Nat := 2 ^ 64 - 1
def saturatingAdd (a b : Nat) : Nat := min (a + b) usizeMax

namespace ScanPlanner

def new (step minFrameSamples : Nat) : ScanPlanner := ⟨step,minFrameSamples,0,none,none,0,Planner.settleFailureLimit⟩

def noteSettleFailure (p : ScanPlanner) : Bool × ScanPlanner :=
  (decide (p.settleFailureLimit ≤ p.settleFailures + 1),{ p with settleFailures := p.settleFailures + 1 })

/- The swept span is a few symbols long: its product does not leave 64 bits. -/
def unsettle (p : ScanPlanner) : ScanPlanner :=
  let condemned := p.firstEnergyPos.getD 0
  let half := max (p.step / 2) 1
  let swept := (sweepOffsets - 1) * half
  { p with firstEnergyPos := none, settleFailures := 0, lastTriedEnd := saturatingAdd (saturatingAdd condemned swept) 1 }

def isSettled (p : ScanPlanner) : Bool := p.firstEnergyPos.isSome

def noteSettled (p : ScanPlanner) (pos : Nat) : ScanPlanner := { p with firstEnergyPos := some pos }

def scanPositions (p : ScanPlanner) (bufferLen : Nat) : List Nat :=
  grid (max p.step 1) p.lastTriedEnd (bufferLen - p.minFrameSamples)

def commitScan (p : ScanPlanner) (bufferLen : Nat) : ScanPlanner :=
  let newEnd := bufferLen - p.minFrameSamples
  if p.lastTriedEnd < newEnd then { p with lastTriedEnd := newEnd } else p

def retryReady (p : ScanPlanner) (elapsedSecs : Nat) : Bool :=
  match p.lastRetryAtSecs with
  | none => true
  | some t => decide (retryIntervalSecs ≤ elapsedSecs - t)

def retryDue (p : ScanPlanner) (elapsedSecs bufferLen : Nat) : Bool × ScanPlanner :=
  if bufferLen = 0 ∨ elapsedSecs < retryStartSecs then (false,p)
  else if p.retryReady elapsedSecs then (true,{ p with lastRetryAtSecs := some elapsedSecs })
  else (false,p)

end ScanPlanner

inductive Move where
  | scan (bufferLen : Nat)
  | settleFailure
  | retry (elapsedSecs bufferLen : Nat)
  | anchor (pos : Nat)
  deriving DecidableEq, Repr

def after (p : ScanPlanner) : Move → ScanPlanner
  | .scan bufferLen => p.commitScan bufferLen
  | .settleFailure => p.noteSettleFailure.2
  | .retry elapsedSecs bufferLen => (p.retryDue elapsedSecs bufferLen).2
  | .anchor pos => (p.noteSettled pos).unsettle

def scans (p : ScanPlanner) : List Move → List (Nat × List Nat)
  | [] => []
  | .scan bufferLen::moves => (bufferLen,p.scanPositions bufferLen) :: scans (after p (.scan bufferLen)) moves
  | move::moves => scans (after p move) moves

def offered (p : ScanPlanner) (moves : List Move) : List Nat := (scans p moves).flatMap Prod.snd

@[simp] theorem offeredNil (p : ScanPlanner) : offered p [] = [] := rfl

@[simp] theorem offeredScan (p : ScanPlanner) (bufferLen : Nat) (moves : List Move) :
    offered p (.scan bufferLen::moves) = p.scanPositions bufferLen ++ offered (p.commitScan bufferLen) moves := rfl

variable {p : ScanPlanner} {lens : List Nat}

theorem committed (p : ScanPlanner) (bufferLen : Nat) :
    p.commitScan bufferLen = { p with lastTriedEnd := max p.lastTriedEnd (bufferLen - p.minFrameSamples) } := by
  unfold ScanPlanner.commitScan
  dsimp only
  split
  next more => rw [Nat.max_eq_right (Nat.le_of_lt more)]
  next rest => rw [Nat.max_eq_left (Nat.not_lt.mp rest)]

theorem offeredBounds {q bufferLen : Nat} (member : q ∈ p.scanPositions bufferLen) :
    p.lastTriedEnd ≤ q ∧ q ≤ bufferLen - p.minFrameSamples :=
  have inside := (memGrid (Nat.lt_of_lt_of_le Nat.zero_lt_one (Nat.le_max_right _ _))).mp member
  ⟨inside.1,inside.2.1⟩

def Growing (p : ScanPlanner) (lens : List Nat) : Prop :=
  lens.Pairwise (· ≤ ·) ∧ ∀ bufferLen ∈ lens, p.lastTriedEnd ≤ bufferLen - p.minFrameSamples

theorem growingNew (step minFrameSamples : Nat) (growing : lens.Pairwise (· ≤ ·)) : Growing (.new step minFrameSamples) lens :=
  ⟨growing,fun _ _ => Nat.zero_le _⟩

theorem Growing.next {bufferLen : Nat} (growing : Growing p (bufferLen::lens)) :
    p.commitScan bufferLen = { p with lastTriedEnd := bufferLen - p.minFrameSamples } ∧
    Growing (p.commitScan bufferLen) lens := by
  obtain ⟨rises,reaches⟩ := growing
  obtain ⟨first,rest⟩ := List.pairwise_cons.mp rises
  have moved : p.commitScan bufferLen = { p with lastTriedEnd := bufferLen - p.minFrameSamples } := by
    rw [committed, Nat.max_eq_right (reaches bufferLen List.mem_cons_self)]
  refine ⟨moved,rest,fun later member => ?_⟩
  rw [moved]
  exact Nat.sub_le_sub_right (first later member) _

/-- No position twice, and every position with room for a minimal frame behind it. -/
def Fresh (p : ScanPlanner) (lens : List Nat) : Prop :=
  (offered p (lens.map .scan)).Nodup ∧
  ∀ t ∈ scans p (lens.map .scan), ∀ q ∈ t.2, q + p.minFrameSamples ≤ t.1

/-- The buffer holds a minimal frame, and the end of a scan is not the last position it offered unless it is the last scan. -/
def Clear (p : ScanPlanner) : List Nat → Prop
  | [] => True
  | bufferLen::lens => p.minFrameSamples ≤ bufferLen ∧
    (lens = [] ∨ ¬ p.step ∣ bufferLen - p.minFrameSamples - p.lastTriedEnd) ∧ Clear (p.commitScan bufferLen) lens

instance decidableClear : ∀ p lens, Decidable (Clear p lens)
  | _, [] => isTrue trivial
  | p, bufferLen::lens =>
    have : Decidable (Clear (p.commitScan bufferLen) lens) := decidableClear (p.commitScan bufferLen) lens
    inferInstanceAs (Decidable (_ ∧ _ ∧ _))

theorem offeredFrom (growing : Growing p lens) : ∀ q ∈ offered p (lens.map .scan), p.lastTriedEnd ≤ q := by
  induction lens generalizing p with
  | nil => exact fun q member => absurd member List.not_mem_nil
  | cons bufferLen lens ih =>
    intro q member
    obtain ⟨moved,rest⟩ := growing.next
    rw [List.map_cons, offeredScan] at member
    rcases List.mem_append.mp member with here | later
    · exact (offeredBounds here).1
    · have behind := ih rest q later
      rw [moved] at behind
      exact Nat.le_trans (growing.2 bufferLen List.mem_cons_self) behind

theorem freshIff (positive : 0 < p.step) (growing : Growing p lens) : Fresh p lens ↔ Clear p lens := by
  induction lens generalizing p with
  | nil => exact ⟨fun _ => trivial,fun _ => ⟨List.nodup_nil,fun t member => absurd member List.not_mem_nil⟩⟩
  | cons bufferLen lens ih =>
    obtain ⟨moved,rest⟩ := growing.next
    have reaches := growing.2 bufferLen List.mem_cons_self
    have step : max p.step 1 = p.step := Nat.max_eq_left positive
    have room : (∀ q ∈ p.scanPositions bufferLen, q + p.minFrameSamples ≤ bufferLen) ↔ p.minFrameSamples ≤ bufferLen := by
      constructor
      · intro fits
        have start := fits p.lastTriedEnd (List.mem_of_head? (gridHead reaches))
        omega
      · intro holds q member
        have upTo := (offeredBounds member).2
        omega
    have apart : (∀ a ∈ p.scanPositions bufferLen, ∀ b ∈ offered (p.commitScan bufferLen) (lens.map .scan), a ≠ b) ↔
        lens = [] ∨ ¬ p.step ∣ bufferLen - p.minFrameSamples - p.lastTriedEnd := by
      constructor
      · intro differ
        cases lens with
        | nil => exact .inl rfl
        | cons later lens =>
          refine .inr fun onGrid => ?_
          have last : bufferLen - p.minFrameSamples ∈ p.scanPositions bufferLen :=
            (memGrid (step.symm ▸ positive)).mpr ⟨reaches,Nat.le_refl _,step.symm ▸ onGrid⟩
          have again : bufferLen - p.minFrameSamples ∈ (p.commitScan bufferLen).scanPositions later := by
            have start := List.mem_of_head? (@gridHead (max p.step 1) _ _ (rest.2 later List.mem_cons_self))
            rw [moved] at start ⊢
            exact start
          exact differ _ last _ (List.mem_append_left _ again) rfl
      · rintro (none | offGrid) a member b later same
        · subst none
          cases later
        · -- what the two have in common is the end of the scan
          have upTo := offeredBounds member
          have behind := offeredFrom rest b later
          rw [moved] at behind
          have last : a = bufferLen - p.minFrameSamples := Nat.le_antisymm upTo.2 (same ▸ behind)
          have onGrid := ((memGrid (step.symm ▸ positive)).mp member).2.2
          rw [last, step] at onGrid
          exact offGrid onGrid
    have behind := @ih (p.commitScan bufferLen) (by rw [moved]; exact positive) rest
    have once : (p.scanPositions bufferLen).Nodup := gridOnce (step.symm ▸ positive)
    have kept : (p.commitScan bufferLen).minFrameSamples = p.minFrameSamples := by rw [moved]
    rw [Fresh, kept] at behind
    rw [Fresh, List.map_cons, offeredScan, List.nodup_append, scans, List.forall_mem_cons, Clear, apart, room, ← behind]
    constructor
    · rintro ⟨⟨-,distinct,gap⟩,fits,later⟩
      exact ⟨fits,gap,distinct,later⟩
    · rintro ⟨fits,gap,distinct,later⟩
      exact ⟨⟨once,distinct,gap⟩,fits,later⟩

theorem coveredScan (positive : 0 < p.step) (growing : Growing p lens) {bufferLen x : Nat} (member : bufferLen ∈ lens)
    (from' : p.lastTriedEnd ≤ x) (fits : x ≤ bufferLen - p.minFrameSamples) :
    ∃ q ∈ offered p (lens.map .scan), q ≤ x ∧ x < q + p.step := by
  induction lens generalizing p with
  | nil => cases member
  | cons first lens ih =>
    obtain ⟨moved,rest⟩ := growing.next
    have step : max p.step 1 = p.step := Nat.max_eq_left positive
    rw [List.map_cons, offeredScan]
    by_cases here : x ≤ first - p.minFrameSamples
    · obtain ⟨q,near,low,high⟩ := @gridNear (max p.step 1) _ _ x (step.symm ▸ positive) from' here
      rw [step] at high
      exact ⟨q,List.mem_append_left _ near,low,high⟩
    · have later : bufferLen ∈ lens := by
        rcases List.mem_cons.mp member with rfl | later
        · exact absurd fits here
        · exact later
      have kept := @ih (p.commitScan first) (by rw [moved]; exact positive) rest later
      rw [moved] at kept
      obtain ⟨q,near,low,high⟩ := kept (Nat.le_of_lt (Nat.not_le.mp here)) fits
      refine ⟨q,List.mem_append_right _ ?_,low,high⟩
      rw [moved]
      exact near

def sweptEnd (step pos : Nat) : Nat := pos + (sweepOffsets - 1) * (step / 2)

theorem unsettled {step : Nat} (two : 2 ≤ step) (p : ScanPlanner) (known : p.step = step) (pos : Nat) :
    ((p.noteSettled pos).unsettle).lastTriedEnd = min (sweptEnd step pos + 1) usizeMax := by
  have half : max (step / 2) 1 = step / 2 := Nat.max_eq_left (by omega)
  unfold ScanPlanner.unsettle ScanPlanner.noteSettled saturatingAdd sweptEnd
  dsimp only
  rw [known, half, Option.getD_some]
  omega

theorem retried (p : ScanPlanner) (elapsedSecs bufferLen : Nat) :
    ∃ at', (p.retryDue elapsedSecs bufferLen).2 = { p with lastRetryAtSecs := at' } := by
  rw [ScanPlanner.retryDue]
  split
  · exact ⟨_,rfl⟩
  · split <;> exact ⟨_,rfl⟩

theorem steady (p : ScanPlanner) (move : Move) : (after p move).step = p.step := by
  cases move with
  | scan bufferLen => rw [after, committed]
  | settleFailure => rfl
  | retry elapsedSecs bufferLen =>
    obtain ⟨at',fired⟩ := retried p elapsedSecs bufferLen
    rw [after, fired]
  | anchor pos => rfl

theorem endRises {step bound : Nat} (two : 2 ≤ step) (known : p.step = step) (move : Move)
    (later : ∀ pos, move = .anchor pos → bound ≤ min (sweptEnd step pos + 1) usizeMax) (behind : bound ≤ p.lastTriedEnd) :
    bound ≤ (after p move).lastTriedEnd := by
  cases move with
  | scan bufferLen =>
    rw [after, committed]
    exact Nat.le_trans behind (Nat.le_max_left _ _)
  | settleFailure => exact behind
  | retry elapsedSecs bufferLen =>
    obtain ⟨at',fired⟩ := retried p elapsedSecs bufferLen
    rw [after, fired]
    exact behind
  | anchor pos =>
    rw [after, unsettled two p known]
    exact later pos rfl

theorem offeredBehind {step bound : Nat} (two : 2 ≤ step) {moves : List Move} (known : p.step = step)
    (later : ∀ pos, .anchor pos ∈ moves → bound ≤ min (sweptEnd step pos + 1) usizeMax) (behind : bound ≤ p.lastTriedEnd) :
    ∀ q ∈ offered p moves, bound ≤ q ∧ ∃ bufferLen, .scan bufferLen ∈ moves ∧ q ≤ bufferLen := by
  induction moves generalizing p with
  | nil => exact fun q member => absurd member List.not_mem_nil
  | cons move moves ih =>
    intro q member
    have rest := @ih (after p move) ((steady p move).trans known) (fun pos inside => later pos (List.mem_cons_of_mem _ inside))
      (endRises two known move (fun pos here => later pos (here ▸ List.mem_cons_self)) behind)
    have onward : q ∈ offered (after p move) moves → bound ≤ q ∧ ∃ bufferLen, .scan bufferLen ∈ move::moves ∧ q ≤ bufferLen := by
      intro further
      obtain ⟨low,bufferLen,inside,high⟩ := rest q further
      exact ⟨low,bufferLen,List.mem_cons_of_mem _ inside,high⟩
    cases move with
    | scan bufferLen =>
      rw [offeredScan] at member
      rcases List.mem_append.mp member with here | further
      · obtain ⟨low,high⟩ := offeredBounds here
        exact ⟨Nat.le_trans behind low,bufferLen,List.mem_cons_self,Nat.le_trans high (Nat.sub_le _ _)⟩
      · exact onward further
    | settleFailure => exact onward member
    | retry elapsedSecs bufferLen => exact onward member
    | anchor pos => exact onward member

theorem firstOffered {bufferLen : Nat} (member : bufferLen ∈ lens) (room : p.lastTriedEnd ≤ bufferLen - p.minFrameSamples) :
    (offered p (lens.map .scan)).head? = some p.lastTriedEnd := by
  induction lens with
  | nil => cases member
  | cons first lens ih =>
    rw [List.map_cons, offeredScan]
    by_cases here : p.lastTriedEnd ≤ first - p.minFrameSamples
    · have start : (p.scanPositions first).head? = some p.lastTriedEnd := gridHead here
      rw [List.head?_append, start]
      rfl
    · have stays : p.commitScan first = p := by rw [committed, Nat.max_eq_left (Nat.le_of_lt (Nat.not_le.mp here))]
      have nothing : p.scanPositions first = [] := gridNil (Nat.not_le.mp here)
      rw [nothing, stays, List.nil_append]
      rcases List.mem_cons.mp member with rfl | later
      · exact absurd room here
      · exact ih later

/-- Behind a condemned anchor: nothing of the span its sweep has tried, also not after other anchors that do not stand before
it, and the first sample after that span first. -/
structure Reopened (p : ScanPlanner) (pos : Nat) : Prop where
  untried : ∀ moves : List Move, (∀ bufferLen, .scan bufferLen ∈ moves → bufferLen < usizeMax) →
    (∀ pos', .anchor pos' ∈ moves → pos ≤ pos') → ∀ q ∈ offered (p.noteSettled pos).unsettle moves, sweptEnd p.step pos < q
  next : ∀ lens : List Nat, (∀ bufferLen ∈ lens, bufferLen < usizeMax) →
    (∃ bufferLen ∈ lens, sweptEnd p.step pos + 1 + p.minFrameSamples ≤ bufferLen) →
    (offered (p.noteSettled pos).unsettle (lens.map .scan)).head? = some (sweptEnd p.step pos + 1)

theorem reopened (two : 2 ≤ p.step) (pos : Nat) : Reopened p pos := by
  have back := unsettled two p rfl pos
  refine ⟨fun moves short later q member => ?_,fun lens short ⟨bufferLen,inside,room⟩ => ?_⟩
  · have forward : ∀ pos', .anchor pos' ∈ moves → min (sweptEnd p.step pos + 1) usizeMax ≤ min (sweptEnd p.step pos' + 1) usizeMax := by
      intro pos' inside
      have order := later pos' inside
      unfold sweptEnd
      omega
    obtain ⟨low,bufferLen,inside,high⟩ :=
      @offeredBehind (p.noteSettled pos).unsettle p.step _ two moves rfl forward (Nat.le_of_eq back.symm) q member
    have below := short bufferLen inside
    omega
  · have below := short bufferLen inside
    have exact' : ((p.noteSettled pos).unsettle).lastTriedEnd = sweptEnd p.step pos + 1 := by
      rw [back]
      omega
    have first := firstOffered inside (show ((p.noteSettled pos).unsettle).lastTriedEnd ≤ bufferLen - p.minFrameSamples by omega)
    rwa [exact'] at first

/- A planner that is asked for positions without an anchor in between repeats the end of a scan exactly when it has offered it,
and asks for more than there is exactly of a buffer that is too short. -/
theorem scanPlanner {step minFrameSamples : Nat} (two : 2 ≤ step) {lens : List Nat} (growing : lens.Pairwise (· ≤ ·)) :
    (Fresh (.new step minFrameSamples) lens ↔ Clear (.new step minFrameSamples) lens) ∧
    (∀ bufferLen ∈ lens, ∀ x, x + minFrameSamples ≤ bufferLen →
      ∃ q ∈ offered (.new step minFrameSamples) (lens.map .scan), q ≤ x ∧ x ≤ q + (step - 1)) ∧
    ∀ p : ScanPlanner, p.step = step → ∀ pos, Reopened p pos := by
  have positive : 0 < step := by omega
  have grows := growingNew step minFrameSamples growing
  refine ⟨freshIff positive grows,fun bufferLen member x fits => ?_,fun p known pos => reopened (known.symm ▸ two) pos⟩
  obtain ⟨q,near,low,high⟩ := @coveredScan (.new step minFrameSamples) lens positive grows bufferLen x member (Nat.zero_le x)
    (Nat.le_sub_of_add_le fits)
  have close : x < q + step := high
  exact ⟨q,near,low,by omega⟩

theorem scanPlannerBuffered : Fresh (.new 32 1056) [3000,4000,4000] ∧
    (∃ q ∈ offered (.new 32 1056) ([3000,4000,4000].map .scan), q ≤ 2940 ∧ 2940 ≤ q + (32 - 1)) ∧
    (offered ((ScanPlanner.new 32 1056).noteSettled 84408).unsettle ([200000].map .scan)).head? = some 84537 :=
  have both := @scanPlanner 32 1056 (by decide) [3000,4000,4000] (by decide)
  ⟨both.1.mpr (by decide),both.2.1 4000 (by decide) 2940 (by decide),
    (both.2.2 (.new 32 1056) rfl 84408).next [200000] (by decide) ⟨200000,by decide,by decide⟩⟩

theorem endOfferedTwice : ¬ (offered (.new 32 1056) [.scan 3008,.scan 3008]).Nodup ∧
    ∃ q ∈ offered (.new 32 1056) [.scan 500], 500 < q + 1056 := by
  decide +kernel

end OpenPulse.Planner
