import OpenPulse.ArdopPorts
import OpenPulse.Kiss
import OpenPulse.Runs

/-! The counter of bytes that wait for the modem worker: `tx_pending` of the KISS bridge
(`openpulse-kiss/src/server.rs`, `bridge.rs`) and of the ARDOP bridge
(`openpulse-ardop/src/data.rs`, `bridge.rs`). Every access of the counter and every operation
on the queue is a step of its own. -/
namespace OpenPulse.PendingBytes
open ByteCodec Runs

def queueBound : Nat := 64

/- Where the worker is with the frame it took: it loads the counter and subtracts what it saw,
at most the length of the frame. -/
inductive Worker where
  | between
  | holding (len : Nat)
  | loaded (operand : Nat)
  | gone
  deriving DecidableEq, Repr

structure Tx (Client : Type) where
  pending : Nat
  queue : List Bytes
  clients : List Client
  worker : Worker
  deriving DecidableEq, Repr

namespace Tx
variable {Client : Type}

def start : Tx Client := ⟨0,[],[],.between⟩

def recv (s : Tx Client) : Tx Client :=
  match s.worker, s.queue with
  | .between, data::rest => { s with queue := rest, worker := .holding data.length }
  | _, _ => s

def load (s : Tx Client) : Tx Client :=
  match s.worker with
  | .holding len => { s with worker := .loaded (min len s.pending) }
  | _ => s

def subtract (s : Tx Client) : Tx Client :=
  match s.worker with
  | .loaded operand => { s with pending := s.pending - operand, worker := .between }
  | _ => s

def exit (s : Tx Client) : Tx Client := { s with queue := [], worker := .gone }

def connect (idle : Client) (s : Tx Client) : Tx Client := { s with clients := s.clients ++ [idle] }

def full (s : Tx Client) : Bool := decide (queueBound ≤ s.queue.length)

def become (s : Tx Client) (i : Nat) (c : Client) : Tx Client := { s with clients := s.clients.set i c }

end Tx

inductive KissClient where
  | idle
  | adding (len : Nat)
  deriving DecidableEq, Repr

inductive KissEvent where
  | connect
  | trySend (client : Nat) (payload : Bytes)
  | add (client : Nat)
  | recv | load | subtract | exit
  deriving DecidableEq, Repr

/- A frame that is too large, or that finds the queue full, is dropped and not counted. -/
def kissTrySend (s : Tx KissClient) (i : Nat) (payload : Bytes) : Tx KissClient :=
  if payload.length ≤ Kiss.maxPayloadBytes ∧ s.full = false ∧ s.worker ≠ .gone then
    { s with queue := s.queue ++ [payload] }.become i (.adding payload.length)
  else s

def kissStep (s : Tx KissClient) : KissEvent → Tx KissClient
  | .connect => s.connect .idle
  | .trySend i payload => if s.clients[i]? = some .idle then kissTrySend s i payload else s
  | .add i =>
    match s.clients[i]? with
    | some (.adding len) => { s with pending := s.pending + len }.become i .idle
    | _ => s
  | .recv => s.recv
  | .load => s.load
  | .subtract => s.subtract
  | .exit => s.exit

inductive ArdopClient where
  | idle
  | sending (payload : Bytes)
  | failing (len : Nat)
  | failed (operand : Nat)
  | closed
  deriving DecidableEq, Repr

inductive ArdopEvent where
  | connect
  | add (client : Nat) (payload : Bytes)
  | send (client : Nat)
  | failLoad (client : Nat)
  | failSubtract (client : Nat)
  | recv | load | subtract | exit
  deriving DecidableEq, Repr

/- The send waits while the queue is full, and fails when the worker is gone. -/
def ardopSend (s : Tx ArdopClient) (i : Nat) (payload : Bytes) : Tx ArdopClient :=
  if s.worker = .gone then s.become i (.failing payload.length)
  else if s.full then s
  else { s with queue := s.queue ++ [payload] }.become i .idle

def ardopStep (s : Tx ArdopClient) : ArdopEvent → Tx ArdopClient
  | .connect => s.connect .idle
  | .add i payload =>
    if s.clients[i]? = some .idle ∧ payload.length ≤ ArdopPorts.maxFrameBytes then
      { s with pending := s.pending + payload.length }.become i (.sending payload)
    else s
  | .send i =>
    match s.clients[i]? with
    | some (.sending payload) => ardopSend s i payload
    | _ => s
  | .failLoad i =>
    match s.clients[i]? with
    | some (.failing len) => s.become i (.failed (min len s.pending))
    | _ => s
  | .failSubtract i =>
    match s.clients[i]? with
    | some (.failed operand) => { s with pending := s.pending - operand }.become i .closed
    | _ => s
  | .recv => s.recv
  | .load => s.load
  | .subtract => s.subtract
  | .exit => s.exit

def total {α : Type} (weight : α → Nat) : List α → Nat
  | [] => 0
  | x::rest => weight x + total weight rest

@[simp] theorem totalAppend {α : Type} (weight : α → Nat) (a b : List α) :
    total weight (a ++ b) = total weight a + total weight b := by
  induction a with
  | nil => simp [total]
  | cons x rest ih => simp [total, ih, Nat.add_assoc]

theorem totalSet {α : Type} (weight : α → Nat) {l : List α} {i : Nat} {x : α} (here : l[i]? = some x) (y : α) :
    total weight (l.set i y) + weight x = total weight l + weight y := by
  induction l generalizing i with
  | nil => simp at here
  | cons z rest ih =>
    cases i with
    | zero =>
      cases (show z = x by simpa using here)
      simp only [List.set_cons_zero, total]
      omega
    | succ i =>
      have later := ih (i := i) (by simpa using here)
      simp only [List.set_cons_succ, total]
      omega

theorem totalZero {α : Type} {weight : α → Nat} {l : List α} (none : ∀ x ∈ l, weight x = 0) : total weight l = 0 := by
  induction l with
  | nil => rfl
  | cons x rest ih =>
    obtain ⟨here,later⟩ := List.forall_mem_cons.mp none
    rw [total, here, ih later]

def Worker.owes : Worker → Nat
  | .between | .gone => 0
  | .holding len => len
  | .loaded operand => operand

def Tx.outstanding {Client : Type} (s : Tx Client) : Nat := total List.length s.queue + s.worker.owes

def Tx.Covered {Client : Type} (s : Tx Client) : Prop := ∀ operand, s.worker = .loaded operand → operand ≤ s.pending

def Tx.Counted {Client : Type} (s : Tx Client) : Prop := ∀ len, s.worker = .holding len → len ≤ s.pending

section Workers
variable {Client : Type} (s : Tx Client)

theorem recvKeeps : s.recv.pending = s.pending ∧ s.recv.clients = s.clients ∧ s.recv.outstanding = s.outstanding ∧
    (s.recv.worker = .gone ↔ s.worker = .gone) ∧ (s.Covered → s.recv.Covered) := by
  unfold Tx.recv
  split
  · rename_i data rest idle queued
    simp only [Tx.outstanding, idle, queued, total, Worker.owes, Tx.Covered]
    refine ⟨trivial,trivial,by omega,by simp,by simp⟩
  · exact ⟨rfl,rfl,rfl,Iff.rfl,id⟩

theorem loadKeeps : s.load.pending = s.pending ∧ s.load.clients = s.clients ∧ s.load.queue = s.queue ∧
    (s.load.worker = .gone ↔ s.worker = .gone) ∧ (s.Covered → s.load.Covered) := by
  unfold Tx.load
  split
  · rename_i len held
    refine ⟨rfl,rfl,rfl,by simp [held],?_⟩
    intro _ operand here
    cases here
    exact Nat.min_le_right _ _
  · exact ⟨rfl,rfl,rfl,Iff.rfl,id⟩

theorem loadOutstanding : (s.Counted → s.load.outstanding = s.outstanding) ∧
    (¬ s.Counted → s.load.outstanding < s.outstanding) := by
  unfold Tx.load Tx.Counted
  split
  · rename_i len held
    simp only [Tx.outstanding, held, Worker.owes, Worker.holding.injEq, forall_eq', Nat.not_le]
    refine ⟨?_,?_⟩
    · intro covers
      rw [Nat.min_eq_left covers]
    · intro short
      rw [Nat.min_eq_right (Nat.le_of_lt short)]
      omega
  · rename_i other
    exact ⟨fun _ => rfl,fun short => absurd (fun len held => absurd held (other len)) short⟩

theorem subtractKeeps (covered : s.Covered) : s.subtract.clients = s.clients ∧ s.subtract.queue = s.queue ∧
    s.subtract.pending + s.outstanding = s.pending + s.subtract.outstanding ∧
    (s.subtract.worker = .gone ↔ s.worker = .gone) ∧ s.subtract.Covered := by
  unfold Tx.subtract
  split
  · rename_i operand seen
    have enough := covered operand seen
    simp only [Tx.outstanding, seen, Worker.owes, Tx.Covered]
    refine ⟨trivial,trivial,by omega,by simp,by simp⟩
  · exact ⟨rfl,rfl,rfl,Iff.rfl,covered⟩

end Workers

def KissClient.owes : KissClient → Nat
  | .idle => 0
  | .adding len => len

def kissCounted (s : Tx KissClient) : Nat := s.pending + total KissClient.owes s.clients

/- A load comes when the counter holds the frame. -/
def InTime (s : Tx KissClient) (e : KissEvent) : Prop := e = .load → s.Counted

theorem notLoad {s : Tx KissClient} {e : KissEvent} (other : e ≠ .load) : InTime s e := fun here => absurd here other

theorem kissBalance {s : Tx KissClient} (e : KissEvent) (covered : s.Covered) :
    (kissStep s e).worker = .gone ∨
    (InTime s e ∧ kissCounted (kissStep s e) + s.outstanding = kissCounted s + (kissStep s e).outstanding) ∨
    (¬ InTime s e ∧ kissCounted s + (kissStep s e).outstanding < kissCounted (kissStep s e) + s.outstanding) := by
  cases e with
  | connect =>
    refine .inr (.inl ⟨notLoad KissEvent.noConfusion,?_⟩)
    simp [kissStep, Tx.connect, kissCounted, Tx.outstanding, total, KissClient.owes]
  | trySend i payload =>
    refine .inr (.inl ⟨notLoad KissEvent.noConfusion,?_⟩)
    rw [kissStep]
    split
    · rename_i idle
      rw [kissTrySend]
      split
      · have owed := totalSet KissClient.owes idle (.adding payload.length)
        simp only [Tx.become, kissCounted, Tx.outstanding, totalAppend, total, KissClient.owes] at owed ⊢
        omega
      · rfl
    · rfl
  | add i =>
    refine .inr (.inl ⟨notLoad KissEvent.noConfusion,?_⟩)
    rw [kissStep]
    split
    · rename_i len adding
      have owed := totalSet KissClient.owes adding .idle
      simp only [Tx.become, kissCounted, Tx.outstanding, KissClient.owes] at owed ⊢
      omega
    · rfl
  | recv =>
    refine .inr (.inl ⟨notLoad KissEvent.noConfusion,?_⟩)
    obtain ⟨pending,clients,outstanding,-,-⟩ := recvKeeps s
    rw [kissStep, kissCounted, kissCounted, pending, clients, outstanding]
  | load =>
    obtain ⟨pending,clients,-,-,-⟩ := loadKeeps s
    have kept : kissCounted s.load = kissCounted s := by rw [kissCounted, kissCounted, pending, clients]
    by_cases counted : s.Counted
    · refine .inr (.inl ⟨fun _ => counted,?_⟩)
      rw [kissStep, kept, (loadOutstanding s).1 counted]
    · refine .inr (.inr ⟨fun inTime => counted (inTime rfl),?_⟩)
      have less := (loadOutstanding s).2 counted
      rw [kissStep, kept]
      omega
  | subtract =>
    refine .inr (.inl ⟨notLoad KissEvent.noConfusion,?_⟩)
    obtain ⟨clients,-,balance,-,-⟩ := subtractKeeps s covered
    rw [kissStep, kissCounted, kissCounted, clients]
    omega
  | exit => exact .inl rfl

theorem kissCovered {s : Tx KissClient} (e : KissEvent) (covered : s.Covered) : (kissStep s e).Covered := by
  cases e with
  | connect => exact covered
  | trySend i payload =>
    rw [kissStep, kissTrySend]
    split
    · split <;> exact covered
    · exact covered
  | add i =>
    rw [kissStep]
    split
    · intro operand loaded
      exact Nat.le_add_right_of_le (covered operand loaded)
    · exact covered
  | recv => exact (recvKeeps s).2.2.2.2 covered
  | load => exact (loadKeeps s).2.2.2.2 covered
  | subtract => exact (subtractKeeps s covered).2.2.2.2
  | exit =>
    intro operand loaded
    cases loaded

theorem kissGone {s : Tx KissClient} (e : KissEvent) (gone : s.worker = .gone) : (kissStep s e).worker = .gone := by
  cases e with
  | connect => exact gone
  | trySend i payload =>
    rw [kissStep, kissTrySend]
    split
    · split <;> exact gone
    · exact gone
  | add i =>
    rw [kissStep]
    split <;> exact gone
  | recv => exact (recvKeeps s).2.2.2.1.mpr gone
  | load => exact (loadKeeps s).2.2.2.1.mpr gone
  | subtract =>
    have covered : s.Covered := fun operand loaded => by rw [gone] at loaded; cases loaded
    exact (subtractKeeps s covered).2.2.2.1.mpr gone
  | exit => rfl

theorem kissRunGone {s : Tx KissClient} (gone : s.worker = .gone) (es : List KissEvent) :
    (run kissStep s es).worker = .gone :=
  runInvariant (I := fun s : Tx KissClient => s.worker = .gone) (fun _ e => kissGone e) gone es

structure KissQuiet (s : Tx KissClient) : Prop where
  queue : s.queue = []
  clients : ∀ c ∈ s.clients, c = .idle
  worker : s.worker = .between

theorem kissQuietBooks {s : Tx KissClient} (quiet : KissQuiet s) : kissCounted s = s.pending ∧ s.outstanding = 0 := by
  have clients : total KissClient.owes s.clients = 0 := totalZero fun c inside => by rw [quiet.clients c inside]; rfl
  rw [kissCounted, clients, Tx.outstanding, quiet.queue, quiet.worker]
  exact ⟨rfl,rfl⟩

theorem kissOver {s : Tx KissClient} {es : List KissEvent} (covered : s.Covered) (more : s.outstanding < kissCounted s)
    (alive : (run kissStep s es).worker ≠ .gone) : (run kissStep s es).outstanding < kissCounted (run kissStep s es) := by
  induction es generalizing s with
  | nil => exact more
  | cons e rest ih =>
    rw [runCons] at alive ⊢
    rcases kissBalance e covered with gone | ⟨-,balance⟩ | ⟨-,balance⟩
    · exact absurd (kissRunGone gone rest) alive
    · exact ih (kissCovered e covered) (by omega) alive
    · exact ih (kissCovered e covered) (by omega) alive

theorem kissPending {s : Tx KissClient} {es : List KissEvent} (covered : s.Covered) (same : s.outstanding = kissCounted s)
    (quiet : KissQuiet (run kissStep s es)) :
    (run kissStep s es).pending = 0 ↔ EveryStep kissStep InTime s es := by
  have alive : (run kissStep s es).worker ≠ .gone := by
    rw [quiet.worker]
    exact Worker.noConfusion
  induction es generalizing s with
  | nil =>
    obtain ⟨counted,nothing⟩ := kissQuietBooks quiet
    simp only [runNil] at counted nothing
    simp only [runNil, EveryStep, iff_true]
    omega
  | cons e rest ih =>
    rw [runCons] at quiet alive ⊢
    rw [EveryStep]
    rcases kissBalance e covered with gone | ⟨kept,balance⟩ | ⟨late,balance⟩
    · exact absurd (kissRunGone gone rest) alive
    · have later := ih (kissCovered e covered) (by omega) quiet alive
      exact ⟨fun zero => ⟨kept,later.mp zero⟩,fun all => later.mpr all.2⟩
    · obtain ⟨counted,nothing⟩ := kissQuietBooks quiet
      have above := kissOver (kissCovered e covered) (by omega) alive
      rw [counted, nothing] at above
      constructor
      · intro zero
        omega
      · intro all
        exact absurd all.1 late

def ArdopClient.holds : ArdopClient → Nat
  | .idle | .closed => 0
  | .sending payload => payload.length
  | .failing len => len
  | .failed operand => operand

def ardopHeld (s : Tx ArdopClient) : Nat := total ArdopClient.holds s.clients + s.outstanding

/- Every byte is counted before it is queued. Only a worker that is gone takes queued bytes
with it that nobody subtracts. -/
structure ArdopBooks (s : Tx ArdopClient) : Prop where
  covers : ardopHeld s ≤ s.pending
  exact : s.worker ≠ .gone → ardopHeld s = s.pending

theorem ardopBecome {s : Tx ArdopClient} {i : Nat} {c : ArdopClient} (here : s.clients[i]? = some c) (d : ArdopClient) :
    ardopHeld (s.become i d) + c.holds = ardopHeld s + d.holds := by
  have clients := totalSet ArdopClient.holds here d
  simp only [ardopHeld, Tx.become, Tx.outstanding]
  omega

theorem holdsLess {s : Tx ArdopClient} {i : Nat} {c : ArdopClient} (here : s.clients[i]? = some c) :
    c.holds ≤ ardopHeld s := by
  have clients := totalSet ArdopClient.holds here .idle
  simp only [ardopHeld, ArdopClient.holds] at clients ⊢
  omega

theorem owesLess {s : Tx ArdopClient} : s.worker.owes ≤ ardopHeld s := by
  rw [ardopHeld, Tx.outstanding]
  omega

theorem ArdopBooks.counted {s : Tx ArdopClient} (books : ArdopBooks s) : s.Counted := by
  intro len held
  have owes := @owesLess s
  rw [held, Worker.owes] at owes
  exact Nat.le_trans owes books.covers

theorem ArdopBooks.covered {s : Tx ArdopClient} (books : ArdopBooks s) : s.Covered := by
  intro operand seen
  have owes := @owesLess s
  rw [seen, Worker.owes] at owes
  exact Nat.le_trans owes books.covers

theorem ArdopBooks.kept {s t : Tx ArdopClient} (books : ArdopBooks s)
    (balance : ardopHeld t + s.pending = ardopHeld s + t.pending) (gone : t.worker = .gone ↔ s.worker = .gone) :
    ArdopBooks t := by
  have covers := books.covers
  refine ⟨by omega,?_⟩
  intro alive
  have before := books.exact fun here => alive (gone.mpr here)
  omega

theorem ardopBooks {s : Tx ArdopClient} (e : ArdopEvent) (books : ArdopBooks s) : ArdopBooks (ardopStep s e) := by
  cases e with
  | connect =>
    refine books.kept ?_ Iff.rfl
    simp [ardopStep, Tx.connect, ardopHeld, Tx.outstanding, total, ArdopClient.holds]
  | add i payload =>
    rw [ardopStep]
    split
    · rename_i idle
      have clients := totalSet ArdopClient.holds idle.1 (.sending payload)
      refine books.kept ?_ Iff.rfl
      simp only [ardopHeld, Tx.become, Tx.outstanding, ArdopClient.holds] at clients ⊢
      omega
    · exact books
  | send i =>
    rw [ardopStep]
    split
    · rename_i payload waiting
      rw [ardopSend]
      split
      · have held := ardopBecome waiting (.failing payload.length)
        refine books.kept ?_ Iff.rfl
        simp only [ArdopClient.holds, Tx.become] at held ⊢
        omega
      · split
        · exact books
        · have clients := totalSet ArdopClient.holds waiting .idle
          refine books.kept ?_ Iff.rfl
          simp only [ardopHeld, Tx.become, Tx.outstanding, totalAppend, total, ArdopClient.holds] at clients ⊢
          omega
    · exact books
  | failLoad i =>
    rw [ardopStep]
    split
    · rename_i len failing
      have enough : len ≤ s.pending := Nat.le_trans (holdsLess failing) books.covers
      have held := ardopBecome failing (.failed len)
      refine books.kept ?_ Iff.rfl
      rw [Nat.min_eq_left enough]
      simp only [ArdopClient.holds, Tx.become] at held ⊢
      omega
    · exact books
  | failSubtract i =>
    rw [ardopStep]
    split
    · rename_i operand seen
      have enough : operand ≤ s.pending := Nat.le_trans (holdsLess seen) books.covers
      have clients := totalSet ArdopClient.holds seen .closed
      refine books.kept ?_ Iff.rfl
      simp only [ardopHeld, Tx.become, Tx.outstanding, ArdopClient.holds] at clients ⊢
      omega
    · exact books
  | recv =>
    obtain ⟨pending,clients,outstanding,gone,-⟩ := recvKeeps s
    refine books.kept ?_ gone
    rw [ardopStep, ardopHeld, ardopHeld, pending, clients, outstanding]
  | load =>
    obtain ⟨pending,clients,-,gone,-⟩ := loadKeeps s
    refine books.kept ?_ gone
    rw [ardopStep, ardopHeld, ardopHeld, pending, clients, (loadOutstanding s).1 books.counted]
  | subtract =>
    obtain ⟨clients,-,balance,gone,-⟩ := subtractKeeps s books.covered
    refine books.kept ?_ gone
    rw [ardopStep, ardopHeld, ardopHeld, clients]
    omega
  | exit =>
    have covers := books.covers
    refine ⟨?_,fun alive => absurd rfl alive⟩
    simp only [ardopStep, Tx.exit, ardopHeld, Tx.outstanding, total, Worker.owes] at covers ⊢
    omega

structure ArdopQuiet (s : Tx ArdopClient) : Prop where
  queue : s.queue = []
  clients : ∀ c ∈ s.clients, c = .idle ∨ c = .closed
  worker : s.worker = .between

theorem ardopPending {s : Tx ArdopClient} (books : ArdopBooks s) (quiet : ArdopQuiet s) : s.pending = 0 := by
  have alive : s.worker ≠ .gone := by
    rw [quiet.worker]
    exact Worker.noConfusion
  have clients : total ArdopClient.holds s.clients = 0 := totalZero fun c inside => by
    rcases quiet.clients c inside with rfl | rfl <;> rfl
  have held := books.exact alive
  rw [ardopHeld, clients, Tx.outstanding, quiet.queue, quiet.worker] at held
  exact held.symm

def KissUnderflows (s : Tx KissClient) (e : KissEvent) : Prop :=
  e = .subtract ∧ ∃ operand, s.worker = .loaded operand ∧ s.pending < operand

def ArdopUnderflows (s : Tx ArdopClient) (e : ArdopEvent) : Prop :=
  (e = .subtract ∧ ∃ operand, s.worker = .loaded operand ∧ s.pending < operand) ∨
    ∃ i operand, e = .failSubtract i ∧ s.clients[i]? = some (.failed operand) ∧ s.pending < operand

/- The counter of either bridge never underflows. The ARDOP bridge counts before it enqueues and
is always at zero when nothing is under way; the KISS bridge enqueues first, and is at zero then
exactly when the worker never looked at the counter before it held the frame. -/
theorem pendingBytes (kiss : List KissEvent) (ardop : List ArdopEvent) :
    (EveryStep kissStep (fun s e => ¬ KissUnderflows s e) Tx.start kiss ∧
      (KissQuiet (run kissStep Tx.start kiss) →
        ((run kissStep Tx.start kiss).pending = 0 ↔
          EveryStep kissStep InTime Tx.start kiss))) ∧
    (EveryStep ardopStep (fun s e => ¬ ArdopUnderflows s e) Tx.start ardop ∧
      (ArdopQuiet (run ardopStep Tx.start ardop) → (run ardopStep Tx.start ardop).pending = 0)) := by
  have start : (Tx.start : Tx KissClient).Covered := fun operand loaded => by cases loaded
  have begin : ArdopBooks (Tx.start : Tx ArdopClient) := ⟨Nat.le_refl _,fun _ => rfl⟩
  refine ⟨⟨?_,?_⟩,⟨?_,?_⟩⟩
  · refine everyStepAlways (I := Tx.Covered) (fun _ e => kissCovered e) ?_ start kiss
    rintro s e covered ⟨-,operand,loaded,short⟩
    exact absurd (covered operand loaded) (Nat.not_le.mpr short)
  · exact kissPending start rfl
  · refine everyStepAlways (I := ArdopBooks) (fun _ e => ardopBooks e) ?_ begin ardop
    rintro s e books (⟨-,operand,loaded,short⟩ | ⟨i,operand,-,seen,short⟩)
    · exact absurd (books.covered operand loaded) (Nat.not_le.mpr short)
    · exact absurd (Nat.le_trans (holdsLess seen) books.covers) (Nat.not_le.mpr short)
  · exact ardopPending (runInvariant (fun _ e => ardopBooks e) begin ardop)

def frame : Bytes := [0x48,0x49]

def kissCalm : List KissEvent := [.connect,.trySend 0 frame,.recv,.add 0,.load,.subtract]

def ardopCalm : List ArdopEvent := [.connect,.add 0 frame,.send 0,.recv,.load,.subtract]

theorem pendingBytesCalm :
    (run kissStep Tx.start kissCalm).pending = 0 ∧ (run ardopStep Tx.start ardopCalm).pending = 0 := by
  have inTime : EveryStep kissStep InTime Tx.start kissCalm := by
    simp only [EveryStep, kissCalm, InTime, Tx.Counted]
    simp only [reduceCtorEq, false_implies, true_and, and_true]
    intro _ len held
    cases held
    decide +kernel
  exact ⟨((pendingBytes kissCalm ardopCalm).1.2 ⟨by decide +kernel,by decide +kernel,by decide +kernel⟩).mpr inTime,
    (pendingBytes kissCalm ardopCalm).2.2 ⟨by decide +kernel,by decide +kernel,by decide +kernel⟩⟩

def kissLate : List KissEvent := [.connect,.trySend 0 frame,.recv,.load,.subtract,.add 0]

theorem kissLateLeaks : KissQuiet (run kissStep Tx.start kissLate) ∧ (run kissStep Tx.start kissLate).pending = 2 :=
  ⟨⟨by decide +kernel,by decide +kernel,by decide +kernel⟩,by decide +kernel⟩

end OpenPulse.PendingBytes
