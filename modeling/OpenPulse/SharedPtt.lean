import Mathlib.Algebra.Group.Nat.Defs
import Mathlib.Data.Nat.Basic

/-! The watchdog-protected transmitter key: `openpulse-radio/src/shared_ptt.rs`.
Every function below is one acquisition of the lock, except `unkeyOwned` and
`keyed`, which take it twice in the source and are composed here from their two
critical sections. A hardware call is told by its caller whether it works; a
call that fails leaves the line as it was. Instants are natural numbers, the
generation is a `u64` that wraps. -/
namespace OpenPulse.SharedPtt

inductive PttError where
  | hardware
  | alreadyKeyed (heldBy : String)
  deriving DecidableEq, Repr

inductive UnkeyOutcome where
  | released | notKeyed | failed
  deriving DecidableEq, Repr

structure PttInner where
  controller : Bool
  assertedAt : Option Nat
  maxDuration : Nat
  stuckWarned : Bool
  generation : Nat
  heldBy : String
  deriving DecidableEq, Repr

/- The locked state with what it acts on: the hardware line, the calls made on
the controller, and the edges the observer was given, oldest first. -/
structure Station where
  inner : PttInner
  line : Bool
  hardwareCalls : Nat
  edges : List Bool
  deriving DecidableEq, Repr

structure PttKeyGuard where
  observer : Bool
  released : Bool
  generation : Nat
  deriving DecidableEq, Repr

def wrappingInc (n : Nat) : Nat := (n + 1) % 2 ^ 64

def new (controller : Bool) (maxDuration : Nat) : Station where
  inner := ⟨controller,none,maxDuration,false,0,"nobody"⟩
  line := false
  hardwareCalls := 0
  edges := []

namespace Station
variable (s : Station)

def armed : Bool := s.inner.assertedAt.isSome

def assertPtt (works : Bool) : Bool × Station :=
  if s.inner.controller then
    (works, { s with line := works || s.line, hardwareCalls := s.hardwareCalls + 1 })
  else (true, s)

def releasePtt (works : Bool) : Bool × Station :=
  if s.inner.controller then
    (works, { s with line := !works && s.line, hardwareCalls := s.hardwareCalls + 1 })
  else (true, s)

def pttChanged (observer active : Bool) : Station :=
  if observer then { s with edges := s.edges ++ [active] } else s

def keyAs (who : String) (observer : Bool) (now : Nat) (works : Bool) : Except PttError Unit × Station :=
  if s.armed then (.error (.alreadyKeyed s.inner.heldBy), s)
  else match s.assertPtt works with
    | (false, s) => (.error .hardware, s)
    | (true, s) =>
      let s := { s with inner := { s.inner with
        heldBy := who, assertedAt := some now, stuckWarned := false,
        generation := wrappingInc s.inner.generation } }
      (.ok (), s.pttChanged observer true)

def generation : Nat := s.inner.generation

def owns (generation : Nat) : Bool := s.inner.generation == generation && s.armed

def unkey (observer works : Bool) : UnkeyOutcome × Station :=
  match s.releasePtt works with
  | (false, s) => (.failed, s)
  | (true, s) =>
    let wasArmed := s.armed
    let s := { s with inner := { s.inner with stuckWarned := false, heldBy := "nobody", assertedAt := none } }
    if wasArmed then (.released, s.pttChanged observer false) else (.notKeyed, s)

def unkeyOwned (observer : Bool) (generation : Nat) (works : Bool) : UnkeyOutcome × Station :=
  if s.owns generation then s.unkey observer works else (.notKeyed, s)

def extendOwned (generation now : Nat) : Bool × Station :=
  if s.owns generation then (true, { s with inner := { s.inner with assertedAt := some now } })
  else (false, s)

def keyed (observer : Bool) (now : Nat) (works : Bool) : Except PttError PttKeyGuard × Station :=
  match s.keyAs "automatic" observer now works with
  | (.error e, s) => (.error e, s)
  | (.ok (), s) => (.ok ⟨observer,false,s.generation⟩, s)

def forceRelease (observer works : Bool) : UnkeyOutcome × Station :=
  match s.releasePtt works with
  | (false, s) => (.failed, s)
  | (true, s) =>
    let wasArmed := s.armed
    let s := { s with inner := { s.inner with
      assertedAt := none, stuckWarned := false,
      generation := wrappingInc s.inner.generation, heldBy := "nobody" } }
    if wasArmed then (.released, s.pttChanged observer false) else (.notKeyed, s)

/-- `Instant::elapsed` saturates, as subtraction of natural numbers does. -/
def expired (now : Nat) : Bool := s.inner.assertedAt.any (fun t => s.inner.maxDuration ≤ now - t)

def forceReleaseIfExpired (observer : Bool) (now : Nat) (works : Bool) : Bool × Station :=
  if s.expired now then
    match s.releasePtt works with
    | (false, s) => (false, { s with inner := { s.inner with stuckWarned := true } })
    | (true, s) =>
      let s := { s with inner := { s.inner with
        assertedAt := none, stuckWarned := false, heldBy := "nobody",
        generation := wrappingInc s.inner.generation } }
      (true, s.pttChanged observer false)
  else (false, s)

end Station

namespace PttKeyGuard

def releaseInner (g : PttKeyGuard) (s : Station) (works : Bool) : UnkeyOutcome × PttKeyGuard × Station :=
  if g.released then (.notKeyed, g, s)
  else
    let (outcome, s) := s.unkeyOwned g.observer g.generation works
    (outcome, { g with released := true }, s)

def isLive (g : PttKeyGuard) (s : Station) : Bool := !g.released && s.owns g.generation

def extend (g : PttKeyGuard) (s : Station) (now : Nat) : Bool × Station :=
  if g.released then (false, s) else s.extendOwned g.generation now

end PttKeyGuard

inductive Moved (a b : PttInner) : Prop where
  | quiet (stamp : b.generation = a.generation) (deadline : b.assertedAt.isSome = a.assertedAt.isSome)
  | keyed (idle : a.assertedAt = none) (armed : b.assertedAt.isSome = true)
      (stamp : b.generation = wrappingInc a.generation)
  | unkeyed (idle : b.assertedAt = none) (stamp : b.generation = a.generation)
  | forced (idle : b.assertedAt = none) (stamp : b.generation = wrappingInc a.generation)

theorem movedRefl (a : PttInner) : Moved a a := .quiet rfl rfl

@[simp] theorem assertPttInner (s : Station) (works : Bool) : (s.assertPtt works).2.inner = s.inner := by
  unfold Station.assertPtt
  split <;> rfl

@[simp] theorem releasePttInner (s : Station) (works : Bool) : (s.releasePtt works).2.inner = s.inner := by
  unfold Station.releasePtt
  split <;> rfl

theorem assertPttFailed {s t : Station} {works : Bool} (call : s.assertPtt works = (false, t)) :
    s.inner.controller = true ∧ works = false ∧ t = { s with hardwareCalls := s.hardwareCalls + 1 } := by
  unfold Station.assertPtt at call
  split at call
  · rename_i controller
    obtain ⟨rfl,rfl⟩ := Prod.mk.inj call
    exact ⟨controller,rfl,by simp⟩
  · cases call

theorem assertPttWorked {s t : Station} {works : Bool} (call : s.assertPtt works = (true, t)) :
    t.inner = s.inner ∧ t.edges = s.edges ∧
      (t.line = true → s.line = true ∨ s.inner.controller = true) := by
  unfold Station.assertPtt at call
  split at call
  · rename_i controller
    obtain ⟨rfl,rfl⟩ := Prod.mk.inj call
    exact ⟨rfl,rfl,fun _ => .inr controller⟩
  · obtain ⟨-,rfl⟩ := Prod.mk.inj call
    exact ⟨rfl,rfl,.inl⟩

theorem releasePttFailed {s t : Station} {works : Bool} (call : s.releasePtt works = (false, t)) :
    s.inner.controller = true ∧ works = false ∧ t = { s with hardwareCalls := s.hardwareCalls + 1 } := by
  unfold Station.releasePtt at call
  split at call
  · rename_i controller
    obtain ⟨rfl,rfl⟩ := Prod.mk.inj call
    exact ⟨controller,rfl,by simp⟩
  · cases call

theorem releasePttWorked {s t : Station} {works : Bool} (call : s.releasePtt works = (true, t)) :
    t.inner = s.inner ∧ t.edges = s.edges ∧
      (t.line = true → s.line = true ∧ s.inner.controller = false) := by
  unfold Station.releasePtt at call
  split at call
  · obtain ⟨rfl,rfl⟩ := Prod.mk.inj call
    exact ⟨rfl,rfl,by simp⟩
  · rename_i controller
    obtain ⟨-,rfl⟩ := Prod.mk.inj call
    exact ⟨rfl,rfl,fun line => ⟨line,by simpa using controller⟩⟩

@[simp] theorem pttChangedInner (s : Station) (observer active : Bool) :
    (s.pttChanged observer active).inner = s.inner := by
  unfold Station.pttChanged
  split <;> rfl

theorem keyAsMoved (s : Station) (who : String) (observer : Bool) (now : Nat) (works : Bool) :
    Moved s.inner (s.keyAs who observer now works).2.inner := by
  unfold Station.keyAs
  split
  · exact movedRefl _
  · rename_i idle
    have idle : s.inner.assertedAt = none := by simpa [Station.armed] using idle
    have inner := assertPttInner s works
    cases call : s.assertPtt works with
    | mk ok t =>
      rw [call] at inner
      replace inner : t.inner = s.inner := inner
      cases ok with
      | false => simpa [inner] using movedRefl s.inner
      | true => exact .keyed idle (by simp) (by simp [inner])

theorem unkeyMoved (s : Station) (observer works : Bool) :
    Moved s.inner (s.unkey observer works).2.inner := by
  unfold Station.unkey
  have inner := releasePttInner s works
  cases call : s.releasePtt works with
  | mk ok t =>
    rw [call] at inner
    replace inner : t.inner = s.inner := inner
    cases ok with
    | false => simpa [inner] using movedRefl s.inner
    | true =>
      dsimp only
      split
      · exact .unkeyed (by simp) (by simp [inner])
      · exact .unkeyed rfl (by simp [inner])

theorem unkeyOwnedMoved (s : Station) (observer : Bool) (generation : Nat) (works : Bool) :
    Moved s.inner (s.unkeyOwned observer generation works).2.inner := by
  unfold Station.unkeyOwned
  split
  · exact unkeyMoved s observer works
  · exact movedRefl _

theorem extendOwnedMoved (s : Station) (generation now : Nat) :
    Moved s.inner (s.extendOwned generation now).2.inner := by
  unfold Station.extendOwned
  split
  · rename_i owner
    have armed : s.inner.assertedAt.isSome = true := by
      simp only [Station.owns, Bool.and_eq_true] at owner
      exact owner.2
    exact .quiet rfl (by simp [armed])
  · exact movedRefl _

theorem forceReleaseMoved (s : Station) (observer works : Bool) :
    Moved s.inner (s.forceRelease observer works).2.inner := by
  unfold Station.forceRelease
  have inner := releasePttInner s works
  cases call : s.releasePtt works with
  | mk ok t =>
    rw [call] at inner
    replace inner : t.inner = s.inner := inner
    cases ok with
    | false => simpa [inner] using movedRefl s.inner
    | true =>
      dsimp only
      split
      · exact .forced (by simp) (by simp [inner])
      · exact .forced rfl (by simp [inner])

theorem forceReleaseIfExpiredMoved (s : Station) (observer : Bool) (now : Nat) (works : Bool) :
    Moved s.inner (s.forceReleaseIfExpired observer now works).2.inner := by
  unfold Station.forceReleaseIfExpired
  split
  · have inner := releasePttInner s works
    cases call : s.releasePtt works with
    | mk ok t =>
      rw [call] at inner
      replace inner : t.inner = s.inner := inner
      cases ok with
      | false => exact .quiet (by simp [inner]) (by simp [inner])
      | true => exact .forced (by simp) (by simp [inner])
  · exact movedRefl _

theorem keyAsArmed {s : Station} (armed : s.armed = true) (who : String) (observer : Bool) (now : Nat) (works : Bool) :
    s.keyAs who observer now works = (.error (.alreadyKeyed s.inner.heldBy),s) := by
  rw [Station.keyAs, if_pos armed]

theorem unkeyIdle {s : Station} (observer works : Bool) (idle : s.inner.assertedAt = none) :
    (s.unkey observer works).2.inner.assertedAt = none := by
  unfold Station.unkey
  have inner := releasePttInner s works
  cases call : s.releasePtt works with
  | mk ok t =>
    rw [call] at inner
    cases ok with
    | false =>
      dsimp only at inner ⊢
      rw [inner]
      exact idle
    | true =>
      dsimp only
      split
      · rw [pttChangedInner]
      · rfl

theorem expiredIdle {s : Station} (observer : Bool) (now : Nat) (works : Bool) (idle : s.inner.assertedAt = none) :
    (s.forceReleaseIfExpired observer now works).2.inner.assertedAt = none := by
  have early : s.expired now = false := by rw [Station.expired, idle]; rfl
  rw [Station.forceReleaseIfExpired, early]
  exact idle

/- The generation is the code's name for a key and wraps; the ledger's epoch counts
the same changes without wrapping, so a key is named once and for all by the
epoch at which it was asserted. The ledger only watches the locked state. -/
structure Ledger where
  epoch : Nat
  live : Option Nat
  deriving DecidableEq, Repr

def Ledger.follow (l : Ledger) (a b : PttInner) : Ledger :=
  let epoch := if b.generation = a.generation then l.epoch else l.epoch + 1
  { epoch, live := match a.assertedAt, b.assertedAt with
      | _, none => none
      | none, some _ => some epoch
      | some _, some _ => l.live }

structure Booked (l : Ledger) (a : PttInner) : Prop where
  stamp : a.generation = l.epoch % 2 ^ 64
  live : l.live = a.assertedAt.map (fun _ => l.epoch)

theorem wrappingIncNe {l : Ledger} {a : PttInner} (book : Booked l a) :
    wrappingInc a.generation ≠ a.generation := by
  have stamp := book.stamp
  unfold wrappingInc
  omega

theorem wrappingIncEpoch {l : Ledger} {a : PttInner} (book : Booked l a) :
    wrappingInc a.generation = (l.epoch + 1) % 2 ^ 64 := by
  have stamp := book.stamp
  unfold wrappingInc
  omega

theorem followEpochBumped {l : Ledger} {a b : PttInner} (book : Booked l a)
    (stamp : b.generation = wrappingInc a.generation) : (l.follow a b).epoch = l.epoch + 1 := by
  have differs : b.generation ≠ a.generation := by
    rw [stamp]
    exact wrappingIncNe book
  simp [Ledger.follow, differs]

theorem followBooked {l : Ledger} {a b : PttInner} (book : Booked l a) (moved : Moved a b) :
    Booked (l.follow a b) b := by
  have next := wrappingIncEpoch book
  cases moved with
  | quiet stamp deadline =>
    refine ⟨by simp [Ledger.follow, stamp, book.stamp],?_⟩
    have live := book.live
    cases before : a.assertedAt <;> cases after : b.assertedAt <;>
      simp_all [Ledger.follow]
  | keyed idle armed stamp =>
    obtain ⟨t,after⟩ := Option.isSome_iff_exists.mp armed
    refine ⟨by rw [followEpochBumped book stamp, stamp, next],?_⟩
    simp [Ledger.follow, idle, after]
  | unkeyed idle stamp => exact ⟨by simp [Ledger.follow, stamp, book.stamp],by simp [Ledger.follow, idle]⟩
  | forced idle stamp =>
    exact ⟨by rw [followEpochBumped book stamp, stamp, next],by simp [Ledger.follow, idle]⟩

theorem ownsLive {l : Ledger} {s : Station} {key : Nat} (book : Booked l s.inner)
    (owner : s.owns (key % 2 ^ 64) = true) (old : key ≤ l.epoch) (turn : l.epoch < key + 2 ^ 64) :
    l.live = some key := by
  simp only [Station.owns, Station.armed, Bool.and_eq_true, beq_iff_eq, Option.isSome_iff_exists] at owner
  obtain ⟨stamp,t,armed⟩ := owner
  have here : l.epoch = key := by
    have := book.stamp
    omega
  rw [book.live, armed, here]
  rfl

theorem followLive {l : Ledger} {a b : PttInner} (book : Booked l a) (moved : Moved a b) :
    l.epoch ≤ (l.follow a b).epoch ∧
      ∀ e ≤ l.epoch, (l.follow a b).live = some e → l.live = some e := by
  have live := book.live
  cases moved with
  | quiet stamp deadline =>
    refine ⟨by simp [Ledger.follow, stamp],?_⟩
    intro e _ now
    cases before : a.assertedAt <;> cases after : b.assertedAt <;>
      simp_all [Ledger.follow]
  | keyed idle armed stamp =>
    obtain ⟨t,after⟩ := Option.isSome_iff_exists.mp armed
    have bumped := followEpochBumped book stamp
    refine ⟨by omega,?_⟩
    intro e old now
    have fresh : (l.follow a b).live = some (l.follow a b).epoch := by simp [Ledger.follow, idle, after]
    rw [fresh, Option.some.injEq] at now
    omega
  | unkeyed idle stamp => exact ⟨by simp [Ledger.follow, stamp],by simp [Ledger.follow, idle]⟩
  | forced idle stamp =>
    have bumped := followEpochBumped book stamp
    exact ⟨by omega,by simp [Ledger.follow, idle]⟩

end OpenPulse.SharedPtt
