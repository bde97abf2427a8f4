import Mathlib.Logic.Function.Basic
import OpenPulse.Runs
import OpenPulse.SharedPtt

/-! Concurrent runs of the transmitter key. A step is one acquisition of the
lock: `keyed` takes it in `key_as` and again in `generation`, a guard's release
takes it in the check of `unkey_owned` and again in `unkey`, and the steps of
any number of holders, of the watchdog and of the operator may come between.
The ledger names every key by its epoch and is read by no step. -/
namespace OpenPulse.PttSchedule
open Runs SharedPtt

/-- Where a holder stands between its lock acquisitions; `own` is the key its `keyed` asserted. -/
inductive Phase where
  | idle
  | keyed (observer : Bool) (own : Nat)
  | holding (guard : PttKeyGuard) (own : Nat)
  | releasing (guard : PttKeyGuard) (own : Nat)
  deriving DecidableEq, Repr

structure System (H : Type) where
  station : Station
  phase : H → Phase
  ledger : Ledger

inductive Step (H : Type) where
  | keyedKey (h : H) (observer : Bool) (now : Nat) (works : Bool)
  | keyedGeneration (h : H)
  | releaseCheck (h : H)
  | releaseUnkey (h : H) (works : Bool)
  | extend (h : H) (now : Nat)
  | keyAs (who : String) (observer : Bool) (now : Nat) (works : Bool)
  | unkey (observer works : Bool)
  | forceRelease (observer works : Bool)
  | forceReleaseIfExpired (observer : Bool) (now : Nat) (works : Bool)
  deriving DecidableEq, Repr

variable {H : Type} [DecidableEq H]

def idle (controller : Bool) (maxDuration : Nat) : System H :=
  ⟨new controller maxDuration,fun _ => .idle,⟨0,none⟩⟩

def System.moveTo (y : System H) (s : Station) : System H :=
  { y with station := s, ledger := y.ledger.follow y.station.inner s.inner }

def System.enter (y : System H) (h : H) (p : Phase) : System H :=
  { y with phase := Function.update y.phase h p }

def step (y : System H) : Step H → System H
  | .keyedKey h observer now works =>
    match y.phase h with
    | .idle =>
      match y.station.keyAs "automatic" observer now works with
      | (.error _, s) => y.moveTo s
      | (.ok (), s) =>
        let y := y.moveTo s
        y.enter h (.keyed observer y.ledger.epoch)
    | _ => y
  | .keyedGeneration h =>
    match y.phase h with
    | .keyed observer own => y.enter h (.holding ⟨observer,false,y.station.generation⟩ own)
    | _ => y
  | .releaseCheck h =>
    match y.phase h with
    | .holding g own =>
      if y.station.owns g.generation then y.enter h (.releasing { g with released := true } own)
      else y.enter h .idle
    | _ => y
  | .releaseUnkey h works =>
    match y.phase h with
    | .releasing g _ => (y.moveTo (y.station.unkey g.observer works).2).enter h .idle
    | _ => y
  | .extend h now =>
    match y.phase h with
    | .holding g _ => y.moveTo (g.extend y.station now).2
    | _ => y
  | .keyAs who observer now works => y.moveTo (y.station.keyAs who observer now works).2
  | .unkey observer works => y.moveTo (y.station.unkey observer works).2
  | .forceRelease observer works => y.moveTo (y.station.forceRelease observer works).2
  | .forceReleaseIfExpired observer now works =>
    y.moveTo (y.station.forceReleaseIfExpired observer now works).2

def releasesFor (y : System H) : Step H → Option Nat
  | .releaseCheck h | .releaseUnkey h _ =>
    match y.phase h with
    | .holding _ own | .releasing _ own => some own
    | _ => none
  | _ => none

def OwnKeyOnly (y : System H) (a : Step H) : Prop :=
  releasesFor y a = none ∨ releasesFor y a = y.ledger.live ∨ (step y a).station = y.station

instance (y : System H) (a : Step H) : Decidable (OwnKeyOnly y a) :=
  inferInstanceAs (Decidable (_ ∨ _ ∨ _))

/- The two windows between critical sections. Nobody else's key is live when a
holder reads its generation, and the check of a release would still pass when
its unkey runs, less than a full turn of the counter after the key. -/
def undisturbed (y : System H) : Step H → Bool
  | .keyedGeneration h =>
    match y.phase h with
    | .keyed _ own => y.ledger.live = none ∨ y.ledger.live = some own
    | _ => true
  | .releaseUnkey h _ =>
    match y.phase h with
    | .releasing g own => y.station.owns g.generation ∧ y.ledger.epoch < own + 2 ^ 64
    | _ => true
  | _ => true

def Named (l : Ledger) : Phase → Prop
  | .idle => True
  | .keyed _ own => own ≤ l.epoch
  | .holding g own | .releasing g own =>
    ∃ e, g.generation = e % 2 ^ 64 ∧ own ≤ e ∧ e ≤ l.epoch ∧ (e = own ∨ l.live ≠ some e)

structure Sound (y : System H) : Prop where
  book : Booked y.ledger y.station.inner
  named : ∀ h, Named y.ledger (y.phase h)

theorem namedFollow {l : Ledger} {a b : PttInner} (book : Booked l a) (moved : Moved a b) {p : Phase}
    (named : Named l p) : Named (l.follow a b) p := by
  obtain ⟨older,never⟩ := followLive book moved
  have keep : ∀ e own, e ≤ l.epoch → (e = own ∨ l.live ≠ some e) →
      e = own ∨ (l.follow a b).live ≠ some e := by
    intro e own old apart
    rcases apart with same | dead
    · exact .inl same
    · exact .inr (fun now => dead (never e old now))
  cases p with
  | idle => trivial
  | keyed observer own => exact le_trans (show own ≤ l.epoch from named) older
  | holding g own =>
    obtain ⟨e,stamp,above,old,apart⟩ := named
    exact ⟨e,stamp,above,le_trans old older,keep e own old apart⟩
  | releasing g own =>
    obtain ⟨e,stamp,above,old,apart⟩ := named
    exact ⟨e,stamp,above,le_trans old older,keep e own old apart⟩

omit [DecidableEq H] in
theorem moveToSound {y : System H} {s : Station} (sound : Sound y) (moved : Moved y.station.inner s.inner) :
    Sound (y.moveTo s) :=
  ⟨followBooked sound.book moved,fun h => namedFollow sound.book moved (sound.named h)⟩

theorem enterSound {y : System H} (sound : Sound y) {h : H} {p : Phase} (named : Named y.ledger p) :
    Sound (y.enter h p) := by
  refine ⟨sound.book,fun k => ?_⟩
  simp only [System.enter, Function.update_apply]
  split
  · exact named
  · exact sound.named k

theorem keyedKeySound {y : System H} (sound : Sound y) (h : H) (observer : Bool) (now : Nat) (works : Bool) :
    Sound (step y (.keyedKey h observer now works)) := by
  have moved := keyAsMoved y.station "automatic" observer now works
  simp only [step]
  split
  · cases call : y.station.keyAs "automatic" observer now works with
    | mk result s =>
      rw [call] at moved
      have next := moveToSound sound moved
      cases result with
      | error e => exact next
      | ok u => exact enterSound next (le_refl (y.moveTo s).ledger.epoch)
  · exact sound

theorem keyedGenerationSound {y : System H} (sound : Sound y) (h : H)
    (alone : undisturbed y (.keyedGeneration h) = true) : Sound (step y (.keyedGeneration h)) := by
  have old := sound.named h
  simp only [step]
  simp only [undisturbed] at alone
  split
  · rename_i observer own stage
    rw [stage] at old alone
    refine enterSound sound ⟨y.ledger.epoch,sound.book.stamp,old,le_refl _,?_⟩
    have live := sound.book.live
    rcases of_decide_eq_true alone with none | own
    · exact .inr (by simp [none])
    · cases armed : y.station.inner.assertedAt with
      | none => simp [live, armed] at own
      | some t =>
        simp only [live, armed, Option.map_some, Option.some.injEq] at own
        exact .inl own
  · exact sound

theorem releaseCheckSound {y : System H} (sound : Sound y) (h : H) : Sound (step y (.releaseCheck h)) := by
  have old := sound.named h
  simp only [step]
  split
  · rename_i g own stage
    rw [stage] at old
    split
    · exact enterSound sound old
    · exact enterSound sound trivial
  · exact sound

theorem stepSound (y : System H) (a : Step H) (sound : Sound y) (alone : undisturbed y a = true) :
    Sound (step y a) := by
  cases a with
  | keyedKey h observer now works => exact keyedKeySound sound h observer now works
  | keyedGeneration h => exact keyedGenerationSound sound h alone
  | releaseCheck h => exact releaseCheckSound sound h
  | releaseUnkey h works =>
    simp only [step]
    split
    · exact enterSound (moveToSound sound (unkeyMoved _ _ _)) trivial
    · exact sound
  | extend h now =>
    simp only [step, PttKeyGuard.extend]
    split
    · split
      · exact moveToSound sound (movedRefl _)
      · exact moveToSound sound (extendOwnedMoved _ _ _)
    · exact sound
  | keyAs who observer now works => exact moveToSound sound (keyAsMoved _ _ _ _ _)
  | unkey observer works => exact moveToSound sound (unkeyMoved _ _ _)
  | forceRelease observer works => exact moveToSound sound (forceReleaseMoved _ _ _)
  | forceReleaseIfExpired observer now works =>
    exact moveToSound sound (forceReleaseIfExpiredMoved _ _ _ _)

omit [DecidableEq H] in
theorem idleSound (controller : Bool) (maxDuration : Nat) :
    Sound (idle controller maxDuration : System H) := ⟨⟨rfl,rfl⟩,fun _ => trivial⟩

theorem stepOwnKeyOnly (y : System H) (a : Step H) (sound : Sound y) (alone : undisturbed y a = true) :
    OwnKeyOnly y a := by
  cases a with
  | releaseCheck h =>
    refine .inr (.inr ?_)
    simp only [step]
    split
    · split <;> rfl
    · rfl
  | releaseUnkey h works =>
    have named := sound.named h
    simp only [undisturbed] at alone
    cases stage : y.phase h with
    | releasing g own =>
      rw [stage] at named alone
      obtain ⟨e,stamp,above,old,apart⟩ := named
      obtain ⟨owner,turn⟩ := of_decide_eq_true alone
      rw [stamp] at owner
      have live := ownsLive sound.book owner old (by omega)
      have own : e = own := apart.resolve_right (fun dead => dead live)
      exact .inr (.inl (by rw [live, own]; simp [releasesFor, stage]))
    | idle => exact .inl (by simp [releasesFor, stage])
    | keyed observer own => exact .inl (by simp [releasesFor, stage])
    | holding g own => exact .inr (.inr (by simp [step, stage]))
  | _ => exact .inl rfl

theorem releasesOwnKeyOnly (controller : Bool) (maxDuration : Nat) (as : List (Step H))
    (alone : EveryStep step (fun y a => undisturbed y a = true) (idle controller maxDuration) as) :
    EveryStep step OwnKeyOnly (idle controller maxDuration) as :=
  (everyStepInvariant stepSound stepOwnKeyOnly (idleSound controller maxDuration) alone).2

def handover : List (Step Bool) :=
  [.keyedKey false true 0 true,.keyedGeneration false,.forceReleaseIfExpired true 200 true,
    .keyedKey true true 200 true,.keyedGeneration true,.releaseCheck false,.releaseCheck true,
    .releaseUnkey true true]

theorem handoverOwnKeyOnly :
    EveryStep step (fun y a => undisturbed y a = true) (idle true 180) handover ∧
      EveryStep step OwnKeyOnly (idle true 180) handover :=
  ⟨by decide,releasesOwnKeyOnly true 180 handover (by decide)⟩

def checkThenUnkey : List (Step Bool) :=
  [.keyedKey false true 0 true,.keyedGeneration false,.releaseCheck false,
    .forceReleaseIfExpired true 200 true,.keyAs "manual" true 200 true,.releaseUnkey false true]

def keyThenRead : List (Step Bool) :=
  [.keyedKey false true 0 true,.forceReleaseIfExpired true 200 true,.keyedKey true true 200 true,
    .keyedGeneration true,.keyedGeneration false,.releaseCheck false,.releaseUnkey false true]

theorem guardReleasesAnotherKey :
    ¬ EveryStep step OwnKeyOnly (idle true 180) checkThenUnkey ∧
      ¬ EveryStep step OwnKeyOnly (idle true 180) keyThenRead ∧
      (run step (idle true 180) checkThenUnkey).station.edges = [true,false,true,false] ∧
      (run step (idle true 180) checkThenUnkey).station.line = false := by decide

end OpenPulse.PttSchedule
