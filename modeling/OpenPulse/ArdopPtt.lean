import OpenPulse.Runs
import OpenPulse.SharedPtt

/-! Who keys the transmitter of the ARDOP TNC: the PTT command and the disconnect of a client
in `openpulse-ardop/src/command.rs`, the bursts of the worker in `openpulse-ardop/src/bridge.rs`,
and the watchdog. A step is one acquisition of the key's lock or one access of `manual_keyed`. -/
namespace OpenPulse.ArdopPtt
open Runs SharedPtt

inductive Holder where
  | manual | burst
  deriving DecidableEq, Repr

inductive Task where
  | storeTrue
  | storeFalse
  | ifKeyed
  | unkey
  | finished
  deriving DecidableEq, Repr

inductive Burst where
  | idle
  | keyed
  | holding (guard : PttKeyGuard)
  | releasing (guard : PttKeyGuard)
  deriving DecidableEq, Repr

/- `holder` watches who asserted the key that is live; no step reads it. -/
structure Tnc where
  station : Station
  manualKeyed : Bool
  tasks : List Task
  burst : Burst
  holder : Option Holder
  deriving DecidableEq, Repr

def start (controller : Bool) (maxDuration : Nat) : Tnc := ⟨new controller maxDuration,false,[],.idle,none⟩

inductive Event where
  | pttTrue (now : Nat) (works : Bool)
  | pttFalse (works : Bool)
  | disconnect
  | task (i : Nat) (works : Bool)
  | burstKey (now : Nat) (works : Bool)
  | burstGeneration
  | burstCheck
  | burstUnkey (works : Bool)
  | watchdog (now : Nat) (works : Bool)
  deriving DecidableEq, Repr

def follow (holder : Option Holder) (who : Holder) (a b : PttInner) : Option Holder :=
  match a.assertedAt, b.assertedAt with
  | _, none => none
  | none, some _ => some who
  | some _, some _ => holder

def Tnc.moveTo (t : Tnc) (who : Holder) (s : Station) : Tnc :=
  { t with station := s, holder := follow t.holder who t.station.inner s.inner }

def runTask (t : Tnc) (i : Nat) (works : Bool) : Task → Tnc
  | .storeTrue => { t with manualKeyed := true, tasks := t.tasks.set i .finished }
  | .storeFalse => { t with manualKeyed := false, tasks := t.tasks.set i .finished }
  | .ifKeyed => { t with tasks := t.tasks.set i (if t.station.armed then .unkey else .finished) }
  | .unkey => { t.moveTo .manual (t.station.unkey true works).2 with tasks := t.tasks.set i .storeFalse }
  | .finished => t

def step (t : Tnc) : Event → Tnc
  | .pttTrue now works =>
    match t.station.keyAs "automatic" false now works with
    | (.error _,s) => t.moveTo .manual s
    | (.ok (),s) => { t.moveTo .manual s with tasks := t.tasks ++ [.storeTrue] }
  | .pttFalse works =>
    { t.moveTo .manual (t.station.unkey false works).2 with tasks := t.tasks ++ [.storeFalse] }
  | .disconnect => if t.manualKeyed then { t with tasks := t.tasks ++ [.ifKeyed] } else t
  | .task i works =>
    match t.tasks[i]? with
    | some task => runTask t i works task
    | none => t
  | .burstKey now works =>
    match t.burst with
    | .idle =>
      match t.station.keyAs "automatic" true now works with
      | (.error _,s) => t.moveTo .burst s
      | (.ok (),s) => { t.moveTo .burst s with burst := .keyed }
    | _ => t
  | .burstGeneration =>
    match t.burst with
    | .keyed => { t with burst := .holding ⟨true,false,t.station.generation⟩ }
    | _ => t
  | .burstCheck =>
    match t.burst with
    | .holding g => { t with burst := if t.station.owns g.generation then .releasing g else .idle }
    | _ => t
  | .burstUnkey works =>
    match t.burst with
    | .releasing g => { t.moveTo .burst (t.station.unkey g.observer works).2 with burst := .idle }
    | _ => t
  | .watchdog now works => t.moveTo .burst (t.station.forceReleaseIfExpired true now works).2

def CutsManual (t : Tnc) (e : Event) : Prop :=
  ∀ i works, e = .task i works → t.tasks[i]? = some .unkey → t.station.armed = true →
    (step t e).station.armed = false → t.holder = some .manual

/- Nothing says, or is about to say, that the key is the host's; and no disconnect is past its
look at the flag. -/
def Clear (t : Tnc) : Prop :=
  t.manualKeyed = false ∧ .storeTrue ∉ t.tasks ∧ .ifKeyed ∉ t.tasks ∧ .unkey ∉ t.tasks

/- Asked of a burst that takes the key: it finds the key free and the hardware, if there is any, obeys. -/
def Admitted (t : Tnc) (e : Event) : Prop :=
  ∀ now works, e = .burstKey now works → t.burst = .idle → t.station.armed = false →
    (t.station.inner.controller = true → works = true) → Clear t

structure Sound (t : Tnc) : Prop where
  held : t.holder.isSome = t.station.armed
  clear : t.holder = some .burst → Clear t

theorem followHeld (holder : Option Holder) (who : Holder) {a b : PttInner} (held : holder.isSome = a.assertedAt.isSome) :
    (follow holder who a b).isSome = b.assertedAt.isSome := by
  unfold follow
  cases after : b.assertedAt with
  | none => cases a.assertedAt <;> rfl
  | some t =>
    cases before : a.assertedAt with
    | none => rfl
    | some t' =>
      rw [before] at held
      exact held

theorem followHolder {holder : Option Holder} {who other : Holder} {a b : PttInner}
    (now : follow holder who a b = some other) :
    holder = some other ∨ (a.assertedAt = none ∧ who = other) := by
  unfold follow at now
  cases after : b.assertedAt with
  | none =>
    rw [after] at now
    cases a.assertedAt <;> cases now
  | some t =>
    rw [after] at now
    cases before : a.assertedAt with
    | none =>
      rw [before] at now
      exact .inr ⟨rfl,Option.some.inj now⟩
    | some t' =>
      rw [before] at now
      exact .inl now

theorem moveToHeld {t : Tnc} (sound : Sound t) (who : Holder) (s : Station) :
    (t.moveTo who s).holder.isSome = (t.moveTo who s).station.armed :=
  followHeld t.holder who sound.held

theorem clearSet {t : Tnc} (clear : Clear t) (i : Nat) {task : Task} (harmless : task = .storeFalse ∨ task = .finished)
    (flag : Bool) (down : flag = false) : Clear { t with manualKeyed := flag, tasks := t.tasks.set i task } := by
  have absent : ∀ x, x ∉ t.tasks → x ≠ task → x ∉ t.tasks.set i task := by
    intro x none other inside
    rcases List.mem_or_eq_of_mem_set inside with old | new
    · exact none old
    · exact other new
  obtain ⟨-,noTrue,noIf,noUnkey⟩ := clear
  refine ⟨down,absent _ noTrue ?_,absent _ noIf ?_,absent _ noUnkey ?_⟩
  all_goals rcases harmless with rfl | rfl <;> exact Task.noConfusion

theorem Sound.burstArmed {t : Tnc} (sound : Sound t) (burst : t.holder = some .burst) : t.station.armed = true := by
  rw [← sound.held, burst]
  rfl

theorem manualBurst {t : Tnc} {s : Station} (burst : (t.moveTo .manual s).holder = some .burst) : t.holder = some .burst := by
  rcases followHolder burst with same | ⟨-,other⟩
  · exact same
  · cases other

theorem releasedBurst {t : Tnc} {s : Station} (released : t.station.inner.assertedAt = none → s.inner.assertedAt = none)
    (burst : (t.moveTo .burst s).holder = some .burst) : t.holder = some .burst := by
  rcases followHolder burst with same | ⟨idle,-⟩
  · exact same
  · rw [Tnc.moveTo, follow, idle, released idle] at burst
    cases burst

theorem refusedIdle {s : Station} (observer : Bool) (now : Nat) (idle : s.inner.assertedAt = none)
    (controller : s.inner.controller = true) : (s.keyAs "automatic" observer now false).2.inner.assertedAt = none := by
  simp [Station.keyAs, Station.armed, Station.assertPtt, controller, idle]

theorem clearAppend {t : Tnc} (clear : Clear t) : Clear { t with tasks := t.tasks ++ [.storeFalse] } := by
  obtain ⟨down,noTrue,noIf,noUnkey⟩ := clear
  refine ⟨down,?_,?_,?_⟩
  · simpa using noTrue
  · simpa using noIf
  · simpa using noUnkey

theorem taskSound {t : Tnc} (sound : Sound t) {i : Nat} {task : Task} (here : t.tasks[i]? = some task) (works : Bool) :
    Sound (runTask t i works task) := by
  have member : task ∈ t.tasks := List.mem_of_getElem? here
  cases task with
  | storeTrue =>
    refine ⟨sound.held,?_⟩
    intro burst
    exact absurd member (sound.clear burst).2.1
  | storeFalse =>
    refine ⟨sound.held,?_⟩
    intro burst
    exact clearSet (sound.clear burst) i (.inr rfl) false rfl
  | ifKeyed =>
    refine ⟨sound.held,?_⟩
    intro burst
    exact absurd member (sound.clear burst).2.2.1
  | unkey =>
    refine ⟨moveToHeld sound .manual _,?_⟩
    intro burst
    exact absurd member (sound.clear (manualBurst burst)).2.2.2
  | finished => exact sound

theorem stepSound (t : Tnc) (e : Event) (sound : Sound t) (admitted : Admitted t e) : Sound (step t e) := by
  cases e with
  | pttTrue now works =>
    cases call : t.station.keyAs "automatic" false now works with
    | mk result s =>
      cases result with
      | error refused =>
        simp only [step, call]
        exact ⟨moveToHeld sound .manual s,fun burst => sound.clear (manualBurst burst)⟩
      | ok done =>
        simp only [step, call]
        refine ⟨moveToHeld sound .manual s,?_⟩
        intro burst
        have armed := sound.burstArmed (manualBurst burst)
        rw [keyAsArmed armed] at call
        cases call
  | pttFalse works =>
    refine ⟨moveToHeld sound .manual _,?_⟩
    intro burst
    exact clearAppend (sound.clear (manualBurst burst))
  | disconnect =>
    simp only [step]
    split
    · rename_i up
      refine ⟨sound.held,?_⟩
      intro burst
      rw [(sound.clear burst).1] at up
      cases up
    · exact sound
  | task i works =>
    simp only [step]
    split
    · rename_i task here
      exact taskSound sound here works
    · exact sound
  | burstKey now works =>
    cases waiting : t.burst with
    | idle =>
      have clear : (t.moveTo .burst (t.station.keyAs "automatic" true now works).2).holder = some .burst → Clear t := by
        intro burst
        rcases followHolder burst with same | ⟨idle,-⟩
        · exact sound.clear same
        · refine admitted now works rfl waiting (by rw [Station.armed, idle]; rfl) fun controller => ?_
          cases works with
          | true => rfl
          | false =>
            rw [Tnc.moveTo, follow, idle, refusedIdle true now idle controller] at burst
            cases burst
      simp only [step, waiting]
      split
      · rename_i s call
        rw [call] at clear
        exact ⟨moveToHeld sound .burst s,clear⟩
      · rename_i s call
        rw [call] at clear
        exact ⟨moveToHeld sound .burst s,clear⟩
    | keyed => simpa only [step, waiting] using sound
    | holding g => simpa only [step, waiting] using sound
    | releasing g => simpa only [step, waiting] using sound
  | burstGeneration =>
    simp only [step]
    split
    · exact ⟨sound.held,sound.clear⟩
    · exact sound
  | burstCheck =>
    simp only [step]
    split
    · exact ⟨sound.held,sound.clear⟩
    · exact sound
  | burstUnkey works =>
    simp only [step]
    split
    · rename_i g _
      refine ⟨moveToHeld sound .burst _,?_⟩
      intro burst
      exact sound.clear (releasedBurst (unkeyIdle g.observer works) burst)
    · exact sound
  | watchdog now works =>
    refine ⟨moveToHeld sound .burst _,?_⟩
    intro burst
    exact sound.clear (releasedBurst (expiredIdle true now works) burst)

/- The flag is set and cleared by the commands and not by whatever else ends the key they name.
Where no burst takes the key while the flag is set, about to be set, or already believed, a
disconnect ends no key but the host's. -/
theorem disconnectCutsManual (controller : Bool) (maxDuration : Nat) (es : List Event)
    (admitted : EveryStep step Admitted (start controller maxDuration) es) :
    EveryStep step CutsManual (start controller maxDuration) es := by
  have begin : Sound (start controller maxDuration) := ⟨rfl,fun burst => by cases burst⟩
  refine (everyStepInvariant stepSound ?_ begin admitted).2
  intro t e sound _ i works _ here armed _
  have some := sound.held.trans armed
  cases held : t.holder with
  | none =>
    rw [held] at some
    cases some
  | some holder =>
    cases holder with
    | manual => rfl
    | burst => exact absurd (List.mem_of_getElem? here) (sound.clear held).2.2.2

/- The worker sends a burst, after an attempt that the hardware refuses; then the host keys and vanishes. -/
def vanished : List Event :=
  [.burstKey 0 false,.burstKey 1 true,.burstGeneration,.burstCheck,.burstUnkey true,.pttTrue 5 true,.task 0 true,.burstKey 6 false,
    .disconnect,.task 1 true,.task 1 true]

theorem vanishedAdmitted : EveryStep step Admitted (start true 10) vanished := by
  have other : ∀ {t : Tnc} {e : Event}, (∀ now works, e ≠ .burstKey now works) → Admitted t e :=
    fun apart now works same => absurd same (apart now works)
  refine ⟨fun _ _ _ _ _ _ => ?_,fun _ _ _ _ _ _ => ?_,other ?_,other ?_,other ?_,other ?_,other ?_,?blocked,other ?_,other ?_,other ?_,trivial⟩
  · exact ⟨rfl,by simp [start],by simp [start],by simp [start]⟩
  · exact ⟨rfl,by decide,by decide,by decide⟩
  case blocked =>
    intro now works same idle free
    cases free
  all_goals exact fun _ _ => Event.noConfusion

theorem disconnectCutsManualVanished : EveryStep step CutsManual (start true 10) vanished ∧
    (run step (start true 10) vanished).station.armed = false :=
  ⟨disconnectCutsManual true 10 vanished vanishedAdmitted,by decide⟩

/- The watchdog ends the host's key and leaves the flag; a client that goes while the worker
identifies the station then ends the burst's key. -/
def stale : List Event :=
  [.pttTrue 0 true,.task 0 true,.watchdog 20 true,.burstKey 30 true,.burstGeneration,.disconnect,.task 1 true,.task 1 true]

theorem burstCutByDisconnect : ¬ EveryStep step CutsManual (start true 10) stale := by
  intro all
  obtain ⟨-,-,-,-,-,-,-,last,-⟩ := all
  have manual := last 1 true rfl rfl rfl rfl
  cases manual

end OpenPulse.ArdopPtt
