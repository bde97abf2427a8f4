import OpenPulse.DiscoveryTick
import OpenPulse.Runs

/-! Handing an agreed rendezvous over to a session: what the modem is doing by then, and
whether the rig went where the two stations agreed to meet. -/
namespace OpenPulse.DiscoveryHandoff
open Discovery DiscoverySlots DiscoveryTick Runs

/- Sessions, handshakes and transfers begin and end between the calls, as `modem` has it. -/
inductive Event where
  | tick (i : Tick)
  | take
  | command (c : Command)
  | modem (m : Modem)
  deriving DecidableEq

structure Watched where
  station : Station
  modem : Modem
  retuned : Bool
  deriving DecidableEq

namespace Watched

variable (w : Watched)

def due (i : Tick) : Option (List Char × UInt64) := w.station.rs.dueNow i.nowMs

def ticked (i : Tick) : Station.Due := w.station.discoveryTick { i with modem := w.modem }

def step (w : Watched) : Event → Watched
  | .tick i =>
    { w with station := (w.ticked i).2,
             retuned := (w.due i).elim w.retuned fun agreed => (discoveryRetune w.station.rig i.catOk agreed.2).1 }
  | .take => { w with station := { w.station with rs := w.station.rs.takeRendezvousConnect.2 } }
  | .command c => { w with station := w.station.command c }
  | .modem m => { w with modem := m }

end Watched

/-- A due rendezvous moves the rig only while the modem is idle; a peer is dialed only after
the retune to the agreed frequency, and only while the modem is idle. -/
def OnAgreed (w : Watched) : Event → Prop
  | .tick i => (w.due i).isSome = true → (w.ticked i).2.rig ≠ w.station.rig → w.modem.idle = true
  | .take => w.station.rs.takeRendezvousConnect.1.isSome = true → w.retuned = true ∧ w.modem.idle = true
  | .command _ | .modem _ => True

/- The modem is idle when a rendezvous comes due, and the rig takes the retune; nothing comes
between that tick and the handoff it readies. -/
def Timely (w : Watched) : Event → Prop
  | .tick i => (w.due i).isSome = true → w.modem.idle = true ∧ (w.station.rig.isSome = true → i.catOk = true)
  | .modem _ => w.station.rs.rendezvousConnectReady = none
  | .take | .command _ => True

instance decidableOnAgreed (w : Watched) : ∀ e, Decidable (OnAgreed w e)
  | .tick i => inferInstanceAs
      (Decidable ((w.due i).isSome = true → (w.ticked i).2.rig ≠ w.station.rig → w.modem.idle = true))
  | .take => inferInstanceAs
      (Decidable (w.station.rs.takeRendezvousConnect.1.isSome = true → w.retuned = true ∧ w.modem.idle = true))
  | .command _ | .modem _ => isTrue trivial

instance decidableTimely (w : Watched) : ∀ e, Decidable (Timely w e)
  | .tick i => inferInstanceAs
      (Decidable ((w.due i).isSome = true → w.modem.idle = true ∧ (w.station.rig.isSome = true → i.catOk = true)))
  | .modem _ => inferInstanceAs (Decidable (w.station.rs.rendezvousConnectReady = none))
  | .take | .command _ => isTrue trivial

def Ready (w : Watched) : Prop :=
  w.station.rs.rendezvousConnectReady.isSome = true → w.retuned = true ∧ w.modem.idle = true

theorem retuneTaken {rig : Option UInt64} {catOk : Bool} (takes : rig.isSome = true → catOk = true) (hz : UInt64) :
    (discoveryRetune rig catOk hz).1 = true := by
  cases rig with
  | none => rfl
  | some dial => simp [discoveryRetune, takes]

theorem restoreReady (s : Station) (catOk : Bool) :
    (s.restoreHome catOk).rs.rendezvousConnectReady = s.rs.rendezvousConnectReady := by
  unfold Station.restoreHome
  split <;> rfl

theorem tickReady {s : Station} {i : Tick} (free : s.rs.dueNow i.nowMs = none) :
    (s.discoveryTick i).2.rs.rendezvousConnectReady = s.rs.rendezvousConnectReady := by
  have passed := Station.tickPasses s i
  generalize s.discoveryTick i = out at passed ⊢
  cases passed with
  | handsOff due =>
    rw [free] at due
    cases due
  | rests => rfl
  | leaves => rfl
  | stays => rfl
  | returns => exact restoreReady _ _

theorem commandReady (s : Station) (c : Command) : (s.command c).rs.rendezvousConnectReady = s.rs.rendezvousConnectReady := by
  cases c with
  | setEnabled on => rfl
  | rendezvousWith peer nowMs =>
    simp only [Station.command, Station.startRendezvousCmd]
    split <;> rfl
  | setFreq freqHz catOk =>
    simp only [Station.command, Station.setFreq]
    split <;> rfl

theorem readyStep {w : Watched} {e : Event} (ready : Ready w) (timely : Timely w e) : Ready (w.step e) := by
  cases e with
  | tick i =>
    intro waiting
    cases due : w.due i with
    | none =>
      have same : (w.step (.tick i)).station.rs.rendezvousConnectReady = w.station.rs.rendezvousConnectReady := tickReady due
      rw [same] at waiting
      simpa [Watched.step, due] using ready waiting
    | some agreed =>
      obtain ⟨idle,takes⟩ := timely (by rw [due]; rfl)
      exact ⟨by simp [Watched.step, due, retuneTaken takes],idle⟩
  | take =>
    intro waiting
    cases waiting
  | command c =>
    intro waiting
    rw [show (w.step (.command c)).station.rs.rendezvousConnectReady = _ from commandReady w.station c] at waiting
    exact ready waiting
  | modem m =>
    intro waiting
    rw [show (w.step (.modem m)).station.rs.rendezvousConnectReady = none from timely] at waiting
    cases waiting

theorem readyAgreed {w : Watched} {e : Event} (ready : Ready w) (timely : Timely w e) : OnAgreed w e := by
  cases e with
  | tick i => exact fun due _ => (timely due).1
  | take =>
    intro dials
    refine ready ?_
    simpa [RuntimeControlState.takeRendezvousConnect] using dials
  | command c => trivial
  | modem m => trivial

/-- Rendezvous that come due at a free modem, on a rig that goes there, are handed off there. -/
theorem handedOffOnAgreed {w : Watched} {es : List Event} (fresh : w.station.rs.rendezvousConnectReady = none)
    (timely : EveryStep Watched.step Timely w es) : EveryStep Watched.step OnAgreed w es := by
  have start : Ready w := by
    intro waiting
    rw [fresh] at waiting
    cases waiting
  exact (everyStepInvariant (fun w e ready timely => readyStep ready timely) (fun w e ready timely => readyAgreed ready timely)
    start timely).2

def agreedEvents : List Event := (Bench.meeting false).map .tick

def watching : Watched := ⟨Bench.station,Bench.free,false⟩

theorem handedOffMeeting : EveryStep Watched.step OnAgreed watching
    (agreedEvents ++ [.tick (Bench.slot 10 false []),.take,.modem { Bench.free with pendingHandshake := true }]) :=
  handedOffOnAgreed rfl (by decide +kernel)

/- A transfer has begun when the agreement comes due, and the rig is taken from it; or the
rig stays where it was, and the peer is dialed there. -/
theorem dialedElsewhere :
    ¬ EveryStep Watched.step OnAgreed watching
        (agreedEvents ++ [.modem { Bench.free with fileTx := true },.tick (Bench.slot 10 false [])]) ∧
      ¬ EveryStep Watched.step OnAgreed watching
        (agreedEvents ++ [.tick { Bench.slot 10 false [] with catOk := false },.take]) := by
  decide +kernel

end OpenPulse.DiscoveryHandoff
