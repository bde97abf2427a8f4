import OpenPulse.Engine
import OpenPulse.Runs

/-! What may be sent while a secure session is open. One way to transmit asks for an
active transfer and a handshake decision; the coded ones do not, and a decision can outlive
the session it was made for. -/
namespace OpenPulse.SessionGate
open ByteCodec Hpx OtaRate Trust Engine HpxRuns Runs

inductive Call (Sample : Type) where
  | setTrustPolicyProfile (profile : PolicyProfile)
  | setDefaultDevice (device : Option String)
  | enableCsma
  | disableCsma
  | beginSecureSession (params : SecureSessionParams) (timestampMs : UInt64)
  | endSecureSession (timestampMs : UInt64)
  | hpxApplyEvent (event : HpxEvent) (timestampMs : UInt64)
  | transmitWithFecMode (data : Bytes) (mode : String) (fec : FecMode) (device : Option String) (radio : Radio Sample)

variable {Sample : Type} (codecs : Codecs)

def after (g : ModemEngine) : Call Sample → ModemEngine
  | .setTrustPolicyProfile profile => { g with trustPolicyProfile := profile }
  | .setDefaultDevice device => { g with defaultDevice := device }
  | .enableCsma => { g with csmaEnabled := true }
  | .disableCsma => { g with csmaEnabled := false }
  | .beginSecureSession params timestampMs => (g.beginSecureSession params timestampMs).2
  | .endSecureSession timestampMs => (g.endSecureSession timestampMs).2
  | .hpxApplyEvent event timestampMs => (g.hpxApplyEvent event timestampMs).2
  | .transmitWithFecMode data mode fec device radio => (g.transmitWithFecMode codecs data mode device radio fec).engine

def emits (g : ModemEngine) : Call Sample → Bool
  | .transmitWithFecMode data mode fec device radio =>
    (g.transmitWithFecMode codecs data mode device radio fec).emitted.isSome
  | _ => false

def begins (g : ModemEngine) : Call Sample → Bool
  | .beginSecureSession params timestampMs => (g.beginSecureSession params timestampMs).1.isOk
  | _ => false

/- The engine with what an observer remembers: a session was begun, and answered Ok, since
the state last left Idle. -/
structure Watched where
  engine : ModemEngine
  granted : Bool

def start : Watched := ⟨.new,false⟩

def next (w : Watched) (call : Call Sample) : Watched where
  engine := after codecs w.engine call
  granted := begins w.engine call || (w.granted && decide (w.engine.hpx.state ≠ .idle))

/-- A call that emits outside Idle does so in an active transfer that was granted. -/
def Covered (w : Watched) (call : Call Sample) : Prop :=
  emits codecs w.engine call = true → w.engine.hpx.state ≠ .idle → w.engine.hpx.state = .activeTransfer ∧ w.granted = true

/- Where the gate does not stand: a coded transmission passes without it, and a session
started by hand takes over the decision an earlier one left. -/
def Guarded (w : Watched) : Call Sample → Prop
  | .transmitWithFecMode _ _ fec _ _ => fec ≠ .none → w.engine.sessionGate = .ok ()
  | .hpxApplyEvent event _ => event = .startSession → w.engine.hpx.state = .idle → w.engine.activeHandshake = none
  | _ => True

def Held (w : Watched) : Prop :=
  w.engine.activeHandshake.isSome → w.engine.hpx.state = .idle ∨ w.engine.hpx.state = .failed ∨ w.granted = true

variable {codecs} {w : Watched}

theorem heldSame {call : Call Sample} (held : Held w) (session : (after codecs w.engine call).hpx = w.engine.hpx)
    (decision : (after codecs w.engine call).activeHandshake = w.engine.activeHandshake) : Held (next codecs w call) := by
  intro stored
  simp only [next, decision] at stored
  simp only [next, session]
  by_cases idle : w.engine.hpx.state = .idle
  · exact .inl idle
  · rcases held stored with rest | lost | granted
    · exact absurd rest idle
    · exact .inr (.inl lost)
    · exact .inr (.inr (by simp [granted, idle]))

theorem heldBegin (held : Held w) (params : SecureSessionParams) (timestampMs : UInt64) :
    Held (next codecs w (.beginSecureSession params timestampMs : Call Sample)) := by
  by_cases idle : w.engine.hpx.state = .idle
  · by_cases admitted : ∃ decision, Admits w.engine.trustPolicyProfile params decision
    · obtain ⟨decision,admits⟩ := admitted
      obtain ⟨hpx,begun,-⟩ := beginGranted idle admits timestampMs
      intro stored
      exact .inr (.inr (by simp [next, begins, begun, Except.isOk, Except.toBool]))
    · obtain ⟨e,hpx,begun,failed⟩ := beginRefused idle (not_exists.mp admitted) timestampMs
      intro stored
      exact .inr (.inl (by simp [next, after, begun, failed]))
  · obtain ⟨e,begun⟩ := beginAway idle params timestampMs
    exact heldSame held (by simp only [after, begun]) (by simp only [after, begun])

theorem heldEnd (held : Held w) (timestampMs : UInt64) :
    Held (next codecs w (.endSecureSession timestampMs : Call Sample)) := by
  have cleared : ∀ hpx, w.engine.endSecureSession timestampMs = (.ok (),{ w.engine.withHpx hpx with activeHandshake := none }) →
      Held (next codecs w (.endSecureSession timestampMs : Call Sample)) := by
    intro hpx ended stored
    simp [next, after, ended] at stored
  by_cases idle : w.engine.hpx.state = .idle
  · exact cleared w.engine.hpx (endIdle idle timestampMs)
  · by_cases stuck : w.engine.hpx.state = .teardown ∨ w.engine.hpx.state = .failed
    · obtain ⟨e,ended⟩ := endRefused stuck timestampMs
      exact heldSame held (by simp only [after, ended]) (by simp only [after, ended])
    · obtain ⟨running,alive⟩ := not_or.mp stuck
      obtain ⟨hpx,ended,-⟩ := endOpen ⟨idle,running,alive⟩ timestampMs
      exact cleared hpx ended

theorem heldEvent (held : Held w) {event : HpxEvent} {timestampMs : UInt64}
    (guarded : Guarded w (.hpxApplyEvent event timestampMs : Call Sample)) :
    Held (next codecs w (.hpxApplyEvent event timestampMs : Call Sample)) := by
  rcases eventEdge w.engine event timestampMs with ⟨e,refused⟩ | ⟨transition,hpx,taken,edge,starts⟩
  · exact heldSame held (by simp only [after, refused]) (by simp only [after, refused])
  · intro stored
    simp only [next, after, taken, ModemEngine.withHpxHandshake] at stored
    by_cases idle : w.engine.hpx.state = .idle
    · -- leaving Idle by hand: the guard says that nothing was left behind
      rw [guarded (starts.mpr idle) idle] at stored
      cases stored
    · rcases held stored with rest | lost | granted
      · exact absurd rest idle
      · exact absurd lost (edgeAlive edge)
      · exact .inr (.inr (by simp [next, granted, idle]))

theorem heldNext (call : Call Sample) (held : Held w) (guarded : Guarded w call) : Held (next codecs w call) := by
  cases call with
  | beginSecureSession params timestampMs => exact heldBegin held params timestampMs
  | endSecureSession timestampMs => exact heldEnd held timestampMs
  | hpxApplyEvent event timestampMs => exact heldEvent held guarded
  | transmitWithFecMode data mode fec device radio =>
    have same := @fecModeSame Sample w.engine codecs data mode device radio fec
    exact heldSame held same.hpx same.handshake
  | _ => exact heldSame held rfl rfl

theorem emitsOpen {call : Call Sample} (guarded : Guarded w call) (emitted : emits codecs w.engine call = true) :
    w.engine.sessionGate = .ok () := by
  cases call with
  | transmitWithFecMode data mode fec device radio =>
    by_cases plain : fec = .none
    · subst plain
      exact transmitGated emitted
    · exact guarded plain
  | _ => cases emitted

theorem coveredStep (call : Call Sample) (held : Held w) (guarded : Guarded w call) : Covered codecs w call := by
  intro emitted away
  rcases (gateOpen w.engine).mp (emitsOpen guarded emitted) with idle | ⟨active,stored⟩
  · exact absurd idle away
  · refine ⟨active,?_⟩
    rcases held stored with idle | lost | granted
    · exact absurd idle away
    · rw [active] at lost
      cases lost
    · exact granted

theorem emissionsCovered (codecs : Codecs) (calls : List (Call Sample))
    (guarded : EveryStep (next codecs) Guarded start calls) : EveryStep (next codecs) (Covered codecs) start calls := by
  have nothing : Held start := fun stored => by cases stored
  exact (everyStepInvariant (I := Held) (fun _ call held passes => heldNext call held passes)
    (fun _ call held passes => coveredStep call held passes) nothing guarded).2

def uncoded : Codecs :=
  ⟨id,id,fun _ => id,id,id,fun _ => .ok,id,id,.ok⟩

def verifiedPeer : SecureSessionParams := ⟨.normal,[.normal,.psk],.full,.outOfBand,false⟩

def session : List (Call Nat) :=
  [.beginSecureSession verifiedPeer 1000,.transmitWithFecMode [1,2,3] "BPSK250" .none none .willing,.endSecureSession 2000,
    .hpxApplyEvent .startSession 3000,.hpxApplyEvent .discoveryTimeout 4000]

theorem emissionsCoveredSession : EveryStep (next uncoded) Guarded start session ∧
    EveryStep (next uncoded) (Covered uncoded) start session := by
  have guarded : EveryStep (next uncoded) Guarded start session :=
    ⟨trivial,fun coded => absurd rfl coded,trivial,fun _ _ => rfl,fun _ _ => rfl,trivial⟩
  exact ⟨guarded,emissionsCovered uncoded session guarded⟩

/- A session that has only been started, and a strongly coded frame: whatever the codecs
make of it, it goes out. -/
def bypass : List (Call Nat) :=
  [.hpxApplyEvent .startSession 0,.transmitWithFecMode [] "BPSK250" .rsStrong none .willing]

theorem codedBypassesGate : ¬ ∃ codecs, EveryStep (next codecs) (Covered codecs) start bypass := by
  rintro ⟨codecs,-,covered,-⟩
  have discovery : (next codecs start (.hpxApplyEvent .startSession 0 : Call Nat)).engine.hpx.state = .discovery := rfl
  obtain ⟨active,-⟩ := covered rfl (by rw [discovery]; decide)
  rw [discovery] at active
  cases active

/- The decision of an ended session opens the gate of the next, which nobody has begun. -/
def leftover : List (Call Nat) :=
  [.beginSecureSession verifiedPeer 0,.hpxApplyEvent .transferComplete 1,.hpxApplyEvent .transferComplete 2,
    .hpxApplyEvent .startSession 3,.hpxApplyEvent .discoveryOk 4,.hpxApplyEvent .trainingOk 5]

example : (run (next uncoded) start leftover).granted = false ∧
    emits uncoded (run (next uncoded) start leftover).engine
      (.transmitWithFecMode [] "BPSK250" .none none .willing) = true := by decide

end OpenPulse.SessionGate
