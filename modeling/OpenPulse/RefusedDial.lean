import OpenPulse.DaemonLink
import OpenPulse.Runs

/-! A dial that the policy refuses. The session ends in Failed, which no event leaves, and
the daemon never makes another session: nothing it does later is let through. -/
namespace OpenPulse.RefusedDial
open ByteCodec Hpx HpxRuns Engine DaemonLink Handshake Trust Runs

inductive Op (Sample : Type) where
  | connectPeer (w : World Sample) (callsign : String)
  | disconnectPeer (w : World Sample)
  | transmit (data : Bytes) (mode : String) (device : Option String) (radio : Radio Sample)

variable {Sample : Type} (crypto : Crypto)

def next (d : Daemon) : Op Sample → Daemon
  | .connectPeer w callsign => (connectPeer crypto w callsign d).2
  | .disconnectPeer w => (disconnectPeer w d).2
  | .transmit data mode device radio => { d with engine := (d.engine.transmit data mode device radio).engine }

structure Refused (w : World Sample) (callsign : String) (d : Daemon) : Prop where
  named : callsign ≠ "*"
  built : ∃ frame, ConReq.create crypto.ed (conreqParams crypto w d.state callsign) d.state.stationSeed = .ok frame
  idle : d.engine.hpx.state = .idle
  barred : ∀ decision, ¬ Admits d.engine.trustPolicyProfile (dialParams d.state callsign) decision

/- What an operator may expect after a dial that came to nothing. -/
structure Recovers (w : World Sample) (d : Daemon) : Prop where
  disconnects : ControlEvent.rfConnectionChanged false none ∈ (disconnectPeer w d).1
  transmits : (disconnectPeer w d).2.engine.sessionGate = .ok ()
  redials : ∀ (later : World Sample) (callsign : String) (decision : HandshakeDecision), callsign ≠ "*" →
    (∃ frame, ConReq.create crypto.ed (conreqParams crypto later d.state callsign) d.state.stationSeed = .ok frame) →
    Admits d.engine.trustPolicyProfile (dialParams d.state callsign) decision →
    ControlEvent.rfConnectionChanged true (some callsign) ∈ (connectPeer crypto later callsign (disconnectPeer w d).2).1

variable {crypto} {d : Daemon}

theorem failedBegin (failed : d.engine.hpx.state = .failed) (params : SecureSessionParams) (timestampMs : UInt64) :
    ∃ e, d.engine.beginSecureSession params timestampMs = (.error e,d.engine) :=
  beginAway (by rw [failed]; decide) params timestampMs

theorem failedConnect (failed : d.engine.hpx.state = .failed) (w : World Sample) (callsign : String) :
    ∃ reason, connectPeer crypto w callsign d = ([.commandError "connect_peer" reason],d) := by
  obtain ⟨e,refused⟩ := failedBegin failed (dialParams d.state callsign) w.nowMs
  unfold connectPeer
  by_cases wildcard : callsign = "*"
  · rw [if_pos wildcard]
    exact ⟨_,rfl⟩
  · rw [if_neg wildcard]
    cases ConReq.create crypto.ed (conreqParams crypto w d.state callsign) d.state.stationSeed with
    | error e => exact ⟨_,rfl⟩
    | ok frame =>
      simp only [refused]
      exact ⟨_,rfl⟩

theorem failedDisconnect (failed : d.engine.hpx.state = .failed) (w : World Sample) :
    ∃ reason, disconnectPeer w d = ([.commandError "disconnect_peer" reason],d) := by
  obtain ⟨e,refused⟩ := endRefused (g := d.engine) (.inr failed) w.nowMs
  simp only [disconnectPeer, refused]
  exact ⟨_,rfl⟩

theorem failedGate (failed : d.engine.hpx.state = .failed) :
    d.engine.sessionGate = .error (.configuration "cannot transmit: secure session is not in active transfer") := by
  simp [ModemEngine.sessionGate, failed]

theorem failedNext (op : Op Sample) (failed : d.engine.hpx.state = .failed) : (next crypto d op).engine.hpx.state = .failed := by
  cases op with
  | connectPeer w callsign =>
    obtain ⟨reason,same⟩ := @failedConnect Sample crypto d failed w callsign
    rw [next, same]
    exact failed
  | disconnectPeer w =>
    obtain ⟨reason,same⟩ := failedDisconnect failed w
    rw [next, same]
    exact failed
  | transmit data mode device radio =>
    have same := @transmitSame Sample d.engine data mode device radio
    rw [next, same.hpx]
    exact failed

theorem refusedFails {w : World Sample} {callsign : String} (refused : Refused crypto w callsign d) :
    (connectPeer crypto w callsign d).2.engine.hpx.state = .failed := by
  obtain ⟨frame,built⟩ := refused.built
  obtain ⟨e,hpx,barred,failed⟩ := beginRefused refused.idle refused.barred w.nowMs
  simp only [connectPeer, if_neg refused.named, built, barred, ModemEngine.withHpxSession]
  exact failed

theorem refusalDisables {d : Daemon} {w : World Sample} {callsign : String} (refused : Refused crypto w callsign d)
    (ops : List (Op Sample)) (later : World Sample) :
    let left := run (next crypto) (connectPeer crypto w callsign d).2 ops
    (∃ reason, disconnectPeer later left = ([.commandError "disconnect_peer" reason],left)) ∧
      left.engine.sessionGate = .error (.configuration "cannot transmit: secure session is not in active transfer") ∧
      (∀ other, ∃ reason, connectPeer crypto later other left = ([.commandError "connect_peer" reason],left)) ∧
      ¬ Recovers crypto later left := by
  intro left
  have failed : left.engine.hpx.state = .failed :=
    runInvariant (I := fun (d : Daemon) => d.engine.hpx.state = HpxState.failed) (fun _ op => failedNext op) (refusedFails refused) ops
  obtain ⟨reason,ended⟩ := failedDisconnect failed later
  refine ⟨⟨reason,ended⟩,failedGate failed,fun other => failedConnect failed later other,?_⟩
  intro recovers
  have disconnected := recovers.disconnects
  rw [ended] at disconnected
  simp at disconnected

def station : Daemon :=
  { Bench.station with state := { Bench.station.state with
    trustStore := ⟨fun _ => none,fun callsign => if callsign = "W1AW" then .marginal else .unknown⟩ } }

theorem stationRefused : Refused Bench.crypto Bench.evening "W1AW" station where
  named := by decide
  built := by
    refine ⟨_,(ConReqParams.createIff _ _ _ _).mpr ⟨?_,rfl⟩⟩
    exact ⟨by decide,by decide,by decide,by decide,by decide,rfl,by decide,by decide⟩
  idle := rfl
  barred := by
    rintro decision ⟨evaluated,trusted⟩
    have known := (evaluatedTrust evaluated).2.1
    rw [known] at trusted
    exact absurd trusted (by decide)

theorem refusalDisablesStation :
    let left := run (next Bench.crypto) (connectPeer Bench.crypto Bench.evening "W1AW" station).2
      [.disconnectPeer Bench.evening,.transmit [1] "BPSK250" none .willing,.connectPeer Bench.evening "K2XYZ"]
    (∃ reason, disconnectPeer Bench.evening left = ([.commandError "disconnect_peer" reason],left)) ∧
      left.engine.sessionGate = .error (.configuration "cannot transmit: secure session is not in active transfer") ∧
      (∀ other, ∃ reason, connectPeer Bench.crypto Bench.evening other left = ([.commandError "connect_peer" reason],left)) ∧
      ¬ Recovers Bench.crypto Bench.evening left :=
  refusalDisables stationRefused _ Bench.evening

theorem refusedStationStays : Refused Bench.crypto Bench.evening "W1AW" station ∧
    ¬ Recovers Bench.crypto Bench.evening (connectPeer Bench.crypto Bench.evening "W1AW" station).2 := by
  refine ⟨stationRefused,fun recovers => ?_⟩
  obtain ⟨reason,ended⟩ := failedDisconnect (refusedFails stationRefused) Bench.evening
  have disconnected := recovers.disconnects
  rw [ended] at disconnected
  simp at disconnected

end OpenPulse.RefusedDial
