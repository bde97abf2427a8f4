import OpenPulse.DaemonLink

/-! A handshake that is not completed. The initiator's side changes nothing but its own
pending request; the responder's side has armed the agreed key before it knows whether its
acknowledgement can go out. -/
namespace OpenPulse.HalfHandshake
open ByteCodec Engine Handshake HandshakeWire SharedPtt Signing DaemonLink

variable {Sample : Type} {crypto : Crypto} {w : World Sample} {bytes : Bytes} {d d' : Daemon}

def Recorded (events : List ControlEvent) : Prop := ∃ callsign grid, ControlEvent.peerVerified callsign grid ∈ events

structure Untouched (d d' : Daemon) : Prop where
  peers : d'.state.verifiedPeers = d.state.verifiedPeers
  last : d'.state.lastVerifiedCallsign = d.state.lastVerifiedCallsign
  grid : d'.state.logbook.pendingGrid = d.state.logbook.pendingGrid
  key : d'.engine.ackMacKey = d.engine.ackMacKey

/- A request that this station would answer is one whose acknowledgement goes out, or one
that leads to the key that is armed already. -/
def Whole (crypto : Crypto) (w : World Sample) (bytes : Bytes) (d : Daemon) : Prop :=
  ∀ req, Answers crypto w bytes req d →
    Replies crypto w bytes req d ∨ (armKey crypto w.kexSecret req.kexPubkey d.engine).ackMacKey = d.engine.ackMacKey

theorem untouchedRefl (d : Daemon) : Untouched d d := ⟨rfl,rfl,rfl,rfl⟩

theorem nothingRecorded : ¬ Recorded [] := by
  rintro ⟨callsign,grid,member⟩
  cases member

theorem verifiedRecorded (callsign grid : String) (pubkey : Bytes) (fingerprint : UInt64) (d : Daemon) :
    Recorded (recordVerifiedPeer callsign grid pubkey fingerprint d).1 :=
  ⟨callsign,grid,List.mem_cons_self⟩

theorem halfUntouched {req : ConReq} (same : SameButPtt (armed crypto w req d) d') : Untouched d d' ↔
    (armKey crypto w.kexSecret req.kexPubkey d.engine).ackMacKey = d.engine.ackMacKey := by
  obtain ⟨ptt,state⟩ := same.state
  have key : d'.engine.ackMacKey = (armKey crypto w.kexSecret req.kexPubkey d.engine).ackMacKey := same.engine.key
  constructor
  · intro untouched
    exact key.symm.trans untouched.key
  · intro kept
    exact ⟨by rw [state]; rfl,by rw [state]; rfl,by rw [state]; rfl,key.trans kept⟩

theorem conreqWholeIff (crypto : Crypto) (w : World Sample) (bytes : Bytes) (d : Daemon) :
    (¬ Recorded (handleInboundConreq crypto w bytes d).1 → Untouched d (handleInboundConreq crypto w bytes d).2) ↔
      Whole crypto w bytes d := by
  by_cases heard : ∃ req, Answers crypto w bytes req d
  · obtain ⟨req,answers⟩ := heard
    have only : Whole crypto w bytes d ↔ Replies crypto w bytes req d ∨
        (armKey crypto w.kexSecret req.kexPubkey d.engine).ackMacKey = d.engine.ackMacKey := by
      constructor
      · intro whole
        exact whole req answers
      · intro here req' answers'
        cases answersOnce answers answers'
        exact here
    rw [only]
    by_cases replies : Replies crypto w bytes req d
    · obtain ⟨d',same,recorded⟩ := conreqRecords answers replies
      rw [recorded]
      exact iff_of_true (fun missed => absurd (verifiedRecorded ..) missed) (.inl replies)
    · obtain ⟨d',half,same⟩ := conreqHalf answers replies
      rw [half, ← halfUntouched same]
      constructor
      · intro untouched
        exact .inr (untouched nothingRecorded)
      · rintro (sent | untouched) -
        · exact absurd sent replies
        · exact untouched
  · have quiet := not_exists.mp heard
    rw [conreqIgnored quiet]
    exact iff_of_true (fun _ => untouchedRefl d) fun req answers => absurd answers (quiet req)

theorem conackUntouched (missed : ¬ Recorded (handleInboundConack crypto w bytes d).1) :
    (handleInboundConack crypto w bytes d).2 = d ∨ (handleInboundConack crypto w bytes d).2 = dropPending d ∧
      ∃ pending e, d.state.pendingHandshake = some pending ∧ verifyConack crypto.ed crypto.primitives.sha256 bytes
        pending.conreqBytes pending.offeredModes d.state.trustStore .permissive .normal (freshness w) = .error e := by
  have told := conackTold crypto w bytes d
  generalize out : handleInboundConack crypto w bytes d = answer at told missed
  cases told with
  | ignored => exact .inl rfl
  | rejected dialling failed => exact .inr ⟨rfl,_,_,dialling,failed⟩
  | recorded completes =>
    rw [conackRecords completes] at missed
    exact absurd ⟨_,_,List.mem_cons_self⟩ missed

theorem handshakeWholeIff (crypto : Crypto) (w : World Sample) (bytes : Bytes) (d : Daemon) :
    ((¬ Recorded (handleInboundConreq crypto w bytes d).1 → Untouched d (handleInboundConreq crypto w bytes d).2) ↔
      Whole crypto w bytes d) ∧
    (¬ Recorded (handleInboundConack crypto w bytes d).1 → Untouched d (handleInboundConack crypto w bytes d).2 ∧
      ((handleInboundConack crypto w bytes d).2 = d ∨ (handleInboundConack crypto w bytes d).2 = dropPending d ∧
        ∃ pending e, d.state.pendingHandshake = some pending ∧ verifyConack crypto.ed crypto.primitives.sha256 bytes
          pending.conreqBytes pending.offeredModes d.state.trustStore .permissive .normal (freshness w) = .error e)) := by
  refine ⟨conreqWholeIff crypto w bytes d,fun missed => ?_⟩
  have told := conackUntouched missed
  refine ⟨?_,told⟩
  rcases told with same | ⟨dropped,-⟩
  · rw [same]
    exact untouchedRefl d
  · rw [dropped]
    exact ⟨rfl,rfl,rfl,rfl⟩

def held : Daemon :=
  { Bench.station with state := { Bench.station.state with ptt := (SharedPtt.new true 180000).keyAs "manual" true 0 true |>.2 } }

def called : Bytes := Bench.frameOf (Bench.request "W1AW" 6 17) (filled 32 8)

theorem keyArmedUnheard : ¬ (¬ Recorded (handleInboundConreq Bench.crypto Bench.evening called held).1 →
    Untouched held (handleInboundConreq Bench.crypto Bench.evening called held).2) := by
  have answers := @Bench.requestAnswered "W1AW" (by decide) (by decide) 6 17 (filled 32 8) held rfl rfl
  have mute : ∀ req, ¬ Replies Bench.crypto Bench.evening called req held := by
    rintro req ⟨frame,-,goes⟩
    exact absurd goes.free.idle (by decide)
  obtain ⟨d',half,same⟩ := conreqHalf answers (mute _)
  intro whole
  have untouched := halfUntouched same
  rw [called, half] at whole
  exact absurd (untouched.mp (whole nothingRecorded)) (by decide)

end OpenPulse.HalfHandshake
