import OpenPulse.HalfHandshake
import OpenPulse.Runs

/-! An established link and the rest of the band. The key of the acknowledgements and the
last verified callsign are one slot each, and every accepted handshake writes them. -/
namespace OpenPulse.LinkGuard
open ByteCodec Engine Handshake HandshakeWire KeyDerivation Signing DaemonLink HalfHandshake Runs

variable {Sample : Type} {crypto : Crypto} {b : String} {mine theirs : Octets 32} {d : Daemon}

/- The handshake with `b` is complete: each side has derived the key from its own secret
and the other's public key, and `b` is the peer last verified. -/
structure Linked (crypto : Crypto) (b : String) (mine theirs : Octets 32) (d : Daemon) : Prop where
  key : d.engine.ackMacKey = deriveAckKey crypto.primitives mine (crypto.primitives.publicKey theirs)
  agreed : deriveAckKey crypto.primitives mine (crypto.primitives.publicKey theirs) =
    deriveAckKey crypto.primitives theirs (crypto.primitives.publicKey mine)
  peer : d.state.lastVerifiedCallsign = some b

/- Made by another station: whatever it says, it does not say that it is `b`. -/
structure Stranger (b : String) (bytes : Bytes) : Prop where
  request : ∀ req, ConReq.decode bytes = .ok req → req.stationId ≠ b
  answer : ∀ ack, ConAck.decode bytes = .ok ack → ack.stationId ≠ b

def hear (crypto : Crypto) (d : Daemon) (frame : World Sample × Bytes) : Daemon :=
  (dispatchHandshake crypto frame.1 frame.2 d).2

/- A stranger's frame is neither a request that would be answered nor the answer to a
request of this station's. -/
def Ignored (crypto : Crypto) (b : String) (d : Daemon) (frame : World Sample × Bytes) : Prop :=
  Stranger b frame.2 → (∀ req, ¬ Answers crypto frame.1 frame.2 req d) ∧
    ∀ pending ack, ¬ Completes crypto frame.1 frame.2 pending ack d

def Undisturbed (crypto : Crypto) (d : Daemon) (frames : List (World Sample × Bytes)) : Prop :=
  ∀ t ∈ reached (hear crypto) d frames, t.engine.ackMacKey = d.engine.ackMacKey ∧
    t.state.otaSuppressedByPeer = d.state.otaSuppressedByPeer

theorem keyAgreed {p : Primitives} (crates : p.Documented) (mine theirs : Octets 32) :
    deriveAckKey p mine (p.publicKey theirs) = deriveAckKey p theirs (p.publicKey mine) := by
  rw [deriveAckKey, deriveAckKey, crates.commutes]

theorem keyOfWhole (key : Octets 32) : keyOf key.val = some key := dif_pos key.property

theorem answerLinks (crates : crypto.primitives.Documented) {w : World Sample} {bytes : Bytes} {req : ConReq}
    (answers : Answers crypto w bytes req d) (replies : Replies crypto w bytes req d)
    (offered : req.kexPubkey = (crypto.primitives.publicKey theirs).val) :
    Linked crypto req.stationId w.kexSecret theirs (handleInboundConreq crypto w bytes d).2 := by
  obtain ⟨d',same,recorded⟩ := conreqRecords answers replies
  have armedKey : (armed crypto w req d).engine.ackMacKey =
      deriveAckKey crypto.primitives w.kexSecret (crypto.primitives.publicKey theirs) := by
    simp only [armed, armKey, offered, keyOfWhole]
    rfl
  rw [recorded]
  exact ⟨same.engine.key.trans armedKey,keyAgreed crates _ _,rfl⟩

theorem completionLinks (crates : crypto.primitives.Documented) {w : World Sample} {bytes : Bytes} {pending : PendingHandshake}
    {ack : ConAck} (completes : Completes crypto w bytes pending ack d)
    (offered : ack.kexPubkey = (crypto.primitives.publicKey theirs).val) :
    Linked crypto pending.peerCallsign pending.kexSecret theirs (handleInboundConack crypto w bytes d).2 := by
  have armedKey : (armKey crypto pending.kexSecret ack.kexPubkey d.engine).ackMacKey =
      deriveAckKey crypto.primitives pending.kexSecret (crypto.primitives.publicKey theirs) := by
    simp only [armKey, offered, keyOfWhole]
    rfl
  rw [conackRecords completes]
  exact ⟨armedKey,keyAgreed crates _ _,congrArg some completes.dialled⟩

theorem untouchedTrans {a b c : Daemon} (first : Untouched a b) (second : Untouched b c) : Untouched a c :=
  ⟨second.peers.trans first.peers,second.last.trans first.last,second.grid.trans first.grid,second.key.trans first.key⟩

theorem ignoredUntouched {frame : World Sample × Bytes} (stranger : Stranger b frame.2) (ignored : Ignored crypto b d frame) :
    Untouched d (hear crypto d frame) := by
  obtain ⟨w,bytes⟩ := frame
  obtain ⟨unanswered,incomplete⟩ := ignored stranger
  simp only [hear, dispatchHandshake]
  split
  · rw [conreqIgnored unanswered]
    exact untouchedRefl d
  · split
    · have told := conackTold crypto w bytes d
      generalize handleInboundConack crypto w bytes d = out at told
      cases told with
      | ignored => exact untouchedRefl d
      | rejected => exact ⟨rfl,rfl,rfl,rfl⟩
      | recorded completes => exact absurd completes (incomplete _ _)
    · exact untouchedRefl d

theorem untouchedOta {d' : Daemon} (untouched : Untouched d d') : d'.state.otaSuppressedByPeer = d.state.otaSuppressedByPeer := by
  simp only [RuntimeControlState.otaSuppressedByPeer, RuntimeControlState.lastVerifiedPeer, untouched.last, untouched.peers]

theorem linkUndisturbed (linked : Linked crypto b mine theirs d) {frames : List (World Sample × Bytes)}
    (strangers : ∀ frame ∈ frames, Stranger b frame.2) (ignored : EveryStep (hear crypto) (Ignored crypto b) d frames) :
    Undisturbed crypto d frames ∧ Linked crypto b mine theirs (run (hear crypto) d frames) := by
  have others : EveryStep (hear crypto) (fun _ frame => Stranger b frame.2) d frames := everyStepEvents.mpr strangers
  have keeps : ∀ (t : Daemon) (frame : World Sample × Bytes), Untouched d t → Ignored crypto b t frame ∧ Stranger b frame.2 →
      Untouched d (hear crypto t frame) := fun t frame same both => untouchedTrans same (ignoredUntouched both.2 both.1)
  have admitted := everyStepBoth ignored others
  constructor
  · intro t member
    have same := reachedInvariant keeps (untouchedRefl d) admitted t member
    exact ⟨same.key,untouchedOta same⟩
  · have last := (everyStepInvariant keeps (fun _ _ _ _ => trivial) (untouchedRefl d) admitted (Q := fun _ _ => True)).1
    exact ⟨last.key.trans linked.key,linked.agreed,last.last.trans linked.peer⟩

theorem conreqNotConack {bytes : Bytes} {req : ConReq} (decoded : ConReq.decode bytes = .ok req) (ack : ConAck) :
    ConAck.decode bytes ≠ .ok ack := by
  intro other
  have first : ∃ spans, splitFrame bytes magicConreq "CONREQ" = .ok spans := splitsFirst decoded
  have second : ∃ spans, splitFrame bytes magicConack "CONACK" = .ok spans := splitsFirst other
  obtain ⟨spans,split⟩ := first
  obtain ⟨spans',split'⟩ := second
  obtain ⟨body,sig,-,whole,-⟩ := (splitFrameIff rfl).mp split
  obtain ⟨body',sig',-,whole',-⟩ := (splitFrameIff rfl).mp split'
  have heads := congrArg (List.take 4) (whole.symm.trans whole')
  simp [framed, magicConreq, magicConack] at heads

def linkedStation : Daemon :=
  (recordVerifiedPeer "K2XYZ" "FN31" (filled 32 7).val 17
    { Bench.station with engine := armKey Bench.crypto (filled 32 2) (filled 32 5).val Bench.station.engine }).2

theorem linkedStationLinked : Linked Bench.crypto "K2XYZ" (filled 32 2) (filled 32 5) linkedStation where
  key := rfl
  agreed := keyAgreed shortMessagesDocumented _ _
  peer := rfl

def call : ConReqParams := Bench.request "W1AW" 6 18

theorem callAcceptable : call.Acceptable := Bench.requestAcceptable (by decide) (by decide) 6 18

def elsewhere : ConReqParams := { call with dstStation := "K5ABC" }

theorem elsewhereAcceptable : elsewhere.Acceptable :=
  { callAcceptable with addressed := (by decide : "K5ABC" ≠ ""), dstStation := (by decide : (utf8 "K5ABC").length ≤ 18) }

theorem honestStranger {p : ConReqParams} (acceptable : p.Acceptable) (own : p.stationId ≠ b) (seed : Seed) :
    Stranger b (Bench.frameOf p seed) where
  request := by
    intro req decoded
    cases Except.ok.inj ((Bench.heardDecodes acceptable seed).symm.trans decoded)
    exact own
  answer ack decoded := absurd decoded (conreqNotConack (Bench.heardDecodes acceptable seed) ack)

theorem elsewhereIgnored : Ignored Bench.crypto "K2XYZ" linkedStation (Bench.evening,Bench.frameOf elsewhere (filled 32 8)) := by
  intro stranger
  constructor
  · intro req answers
    obtain ⟨decision,verified⟩ := answers.verified
    obtain ⟨spans,split,decoded,rest⟩ := verifyConreqIff.mp verified
    cases Except.ok.inj ((Bench.heardDecodes elsewhereAcceptable (filled 32 8)).symm.trans decoded)
    exact absurd answers.addressed (by decide)
  · intro pending ack completes
    cases completes.dialling

theorem linkUndisturbedElsewhere :
    Undisturbed Bench.crypto linkedStation [(Bench.evening,Bench.frameOf elsewhere (filled 32 8))] ∧
      Linked Bench.crypto "K2XYZ" (filled 32 2) (filled 32 5)
        (run (hear Bench.crypto) linkedStation [(Bench.evening,Bench.frameOf elsewhere (filled 32 8))]) := by
  refine linkUndisturbed linkedStationLinked ?_ ⟨elsewhereIgnored,trivial⟩
  intro frame member
  cases List.mem_singleton.mp member
  exact honestStranger elsewhereAcceptable (by decide) (filled 32 8)

theorem strangerTakesLink : Linked Bench.crypto "K2XYZ" (filled 32 2) (filled 32 5) linkedStation ∧
    Stranger "K2XYZ" (Bench.frameOf call (filled 32 8)) ∧
    ¬ Undisturbed Bench.crypto linkedStation [(Bench.evening,Bench.frameOf call (filled 32 8))] := by
  refine ⟨linkedStationLinked,honestStranger callAcceptable (by decide) (filled 32 8),fun undisturbed => ?_⟩
  have answers := @Bench.requestAnswered "W1AW" (by decide) (by decide) 6 18 (filled 32 8) linkedStation rfl rfl
  have replies := Bench.replied (Bench.heard call (filled 32 8)) rfl (Bench.frameOf call (filled 32 8))
    (⟨rfl,rfl,rfl⟩ : linkedStation.state.localCallsign = _ ∧ _ ∧ _) rfl rfl rfl
  have taken : Linked Bench.crypto "W1AW" (filled 32 3) (filled 32 6)
      (hear Bench.crypto linkedStation (Bench.evening,Bench.frameOf call (filled 32 8))) := by
    rw [hear, Bench.dispatchRequest]
    exact answerLinks shortMessagesDocumented answers replies rfl
  have kept := (undisturbed _ List.mem_cons_self).1
  rw [taken.key, linkedStationLinked.key] at kept
  exact absurd kept (by decide)

end OpenPulse.LinkGuard
