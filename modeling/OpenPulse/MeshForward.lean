import OpenPulse.Mesh
import OpenPulse.RelayFlood

/-! Authentic traffic through one relay of the mesh. The daemon cuts the hop
limit of an envelope to its own before the forwarder sees it, and the hop limit
is a byte the origin has signed. -/
namespace OpenPulse.MeshForward
open ByteCodec Tables Signing Wire Relay Sar Mesh RelayFlood

variable (ed : Ed25519) (sha256 : Bytes → Octets 32)

/-- A relay's traffic that nothing but its signature could keep it from forwarding. -/
structure Relayable (d : MeshDaemon) (e : WireEnvelope) (now : UInt64) : Prop where
  kind : e.msgType = .relayDataChunk ∨ e.msgType = .relayHopAck
  received : ∃ bytes, WireEnvelope.decode bytes = .ok e ∧ bytes.length ≤ sarMaxSegmentData
  authentic : e.verifyOrigin ed = .ok ()
  elsewhere : e.dstPeerId ≠ d.localPeerId
  fresh : (d.relayForwarder.evictExpired now).seen.lookup (replayKey e) = none
  room : size (d.relayForwarder.evictExpired now).seen < maxSeenEntries
  allowed : d.relayForwarder.policy.allows (hexPeerId e.srcPeerId) = true
  trusted : trustFilterAllows d.peerCache e.srcPeerId d.relayTrustFilter = true
  hop : e.hopIndex < e.hopLimit ∧ e.hopIndex < d.hopLimit

def Transmits (d d' : MeshDaemon) (out : WireEnvelope) : Prop :=
  ∃ bytes, out.encode = .ok bytes ∧ bytes.length ≤ sarMaxSegmentData ∧
    d'.engine.sent = d.engine.sent ++ frames d.txSegmentId bytes

/-- The envelope went one hop further, in a form the next hop accepts as authentic. -/
def Onward (d : MeshDaemon) (e : WireEnvelope) (now : UInt64) : Prop :=
  ∃ out, Transmits d (d.dispatch ed sha256 e now) out ∧ out.hopIndex = e.hopIndex + 1 ∧ out.verifyOrigin ed = .ok ()

def Binding : Prop := ∀ pubkey sig m m', ed.verifyStrict pubkey m sig = true → ed.verifyStrict pubkey m' sig = true → m = m'

variable {ed sha256} {d : MeshDaemon} {e : WireEnvelope} {now : UInt64}

theorem transmitsUnique {d' : MeshDaemon} {a b : WireEnvelope} (left : Transmits d d' a) (right : Transmits d d' b) :
    a = b := by
  obtain ⟨bytesA,encodedA,fitsA,sentA⟩ := left
  obtain ⟨bytesB,encodedB,fitsB,sentB⟩ := right
  rw [sentA] at sentB
  have same := framesInj fitsA fitsB (List.append_cancel_left sentB)
  have back := decodeEncode encodedA
  rw [same, decodeEncode encodedB] at back
  exact (Except.ok.inj back).symm

theorem silentNotOnward (silent : (d.dispatch ed sha256 e now).engine.sent = d.engine.sent) : ¬ Onward ed sha256 d e now := by
  rintro ⟨out,⟨bytes,-,fits,sent⟩,-⟩
  rw [silent] at sent
  exact framesNonempty fits (List.self_eq_append_right.mp sent)

theorem dispatchRelay (relayable : Relayable ed d e now) :
    d.dispatch ed sha256 e now = d.handleRelay ed (d.clamp e) now := by
  have kind : (d.clamp e).msgType = e.msgType := by rw [clampFields]
  unfold MeshDaemon.dispatch
  rcases relayable.kind with chunk | ack
  · simp only [kind, chunk]
  · simp only [kind, ack]

theorem handleRelayForwarded {c out : WireEnvelope} (works : d.engine.Works) (elsewhere : c.dstPeerId ≠ d.localPeerId)
    (trusted : trustFilterAllows d.peerCache c.srcPeerId d.relayTrustFilter = true)
    (forwarded : (d.relayForwarder.forward ed c now).1 = .ok out) {bytes : Bytes} (encoded : out.encode = .ok bytes)
    (fits : bytes.length ≤ sarMaxSegmentData) : Transmits d (d.handleRelay ed c now) out := by
  obtain ⟨ok,sent⟩ := transmitEnvelopeWorks works encoded fits
  refine ⟨bytes,encoded,fits,?_⟩
  simp only [MeshDaemon.handleRelay, elsewhere, if_false, trusted, forwarded, ok, Bool.not_true, if_true, Bool.false_eq_true]
  exact sent

theorem handleRelayRefused {c : WireEnvelope} {err : RelayForwardError}
    (refused : (d.relayForwarder.forward ed c now).1 = .error err) :
    (d.handleRelay ed c now).engine.sent = d.engine.sent := by
  unfold MeshDaemon.handleRelay
  split
  · rfl
  · split
    · rfl
    · simp only [refused]
      rfl

theorem encodeRewritten {bytes : Bytes} (received : WireEnvelope.decode bytes = .ok e) (hopLimit hopIndex : UInt8) :
    ∃ raw, { e with hopLimit, hopIndex }.encode = .ok raw ∧ raw.length = bytes.length := by
  obtain ⟨length,small⟩ := decodeLength received
  have encoded := encodeOk (e := { e with hopLimit, hopIndex }) small
  exact ⟨_,encoded,(encodeLength encoded).trans length.symm⟩

theorem clampedUnverified (binding : Binding ed) (authentic : e.verifyOrigin ed = .ok ()) {hopLimit : UInt8}
    (changed : hopLimit ≠ e.hopLimit) : { e with hopLimit }.verifyOrigin ed ≠ .ok () := by
  intro verified
  obtain ⟨sig,msg,signature,bytes,-,valid⟩ := verifyOriginOk.mp authentic
  obtain ⟨sig',msg',signature',bytes',-,valid'⟩ := verifyOriginOk.mp verified
  have same : sig = sig' := Option.some.inj (signature.symm.trans signature')
  subst same
  have message := binding _ sig msg msg' valid valid'
  subst message
  have equal := signingBytesInj bytes' bytes
  exact changed (congrArg WireEnvelope.hopLimit equal)

theorem onwardWithin (works : d.engine.Works) (relayable : Relayable ed d e now) (within : e.hopLimit ≤ d.hopLimit) :
    Onward ed sha256 d e now := by
  have same : d.clamp e = e := if_neg (UInt8.not_lt.mpr within)
  obtain ⟨raw,received,fits⟩ := relayable.received
  obtain ⟨bytes,encoded,length⟩ := encodeRewritten received e.hopLimit (e.hopIndex + 1)
  have checked : Checked ed d.relayForwarder e now :=
    ⟨relayable.hop.1,fun _ => relayable.authentic,relayable.room,relayable.fresh,relayable.allowed⟩
  refine ⟨{ e with hopIndex := e.hopIndex + 1 },?_,rfl,?_⟩
  · rw [dispatchRelay relayable, same]
    exact handleRelayForwarded works relayable.elsewhere relayable.trusted (forwardChecked checked) encoded (by omega)
  · rw [verifyOriginHopIndex]
    exact relayable.authentic

theorem notOnwardAbove (works : d.engine.Works) (binding : Binding ed) (relayable : Relayable ed d e now)
    (above : d.hopLimit < e.hopLimit) : ¬ Onward ed sha256 d e now := by
  have cut : d.clamp e = { e with hopLimit := d.hopLimit } := if_pos above
  have dispatched : d.dispatch ed sha256 e now = d.handleRelay ed { e with hopLimit := d.hopLimit } now := by
    rw [dispatchRelay relayable, cut]
  have unverified := clampedUnverified binding relayable.authentic (UInt8.ne_of_lt above)
  cases call : (d.relayForwarder.forward ed { e with hopLimit := d.hopLimit } now).1 with
  | error err =>
    refine silentNotOnward ?_
    rw [dispatched]
    exact handleRelayRefused call
  | ok out =>
    obtain ⟨-,rfl,-⟩ := forwardOk call
    obtain ⟨raw,received,fits⟩ := relayable.received
    obtain ⟨bytes,encoded,length⟩ := encodeRewritten received d.hopLimit (e.hopIndex + 1)
    have sent := handleRelayForwarded (c := { e with hopLimit := d.hopLimit }) works relayable.elsewhere
      relayable.trusted call encoded (by omega)
    rintro ⟨other,transmitted,-,verified⟩
    rw [dispatched] at transmitted
    have same := transmitsUnique transmitted sent
    rw [same] at verified
    exact unverified ((verifyOriginHopIndex ed { e with hopLimit := d.hopLimit } (e.hopIndex + 1)).symm.trans verified)

theorem onwardExact (ed : Ed25519) (sha256 : Bytes → Octets 32) (d : MeshDaemon) (e : WireEnvelope) (now : UInt64)
    (works : d.engine.Works) (binding : Binding ed) (relayable : Relayable ed d e now) :
    Onward ed sha256 d e now ↔ e.hopLimit ≤ d.hopLimit := by
  constructor
  · intro onward
    by_contra above
    exact notOnwardAbove works binding relayable (UInt8.not_le.mp above) onward
  · exact onwardWithin works relayable

def freeEngine : ModemEngine := ⟨fun _ _ => true,[],[]⟩

def relayNode (maxHops : UInt8) : MeshDaemon :=
  .new (signedOnly [hello]) freeEngine (filled 32 4) maxHops 0 60000 .default 64 600000 (filled 32 4)
    "W1AW" newestFirst

theorem helloBinding : Binding (signedOnly [hello]) := by
  intro pubkey sig m m' left right
  simp only [signedOnly, List.any_cons, List.any_nil, Bool.or_false, decide_eq_true_eq] at left right
  exact Except.ok.inj (left.2.2.symm.trans right.2.2)

theorem helloRelayable (maxHops : UInt8) (some : 0 < maxHops) : Relayable (signedOnly [hello]) (relayNode maxHops) hello 10 where
  kind := .inl rfl
  received := by
    obtain ⟨bytes,encoded⟩ : ∃ bytes, hello.encode = .ok bytes := ⟨_,rfl⟩
    refine ⟨bytes,decodeEncode encoded,?_⟩
    rw [encodeLength encoded]
    decide
  authentic := by decide +kernel
  elsewhere := by
    change hello.dstPeerId ≠ filled 32 4
    decide
  fresh := rfl
  room := Nat.zero_lt_succ 4095
  allowed := rfl
  trusted := rfl
  hop := ⟨by decide,some⟩

theorem helloOnward : Onward (signedOnly [hello]) (fun _ => zeros 32) (relayNode 3) hello 10 :=
  (onwardExact _ _ _ _ _ (fun _ _ _ => rfl) helloBinding (helloRelayable 3 (by decide))).mpr (by decide)

theorem helloDropped :
    Relayable (signedOnly [hello]) (relayNode 2) hello 10 ∧ (relayNode 2).engine.Works ∧ Binding (signedOnly [hello]) ∧
      ((relayNode 2).relayForwarder.forward (signedOnly [hello]) ((relayNode 2).clamp hello) 10).1 =
        .error (.authenticationFailed hello.srcPeerId) ∧
      ¬ Onward (signedOnly [hello]) (fun _ => zeros 32) (relayNode 2) hello 10 := by
  refine ⟨helloRelayable 2 (by decide),fun _ _ _ => rfl,helloBinding,by decide +kernel,?_⟩
  exact notOnwardAbove (fun _ _ _ => rfl) helloBinding (helloRelayable 2 (by decide)) (by decide)

end OpenPulse.MeshForward
