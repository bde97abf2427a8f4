import OpenPulse.Mesh
import OpenPulse.Runs

/-! The replay keys of what a node sends along its routes. The nonce of a data
chunk holds bytes of the node's id and of the session id and nothing that
changes from one call to the next. -/
namespace OpenPulse.MeshNonce
open ByteCodec Tables Signing Wire Peers Relay Routes Sar Mesh Runs

structure Send where
  destination : PeerId
  sessionId : UInt64
  payload : Bytes
  now : UInt64

variable (ed : Ed25519)

def outgoing (d : MeshDaemon) (c : Send) : Option WireEnvelope :=
  let d := { d with routeTable := d.routeTable.evictExpired c.now }
  match d.chooseRoute c.destination with
  | .error _ => none
  | .ok selected =>
    some (d.signEnvelope ed (d.dataEnvelope c.destination c.sessionId c.payload c.now (selected.length - 1).toUInt8))

def goesOut (engine : ModemEngine) (segmentId : UInt16) (e : WireEnvelope) : Bool :=
  match e.encode with
  | .error _ => false
  | .ok bytes => (emit engine segmentId bytes).1.isOk

def departs (d : MeshDaemon) (c : Send) : Bool := (outgoing ed d c).any (goesOut d.engine d.txSegmentId)

structure Sender where
  node : MeshDaemon
  sent : List WireEnvelope

def send (s : Sender) (c : Send) : Sender :=
  let out := s.node.sendViaRoute ed c.destination c.sessionId c.payload c.now
  ⟨out.2,if out.1.isOk then s.sent ++ (outgoing ed s.node c).toList else s.sent⟩

def NoRepeat (s : Sender) : Prop := (s.sent.map replayKey).Nodup

instance (s : Sender) : Decidable (NoRepeat s) := inferInstanceAs (Decidable (List.Nodup _))

/-- The call transmits under a session id of its own, or not at all. -/
def FreshSession (s : Sender) (c : Send) : Prop :=
  departs ed s.node c = true → c.sessionId ∉ s.sent.map WireEnvelope.sessionId

instance (s : Sender) (c : Send) : Decidable (FreshSession ed s c) := inferInstanceAs (Decidable (_ → _))

variable {ed}

theorem signEnvelopeFields (d : MeshDaemon) (e : WireEnvelope) :
    d.signEnvelope ed e = { e with signature := (d.signEnvelope ed e).signature } := by
  unfold MeshDaemon.signEnvelope
  split
  · split
    · rename_i signed ok
      unfold WireEnvelope.sign at ok
      split at ok
      · cases ok
      · split at ok
        · cases ok
        · cases ok
          rfl
    · rfl
  · rfl

theorem encodeAndTransmitCases (d : MeshDaemon) (e : WireEnvelope) :
    (d.encodeAndTransmit e).1.isOk = goesOut d.engine d.txSegmentId e ∧
      (d.encodeAndTransmit e).2.localPeerId = d.localPeerId ∧
      (d.encodeAndTransmit e).2.signingKeySeed = d.signingKeySeed := by
  unfold MeshDaemon.encodeAndTransmit goesOut
  cases e.encode with
  | error err => exact ⟨rfl,rfl,rfl⟩
  | ok bytes =>
    refine ⟨?_,rfl,rfl⟩
    simp only [MeshDaemon.transmitBytes]
    cases (emit d.engine d.txSegmentId bytes).1 <;> rfl

theorem sendCases (ed : Ed25519) (d : MeshDaemon) (c : Send) :
    (d.sendViaRoute ed c.destination c.sessionId c.payload c.now).1.isOk = departs ed d c ∧
      (d.sendViaRoute ed c.destination c.sessionId c.payload c.now).2.localPeerId = d.localPeerId ∧
      (d.sendViaRoute ed c.destination c.sessionId c.payload c.now).2.signingKeySeed = d.signingKeySeed := by
  cases found : { d with routeTable := d.routeTable.evictExpired c.now }.chooseRoute c.destination with
  | error err => simp [MeshDaemon.sendViaRoute, departs, outgoing, found, Except.isOk, Except.toBool]
  | ok selected =>
    simp only [MeshDaemon.sendViaRoute, departs, outgoing, found, Option.any_some]
    generalize MeshDaemon.signEnvelope ed _ _ = e
    have result := encodeAndTransmitCases { d with routeTable := d.routeTable.evictExpired c.now } e
    generalize MeshDaemon.encodeAndTransmit _ e = out at result ⊢
    obtain ⟨outcome,node⟩ := out
    cases outcome with
    | error err => exact result
    | ok done => exact result

theorem clampHopsPos {hopCount hopLimit : UInt8} (within : hopCount ≤ hopLimit) :
    0 < MeshDaemon.clampHops hopCount hopLimit := by
  unfold MeshDaemon.clampHops
  split
  · decide
  · rename_i some
    rw [if_neg (UInt8.not_lt.mpr within)]
    exact UInt8.lt_of_lt_of_le (by decide) (UInt8.not_lt.mp some)

structure Own (d : MeshDaemon) (e : WireEnvelope) : Prop where
  nonce : e.nonce = MeshDaemon.nonceOf d.localPeerId e.sessionId.toUInt32
  source : e.srcPeerId = d.localPeerId
  hop : e.hopIndex < e.hopLimit

theorem outgoingOwn {d : MeshDaemon} {c : Send} {e : WireEnvelope} (out : outgoing ed d c = some e) :
    Own d e ∧ e.sessionId = c.sessionId := by
  unfold outgoing at out
  dsimp only at out
  split at out
  · cases out
  · rename_i selected chosen
    cases out
    rw [signEnvelopeFields]
    refine ⟨⟨rfl,rfl,clampHopsPos ?_⟩,rfl⟩
    have short : selected.length - 1 ≤ d.hopLimit.toNat := validRouteShort (selectBestScoredRouteValid chosen)
    have small := d.hopLimit.toNat_lt
    rw [UInt8.le_iff_toNat_le]
    simp only [Nat.toUInt8_eq, UInt8.toNat_ofNat']
    omega

theorem signedVerifies (correct : ed.Correct) {d : MeshDaemon} (own : d.localPeerId = ed.verifyingKey d.signingKeySeed)
    {e : WireEnvelope} (kind : e.msgType = .relayDataChunk) (source : e.srcPeerId = d.localPeerId)
    (small : e.payload.length ≤ 65535) : (d.signEnvelope ed e).verifyOrigin ed = .ok () := by
  have bytes := signingBytesOk small
  rw [MeshDaemon.signEnvelope, if_pos ⟨.inl kind,source⟩, signOk ed _ bytes]
  exact verifySigned correct (source.trans own) bytes

theorem outgoingVerifies (correct : ed.Correct) {d : MeshDaemon} (own : d.localPeerId = ed.verifyingKey d.signingKeySeed)
    {c : Send} {e : WireEnvelope} (out : outgoing ed d c = some e) (leaves : departs ed d c = true) :
    e.verifyOrigin ed = .ok () := by
  have small : e.payload.length ≤ 65535 := by
    rw [departs, out, Option.any_some, goesOut] at leaves
    split at leaves
    · cases leaves
    · exact encodeSmall ‹_›
  unfold outgoing at out
  dsimp only at out
  split at out
  · cases out
  · cases out
    rw [signEnvelopeFields] at small
    exact signedVerifies correct (by exact own) rfl rfl small

structure Kept (ed : Ed25519) (origin : MeshDaemon) (s : Sender) : Prop where
  peer : s.node.localPeerId = origin.localPeerId
  seed : s.node.signingKeySeed = origin.signingKeySeed
  own : ∀ e ∈ s.sent, Own origin e
  verifies : ed.Correct → origin.localPeerId = ed.verifyingKey origin.signingKeySeed →
    ∀ e ∈ s.sent, e.verifyOrigin ed = .ok ()

theorem sendSent (ed : Ed25519) (s : Sender) (c : Send) :
    (departs ed s.node c = false ∧ (send ed s c).sent = s.sent) ∨
      (departs ed s.node c = true ∧ ∃ e, outgoing ed s.node c = some e ∧ (send ed s c).sent = s.sent ++ [e]) := by
  obtain ⟨ok,-⟩ := sendCases ed s.node c
  cases leaves : departs ed s.node c with
  | false => exact .inl ⟨rfl,by simp [send, ok, leaves]⟩
  | true =>
    obtain ⟨e,out,-⟩ := (Option.any_eq_true _ _).mp leaves
    exact .inr ⟨rfl,e,out,by simp [send, ok, leaves, out]⟩

theorem keptOwn {origin : MeshDaemon} {s : Sender} (kept : Kept ed origin s) {c : Send} {e : WireEnvelope}
    (out : outgoing ed s.node c = some e) : Own origin e := by
  obtain ⟨own,-⟩ := outgoingOwn out
  exact ⟨by rw [own.nonce, kept.peer],by rw [own.source, kept.peer],own.hop⟩

theorem sendKept {origin : MeshDaemon} (s : Sender) (c : Send) (kept : Kept ed origin s) : Kept ed origin (send ed s c) := by
  obtain ⟨-,peer,seed⟩ := sendCases ed s.node c
  have newPeer := peer.trans kept.peer
  have newSeed := seed.trans kept.seed
  rcases sendSent ed s c with ⟨-,sent⟩ | ⟨leaves,e,out,sent⟩
  · refine ⟨newPeer,newSeed,?_,?_⟩
    · rw [sent]
      exact kept.own
    · rw [sent]
      exact kept.verifies
  · refine ⟨newPeer,newSeed,?_,?_⟩
    · intro x member
      rw [sent] at member
      rcases List.mem_append.mp member with old | new
      · exact kept.own x old
      · rw [List.mem_singleton.mp new]
        exact keptOwn kept out
    · intro correct own x member
      rw [sent] at member
      rcases List.mem_append.mp member with old | new
      · exact kept.verifies correct own x old
      · rw [List.mem_singleton.mp new]
        refine outgoingVerifies correct ?_ out leaves
        rw [kept.peer, kept.seed, own]

theorem keySession {origin : MeshDaemon} {a b : WireEnvelope} (left : Own origin a) (right : Own origin b) :
    replayKey a = replayKey b ↔ a.sessionId = b.sessionId := by
  constructor
  · intro same
    exact congrArg Prod.fst same
  · intro same
    simp only [replayKey, left.nonce, right.nonce, same]

theorem sendNoRepeat {origin : MeshDaemon} (s : Sender) (c : Send) (kept : Kept ed origin s) (apart : NoRepeat s) :
    NoRepeat (send ed s c) ↔ FreshSession ed s c := by
  unfold NoRepeat FreshSession
  rcases sendSent ed s c with ⟨stays,sent⟩ | ⟨leaves,e,out,sent⟩
  · rw [sent, stays]
    exact iff_of_true apart (fun absent => Bool.noConfusion absent)
  · have session := (outgoingOwn out).2
    have own := keptOwn kept out
    have known : replayKey e ∈ s.sent.map replayKey ↔ c.sessionId ∈ s.sent.map WireEnvelope.sessionId := by
      simp only [List.mem_map]
      refine exists_congr (fun x => and_congr_right (fun member => ?_))
      rw [keySession (kept.own x member) own, session]
    rw [sent, List.map_append, List.map_singleton, List.nodup_append_comm, List.singleton_append, List.nodup_cons, known]
    exact ⟨fun both _ => both.1,fun new => ⟨new leaves,apart⟩⟩

structure Hearing where
  envelope : WireEnvelope
  now : UInt64

def hear (ed : Ed25519) (f : RelayForwarder) (h : Hearing) : RelayForwarder := (f.forward ed h.envelope h.now).2

def Passes (ed : Ed25519) (f : RelayForwarder) (h : Hearing) : Prop :=
  (f.forward ed h.envelope h.now).1 = .ok { h.envelope with hopIndex := h.envelope.hopIndex + 1 }

instance (f : RelayForwarder) (h : Hearing) : Decidable (Passes ed f h) := inferInstanceAs (Decidable (_ = _))

/-- The relay has room for all of them, knows none of their keys and objects to none of their sources. -/
structure Open (f : RelayForwarder) (hearings : List Hearing) : Prop where
  room : size f.seen + hearings.length ≤ maxSeenEntries
  unseen : ∀ h ∈ hearings, f.seen.lookup (replayKey h.envelope) = none
  allowed : ∀ h ∈ hearings, f.policy.allows (hexPeerId h.envelope.srcPeerId) = true

theorem distinctPass {f : RelayForwarder} {hearings : List Hearing} (ready : Open f hearings)
    (hop : ∀ h ∈ hearings, h.envelope.hopIndex < h.envelope.hopLimit)
    (authentic : ∀ h ∈ hearings, h.envelope.verifyOrigin ed = .ok ())
    (distinct : (hearings.map (fun h => replayKey h.envelope)).Nodup) : EveryStep (hear ed) (Passes ed) f hearings := by
  induction hearings generalizing f with
  | nil => trivial
  | cons h rest ih =>
    obtain ⟨new,distinct⟩ := List.nodup_cons.mp distinct
    have evicted := evictExpiredSize f h.now
    have room := ready.room
    simp only [List.length_cons] at room
    have fresh : ∀ k, f.seen.lookup k = none → (f.evictExpired h.now).seen.lookup k = none := by
      intro k absent
      simp [absent]
    have checked : Checked ed f h.envelope h.now :=
      ⟨hop h (by simp),fun _ => authentic h (by simp),by omega,fresh _ (ready.unseen h (by simp)),ready.allowed h (by simp)⟩
    have passes : Passes ed f h := forwardChecked checked
    have seen : (hear ed f h).seen = (f.evictExpired h.now).seen.insert (replayKey h.envelope) h.now :=
      (forwardOk passes).2.2
    refine ⟨passes,ih ⟨?_,?_,?_⟩ (fun x member => hop x (by simp [member]))
      (fun x member => authentic x (by simp [member])) distinct⟩
    · rw [seen, sizeInsert _ _ _ checked.fresh]
      omega
    · intro x member
      have other : replayKey x.envelope ≠ replayKey h.envelope :=
        fun same => new (List.mem_map.mpr ⟨x,member,same⟩)
      rw [seen, lookupInsert, if_neg other]
      exact fresh _ (ready.unseen x (by simp [member]))
    · intro x member
      rw [hear, forwardPolicy]
      exact ready.allowed x (by simp [member])

/- The replay keys of a node's sends stay apart exactly as long as every call
that transmits has a session id of its own, and then a relay that hears each
envelope once, in any order and at any times, passes them all on. -/
theorem keysApart (ed : Ed25519) (node : MeshDaemon) (calls : List Send) (correct : ed.Correct)
    (own : node.localPeerId = ed.verifyingKey node.signingKeySeed) :
    ((∀ s ∈ reached (send ed) ⟨node,[]⟩ calls, NoRepeat s) ↔ EveryStep (send ed) (FreshSession ed) ⟨node,[]⟩ calls) ∧
      (EveryStep (send ed) (FreshSession ed) ⟨node,[]⟩ calls →
        ∀ f hearings, (hearings.map Hearing.envelope).Perm (run (send ed) ⟨node,[]⟩ calls).sent → Open f hearings →
          EveryStep (hear ed) (Passes ed) f hearings) := by
  have start : Kept ed node ⟨node,[]⟩ := ⟨rfl,rfl,by simp,by simp⟩
  refine ⟨reachedIff (fun s c => sendKept s c) (fun s c => sendNoRepeat s c) start List.nodup_nil,?_⟩
  intro fresh f hearings each ready
  obtain ⟨⟨kept,apart⟩,-⟩ := everyStepInvariant (I := fun s => Kept ed node s ∧ NoRepeat s) (Q := fun _ _ => True)
    (fun s c known new => ⟨sendKept s c known.1,(sendNoRepeat s c known.1 known.2).mpr new⟩) (fun _ _ _ _ => trivial)
    ⟨start,List.nodup_nil⟩ fresh
  have sent : ∀ h ∈ hearings, h.envelope ∈ (run (send ed) ⟨node,[]⟩ calls).sent :=
    fun h member => each.subset (List.mem_map_of_mem member)
  refine distinctPass ready (fun h member => (kept.own _ (sent h member)).hop)
    (fun h member => kept.verifies correct own _ (sent h member)) ?_
  have keys := (each.map replayKey).nodup_iff.mpr apart
  rwa [List.map_map] at keys

def neighbour : PeerId := filled 32 9

def station : MeshDaemon :=
  let d := MeshDaemon.new tagScheme ⟨fun _ _ => true,[],[]⟩ (filled 32 1) 3 0 60000 .default 64 600000 (filled 32 1)
    "W1AW" newestFirst
  { d with peerCache := (d.peerCache.upsert ⟨hexPeerId neighbour,0,200,.unknown,0,5,zeros 32⟩ 5).2 }

theorem stationOwn : station.localPeerId = tagScheme.verifyingKey station.signingKeySeed := rfl

def relay : RelayForwarder := .new 60000 .default

def heard (calls : List Send) : List Hearing := (run (send tagScheme) ⟨station,[]⟩ calls).sent.map (fun e => ⟨e,30⟩)

def oneSession : List Send := [⟨neighbour,7,[1],10⟩,⟨neighbour,7,[2],20⟩]

theorem secondChunkSuppressed :
    (run (send tagScheme) ⟨station,[]⟩ oneSession).sent.length = 2 ∧
      (run (send tagScheme) ⟨station,[]⟩ oneSession).sent.Nodup ∧
      ¬ NoRepeat (run (send tagScheme) ⟨station,[]⟩ oneSession) ∧
      (∀ h ∈ heard oneSession, relay.policy.allows (hexPeerId h.envelope.srcPeerId) = true) ∧
      ¬ EveryStep (hear tagScheme) (Passes tagScheme) relay (heard oneSession) := by
  decide +kernel

def apartSessions : List Send := [⟨zeros 32,7,[1],10⟩,⟨neighbour,7,[1],20⟩,⟨neighbour,8,[2],20⟩]

theorem apartSessionsPass :
    (run (send tagScheme) ⟨station,[]⟩ apartSessions).sent.length = 2 ∧
      (∀ s ∈ reached (send tagScheme) ⟨station,[]⟩ apartSessions, NoRepeat s) ∧
      EveryStep (hear tagScheme) (Passes tagScheme) relay (heard apartSessions) := by
  have settled := keysApart tagScheme station apartSessions tagSchemeCorrect stationOwn
  have fresh : EveryStep (send tagScheme) (FreshSession tagScheme) ⟨station,[]⟩ apartSessions := by decide +kernel
  have each : ((heard apartSessions).map Hearing.envelope).Perm (run (send tagScheme) ⟨station,[]⟩ apartSessions).sent := by
    rw [heard, List.map_map]
    exact List.Perm.of_eq (List.map_id _)
  have ready : Open relay (heard apartSessions) := ⟨by decide +kernel,fun _ _ => rfl,fun _ _ => rfl⟩
  refine ⟨by decide +kernel,settled.1.mpr fresh,?_⟩
  generalize heard apartSessions = hearings at each ready ⊢
  exact settled.2 fresh relay hearings each ready

end OpenPulse.MeshNonce
