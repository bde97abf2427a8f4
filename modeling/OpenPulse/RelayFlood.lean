import Mathlib.Logic.Function.Basic
import OpenPulse.Runs
import OpenPulse.Relay

/-! A network of relays over a channel that may lose, duplicate, reorder and
inject. An envelope stays on the air once it is there, so a node may hear it
never, late or often. Every message carries the envelope it began as and the
nodes that have forwarded it since; every forward is logged. -/
namespace OpenPulse.RelayFlood
open ByteCodec Tables Signing Wire Relay Runs

structure Message (N : Type) where
  origin : WireEnvelope
  trail : List N
  envelope : WireEnvelope

structure Forward (N : Type) where
  node : N
  now : UInt64
  output : WireEnvelope

structure Net (N : Type) where
  nodes : N → RelayForwarder
  clock : N → UInt64
  air : List (Message N)
  log : List (Forward N)

inductive Event (N : Type) where
  | originate (e : WireEnvelope)
  | inject (e : WireEnvelope)
  | deliver (n : N) (i : Nat) (now : UInt64)

variable {N : Type} [DecidableEq N]

def start (ttlMs : N → UInt64) (policy : N → RelayTrustPolicy) : Net N :=
  ⟨fun n => .new (ttlMs n) (policy n),fun _ => 0,[],[]⟩

/-- A node's clock does not go back: a delivery in its past is none. -/
def step (ed : Ed25519) (s : Net N) : Event N → Net N
  | .originate e | .inject e => { s with air := s.air ++ [⟨e,[],e⟩] }
  | .deliver n i now =>
    match s.air[i]? with
    | none => s
    | some m =>
      if now < s.clock n then s
      else
        let next (f : RelayForwarder) : Net N :=
          { s with nodes := Function.update s.nodes n f, clock := Function.update s.clock n now }
        match (s.nodes n).forward ed m.envelope now with
        | (.error _, f) => next f
        | (.ok out, f) =>
          { next f with
            air := s.air ++ [⟨m.origin,m.trail ++ [n],out⟩]
            log := s.log ++ [⟨n,now,out⟩] }

/- Ideal Ed25519: in the envelope's domain a signature verifies only over bytes
that the holder of the key signed, and only as it was made. -/
def Ideal (ed : Ed25519) (signed : WireEnvelope → Prop) : Prop :=
  ∀ pubkey msg sig, SigningDomain.wireEnvelope.tag <+: msg → ed.verifyStrict pubkey msg sig = true →
    ∃ o, signed o ∧ o.srcPeerId = pubkey ∧ o.signature = some sig ∧ o.signingBytes = .ok msg

structure FloodSafe (ed : Ed25519) (signed : WireEnvelope → Prop) (ttlMs : N → UInt64)
    (policy : N → RelayTrustPolicy) (s : Net N) : Prop where
  authentic : ∀ r ∈ s.log, (∃ o, signed o ∧ r.output = { o with hopIndex := r.output.hopIndex }) ∧
    1 ≤ r.output.hopIndex ∧ r.output.hopIndex ≤ r.output.hopLimit ∧ r.output.verifyOrigin ed = .ok ()
  once : s.log.Pairwise (fun a b => a.node = b.node → replayKey a.output = replayKey b.output →
    (ttlMs a.node).toNat < b.now.toNat - a.now.toNat)
  allowed : ∀ r ∈ s.log, hexPeerId r.output.srcPeerId ∉ (policy r.node).deniedRelays ∧
    ∀ list, (policy r.node).allowedRelays = some list → hexPeerId r.output.srcPeerId ∈ list
  refused : ∀ n e now err, ((s.nodes n).forward ed e now).1 = .error err →
    ((s.nodes n).forward ed e now).2.seen = ((s.nodes n).evictExpired now).seen
  bounded : ∀ n, size (s.nodes n).seen ≤ maxSeenEntries
  chains : ∀ m ∈ s.air, m.envelope = { m.origin with hopIndex := m.envelope.hopIndex } ∧
    m.envelope.hopIndex.toNat = m.origin.hopIndex.toNat + m.trail.length ∧ m.trail.length ≤ m.origin.hopLimit.toNat

def Remembered (ttlMs : N → UInt64) (s : Net N) (r : Forward N) : Prop :=
  r.now.toNat ≤ (s.clock r.node).toNat ∧
    ((ttlMs r.node).toNat < (s.clock r.node).toNat - r.now.toNat ∨
      ∃ t, (s.nodes r.node).seen.lookup (replayKey r.output) = some t ∧ r.now.toNat ≤ t.toNat)

structure Sound (ed : Ed25519) (ttlMs : N → UInt64) (policy : N → RelayTrustPolicy) (s : Net N) : Prop where
  policies : ∀ n, (s.nodes n).policy = policy n ∧ (s.nodes n).ttlMs = ttlMs n
  bounded : ∀ n, size (s.nodes n).seen ≤ maxSeenEntries
  chains : ∀ m ∈ s.air, m.envelope = { m.origin with hopIndex := m.envelope.hopIndex } ∧
    m.envelope.hopIndex.toNat = m.origin.hopIndex.toNat + m.trail.length ∧ m.trail.length ≤ m.origin.hopLimit.toNat
  forwards : ∀ r ∈ s.log, 1 ≤ r.output.hopIndex ∧ r.output.hopIndex ≤ r.output.hopLimit ∧
    r.output.verifyOrigin ed = .ok () ∧ (policy r.node).allows (hexPeerId r.output.srcPeerId) = true
  remembered : ∀ r ∈ s.log, Remembered ttlMs s r
  once : s.log.Pairwise (fun a b => a.node = b.node → replayKey a.output = replayKey b.output →
    (ttlMs a.node).toNat < b.now.toNat - a.now.toNat)

section
variable {ed : Ed25519} {ttlMs : N → UInt64} {policy : N → RelayTrustPolicy} {s : Net N}

theorem hopSucc {e : WireEnvelope} (hop : e.hopIndex < e.hopLimit) : (e.hopIndex + 1).toNat = e.hopIndex.toNat + 1 := by
  have less := UInt8.lt_iff_toNat_lt.mp hop
  have small := e.hopLimit.toNat_lt
  rw [UInt8.toNat_add, UInt8.toNat_one]
  omega

omit [DecidableEq N] in
theorem rememberedEvicted (sound : Sound ed ttlMs policy s) {now : UInt64} {r : Forward N} (member : r ∈ s.log)
    (later : ¬ now < s.clock r.node) :
    r.now.toNat ≤ now.toNat ∧ ((ttlMs r.node).toNat < now.toNat - r.now.toNat ∨
      ∃ t, ((s.nodes r.node).evictExpired now).seen.lookup (replayKey r.output) = some t ∧ r.now.toNat ≤ t.toNat) := by
  obtain ⟨past,memory⟩ := sound.remembered r member
  have later := UInt64.le_iff_toNat_le.mp (UInt64.not_lt.mp later)
  refine ⟨by omega,?_⟩
  rcases memory with gone | ⟨t,found,newer⟩
  · exact .inl (by omega)
  · cases living : (s.nodes r.node).alive now t with
    | true => exact .inr ⟨t,by simp [found, Option.filter, living],newer⟩
    | false =>
      simp only [RelayForwarder.alive, (sound.policies r.node).2, decide_eq_false_iff_not] at living
      exact .inl (by omega)

theorem rememberedHeard (sound : Sound ed ttlMs policy s) {n : N} {now : UInt64} (later : ¬ now < s.clock n)
    (e : WireEnvelope) {air : List (Message N)} {log : List (Forward N)} {r : Forward N} (member : r ∈ s.log) :
    Remembered ttlMs ⟨Function.update s.nodes n ((s.nodes n).forward ed e now).2,Function.update s.clock n now,air,log⟩
      r := by
  by_cases here : r.node = n
  · subst here
    obtain ⟨past,memory⟩ := rememberedEvicted sound member later
    simp only [Remembered, Function.update_self]
    refine ⟨past,memory.imp_right ?_⟩
    rintro ⟨t,found,newer⟩
    exact ⟨t,forwardKeeps ed _ e found,newer⟩
  · simp only [Remembered, Function.update_of_ne here]
    exact sound.remembered r member

omit [DecidableEq N] in
theorem putSound (sound : Sound ed ttlMs policy s) (e : WireEnvelope) :
    Sound ed ttlMs policy { s with air := s.air ++ [⟨e,[],e⟩] } := by
  refine ⟨sound.policies,sound.bounded,?_,sound.forwards,sound.remembered,sound.once⟩
  intro m member
  rcases List.mem_append.mp member with old | new
  · exact sound.chains m old
  · rw [List.mem_singleton.mp new]
    exact ⟨rfl,rfl,Nat.zero_le _⟩

theorem heardNodes (sound : Sound ed ttlMs policy s) (n : N) (e : WireEnvelope) (now : UInt64) :
    let nodes := Function.update s.nodes n ((s.nodes n).forward ed e now).2
    (∀ k, (nodes k).policy = policy k ∧ (nodes k).ttlMs = ttlMs k) ∧ ∀ k, size (nodes k).seen ≤ maxSeenEntries := by
  constructor
  · intro k
    by_cases here : k = n
    · subst here
      simpa using sound.policies k
    · simpa [Function.update_of_ne here] using sound.policies k
  · intro k
    by_cases here : k = n
    · subst here
      simpa using forwardSize (sound.bounded k)
    · simpa [Function.update_of_ne here] using sound.bounded k

theorem refusedSound (sound : Sound ed ttlMs policy s) {n : N} {now : UInt64} (later : ¬ now < s.clock n)
    (e : WireEnvelope) :
    Sound ed ttlMs policy ⟨Function.update s.nodes n ((s.nodes n).forward ed e now).2,
      Function.update s.clock n now,s.air,s.log⟩ := by
  obtain ⟨policies,bounded⟩ := heardNodes sound n e now
  exact ⟨policies,bounded,sound.chains,sound.forwards,fun _ member => rememberedHeard sound later e member,sound.once⟩

omit [DecidableEq N] in
theorem forwardedChain (sound : Sound ed ttlMs policy s) {m : Message N} (onAir : m ∈ s.air)
    (hop : m.envelope.hopIndex < m.envelope.hopLimit) (n : N) :
    { m.envelope with hopIndex := m.envelope.hopIndex + 1 } =
        { m.origin with hopIndex := m.envelope.hopIndex + 1 } ∧
      (m.envelope.hopIndex + 1).toNat = m.origin.hopIndex.toNat + (m.trail ++ [n]).length ∧
      (m.trail ++ [n]).length ≤ m.origin.hopLimit.toNat := by
  obtain ⟨same,count,-⟩ := sound.chains m onAir
  have limit : m.envelope.hopLimit = m.origin.hopLimit := by rw [same]
  have next := hopSucc hop
  have below := UInt8.lt_iff_toNat_lt.mp hop
  rw [limit] at below
  rw [List.length_append, List.length_singleton]
  exact ⟨by rw [same],by omega,by omega⟩

omit [DecidableEq N] in
theorem forwardedRecord (sound : Sound ed ttlMs policy s) (strict : ∀ n, (policy n).requireAuthentication = true)
    {n : N} {now : UInt64} {e : WireEnvelope} (checked : Checked ed (s.nodes n) e now) :
    1 ≤ e.hopIndex + 1 ∧ e.hopIndex + 1 ≤ e.hopLimit ∧
      { e with hopIndex := e.hopIndex + 1 }.verifyOrigin ed = .ok () ∧
      (policy n).allows (hexPeerId e.srcPeerId) = true := by
  have samePolicy := (sound.policies n).1
  have next := hopSucc checked.hop
  have below := UInt8.lt_iff_toNat_lt.mp checked.hop
  refine ⟨?_,?_,?_,by rw [← samePolicy]; exact checked.allowed⟩
  · rw [UInt8.le_iff_toNat_le, next, UInt8.toNat_one]
    omega
  · rw [UInt8.le_iff_toNat_le, next]
    exact below
  · rw [verifyOriginHopIndex]
    exact checked.authentic (by rw [samePolicy, strict n])

omit [DecidableEq N] in
theorem forwardedOnce (sound : Sound ed ttlMs policy s) {now : UInt64} {r : Forward N} (member : r ∈ s.log)
    (later : ¬ now < s.clock r.node) {e : WireEnvelope} (checked : Checked ed (s.nodes r.node) e now)
    (same : replayKey r.output = replayKey e) : (ttlMs r.node).toNat < now.toNat - r.now.toNat := by
  -- the table no longer knows the key, so the earlier forward is out of its window
  rcases (rememberedEvicted sound member later).2 with gone | ⟨t,found,-⟩
  · exact gone
  · rw [same, checked.fresh] at found
    cases found

theorem forwardedSound (sound : Sound ed ttlMs policy s) (strict : ∀ n, (policy n).requireAuthentication = true)
    {n : N} {now : UInt64} (later : ¬ now < s.clock n) {m : Message N} (onAir : m ∈ s.air) {out : WireEnvelope}
    (ok : ((s.nodes n).forward ed m.envelope now).1 = .ok out) :
    Sound ed ttlMs policy ⟨Function.update s.nodes n ((s.nodes n).forward ed m.envelope now).2,
      Function.update s.clock n now,s.air ++ [⟨m.origin,m.trail ++ [n],out⟩],s.log ++ [⟨n,now,out⟩]⟩ := by
  obtain ⟨policies,bounded⟩ := heardNodes sound n m.envelope now
  obtain ⟨checked,rfl,seen⟩ := forwardOk ok
  refine ⟨policies,bounded,?_,?_,?_,?_⟩
  · intro x member
    rcases List.mem_append.mp member with old | new
    · exact sound.chains x old
    · rw [List.mem_singleton.mp new]
      exact forwardedChain sound onAir checked.hop n
  · intro r member
    rcases List.mem_append.mp member with old | new
    · exact sound.forwards r old
    · rw [List.mem_singleton.mp new]
      exact forwardedRecord sound strict checked
  · intro r member
    rcases List.mem_append.mp member with old | new
    · exact rememberedHeard sound later m.envelope old
    · rw [List.mem_singleton.mp new]
      refine ⟨by simp,.inr ⟨now,?_,le_refl _⟩⟩
      simp only [Function.update_self, seen]
      exact AList.lookup_insert _
  · rw [List.pairwise_append]
    refine ⟨sound.once,List.pairwise_singleton _ _,?_⟩
    intro a old b new
    rw [List.mem_singleton.mp new]
    rintro rfl same
    exact forwardedOnce sound old later checked same

theorem stepSound (strict : ∀ n, (policy n).requireAuthentication = true) (s : Net N) (event : Event N)
    (sound : Sound ed ttlMs policy s) : Sound ed ttlMs policy (step ed s event) := by
  cases event with
  | originate e => exact putSound sound e
  | inject e => exact putSound sound e
  | deliver n i now =>
    simp only [step]
    cases found : s.air[i]? with
    | none => exact sound
    | some m =>
      simp only
      split
      · exact sound
      · rename_i later
        cases call : (s.nodes n).forward ed m.envelope now with
        | mk result f =>
          cases result with
          | error err =>
            have next := refusedSound sound later m.envelope
            rwa [call] at next
          | ok out =>
            have next := forwardedSound sound strict later (List.mem_of_getElem? found) (congrArg Prod.fst call)
            rwa [call] at next

omit [DecidableEq N] in
theorem startSound : Sound ed ttlMs policy (start ttlMs policy) where
  policies := fun _ => ⟨rfl,rfl⟩
  bounded := fun _ => Nat.zero_le _
  chains := by simp [start]
  forwards := by simp [start]
  remembered := by simp [start]
  once := by simp [start]

end

theorem floodSafe (ed : Ed25519) (signed : WireEnvelope → Prop) (ttlMs : N → UInt64)
    (policy : N → RelayTrustPolicy) (events : List (Event N)) (ideal : Ideal ed signed)
    (strict : ∀ n, (policy n).requireAuthentication = true) :
    FloodSafe ed signed ttlMs policy (run (step ed) (start ttlMs policy) events) := by
  have sound : Sound ed ttlMs policy (run (step ed) (start ttlMs policy) events) :=
    runInvariant (stepSound strict) startSound events
  refine ⟨?_,sound.once,?_,fun n e now err => forwardRefused,sound.bounded,sound.chains⟩
  · intro r member
    obtain ⟨low,high,verified,-⟩ := sound.forwards r member
    obtain ⟨sig,msg,signature,bytes,-,valid⟩ := verifyOriginOk.mp verified
    obtain ⟨o,held,-,same,original⟩ := ideal _ msg sig (signingBytesTag bytes) valid
    refine ⟨⟨o,held,?_⟩,low,high,verified⟩
    have equal := signingBytesInj bytes original
    rw [equal]
    simp [signature, same]
  · intro r member
    obtain ⟨-,-,-,allowed⟩ := sound.forwards r member
    exact (RelayTrustPolicy.allowsIff _ _).mp allowed

def signedOnly (os : List WireEnvelope) : Ed25519 where
  verifyingKey := id
  fromBytes := fun _ => true
  sign := fun seed msg =>
    ((os.find? (fun o => o.srcPeerId = seed ∧ o.signingBytes = .ok msg)).bind WireEnvelope.signature).getD (zeros 64)
  verifyStrict := fun pubkey msg sig =>
    os.any (fun o => o.srcPeerId = pubkey ∧ o.signature = some sig ∧ o.signingBytes = .ok msg)

theorem signedOnlyIdeal (os : List WireEnvelope) : Ideal (signedOnly os) (fun o => o ∈ os) := by
  intro pubkey msg sig _ verified
  obtain ⟨o,member,found⟩ := List.any_eq_true.mp verified
  exact ⟨o,member,of_decide_eq_true found⟩

def hello : WireEnvelope :=
  ⟨.relayDataChunk,0,7,filled 32 1,filled 32 9,filled 12 5,1000,3,0,[104,105],some (filled 64 8)⟩

def helloRun : List (Event Bool) :=
  [.originate hello,.deliver false 0 10,.deliver true 1 12,.deliver false 2 20,.inject { hello with hopLimit := 9 },
    .deliver true 3 30]

theorem helloRunSafe :
    (run (step (signedOnly [hello])) (start (fun _ => 100) (fun _ => .default)) helloRun).log.length = 2 ∧
      FloodSafe (signedOnly [hello]) (fun o => o ∈ [hello]) (fun _ => 100) (fun _ => .default)
        (run (step (signedOnly [hello])) (start (fun _ => 100) (fun _ => .default)) helloRun) :=
  ⟨by decide +kernel,floodSafe _ _ _ _ helloRun (signedOnlyIdeal [hello]) (fun _ => rfl)⟩

end OpenPulse.RelayFlood
