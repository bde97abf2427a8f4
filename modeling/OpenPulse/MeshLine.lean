import OpenPulse.MeshDiscovery

/-! Networks of mesh nodes. A node may hear any frame that a node in its range
has sent, any number of times and in any order, so the runs of a lossless medium
are among the runs here. Where the originator is out of range of the destination
it never learns a route. -/
namespace OpenPulse.MeshLine
open ByteCodec Tables Signing Wire Payloads Relay Routes Sar Mesh Runs MeshDiscovery

variable {N : Type} [DecidableEq N]

inductive Event (N : Type) where
  | discover (now : UInt64)
  | step (n : N) (heard : Option (N × Nat)) (now : UInt64) (instant : Nat)

structure Layout (N : Type) where
  hears : N → N → Bool
  originator : N
  destination : N

def heardFrame (hears : N → N → Bool) (net : N → MeshDaemon) (n : N) : Option (N × Nat) → Option Bytes
  | some (m, i) => if hears n m then (net m).engine.sent[i]? else none
  | none => none

def step (ed : Ed25519) (sha256 : Bytes → Octets 32) (layout : Layout N) (dst : PeerId) (net : N → MeshDaemon) :
    Event N → N → MeshDaemon
  | .discover now => Function.update net layout.originator ((net layout.originator).discoverRoute dst now).2
  | .step n heard now instant =>
    Function.update net n ((net n).step ed sha256 (heardFrame layout.hears net n heard) now instant).2

structure Fresh (net : N → MeshDaemon) : Prop where
  keys : ∀ n, (net n).routeResponder.myPeerId = (net n).localPeerId
  distinct : ∀ n m, (net n).localPeerId = (net m).localPeerId → n = m
  tables : ∀ n, (net n).routeTable.entries = ∅
  idle : ∀ n, (net n).routeOriginator.pending = ∅
  silent : ∀ n, (net n).engine.sent = []
  unheard : ∀ n, (net n).rxSar.slots = ∅

def Speaks (dst : PeerId) (layout : Layout N) (n : N) (e : WireEnvelope) : Prop :=
  Harmless dst e ∨ (n = layout.destination ∧ Answer e)

def Hears (dst : PeerId) (layout : Layout N) (n : N) (e : WireEnvelope) : Prop :=
  Harmless dst e ∨ (n ≠ layout.originator ∧ Answer e)

structure Ignorant (dst : PeerId) (layout : Layout N) (n : N) (d : MeshDaemon) : Prop where
  named : d.routeResponder.myPeerId = dst → n = layout.destination
  table : d.routeTable.entries = ∅
  idle : n ≠ layout.originator → d.routeOriginator.pending = ∅
  speaks : ∀ frame ∈ d.engine.sent, Airs (Speaks dst layout n) frame
  hears : Primed (HeadOf (Hears dst layout n)) d.rxSar

section
variable {ed : Ed25519} {sha256 : Bytes → Octets 32} {dst : PeerId} {layout : Layout N} {net : N → MeshDaemon}
  {n : N} {d d' : MeshDaemon}

omit [DecidableEq N] in
theorem hearsHeaded (n : N) : Headed (Hears dst layout n) := by
  intro a b kind named heard
  unfold Hears Harmless Answer at *
  rwa [← kind, ← named]

omit [DecidableEq N] in
theorem saidHeard (apart : layout.hears layout.originator layout.destination = false) {m : N}
    (near : layout.hears n m = true) {frame : Bytes} (said : Airs (Speaks dst layout m) frame) :
    Airs (Hears dst layout n) frame := by
  obtain ⟨e,bytes,segmentId,speaks,rest⟩ := said
  refine ⟨e,bytes,segmentId,?_,rest⟩
  rcases speaks with harmless | ⟨rfl,answer⟩
  · exact .inl harmless
  · refine .inr ⟨?_,answer⟩
    rintro rfl
    rw [apart] at near
    cases near

omit [DecidableEq N] in
theorem heardAirs (apart : layout.hears layout.originator layout.destination = false)
    (ignorant : ∀ m, Ignorant dst layout m (net m)) (n : N) (heard : Option (N × Nat)) :
    ∀ frame ∈ heardFrame layout.hears net n heard, Airs (Hears dst layout n) frame := by
  intro frame member
  unfold heardFrame at member
  split at member
  · rename_i m i
    split at member
    · rename_i near
      exact saidHeard apart near ((ignorant m).speaks frame (List.mem_of_getElem? member))
    · cases member
  · cases member

omit [DecidableEq N] in
theorem calmIgnorant (ignorant : Ignorant dst layout n d) (calm : Calm (Speaks dst layout n) d d')
    (primed : Primed (HeadOf (Hears dst layout n)) d'.rxSar) : Ignorant dst layout n d' := by
  refine ⟨?_,?_,fun other => calm.pending (ignorant.idle other),?_,primed⟩
  · rw [calm.identity.2]
    exact ignorant.named
  · rw [calm.table]
    exact ignorant.table
  · obtain ⟨new,sent,airs⟩ := calm.sent
    intro frame member
    rw [sent] at member
    rcases List.mem_append.mp member with old | recent
    · exact ignorant.speaks frame old
    · exact airs frame recent

omit [DecidableEq N] in
theorem handlesHeard (ignorant : Ignorant dst layout n d) (now : UInt64) :
    ∀ d', Calm (Speaks dst layout n) d d' → ∀ e, Hears dst layout n e →
      Quiet (Speaks dst layout n) d' (d'.dispatch ed sha256 e now) := by
  intro d' calm e heard
  rcases heard with harmless | ⟨other,answer⟩
  · have empty : d'.routeTable.entries = ∅ := by
      rw [calm.table]
      exact ignorant.table
    have permits : Permits dst d'.routeResponder.myPeerId (Speaks dst layout n) :=
      ⟨fun e => .inl,fun here e answer => .inr ⟨ignorant.named (by rw [← calm.identity.2, here]),answer⟩⟩
    exact dispatchHarmless now permits empty harmless
  · exact dispatchAnswer now (calm.pending (ignorant.idle other)) answer

omit [DecidableEq N] in
theorem stepIgnorant (ignorant : Ignorant dst layout n d) {heard : Option Bytes}
    (airs : ∀ frame ∈ heard, Airs (Hears dst layout n) frame) (now : UInt64) (instant : Nat) :
    Ignorant dst layout n (d.step ed sha256 heard now instant).2 := by
  obtain ⟨calm,primed⟩ := stepCalm (hearsHeaded n) (fun e query => .inl (.inl query)) (handlesHeard ignorant now)
    ignorant.hears airs instant
  exact calmIgnorant ignorant calm primed

theorem originateHarmless {o : RouteOriginator} {maxHops : UInt8} {mask : UInt32} {flags : UInt16} {nonce : Nonce}
    {now queryId : UInt64} {e : WireEnvelope}
    (ok : (o.originate dst maxHops mask flags nonce now).1 = .ok (queryId, e)) : Harmless dst e := by
  unfold RouteOriginator.originate at ok
  dsimp only at ok
  split at ok
  · cases ok
  · cases ok
    exact .inr (.inr ⟨rfl,destinationEncode _⟩)

omit [DecidableEq N] in
theorem discoverIgnorant (ignorant : Ignorant dst layout layout.originator d) (now : UInt64) :
    Ignorant dst layout layout.originator (d.discoverRoute dst now).2 := by
  unfold MeshDaemon.discoverRoute
  dsimp only
  generalize call : d.routeOriginator.originate dst d.hopLimit 0 0
    (MeshDaemon.nonceOf d.localPeerId d.routeNonceCounter) now = out
  have asked : Ignorant dst layout layout.originator
      { d with routeNonceCounter := d.routeNonceCounter + 1, routeOriginator := out.2 } :=
    ⟨ignorant.named,ignorant.table,fun other => absurd rfl other,ignorant.speaks,ignorant.hears⟩
  split
  · exact asked
  · rename_i queryId e ok
    have flooded : Speaks dst layout layout.originator e := .inl (originateHarmless (by rw [call]; exact ok))
    have quiet := encodeAndTransmitQuiet
      { d with routeNonceCounter := d.routeNonceCounter + 1, routeOriginator := out.2 } flooded
    have after := calmIgnorant asked quiet.toCalm (by rw [quiet.sar]; exact asked.hears)
    generalize MeshDaemon.encodeAndTransmit _ e = sent at after ⊢
    obtain ⟨result,node⟩ := sent
    cases result with
    | error err => exact after
    | ok done => exact after

theorem stepNet (apart : layout.hears layout.originator layout.destination = false) (net : N → MeshDaemon)
    (event : Event N) (ignorant : ∀ n, Ignorant dst layout n (net n)) :
    ∀ n, Ignorant dst layout n (step ed sha256 layout dst net event n) := by
  cases event with
  | discover now =>
    refine (Function.forall_update_iff net (fun n => Ignorant dst layout n)).mpr ⟨?_,fun n _ => ignorant n⟩
    exact discoverIgnorant (ignorant layout.originator) now
  | step m heard now instant =>
    refine (Function.forall_update_iff net (fun n => Ignorant dst layout n)).mpr ⟨?_,fun n _ => ignorant n⟩
    exact stepIgnorant (ignorant m) (heardAirs apart ignorant m heard) now instant

omit [DecidableEq N] in
theorem freshIgnorant (fresh : Fresh net) (n : N) : Ignorant (net layout.destination).localPeerId layout n (net n) := by
  refine ⟨?_,fresh.tables n,fun _ => fresh.idle n,?_,?_⟩
  · intro named
    exact fresh.distinct n layout.destination (by rw [← fresh.keys n, named])
  · simp [fresh.silent n]
  · intro key c member
    simp [SarReassembler.candidates, fresh.unheard n] at member

theorem neverLearns (apart : layout.hears layout.originator layout.destination = false) (fresh : Fresh net)
    (events : List (Event N)) (n : N) :
    (run (step ed sha256 layout (net layout.destination).localPeerId) net events n).routeTable.entries = ∅ := by
  have all : ∀ n, Ignorant (net layout.destination).localPeerId layout n
      (run (step ed sha256 layout (net layout.destination).localPeerId) net events n) :=
    runInvariant (I := fun net' => ∀ n, Ignorant (net layout.destination).localPeerId layout n (net' n))
      (fun net' event => stepNet apart net' event) (freshIgnorant fresh) events
  exact (all n).table

end

def line (relays : Nat) : Layout (Fin (relays + 2)) where
  hears := fun i j => i.val + 1 = j.val ∨ j.val + 1 = i.val
  originator := 0
  destination := Fin.last (relays + 1)

theorem lineApart {relays : Nat} (some : 1 ≤ relays) :
    (line relays).hears (line relays).originator (line relays).destination = false := by
  refine decide_eq_false ?_
  simp only [line, Fin.val_zero, Fin.val_last]
  omega

/- Responses, updates and rejects are never flooded: on no such message, in no
state, does a node send anything. And so no run of a line with a relay in it
gives its originator a route, whatever is heard and when. -/
theorem neverFlooded (ed : Ed25519) (sha256 : Bytes → Octets 32) :
    (∀ (d : MeshDaemon) (e : WireEnvelope) (now : UInt64), MeantToFlood d e →
      (d.dispatch ed sha256 e now).engine.sent = d.engine.sent) ∧
    ∀ (relays : Nat) (net : Fin (relays + 2) → MeshDaemon) (events : List (Event (Fin (relays + 2)))), 1 ≤ relays →
      Fresh net → (run (step ed sha256 (line relays) (net (line relays).destination).localPeerId) net events
        (line relays).originator).routeTable.bestRoute (net (line relays).destination).localPeerId = none := by
  refine ⟨dispatchSilent,?_⟩
  intro relays net events some fresh
  rw [RouteTable.bestRoute, neverLearns (lineApart some) fresh events]
  rfl

def peer (n : Fin 3) : PeerId := filled 32 (n.val + 1).toUInt8

def three (n : Fin 3) : MeshDaemon :=
  .new tagScheme ⟨fun _ _ => true,[],[]⟩ (peer n) 4 0 60000 .default 64 600000 (peer n) "W1AW" newestFirst

theorem threeFresh : Fresh three where
  keys := fun _ => rfl
  distinct := by decide +kernel
  tables := fun _ => rfl
  idle := fun _ => rfl
  silent := fun _ => rfl
  unheard := fun _ => rfl

def exchange : List (Event (Fin 3)) :=
  [.discover 10,.step 1 (some (0,0)) 20 0,.step 0 (some (1,0)) 30 0,.step 2 (some (1,0)) 30 0,
    .step 1 (some (0,1)) 40 0,.step 1 (some (2,0)) 50 0,.step 1 (some (2,1)) 60 0]

def after : Fin 3 → MeshDaemon := run (step tagScheme (fun _ => zeros 32) (line 1) (peer 2)) three exchange

def hearing : Event (Fin 3) → Option (Fin 3 × Fin 3 × Nat)
  | .step n (some (m, i)) _ _ => some (n, m, i)
  | _ => none

def HeardAll (n m : Fin 3) : Prop := ∀ i < (after m).engine.sent.length, some (n, m, i) ∈ exchange.map hearing

instance (n m : Fin 3) : Decidable (HeardAll n m) := inferInstanceAs (Decidable (∀ i < _, _))

def reply : WireEnvelope := (three 2).routeReply ⟨1,peer 2,4,0,0,[peer 1]⟩ (peer 0) [] 30

/- The destination answers in two fragments and the relay hears both, but all
it ever sends is the request; the originator is left without a route. -/
theorem answerStopsAtRelay :
    (reply.msgType = .routeDiscoveryResponse ∧ reply.dstPeerId ≠ (three 1).localPeerId ∧
      reply.hopIndex < reply.hopLimit ∧ (three 1).queryForwarder.policy.allows (hexPeerId reply.srcPeerId) = true ∧
      ((three 1).dispatch tagScheme (fun _ => zeros 32) reply 50).engine.sent = []) ∧
    (∀ n m, (line 1).hears n m = true → HeardAll n m) ∧
    (after 2).engine.sent.length = 2 ∧ (after 1).engine.sent.length = 1 ∧ (after 0).routeTable.bestRoute (peer 2) = none := by
  decide +kernel

theorem threeNeverLearn :
    ((three 1).dispatch tagScheme (fun _ => zeros 32) reply 50).engine.sent = (three 1).engine.sent ∧
      (run (step tagScheme (fun _ => zeros 32) (line 1) (three (line 1).destination).localPeerId) three exchange
        (line 1).originator).routeTable.bestRoute (three (line 1).destination).localPeerId = none := by
  obtain ⟨silent,never⟩ := neverFlooded tagScheme (fun _ => zeros 32)
  exact ⟨silent (three 1) reply 50 (.inl ⟨rfl,by decide +kernel⟩),never 1 three exchange (le_refl 1) threeFresh⟩

end OpenPulse.MeshLine
