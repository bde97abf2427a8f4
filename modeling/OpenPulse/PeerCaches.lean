import Mathlib.Data.Prod.Lex
import OpenPulse.Lru
import OpenPulse.Peers

/-! What the peer cache does over its life: the queue stays in step with the
entries, a peer leaves for its age or from the front of a full queue, and the
records of one peer settle on the best of them in whatever order they come. -/
namespace OpenPulse.PeerCaches
open ByteCodec Tables Lru Peers

inductive Op where
  | upsert (incoming : PeerRecord) (nowMs : UInt64)
  | get (peerId : String) (nowMs : UInt64)
  | query (capabilityMask : UInt32) (minQuality : UInt8) (trustFilter : TrustFilter) (maxResults : Nat) (nowMs : UInt64)
  | evictExpired (nowMs : UInt64)
  deriving DecidableEq, Repr

namespace Op

def now : Op → UInt64
  | .upsert _ now | .get _ now | .query _ _ _ _ now | .evictExpired now => now

def apply (c : PeerCache) : Op → PeerCache
  | .upsert incoming now => (c.upsert incoming now).2
  | .get peerId now => (c.get peerId now).2
  | .query mask quality trust max now => (c.query mask quality trust max now).2
  | .evictExpired now => c.evictExpired now

def touched (c : PeerCache) : Op → List String
  | .upsert incoming now =>
    match (c.evictExpired now).peek incoming.peerId with
    | some existing => if PeerCache.shouldReplace existing incoming then [incoming.peerId] else []
    | none => [incoming.peerId]
  | .get peerId now => if ((c.evictExpired now).peek peerId).isSome then [peerId] else []
  | .query _ _ _ _ _ | .evictExpired _ => []

def record (p : String) : Op → Option PeerRecord
  | .upsert incoming _ => if incoming.peerId = p then some incoming else none
  | .get _ _ | .query _ _ _ _ _ | .evictExpired _ => none

end Op

def step (h : PeerCache × List String) (op : Op) : PeerCache × List String := (op.apply h.1,op.touched h.1 ++ h.2)

def run (h : PeerCache × List String) (ops : List Op) : PeerCache × List String := ops.foldl step h

structure WellFormed (c : PeerCache) (log : List String) : Prop where
  ordered : Ordered c.entries c.lru
  aged : Aged log c.lru
  within : size c.entries ≤ c.capacity

variable {c : PeerCache} {log : List String} {now : UInt64} {p k : String} {r held : PeerRecord}

def Expired (c : PeerCache) (now : UInt64) (r : PeerRecord) : Prop := c.ttlMs.toNat < now.toNat - r.updatedAtMs.toNat

instance (c : PeerCache) (now : UInt64) (r : PeerRecord) : Decidable (Expired c now r) := inferInstanceAs (Decidable (_ < _))

theorem evictExpiredPeek (c : PeerCache) (now : UInt64) (p : String) :
    (c.evictExpired now).peek p = (c.peek p).filter (fun r => ¬ Expired c now r) := by
  simp only [PeerCache.evictExpired, PeerCache.peek, lookupRetain]
  cases c.entries.lookup p with
  | none => rfl
  | some r => simp [Option.filter, Expired]

theorem evictExpiredWellFormed (wf : WellFormed c log) (now : UInt64) : WellFormed (c.evictExpired now) log :=
  ⟨wf.ordered.retain _,wf.aged.sublist List.filter_sublist,Nat.le_trans (sizeRetain _ _) wf.within⟩

theorem expiryDrops (stored : c.peek p = some r) (gone : (c.evictExpired now).peek p = none) : Expired c now r := by
  rw [evictExpiredPeek, stored] at gone
  simpa [Option.filter] using gone

theorem expiryKeeps (stored : c.peek p = some r) (young : ¬ Expired c now r) : (c.evictExpired now).peek p = some r := by
  rw [evictExpiredPeek, stored]
  simp [young]

theorem putWellFormed (wf : WellFormed c log) (r : PeerRecord) : WellFormed (c.put r) (r.peerId::log) := by
  obtain ⟨queue,ordered,within⟩ := @evictOverQueue _ _ _ _ _ c.capacity (wf.ordered.insert r.peerId r)
  refine ⟨ordered,(wf.aged.touch r.peerId).sublist ?_,within⟩
  show (evictOver _ _ _).2.Sublist _
  rw [queue]
  exact List.drop_sublist _ _

/-- A call in need of room for a new peer finds the cache full, and this peer touched before all others. -/
structure GivenUp (c : PeerCache) (log : List String) (k : String) : Prop where
  full : c.len = c.capacity
  oldest : ∀ other, (c.peek other).isSome → other ≠ k → lastTouch log k < lastTouch log other

theorem putGives (wf : WellFormed c log) (stored : c.peek k = some held) (gone : (c.put r).peek k = none)
    (other : k ≠ r.peerId) : c.peek r.peerId = none ∧ GivenUp c log k := by
  obtain ⟨fresh,full,oldest⟩ := storeGives wf.ordered wf.aged wf.within (by rw [← PeerCache.peek, stored]; rfl) other gone
  exact ⟨fresh,full,oldest⟩

theorem putOnly (after : (c.put r).peek k = some held) : k = r.peerId ∧ held = r ∨ k ≠ r.peerId ∧ c.peek k = some held := by
  have before := evictOverLookup (show (evictOver _ _ _).1.lookup k = some held from after)
  rw [lookupInsert] at before
  split at before
  · exact .inl ⟨‹_›,(Option.some.inj before).symm⟩
  · exact .inr ⟨‹_›,before⟩

def merged (existing incoming : PeerRecord) : PeerRecord :=
  if PeerCache.shouldReplace existing incoming then
    { incoming with callsignHash := if incoming.callsignHash ≠ zeros 32 then incoming.callsignHash else existing.callsignHash }
  else if existing.callsignHash = zeros 32 ∧ incoming.callsignHash ≠ zeros 32 then
    { existing with callsignHash := incoming.callsignHash }
  else existing

theorem upsertKnown {existing incoming : PeerRecord} (found : (c.evictExpired now).peek incoming.peerId = some existing) :
    (PeerCache.shouldReplace existing incoming = true ∧ (merged existing incoming).peerId = incoming.peerId ∧
        (c.upsert incoming now).2 = (c.evictExpired now).put (merged existing incoming)) ∨
      PeerCache.shouldReplace existing incoming = false ∧ ((c.upsert incoming now).2 = c.evictExpired now ∧ merged existing incoming = existing ∨
        (c.upsert incoming now).2 = { c.evictExpired now with
          entries := (c.evictExpired now).entries.insert incoming.peerId (merged existing incoming) }) := by
  rw [PeerCache.peek] at found
  unfold PeerCache.upsert merged
  simp only [found]
  cases replaces : PeerCache.shouldReplace existing incoming with
  | true => exact .inl ⟨rfl,rfl,rfl⟩
  | false =>
    refine .inr ⟨rfl,?_⟩
    by_cases learns : existing.callsignHash = zeros 32 ∧ incoming.callsignHash ≠ zeros 32
    · simp [learns]
    · simp [learns]

theorem upsertFresh {incoming : PeerRecord} (unknown : (c.evictExpired now).peek incoming.peerId = none) :
    (c.upsert incoming now).2 = (c.evictExpired now).put incoming := by
  rw [PeerCache.peek] at unknown
  unfold PeerCache.upsert
  simp only [unknown]

theorem getTouches (c : PeerCache) (p : String) (now : UInt64) :
    (c.get p now).2 = c.evictExpired now ∧ ((c.evictExpired now).peek p).isSome = false ∨
      (c.get p now).2 = { c.evictExpired now with lru := touch (c.evictExpired now).lru p } ∧
        ((c.evictExpired now).peek p).isSome = true := by
  unfold PeerCache.get
  dsimp only
  cases stored : ((c.evictExpired now).entries.lookup p).isSome with
  | false => exact .inl ⟨rfl,stored⟩
  | true => exact .inr ⟨rfl,stored⟩

theorem stepWellFormed (wf : WellFormed c log) (op : Op) : WellFormed (op.apply c) (op.touched c ++ log) := by
  have clean := evictExpiredWellFormed wf op.now
  cases op with
  | upsert incoming now =>
    cases found : (c.evictExpired now).peek incoming.peerId with
    | none =>
      simp only [Op.apply, Op.touched, found, upsertFresh found]
      exact putWellFormed clean incoming
    | some existing =>
      obtain ⟨replaces,own,after⟩ | ⟨keeps,⟨after,-⟩ | after⟩ := upsertKnown found
      · simp only [Op.apply, Op.touched, found, replaces, if_true, after]
        rw [← own]
        exact putWellFormed clean _
      · simp only [Op.apply, Op.touched, found, keeps, Bool.false_eq_true, if_false, after]
        exact clean
      · have known : ((c.evictExpired now).entries.lookup incoming.peerId).isSome := by rw [← PeerCache.peek, found]; rfl
        simp only [Op.apply, Op.touched, found, keeps, Bool.false_eq_true, if_false, after]
        exact ⟨clean.ordered.overwrite known _,clean.aged,by rw [sizeKnown known]; exact clean.within⟩
  | get p now =>
    obtain ⟨after,unknown⟩ | ⟨after,known⟩ := getTouches c p now
    · simp only [Op.apply, Op.touched, after, unknown, Bool.false_eq_true, if_false]
      exact clean
    · simp only [Op.apply, Op.touched, after, known, if_true]
      exact ⟨clean.ordered.touch known,clean.aged.touch p,clean.within⟩
  | query mask quality trust max now => exact clean
  | evictExpired now => exact clean

theorem stepCapacity (c : PeerCache) (op : Op) : (op.apply c).capacity = c.capacity := by
  cases op with
  | upsert incoming now =>
    cases found : (c.evictExpired now).peek incoming.peerId with
    | none =>
      rw [Op.apply, upsertFresh found]
      rfl
    | some existing =>
      obtain ⟨-,-,after⟩ | ⟨-,⟨after,-⟩ | after⟩ := upsertKnown found
      all_goals
        rw [Op.apply, after]
        rfl
  | get p now =>
    obtain ⟨after,-⟩ | ⟨after,-⟩ := getTouches c p now
    all_goals
      rw [Op.apply, after]
      rfl
  | query mask quality trust max now => rfl
  | evictExpired now => rfl

theorem runCapacity (c : PeerCache) (log : List String) (ops : List Op) : (run (c,log) ops).1.capacity = c.capacity := by
  induction ops generalizing c log with
  | nil => rfl
  | cons op ops ih => exact (ih (op.apply c) _).trans (stepCapacity c op)

theorem runWellFormed (wf : WellFormed c log) (ops : List Op) : WellFormed (run (c,log) ops).1 (run (c,log) ops).2 := by
  induction ops generalizing c log with
  | nil => exact wf
  | cons op ops ih => exact ih (stepWellFormed wf op)

theorem newWellFormed (capacity : Nat) (ttlMs : UInt64) : WellFormed (.new capacity ttlMs) [] :=
  ⟨orderedEmpty,agedEmpty,by simp [PeerCache.new]⟩

theorem putOther (wf : WellFormed c log) (other : k ≠ r.peerId) :
    (c.put r).peek k = c.peek k ∨ (c.put r).peek k = none ∧ GivenUp c log k := by
  cases after : (c.put r).peek k with
  | some x =>
    obtain ⟨own,-⟩ | ⟨-,before⟩ := putOnly after
    · exact absurd own other
    · exact .inl before.symm
  | none =>
    cases stored : c.peek k with
    | none => exact .inl rfl
    | some held => exact .inr ⟨rfl,(putGives wf stored after other).2⟩

theorem applyOther (wf : WellFormed c log) {op : Op} (other : op.record k = none) :
    (op.apply c).peek k = (c.evictExpired op.now).peek k ∨ (op.apply c).peek k = none ∧ GivenUp (c.evictExpired op.now) log k := by
  have clean := evictExpiredWellFormed wf op.now
  cases op with
  | upsert incoming now =>
    have apart : k ≠ incoming.peerId := by
      rintro rfl
      simp [Op.record] at other
    cases found : (c.evictExpired now).peek incoming.peerId with
    | none =>
      simp only [Op.apply, upsertFresh found]
      exact putOther clean apart
    | some existing =>
      obtain ⟨-,own,after⟩ | ⟨-,⟨after,-⟩ | after⟩ := upsertKnown found
      · simp only [Op.apply, after]
        exact putOther clean (own.symm ▸ apart)
      · exact .inl (by rw [Op.apply, after]; rfl)
      · refine .inl ?_
        simp only [Op.apply, after, PeerCache.peek, lookupInsert, if_neg apart]
        rfl
  | get p now =>
    obtain ⟨after,-⟩ | ⟨after,-⟩ := getTouches c p now
    · exact .inl (by rw [Op.apply, after]; rfl)
    · exact .inl (by rw [Op.apply, after]; rfl)
  | query mask quality trust max now => exact .inl rfl
  | evictExpired now => exact .inl rfl

theorem recordUpsert {op : Op} (own : op.record k = some r) : ∃ now, op = .upsert r now ∧ r.peerId = k := by
  cases op with
  | upsert incoming now =>
    rw [Op.record] at own
    split at own
    · cases own
      exact ⟨now,rfl,‹_›⟩
    · cases own
  | get p now => cases own
  | query mask quality trust max now => cases own
  | evictExpired now => cases own

theorem applyKnown (wf : WellFormed c log) {op : Op} {existing : PeerRecord} (own : op.record k = some r)
    (found : (c.evictExpired op.now).peek k = some existing) : (op.apply c).peek k = some (merged existing r) := by
  have clean := evictExpiredWellFormed wf op.now
  obtain ⟨now,rfl,rfl⟩ := recordUpsert own
  rw [Op.now] at found clean
  rw [Op.apply]
  obtain ⟨-,id,after⟩ | ⟨-,⟨after,same⟩ | after⟩ := upsertKnown found
  · have known : ((c.evictExpired now).entries.lookup r.peerId).isSome := by rw [← PeerCache.peek, found]; rfl
    simp only [after, PeerCache.put, PeerCache.peek, id, storeKnown _ clean.within known, lookupInsert, if_true]
  · rw [after, same, found]
  · simp only [after, PeerCache.peek, lookupInsert, if_true]

theorem applyFresh (wf : WellFormed c log) (room : 0 < c.capacity) {op : Op} (own : op.record k = some r)
    (unknown : (c.evictExpired op.now).peek k = none) : (op.apply c).peek k = some r := by
  have clean := evictExpiredWellFormed wf op.now
  obtain ⟨now,rfl,rfl⟩ := recordUpsert own
  rw [Op.now] at unknown clean
  rw [Op.apply, upsertFresh unknown]
  exact storeHere r clean.ordered clean.within room

theorem stepDrops (wf : WellFormed c log) {op : Op} (stored : c.peek k = some held) (gone : (op.apply c).peek k = none) :
    Expired c op.now held ∨ GivenUp (c.evictExpired op.now) log k := by
  cases aged : (c.evictExpired op.now).peek k with
  | none => exact .inl (expiryDrops stored aged)
  | some left =>
    cases own : op.record k with
    | some r =>
      rw [applyKnown wf own aged] at gone
      cases gone
    | none =>
      obtain same | ⟨-,given⟩ := applyOther wf own
      · rw [same, aged] at gone
        cases gone
      · exact .inr given

/-- Newer revisions first, then newer times, more trust and better quality. -/
def rank (r : PeerRecord) : Nat ×ₗ Nat ×ₗ Nat ×ₗ Nat :=
  toLex (r.revision.toNat,toLex (r.updatedAtMs.toNat,toLex (r.trustLevel.rank,r.routeQuality.toNat)))

theorem replacesIff (existing incoming : PeerRecord) :
    PeerCache.shouldReplace existing incoming = true ↔ rank existing ≤ rank incoming := by
  simp only [PeerCache.shouldReplace, rank, Prod.Lex.le_iff, ofLex_toLex, gt_iff_lt, UInt64.lt_iff_toNat_lt, UInt8.le_iff_toNat_le,
    ge_iff_le]
  split_ifs <;> simp <;> omega

theorem mergedRank (existing incoming : PeerRecord) : rank (merged existing incoming) = max (rank existing) (rank incoming) := by
  cases replaces : PeerCache.shouldReplace existing incoming with
  | true =>
    rw [max_eq_right ((replacesIff existing incoming).mp replaces), merged, if_pos replaces]
    rfl
  | false =>
    have worse : rank incoming ≤ rank existing := by
      refine le_of_lt (not_le.mp fun better => ?_)
      rw [(replacesIff existing incoming).mpr better] at replaces
      cases replaces
    rw [max_eq_left worse, merged, if_neg (by rw [replaces]; exact Bool.false_ne_true)]
    split <;> rfl

theorem mergedHash (existing incoming : PeerRecord) :
    (merged existing incoming).callsignHash = zeros 32 ↔
      existing.callsignHash = zeros 32 ∧ incoming.callsignHash = zeros 32 := by
  unfold merged
  by_cases replaces : PeerCache.shouldReplace existing incoming = true <;>
    by_cases old : existing.callsignHash = zeros 32 <;> by_cases new : incoming.callsignHash = zeros 32 <;>
    simp [replaces, old, new]

/-- What is stored of this peer neither expires at the call nor goes to make room. -/
def Kept (p : String) (c : PeerCache) (op : Op) : Prop :=
  (∀ r ∈ c.peek p, ¬ Expired c op.now r) ∧ ((c.peek p).isSome → ((op.apply c).peek p).isSome)

instance (p : String) (c : PeerCache) (op : Op) : Decidable (Kept p c op) :=
  inferInstanceAs (Decidable ((∀ r ∈ c.peek p, ¬ Expired c op.now r) ∧ _))

def KeptAll (p : String) : PeerCache → List Op → Prop
  | _, [] => True
  | c, op::ops => Kept p c op ∧ KeptAll p (op.apply c) ops

def records (p : String) (ops : List Op) : List PeerRecord := ops.filterMap (Op.record p)

def settled : Option PeerRecord → List PeerRecord → Option PeerRecord :=
  List.foldl (fun held r => some (held.elim r (merged · r)))

theorem stepSettles (wf : WellFormed c log) (room : 0 < c.capacity) {op : Op} (kept : Kept p c op) :
    (op.apply c).peek p = settled (c.peek p) (op.record p).toList := by
  have young : (c.evictExpired op.now).peek p = c.peek p := by
    cases stored : c.peek p with
    | none => rw [evictExpiredPeek, stored]; rfl
    | some held => exact expiryKeeps stored (kept.1 held stored)
  cases own : op.record p with
  | none =>
    obtain same | ⟨gone,-⟩ := applyOther wf own
    · rw [same, young]
      rfl
    · cases stored : c.peek p with
      | none => exact gone
      | some held =>
        have stays := kept.2 (by rw [stored]; rfl)
        rw [gone] at stays
        cases stays
  | some r =>
    cases stored : c.peek p with
    | some held => exact applyKnown wf own (young.trans stored)
    | none => exact applyFresh wf room own (young.trans stored)

theorem runSettles (wf : WellFormed c log) (room : 0 < c.capacity) {ops : List Op} (kept : KeptAll p c ops) :
    (run (c,log) ops).1.peek p = settled (c.peek p) (records p ops) := by
  induction ops generalizing c log with
  | nil => rfl
  | cons op ops ih =>
    have later := ih (stepWellFormed wf op) (by rwa [stepCapacity]) kept.2
    rw [stepSettles wf room kept.1] at later
    rw [show run (c,log) (op::ops) = run (op.apply c,op.touched c ++ log) ops from rfl, later]
    cases own : op.record p with
    | none => simp [records, own, settled]
    | some r => simp [records, own, settled]

/-- The best of the records, whose hash is known as soon as one of them knows it. -/
structure Best (rs : List PeerRecord) (s : PeerRecord) : Prop where
  among : ∃ r ∈ rs, rank s = rank r
  greatest : ∀ r ∈ rs, rank r ≤ rank s
  hash : s.callsignHash = zeros 32 ↔ ∀ r ∈ rs, r.callsignHash = zeros 32

theorem Best.snoc {rs : List PeerRecord} {s : PeerRecord} (best : Best rs s) (r : PeerRecord) : Best (rs ++ [r]) (merged s r) where
  among := by
    obtain ⟨b,member,same⟩ := best.among
    rw [mergedRank]
    rcases le_total (rank s) (rank r) with newer | older
    · exact ⟨r,by simp,max_eq_right newer⟩
    · exact ⟨b,by simp [member],(max_eq_left older).trans same⟩
  greatest := by
    intro b member
    rw [mergedRank]
    rcases List.mem_append.mp member with before | last
    · exact le_max_of_le_left (best.greatest b before)
    · rw [List.mem_singleton.mp last]
      exact le_max_right _ _
  hash := by
    rw [mergedHash, best.hash, List.forall_mem_append, List.forall_mem_singleton]

theorem settledBest {rs : List PeerRecord} (some' : rs ≠ []) : ∃ s, settled none rs = some s ∧ Best rs s := by
  induction rs using List.reverseRecOn with
  | nil => exact absurd rfl some'
  | append_singleton rs r ih =>
    cases rs with
    | nil => exact ⟨r,rfl,⟨r,by simp,rfl⟩,by simp,by simp⟩
    | cons first rest =>
      obtain ⟨s,before,best⟩ := ih (by simp)
      refine ⟨merged s r,?_,best.snoc r⟩
      rw [settled, List.foldl_append]
      rw [settled] at before
      rw [before]
      rfl

theorem Best.perm {rs other : List PeerRecord} {s : PeerRecord} (best : Best rs s) (order : rs.Perm other) : Best other s where
  among := by
    obtain ⟨r,member,top⟩ := best.among
    exact ⟨r,order.mem_iff.mp member,top⟩
  greatest := fun r member => best.greatest r (order.mem_iff.mpr member)
  hash := by simp only [best.hash, order.mem_iff]

theorem stepHash (wf : WellFormed c log) {op : Op} {s : PeerRecord} (stored : c.peek p = some held)
    (young : ¬ Expired c op.now held) (after : (op.apply c).peek p = some s) (known : held.callsignHash ≠ zeros 32) :
    s.callsignHash ≠ zeros 32 := by
  have kept : Kept p c op := ⟨fun r here => by rw [stored] at here; cases here; exact young,fun _ => by rw [after]; rfl⟩
  have room : 0 < c.capacity := by
    have queued : p ∈ c.lru := (wf.ordered.member p).mpr (by rw [← PeerCache.peek, stored]; rfl)
    calc 0 < c.lru.length := List.length_pos_of_mem queued
      _ = size c.entries := wf.ordered.length
      _ ≤ c.capacity := wf.within
  rw [stepSettles wf room kept, stored] at after
  cases own : op.record p with
  | none =>
    rw [own] at after
    cases after
    exact known
  | some r =>
    rw [own] at after
    cases after
    exact fun lost => known ((mergedHash held r).mp lost).1

theorem peerCache (capacity : Nat) (ttlMs : UInt64) (ops : List Op) :
    let h := run (.new capacity ttlMs,[]) ops
    (h.1.lru.Nodup ∧ h.1.lru.Perm h.1.entries.keys ∧ h.1.len ≤ capacity) ∧
      (∀ (op : Op) k held, h.1.peek k = some held → (op.apply h.1).peek k = none →
        Expired h.1 op.now held ∨ GivenUp (h.1.evictExpired op.now) h.2 k) ∧
      (0 < capacity → ∀ p rs more, h.1.peek p = none → rs ≠ [] → (records p more).Perm rs → KeptAll p h.1 more →
        ∃ s, (run h more).1.peek p = some s ∧ Best rs s) ∧
      ∀ (op : Op) p held s, h.1.peek p = some held → ¬ Expired h.1 op.now held → (op.apply h.1).peek p = some s →
        held.callsignHash ≠ zeros 32 → s.callsignHash ≠ zeros 32 := by
  intro h
  have wf : WellFormed h.1 h.2 := runWellFormed (newWellFormed capacity ttlMs) ops
  have room : h.1.capacity = capacity := runCapacity _ _ ops
  refine ⟨⟨wf.ordered.nodup,wf.ordered.perm,room ▸ wf.within⟩,?_,?_,?_⟩
  · exact fun op k held stored gone => stepDrops wf stored gone
  · intro positive p rs more fresh some' order kept
    have offered : records p more ≠ [] := fun none => some' (List.Perm.nil_eq (none ▸ order)).symm
    obtain ⟨s,last,best⟩ := settledBest offered
    refine ⟨s,?_,best.perm order⟩
    rw [← last, ← fresh]
    exact runSettles wf (room ▸ positive) kept
  · exact fun op p held s stored young after known => stepHash wf stored young after known

instance decidableKeptAll (p : String) : ∀ c ops, Decidable (KeptAll p c ops)
  | _, [] => isTrue trivial
  | c, op::ops => @instDecidableAnd (Kept p c op) _ _ (decidableKeptAll p (op.apply c) ops)

def heardAs (revision : UInt64) (callsignHash : Octets 32) : PeerRecord := ⟨"9a",0,50,.unknown,revision,10,callsignHash⟩

def otherPeer (peerId : String) : PeerRecord := { heardAs 1 (zeros 32) with peerId }

def metOne : List Op := [.upsert (otherPeer "07") 10]

def threeRecords : List Op :=
  [.upsert (heardAs 1 (zeros 32)) 10,.get "07" 15,.upsert (heardAs 3 (zeros 32)) 20,.upsert (heardAs 2 (filled 32 5)) 30]

theorem peerCacheThree :
    (∃ s, (run (run (.new 2 1000,[]) metOne) threeRecords).1.peek "9a" = some s ∧
      Best [heardAs 3 (zeros 32),heardAs 2 (filled 32 5),heardAs 1 (zeros 32)] s) ∧
    (Expired (run (.new 2 1000,[]) (metOne ++ threeRecords)).1 40 (otherPeer "07") ∨
      GivenUp ((run (.new 2 1000,[]) (metOne ++ threeRecords)).1.evictExpired 40)
        (run (.new 2 1000,[]) (metOne ++ threeRecords)).2 "07") ∧
    (heardAs 4 (filled 32 5)).callsignHash ≠ zeros 32 :=
  ⟨(peerCache 2 1000 metOne).2.2.1 (by decide) "9a" _ threeRecords (by decide +kernel) (by decide) (by decide +kernel)
      (by decide +kernel),
    (peerCache 2 1000 (metOne ++ threeRecords)).2.1 (.upsert (otherPeer "77") 40) "07" (otherPeer "07") (by decide +kernel)
      (by decide +kernel),
    (peerCache 2 1000 (metOne ++ threeRecords)).2.2.2 (.upsert (heardAs 4 (zeros 32)) 40) "9a" (heardAs 3 (filled 32 5))
      (heardAs 4 (filled 32 5)) (by decide +kernel) (by decide +kernel) (by decide +kernel) (by decide +kernel)⟩

end OpenPulse.PeerCaches
