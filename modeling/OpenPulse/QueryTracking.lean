import OpenPulse.Lru
import OpenPulse.Queries

/-! What the duplicate suppression of queries remembers: which queries were
forwarded and who has answered them. A query is forgotten for its age or from
the front of a full queue, and its answers with the last query of its id. -/
namespace OpenPulse.QueryTracking
open Tables Lru Queries
open QueryPropagationTracker (hasQueryId evictOverCapacity)

inductive Op where
  | forward (srcPeerId : String) (queryId nowMs : UInt64)
  | accept (queryId : UInt64) (responderPeerId : String) (nowMs : UInt64)
  | evictExpired (nowMs : UInt64)
  deriving DecidableEq, Repr

def Op.now : Op → UInt64
  | .forward _ _ now | .accept _ _ now | .evictExpired now => now

def Op.apply (t : QueryPropagationTracker) : Op → QueryPropagationTracker
  | .forward src q now => (t.shouldForwardQuery src q now).2
  | .accept q who now => (t.shouldAcceptResponse q who now).2
  | .evictExpired now => t.evictExpired now

def InOrder (ops : List Op) : Prop := ops.Pairwise (fun a b => a.now.toNat ≤ b.now.toNat)

def run (t : QueryPropagationTracker) (ops : List Op) : QueryPropagationTracker := ops.foldl Op.apply t

structure WellFormed (t : QueryPropagationTracker) : Prop where
  ordered : Ordered t.seenQueries t.queryLru
  within : size t.seenQueries ≤ t.capacity

variable {t : QueryPropagationTracker} {k : QueryKey} {q now first : UInt64} {who : String}

section Eviction

variable {capacity : Nat} {seen : Table QueryKey UInt64} {responses : Table UInt64 (List String)} {lru : List QueryKey}

theorem evictQueries : (evictOverCapacity capacity seen responses lru).1 = (evictOver capacity seen lru).1 ∧
    (evictOverCapacity capacity seen responses lru).2.2 = (evictOver capacity seen lru).2 := by
  induction lru generalizing seen responses with
  | nil => exact ⟨rfl,rfl⟩
  | cons oldest lru ih =>
    by_cases full : capacity < size seen
    · simp only [evictOverCapacity, evictOver, full, if_true]
      exact ih
    · simp [evictOverCapacity, evictOver, full]

theorem hasQueryIdIff : hasQueryId seen q = true ↔ ∃ k, (seen.lookup k).isSome ∧ k.queryId = q := by
  simp only [hasQueryId, List.any_eq_true, decide_eq_true_eq, AList.lookup_isSome, AList.mem_keys]

theorem hasQueryIdMono {less : Table QueryKey UInt64} (sub : ∀ k v, less.lookup k = some v → seen.lookup k = some v)
    (held : hasQueryId less q = true) : hasQueryId seen q = true := by
  obtain ⟨k,here,same⟩ := hasQueryIdIff.mp held
  obtain ⟨v,found⟩ := Option.isSome_iff_exists.mp here
  exact hasQueryIdIff.mpr ⟨k,by rw [sub k v found]; rfl,same⟩

theorem evictAnswers (held : hasQueryId (evictOverCapacity capacity seen responses lru).1 q = true) :
    (evictOverCapacity capacity seen responses lru).2.1.lookup q = responses.lookup q := by
  induction lru generalizing seen responses with
  | nil => rfl
  | cons oldest lru ih =>
    by_cases full : capacity < size seen
    · simp only [evictOverCapacity, full, if_true] at held ⊢
      rw [ih held]
      have still : hasQueryId (seen.erase oldest) q = true :=
        hasQueryIdMono (fun k v found => evictOverLookup (evictQueries.1 ▸ found)) held
      split
      · rfl
      · rename_i last
        rw [lookupErase, if_neg]
        rintro rfl
        exact last still
    · simp only [evictOverCapacity, full, if_false]

end Eviction

theorem expiredSeen (t : QueryPropagationTracker) (now : UInt64) (k : QueryKey) :
    (t.evictExpired now).seenQueries.lookup k =
      (t.seenQueries.lookup k).filter (fun first => now.toNat - first.toNat ≤ t.ttlMs.toNat) := by
  simp only [QueryPropagationTracker.evictExpired, lookupRetain]
  cases t.seenQueries.lookup k with
  | none => rfl
  | some first => simp [Option.filter]

theorem expiredAnswers (t : QueryPropagationTracker) (now q : UInt64) (held : hasQueryId (t.evictExpired now).seenQueries q = true) :
    (t.evictExpired now).responseSeen.lookup q = t.responseSeen.lookup q := by
  simp only [QueryPropagationTracker.evictExpired] at held ⊢
  rw [lookupRetain]
  cases t.responseSeen.lookup q with
  | none => rfl
  | some who => simp only [Option.bind_some, held, if_true]

theorem evictExpiredWellFormed (wf : WellFormed t) (now : UInt64) : WellFormed (t.evictExpired now) :=
  ⟨wf.ordered.retain _,Nat.le_trans (sizeRetain _ _) wf.within⟩

def admitted (t : QueryPropagationTracker) (k : QueryKey) (now : UInt64) : QueryPropagationTracker :=
  let left := evictOverCapacity t.capacity (t.seenQueries.insert k now) t.responseSeen (touch t.queryLru k)
  { t with seenQueries := left.1, responseSeen := left.2.1, queryLru := left.2.2 }

theorem forwardCases (t : QueryPropagationTracker) (k : QueryKey) (now : UInt64) :
    ((t.evictExpired now).seenQueries.lookup k).isSome = true ∧ t.shouldForwardQuery k.srcPeerId k.queryId now =
        (false,{ t.evictExpired now with queryLru := touch (t.evictExpired now).queryLru k }) ∨
      (t.evictExpired now).seenQueries.lookup k = none ∧
        t.shouldForwardQuery k.srcPeerId k.queryId now = (true,admitted (t.evictExpired now) k now) := by
  unfold QueryPropagationTracker.shouldForwardQuery
  cases known : ((t.evictExpired now).seenQueries.lookup k).isSome with
  | true => exact .inl ⟨rfl,by simp [known]⟩
  | false =>
    refine .inr ⟨by simpa using known,?_⟩
    simp only [known, Bool.false_eq_true, if_false]
    rfl

theorem admittedSeen (t : QueryPropagationTracker) (k : QueryKey) (now : UInt64) :
    (admitted t k now).seenQueries = (evictOver t.capacity (t.seenQueries.insert k now) (touch t.queryLru k)).1 := evictQueries.1

theorem admittedWellFormed (wf : WellFormed t) (k : QueryKey) (now : UInt64) : WellFormed (admitted t k now) := by
  obtain ⟨-,ordered,within⟩ := @evictOverQueue _ _ _ _ _ t.capacity (wf.ordered.insert k now)
  refine ⟨?_,by rw [admittedSeen]; exact within⟩
  rw [admittedSeen, show (admitted t k now).queryLru = _ from evictQueries.2]
  exact ordered

theorem acceptSeen (t : QueryPropagationTracker) (q : UInt64) (who : String) (now : UInt64) :
    (t.shouldAcceptResponse q who now).2.seenQueries = (t.evictExpired now).seenQueries ∧
      (t.shouldAcceptResponse q who now).2.queryLru = (t.evictExpired now).queryLru ∧
      (t.shouldAcceptResponse q who now).2.capacity = t.capacity ∧ (t.shouldAcceptResponse q who now).2.ttlMs = t.ttlMs := by
  unfold QueryPropagationTracker.shouldAcceptResponse
  dsimp only
  split
  · exact ⟨rfl,rfl,rfl,rfl⟩
  · exact ⟨rfl,rfl,rfl,rfl⟩

theorem stepWellFormed (wf : WellFormed t) (op : Op) : WellFormed (op.apply t) := by
  have clean := evictExpiredWellFormed wf op.now
  cases op with
  | forward src q now =>
    obtain ⟨known,after⟩ | ⟨-,after⟩ := forwardCases t ⟨src,q⟩ now
    · rw [Op.apply, after]
      exact ⟨clean.ordered.touch known,clean.within⟩
    · rw [Op.apply, after]
      exact admittedWellFormed clean _ _
  | accept q who now =>
    obtain ⟨seen,queue,room,-⟩ := acceptSeen t q who now
    exact ⟨by rw [Op.apply, seen, queue]; exact clean.ordered,by rw [Op.apply, seen, room]; exact clean.within⟩
  | evictExpired now => exact clean

theorem stepSettings (t : QueryPropagationTracker) (op : Op) : (op.apply t).capacity = t.capacity ∧ (op.apply t).ttlMs = t.ttlMs := by
  cases op with
  | forward src q now =>
    obtain ⟨-,after⟩ | ⟨-,after⟩ := forwardCases t ⟨src,q⟩ now
    all_goals
      rw [Op.apply, after]
      exact ⟨rfl,rfl⟩
  | accept q who now =>
    obtain ⟨-,-,settings⟩ := acceptSeen t q who now
    exact settings
  | evictExpired now => exact ⟨rfl,rfl⟩

theorem runWellFormed (wf : WellFormed t) (ops : List Op) : WellFormed (run t ops) := by
  induction ops generalizing t with
  | nil => exact wf
  | cons op ops ih => exact ih (stepWellFormed wf op)

theorem runSettings (t : QueryPropagationTracker) (ops : List Op) : (run t ops).capacity = t.capacity ∧ (run t ops).ttlMs = t.ttlMs := by
  induction ops generalizing t with
  | nil => exact ⟨rfl,rfl⟩
  | cons op ops ih =>
    obtain ⟨capacity,ttl⟩ := ih (op.apply t)
    exact ⟨capacity.trans (stepSettings t op).1,ttl.trans (stepSettings t op).2⟩

theorem newWellFormed (ttlMs : UInt64) (capacity : Nat) : WellFormed (.new ttlMs capacity) :=
  ⟨orderedEmpty,by simp [QueryPropagationTracker.new]⟩

/-- The call stores a query, and the loop over the full queue takes `k` out. -/
def EvictedByCapacity (t : QueryPropagationTracker) (k : QueryKey) : Op → Prop
  | .forward src q now => (t.evictExpired now).seenQueries.lookup ⟨src,q⟩ = none ∧
      (((t.evictExpired now).seenQueries.insert ⟨src,q⟩ now).lookup k).isSome ∧
        (Op.apply t (.forward src q now)).seenQueries.lookup k = none
  | .accept _ _ _ | .evictExpired _ => False

def EvictedWithin (k : QueryKey) : QueryPropagationTracker → List Op → Prop
  | _, [] => False
  | t, op::ops => EvictedByCapacity t k op ∨ EvictedWithin k (op.apply t) ops

theorem expiredKept (held : t.seenQueries.lookup k = some first) (young : now.toNat - first.toNat ≤ t.ttlMs.toNat) :
    (t.evictExpired now).seenQueries.lookup k = some first := by
  rw [expiredSeen, held]
  simpa [Option.filter] using young

theorem stepRemembers {op : Op} (held : t.seenQueries.lookup k = some first) (young : op.now.toNat - first.toNat ≤ t.ttlMs.toNat) :
    (op.apply t).seenQueries.lookup k = some first ∨ EvictedByCapacity t k op := by
  have kept := expiredKept held young
  cases op with
  | forward src q now =>
    obtain ⟨-,after⟩ | ⟨unknown,after⟩ := forwardCases t ⟨src,q⟩ now
    · exact .inl (by rw [Op.apply, after]; exact kept)
    · rw [Op.now] at kept
      have apart : k ≠ ⟨src,q⟩ := by
        rintro rfl
        rw [unknown] at kept
        cases kept
      have stays : ((t.evictExpired now).seenQueries.insert ⟨src,q⟩ now).lookup k = some first := by
        rw [lookupInsert, if_neg apart, kept]
      cases gone : (Op.apply t (.forward src q now)).seenQueries.lookup k with
      | none => exact .inr ⟨unknown,by rw [stays]; rfl,gone⟩
      | some v =>
        rw [Op.apply, after, admittedSeen] at gone
        exact .inl ((evictOverLookup gone).symm.trans stays)
  | accept q who now =>
    obtain ⟨seen,-⟩ := acceptSeen t q who now
    exact .inl (by rw [Op.apply, seen]; exact kept)
  | evictExpired now => exact .inl kept

theorem runRemembers {ops : List Op} (held : t.seenQueries.lookup k = some first)
    (young : ∀ op ∈ ops, op.now.toNat - first.toNat ≤ t.ttlMs.toNat) (never : ¬ EvictedWithin k t ops) :
    (run t ops).seenQueries.lookup k = some first ∧ (run t ops).ttlMs = t.ttlMs := by
  induction ops generalizing t with
  | nil => exact ⟨held,rfl⟩
  | cons op ops ih =>
    have settings := (stepSettings t op).2
    obtain after | evicted := stepRemembers held (young op (by simp))
    · obtain ⟨later,same⟩ := ih after (fun o member => by rw [settings]; exact young o (by simp [member])) (fun later => never (.inr later))
      exact ⟨later,same.trans settings⟩
    · exact absurd (.inl evicted) never

theorem forwardStores (asked : (t.shouldForwardQuery k.srcPeerId k.queryId now).1 = true) :
    (t.shouldForwardQuery k.srcPeerId k.queryId now).2.seenQueries.lookup k = some now ∨
      EvictedByCapacity t k (.forward k.srcPeerId k.queryId now) := by
  obtain ⟨-,after⟩ | ⟨unknown,after⟩ := forwardCases t k now
  · rw [after] at asked
    cases asked
  · have stored : ((t.evictExpired now).seenQueries.insert k now).lookup k = some now := by rw [lookupInsert, if_pos rfl]
    cases gone : (t.shouldForwardQuery k.srcPeerId k.queryId now).2.seenQueries.lookup k with
    | none => exact .inr ⟨unknown,by rw [stored]; rfl,gone⟩
    | some v =>
      rw [after, admittedSeen] at gone
      exact .inl ((evictOverLookup gone).symm.trans stored)

theorem forwardedOnce {ops : List Op} {later : UInt64} (asked : (t.shouldForwardQuery k.srcPeerId k.queryId now).1 = true)
    (order : InOrder (.forward k.srcPeerId k.queryId now :: ops ++ [.forward k.srcPeerId k.queryId later]))
    (soon : later.toNat - now.toNat ≤ t.ttlMs.toNat)
    (again : ((run t (.forward k.srcPeerId k.queryId now :: ops)).shouldForwardQuery k.srcPeerId k.queryId later).1 = true) :
    EvictedWithin k t (.forward k.srcPeerId k.queryId now :: ops) := by
  by_contra never
  have settings : (t.shouldForwardQuery k.srcPeerId k.queryId now).2.ttlMs = t.ttlMs :=
    (stepSettings t (.forward k.srcPeerId k.queryId now)).2
  obtain stored | evicted := forwardStores asked
  · have young : ∀ op ∈ ops, op.now.toNat - now.toNat ≤ t.ttlMs.toNat := by
      intro op member
      have before := (List.pairwise_append.mp order).2.2 op (List.mem_cons_of_mem _ member) _ (List.mem_singleton_self _)
      rw [show (Op.forward k.srcPeerId k.queryId later).now = later from rfl] at before
      omega
    obtain ⟨held,same⟩ := runRemembers stored (fun op member => by rw [settings]; exact young op member) (fun later => never (.inr later))
    have still := expiredKept held (by rw [same, settings]; exact soon)
    obtain ⟨-,after⟩ | ⟨unknown,-⟩ := forwardCases (run t (.forward k.srcPeerId k.queryId now :: ops)) k later
    · rw [after] at again
      cases again
    · exact absurd (unknown.symm.trans still) (by simp)
  · exact never (.inl evicted)

/-- Some query of the id is stored at every call: once the call has dropped what is too old, and when it is done.
In between the eviction only takes queries out, so they are there all along. -/
def Tracked (q : UInt64) : QueryPropagationTracker → List Op → Prop
  | t, [] => hasQueryId t.seenQueries q = true
  | t, op::ops => hasQueryId t.seenQueries q = true ∧ hasQueryId (t.evictExpired op.now).seenQueries q = true ∧
    Tracked q (op.apply t) ops

theorem Tracked.here {ops : List Op} (tracked : Tracked q t ops) : hasQueryId t.seenQueries q = true := by
  cases ops with
  | nil => exact tracked
  | cons op ops => exact tracked.1

def Answered (t : QueryPropagationTracker) (q : UInt64) (who : String) : Prop := who ∈ (t.responseSeen.lookup q).getD []

theorem acceptAnswers (t : QueryPropagationTracker) (q : UInt64) (who : String) (now : UInt64) :
    Answered (t.shouldAcceptResponse q who now).2 q who := by
  unfold QueryPropagationTracker.shouldAcceptResponse Answered
  dsimp only
  split
  · rename_i known
    exact List.contains_iff_mem.mp known
  · simp

theorem acceptRefused (answered : Answered (t.evictExpired now) q who) : (t.shouldAcceptResponse q who now).1 = false := by
  unfold QueryPropagationTracker.shouldAcceptResponse
  dsimp only
  rw [if_pos (List.contains_iff_mem.mpr answered)]

theorem acceptKeeps {other : UInt64} {responder : String} (answered : Answered (t.evictExpired now) q who) :
    Answered (t.shouldAcceptResponse other responder now).2 q who := by
  unfold QueryPropagationTracker.shouldAcceptResponse
  dsimp only
  split
  · exact answered
  · rw [Answered, lookupInsert]
    split
    · rename_i same
      subst same
      exact List.mem_cons_of_mem _ answered
    · exact answered

theorem stepAnswered {op : Op} (answered : Answered t q who) (aged : hasQueryId (t.evictExpired op.now).seenQueries q = true)
    (after : hasQueryId (op.apply t).seenQueries q = true) : Answered (op.apply t) q who := by
  have kept : Answered (t.evictExpired op.now) q who := by rw [Answered, expiredAnswers t op.now q aged]; exact answered
  cases op with
  | forward src id now =>
    obtain ⟨-,same⟩ | ⟨-,same⟩ := forwardCases t ⟨src,id⟩ now
    · rw [Op.apply, same]
      exact kept
    · rw [Op.apply, same] at after ⊢
      rw [Answered, show (admitted _ _ _).responseSeen.lookup q = _ from evictAnswers after]
      exact kept
  | accept id responder now => exact acceptKeeps kept
  | evictExpired now => exact kept

theorem runAnswered {ops : List Op} (answered : Answered t q who) (tracked : Tracked q t ops) : Answered (run t ops) q who := by
  induction ops generalizing t with
  | nil => exact answered
  | cons op ops ih => exact ih (stepAnswered answered tracked.2.1 tracked.2.2.here) tracked.2.2

theorem trackedAppend {ops : List Op} {op : Op} (tracked : Tracked q t (ops ++ [op])) :
    Tracked q t ops ∧ hasQueryId ((run t ops).evictExpired op.now).seenQueries q = true := by
  induction ops generalizing t with
  | nil => exact ⟨tracked.1,tracked.2.1⟩
  | cons first ops ih =>
    obtain ⟨before,last⟩ := ih tracked.2.2
    exact ⟨⟨tracked.1,tracked.2.1,before⟩,last⟩

theorem acceptedOnce {ops : List Op} {later : UInt64}
    (tracked : Tracked q (t.shouldAcceptResponse q who now).2 (ops ++ [.accept q who later])) :
    ((run t (.accept q who now :: ops)).shouldAcceptResponse q who later).1 = false := by
  obtain ⟨before,aged⟩ := trackedAppend tracked
  have answered := runAnswered (acceptAnswers t q who now) before
  have kept : Answered ((run (t.shouldAcceptResponse q who now).2 ops).evictExpired later) q who := by
    rw [Answered, expiredAnswers _ later q aged]
    exact answered
  exact acceptRefused kept

theorem queryTracker (ttlMs : UInt64) (capacity : Nat) (ops : List Op) :
    let t := run (.new ttlMs capacity) ops
    (t.queryLru.Nodup ∧ t.queryLru.Perm t.seenQueries.keys ∧ size t.seenQueries ≤ capacity) ∧
      (∀ src q now later more, InOrder (.forward src q now :: more ++ [.forward src q later]) →
        later.toNat - now.toNat ≤ ttlMs.toNat → (t.shouldForwardQuery src q now).1 = true →
        ((run t (.forward src q now :: more)).shouldForwardQuery src q later).1 = true →
        EvictedWithin ⟨src,q⟩ t (.forward src q now :: more)) ∧
      ∀ q who now later more, (t.shouldAcceptResponse q who now).1 = true →
        Tracked q (t.shouldAcceptResponse q who now).2 (more ++ [.accept q who later]) →
        ((run t (.accept q who now :: more)).shouldAcceptResponse q who later).1 = false := by
  intro t
  have wf : WellFormed t := runWellFormed (newWellFormed ttlMs capacity) ops
  obtain ⟨room,ttl⟩ : t.capacity = capacity ∧ t.ttlMs = ttlMs := runSettings _ ops
  refine ⟨⟨wf.ordered.nodup,wf.ordered.perm,room ▸ wf.within⟩,?_,?_⟩
  · intro src q now later more order soon asked again
    exact @forwardedOnce t ⟨src,q⟩ now more later asked order (by rw [ttl]; exact soon) again
  · exact fun q who now later more _ tracked => acceptedOnce tracked

theorem queryTrackerOne :
    EvictedWithin ⟨"9a",7⟩ (run (.new 1000 1) [.forward "07" 1 5]) [.forward "9a" 7 10,.forward "07" 2 20] ∧
    ((run (run (.new 1000 2) [.forward "9a" 7 10]) [.accept 7 "5c" 20,.forward "07" 1 30,.accept 7 "6d" 40]).shouldAcceptResponse 7 "5c" 50).1
      = false := by
  refine ⟨(queryTracker 1000 1 [.forward "07" 1 5]).2.1 "9a" 7 10 30 [.forward "07" 2 20] (by unfold InOrder; decide) (by decide) (by decide +kernel) (by decide +kernel),
    (queryTracker 1000 2 [.forward "9a" 7 10]).2.2 7 "5c" 20 50 [.forward "07" 1 30,.accept 7 "6d" 40] (by decide +kernel) ?_⟩
  simp only [List.cons_append, List.nil_append, Tracked]
  decide +kernel

end OpenPulse.QueryTracking
