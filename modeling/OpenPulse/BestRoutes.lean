import Mathlib.Data.Prod.Lex
import OpenPulse.RouteTables
import OpenPulse.Scans

/-! The route table keeps the best route: over any calls that leave a destination
alone but for records, its stored route is the first best of those recorded. -/
namespace OpenPulse.BestRoutes
open Tables Lru Signing Wire Payloads Routes RouteTables Scans
open ByteCodec (filled)

inductive Op where
  | record (entry : RouteEntry) (nowMs : UInt64)
  | applyUpdate (entry : RouteEntry) (nowMs : UInt64)
  | remove (destination : PeerId)
  | evictExpired (nowMs : UInt64)
  deriving DecidableEq, Repr

def Op.apply (t : RouteTable) : Op → RouteTable
  | .record entry now => (t.record entry now).2
  | .applyUpdate entry now => (t.applyUpdate entry now).2
  | .remove destination => (t.remove destination).2
  | .evictExpired now => t.evictExpired now

def Op.recorded (dst : PeerId) : Op → Option RouteEntry
  | .record entry _ => if entry.destinationPeerId = dst then some entry else none
  | .applyUpdate _ _ | .remove _ | .evictExpired _ => none

def run (t : RouteTable) (ops : List Op) : RouteTable := ops.foldl Op.apply t

variable {t : RouteTable} {dst : PeerId} {now : UInt64} {entry x : RouteEntry}

theorem runBuilt (built : Built t) (ops : List Op) : Built (run t ops) := by
  induction ops generalizing t with
  | nil => exact built
  | cons op ops ih =>
    cases op with
    | record entry now => exact ih (.record built entry now)
    | applyUpdate entry now => exact ih (.applyUpdate built entry now)
    | remove dst => exact ih (.remove built dst)
    | evictExpired now => exact ih (.evictExpired built now)

theorem stepCapacity (wf : WellFormed t) (op : Op) : (op.apply t).capacity = t.capacity := by
  have expiry : ∀ now, (t.evictExpired now).capacity = t.capacity := by
    intro now
    unfold RouteTable.evictExpired
    split <;> rfl
  cases op with
  | record entry now =>
    rw [Op.apply, recordStored]
    exact expiry now
  | applyUpdate entry now =>
    rw [Op.apply, applyUpdateStored wf]
    exact expiry now
  | remove dst =>
    rw [Op.apply, RouteTable.remove]
    split <;> rfl
  | evictExpired now => exact expiry now

theorem runCapacity (built : Built t) (ops : List Op) : (run t ops).capacity = t.capacity := by
  induction ops using List.reverseRecOn with
  | nil => rfl
  | append_singleton ops op ih =>
    have step := stepCapacity (runBuilt built ops).wellFormed op
    rw [run, List.foldl_append]
    exact step.trans ih

theorem minReliabilityLeast (e : RouteEntry) :
    (∀ hop ∈ e.hops, e.minReliabilityPermille ≤ hop.estimatedReliabilityPermille) ∧
      if e.hops = [] then e.minReliabilityPermille = 0 else ∃ hop ∈ e.hops, hop.estimatedReliabilityPermille = e.minReliabilityPermille := by
  unfold RouteEntry.minReliabilityPermille
  cases least : (e.hops.map RouteHop.estimatedReliabilityPermille).min? with
  | none =>
    rw [List.min?_eq_none_iff, List.map_eq_nil_iff] at least
    rw [if_pos least, least]
    exact ⟨fun hop member => absurd member List.not_mem_nil,rfl⟩
  | some weakest =>
    obtain ⟨member,below⟩ := List.min?_eq_some_iff.mp least
    obtain ⟨hop,here,same⟩ := List.mem_map.mp member
    rw [if_neg (List.ne_nil_of_mem here)]
    exact ⟨fun hop here => below _ (List.mem_map_of_mem here),hop,here,same⟩

/-- Fewer hops first, then the higher bottleneck reliability. -/
def merit (e : RouteEntry) : ℕᵒᵈ ×ₗ ℕ := toLex (.toDual e.hops.length,e.minReliabilityPermille.toNat)

theorem improvedIff (e other : RouteEntry) : e.isImprovedBy other = true ↔ merit e < merit other := by
  simp only [RouteEntry.isImprovedBy, merit, Prod.Lex.toLex_lt_toLex, OrderDual.toDual_lt_toDual, OrderDual.toDual_inj]
  split_ifs with shorter longer
  · simp [shorter]
  · simp only [false_iff]
    omega
  · have even : e.hops.length = other.hops.length := by omega
    simp [even, UInt16.lt_iff_toNat_lt]

def route (e : RouteEntry) : PeerId × UInt64 × List RouteHop := (e.destinationPeerId,e.routeId,e.hops)

theorem routeMerit {e other : RouteEntry} (same : route e = route other) : merit e = merit other := by
  have hops : e.hops = other.hops := congrArg (·.2.2) same
  simp only [merit, RouteEntry.minReliabilityPermille, hops]

def Chosen (rs : List RouteEntry) : Option RouteEntry → Prop
  | none => rs = []
  | some x => ∃ best, FirstBest merit rs best ∧ route x = route best

theorem chosenConfirmed {rs : List RouteEntry} (chosen : Chosen rs (t.entries.lookup entry.destinationPeerId)) (now : UInt64) :
    Chosen (rs ++ [entry]) (some (confirmed t entry now)) := by
  unfold confirmed
  cases stored : t.entries.lookup entry.destinationPeerId with
  | none =>
    rw [stored] at chosen
    rw [show rs = [] from chosen]
    exact ⟨entry,firstBestSingle entry,rfl⟩
  | some held =>
    rw [stored] at chosen
    obtain ⟨best,first,same⟩ := chosen
    cases improved : held.isImprovedBy entry with
    | true =>
      refine ⟨entry,first.better ?_,by simp [improved]⟩
      rw [← routeMerit same]
      exact (improvedIff held entry).mp improved
    | false =>
      refine ⟨best,first.worse ?_,by simp [improved]; exact same⟩
      rw [← routeMerit same]
      refine not_lt.mp fun more => ?_
      rw [(improvedIff held entry).mpr more] at improved
      cases improved

def Lives (t : RouteTable) (dst : PeerId) (now : UInt64) : Prop := ∀ x, t.bestRoute dst = some x → Live t now x

instance (t : RouteTable) (dst : PeerId) (now : UInt64) : Decidable (Lives t dst now) :=
  inferInstanceAs (Decidable (∀ x ∈ t.bestRoute dst, Live t now x))

/-- The route of the destination neither expires nor is evicted, and is neither removed nor updated. -/
def Kept (dst : PeerId) (t : RouteTable) : Op → Prop
  | .record entry now => Lives t dst now ∧ ((t.bestRoute dst).isSome → ((t.record entry now).2.bestRoute dst).isSome)
  | .applyUpdate entry now => entry.destinationPeerId ≠ dst ∧ Lives t dst now ∧
    ((t.bestRoute dst).isSome → ((t.applyUpdate entry now).2.bestRoute dst).isSome)
  | .remove destination => destination ≠ dst
  | .evictExpired now => Lives t dst now

instance (dst : PeerId) (t : RouteTable) (op : Op) : Decidable (Kept dst t op) :=
  match op with
  | .record entry now => inferInstanceAs (Decidable (Lives t dst now ∧
      ((t.bestRoute dst).isSome → ((t.record entry now).2.bestRoute dst).isSome)))
  | .applyUpdate entry now => inferInstanceAs (Decidable (entry.destinationPeerId ≠ dst ∧ Lives t dst now ∧
      ((t.bestRoute dst).isSome → ((t.applyUpdate entry now).2.bestRoute dst).isSome)))
  | .remove destination => inferInstanceAs (Decidable (destination ≠ dst))
  | .evictExpired now => inferInstanceAs (Decidable (Lives t dst now))

def KeptAll (dst : PeerId) : RouteTable → List Op → Prop
  | _, [] => True
  | t, op::ops => Kept dst t op ∧ KeptAll dst (op.apply t) ops

instance decidableKeptAll (dst : PeerId) : ∀ t ops, Decidable (KeptAll dst t ops)
  | _, [] => isTrue trivial
  | t, op::ops => @instDecidableAnd (Kept dst t op) _ _ (decidableKeptAll dst (op.apply t) ops)

theorem Lives.kept (lives : Lives t dst now) : (t.evictExpired now).entries.lookup dst = t.entries.lookup dst := by
  cases stored : t.entries.lookup dst with
  | none => rw [evictExpiredLookup, stored]; rfl
  | some x => exact evictExpiredKept stored (lives x stored)

theorem storedApart (wf : WellFormed t) (other : entry.destinationPeerId ≠ dst) (e : RouteEntry)
    (stays : (t.entries.lookup dst).isSome → ((stored t entry.destinationPeerId e).entries.lookup dst).isSome) :
    (stored t entry.destinationPeerId e).entries.lookup dst = t.entries.lookup dst := by
  have after := storedOther wf e (Ne.symm other)
  split at after
  · rw [after] at stays ⊢
    cases held : t.entries.lookup dst with
    | none => rfl
    | some x => cases stays (by rw [held]; rfl)
  · exact after

theorem stepChosen (wf : WellFormed t) {rs : List RouteEntry} (chosen : Chosen rs (t.bestRoute dst)) {op : Op}
    (kept : Kept dst t op) : Chosen (rs ++ (op.recorded dst).toList) ((op.apply t).bestRoute dst) := by
  rw [RouteTable.bestRoute] at chosen ⊢
  cases op with
  | record entry now =>
    obtain ⟨lives,stays⟩ := kept
    have clean := evictExpiredWellFormed wf now
    rw [Op.apply, recordStored, Op.recorded]
    by_cases own : entry.destinationPeerId = dst
    · subst own
      rw [if_pos rfl, storedHere clean]
      exact chosenConfirmed (lives.kept.symm ▸ chosen) now
    · rw [if_neg own, Option.toList_none, List.append_nil, storedApart clean own, lives.kept]
      · exact chosen
      · rw [← recordStored, lives.kept]
        exact stays
  | applyUpdate entry now =>
    obtain ⟨other,lives,stays⟩ := kept
    have clean := evictExpiredWellFormed wf now
    rw [Op.apply, applyUpdateStored wf, Op.recorded, Option.toList_none, List.append_nil, storedApart clean other, lives.kept]
    · exact chosen
    · rw [← applyUpdateStored wf, lives.kept]
      exact stays
  | remove destination =>
    have same : (t.remove destination).2.entries.lookup dst = t.entries.lookup dst := by
      unfold RouteTable.remove
      split
      · simp [Ne.symm kept]
      · rfl
    rw [Op.apply, same, Op.recorded, Option.toList_none, List.append_nil]
    exact chosen
  | evictExpired now =>
    rw [Op.apply, Lives.kept kept, Op.recorded, Option.toList_none, List.append_nil]
    exact chosen

def recorded (dst : PeerId) (ops : List Op) : List RouteEntry := ops.filterMap (Op.recorded dst)

theorem runChosen (built : Built t) {rs : List RouteEntry} (chosen : Chosen rs (t.bestRoute dst)) {ops : List Op}
    (kept : KeptAll dst t ops) : Chosen (rs ++ recorded dst ops) ((run t ops).bestRoute dst) := by
  induction ops generalizing t rs with
  | nil =>
    rw [recorded, List.filterMap_nil, List.append_nil]
    exact chosen
  | cons op ops ih =>
    have later := ih (runBuilt built [op]) (stepChosen built.wellFormed chosen kept.1) kept.2
    have both : rs ++ recorded dst (op::ops) = rs ++ (op.recorded dst).toList ++ recorded dst ops := by
      rw [List.append_assoc, recorded, recorded, List.filterMap_cons]
      cases op.recorded dst <;> rfl
    rw [both]
    exact later

def liveRoute (t : RouteTable) (dst : PeerId) (now : UInt64) : Option RouteEntry := (t.bestRoute dst).filter (fun x => Live t now x)

theorem recordChanges (wf : WellFormed t) (entry : RouteEntry) (now : UInt64) :
    (t.record entry now).1 = true ↔
      ((t.record entry now).2.bestRoute entry.destinationPeerId).map route ≠ (liveRoute t entry.destinationPeerId now).map route := by
  have clean := evictExpiredWellFormed wf now
  have before : liveRoute t entry.destinationPeerId now = (t.evictExpired now).entries.lookup entry.destinationPeerId := by
    rw [evictExpiredLookup]
    rfl
  rw [before, RouteTable.bestRoute, recordStored, storedHere clean]
  unfold RouteTable.record confirmed
  dsimp only
  cases (t.evictExpired now).entries.lookup entry.destinationPeerId with
  | none => simp
  | some held =>
    cases improved : held.isImprovedBy entry with
    | true =>
      have apart : route entry ≠ route held := by
        intro same
        have more := (improvedIff held entry).mp improved
        rw [routeMerit same] at more
        exact lt_irrefl _ more
      simp [improved, apart]
    | false => simp [improved, route]

/- An update of the stored route is stored, also where that route has expired. -/
theorem updateStores (wf : WellFormed t) {held : RouteEntry} (stored : t.bestRoute entry.destinationPeerId = some held)
    (same : held.routeId = entry.routeId) : (t.applyUpdate entry now).2.bestRoute entry.destinationPeerId = some entry := by
  have clean := evictExpiredWellFormed wf now
  rw [RouteTable.bestRoute, applyUpdateStored wf, storedHere clean, Option.some.injEq]
  by_cases live : Live t now held
  · rw [updated, if_pos]
    rw [evictExpiredKept stored live, Option.map_some, same]
  · have gone := evictExpiredGone stored live
    simp [updated, confirmed, gone]

theorem routeTable (order : ValueOrder PeerId RouteEntry) (capacity : Nat) (ttlMs : UInt64) (ops : List Op) :
    let t := run (.new order capacity ttlMs) ops
    (t.lru.Nodup ∧ t.lru.Perm t.entries.keys ∧ t.len ≤ max capacity 1) ∧
      (∀ dst more, KeptAll dst t more → (t.bestRoute dst).toList ++ recorded dst more ≠ [] →
        ∃ x best, (run t more).bestRoute dst = some x ∧ route x = route best ∧
          FirstBest merit ((t.bestRoute dst).toList ++ recorded dst more) best) ∧
      (∀ entry now, (t.record entry now).1 = true ↔
        ((t.record entry now).2.bestRoute entry.destinationPeerId).map route ≠
          (liveRoute t entry.destinationPeerId now).map route) ∧
      ∀ entry now held, t.bestRoute entry.destinationPeerId = some held → held.routeId = entry.routeId →
        (t.applyUpdate entry now).2.bestRoute entry.destinationPeerId = some entry := by
  intro t
  have built : Built t := runBuilt (.new order capacity ttlMs) ops
  have wf := built.wellFormed
  have room : t.capacity = max capacity 1 := runCapacity (.new order capacity ttlMs) ops
  refine ⟨⟨wf.ordered.nodup,wf.ordered.perm,room ▸ wf.within⟩,?_,recordChanges wf,?_⟩
  · intro dst more kept some'
    have start : Chosen (t.bestRoute dst).toList (t.bestRoute dst) := by
      cases t.bestRoute dst with
      | none => rfl
      | some x => exact ⟨x,firstBestSingle x,rfl⟩
    have chosen := runChosen built start kept
    cases stored : (run t more).bestRoute dst with
    | none =>
      rw [stored] at chosen
      exact absurd chosen some'
    | some x =>
      rw [stored] at chosen
      obtain ⟨best,first,same⟩ := chosen
      exact ⟨x,best,rfl,same,first⟩
  · exact fun entry now held stored same => updateStores wf stored same

def far : PeerId := filled 32 9

def farRoute (routeId : UInt64) (reliability : UInt16) (now : UInt64) : RouteEntry :=
  ⟨far,routeId,[⟨filled 32 5,1,10,reliability⟩,⟨filled 32 6,1,10,950⟩],now⟩

def otherRoute : RouteEntry := { farRoute 1 800 5 with destinationPeerId := filled 32 7 }

def metOther : List Op := [.record otherRoute 5]

def threeRoutes : List Op :=
  [.record (farRoute 1 500 10) 10,.record (farRoute 2 900 20) 20,.evictExpired 25,.record (farRoute 3 700 30) 30,.remove (filled 32 7)]

theorem routeTableThree :
    let t := run (.new newestFirst 2 1000) metOther
    (∃ x best, (run t threeRoutes).bestRoute far = some x ∧ route x = route best ∧
      FirstBest merit ((t.bestRoute far).toList ++ recorded far threeRoutes) best) ∧
    ((run t threeRoutes).applyUpdate (farRoute 2 100 40) 40).2.bestRoute far = some (farRoute 2 100 40) :=
  ⟨(routeTable newestFirst 2 1000 metOther).2.1 far threeRoutes (by decide +kernel) (by decide +kernel),
    (routeTable newestFirst 2 1000 (metOther ++ threeRoutes)).2.2.2 (farRoute 2 100 40) 40 (farRoute 2 900 30) (by decide +kernel) rfl⟩

end OpenPulse.BestRoutes
