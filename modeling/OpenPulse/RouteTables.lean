import OpenPulse.Lru
import OpenPulse.Routes

/-! What the route table does over its life. Its fields are private, so a table
is whatever the public operations make of an empty one; all of them keep the
queue in step with the entries. -/
namespace OpenPulse.RouteTables
open Tables Lru Signing Wire Payloads Routes

inductive Built : RouteTable → Prop where
  | new (order : ValueOrder PeerId RouteEntry) (capacity : Nat) (ttlMs : UInt64) : Built (.new order capacity ttlMs)
  | evictExpired {t : RouteTable} (before : Built t) (nowMs : UInt64) : Built (t.evictExpired nowMs)
  | record {t : RouteTable} (before : Built t) (entry : RouteEntry) (nowMs : UInt64) : Built (t.record entry nowMs).2
  | applyUpdate {t : RouteTable} (before : Built t) (entry : RouteEntry) (nowMs : UInt64) :
      Built (t.applyUpdate entry nowMs).2
  | remove {t : RouteTable} (before : Built t) (destination : PeerId) : Built (t.remove destination).2

structure WellFormed (t : RouteTable) : Prop where
  room : 1 ≤ t.capacity
  within : size t.entries ≤ t.capacity
  ordered : Ordered t.entries t.lru

variable {t : RouteTable} {dst k : PeerId} {e x : RouteEntry} {now : UInt64}

def Live (t : RouteTable) (now : UInt64) (e : RouteEntry) : Prop :=
  t.ttlMs = 0 ∨ now.toNat - e.discoveredAtMs.toNat < t.ttlMs.toNat

instance (t : RouteTable) (now : UInt64) (e : RouteEntry) : Decidable (Live t now e) :=
  inferInstanceAs (Decidable (_ ∨ _))

theorem evictExpiredLookup (t : RouteTable) (now : UInt64) (k : PeerId) :
    (t.evictExpired now).entries.lookup k = (t.entries.lookup k).filter (Live t now) := by
  unfold RouteTable.evictExpired
  split
  · rename_i forever
    cases t.entries.lookup k with
    | none => rfl
    | some e => simp [Option.filter, Live, forever]
  · rename_i expires
    simp only [lookupRetain]
    cases t.entries.lookup k with
    | none => rfl
    | some e => by_cases young : now.toNat - e.discoveredAtMs.toNat < t.ttlMs.toNat <;> simp [Option.filter, Live, young, expires]

theorem evictExpiredKept (held : t.entries.lookup k = some e) (live : Live t now e) :
    (t.evictExpired now).entries.lookup k = some e := by
  simp [evictExpiredLookup, held, live]

theorem evictExpiredGone (held : t.entries.lookup k = some e) (expired : ¬ Live t now e) :
    (t.evictExpired now).entries.lookup k = none := by
  simp [evictExpiredLookup, held, expired]

theorem evictExpiredWellFormed (wf : WellFormed t) (now : UInt64) : WellFormed (t.evictExpired now) := by
  unfold RouteTable.evictExpired
  split
  · exact wf
  · exact ⟨wf.room,Nat.le_trans (sizeRetain _ _) wf.within,wf.ordered.retain _⟩

def stored (t : RouteTable) (dst : PeerId) (e : RouteEntry) : RouteTable :=
  ({ t with entries := t.entries.insert dst e }.touch dst).enforceCapacity

def GivesUp (t : RouteTable) (dst k : PeerId) : Prop :=
  -- a new destination finds the table full and `k` at the front of the queue
  t.entries.lookup dst = none ∧ t.capacity ≤ size t.entries ∧ t.lru.head? = some k

instance (t : RouteTable) (dst k : PeerId) : Decidable (GivesUp t dst k) := inferInstanceAs (Decidable (_ ∧ _ ∧ _))

theorem storedOnly (held : (stored t dst e).entries.lookup k = some x) :
    (k = dst ∧ x = e) ∨ t.entries.lookup k = some x := by
  have before := evictOverLookup (show (evictOver t.capacity _ _).1.lookup k = some x from held)
  simp only [RouteTable.touch, lookupInsert] at before
  split at before
  · rename_i same
    exact .inl ⟨same,(Option.some.inj before).symm⟩
  · exact .inr before

theorem storedCases (wf : WellFormed t) (dst : PeerId) (e : RouteEntry) :
    (stored t dst e = { t with entries := t.entries.insert dst e, lru := touch t.lru dst } ∧
        size (t.entries.insert dst e) ≤ t.capacity ∧ ∀ k, ¬ GivesUp t dst k) ∨
      ∃ oldest rest, t.lru = oldest::rest ∧ GivesUp t dst oldest ∧
        stored t dst e =
          { t with entries := (t.entries.insert dst e).erase oldest, lru := rest ++ [dst] } := by
  by_cases known : (t.entries.lookup dst).isSome
  · refine .inl ⟨?_,by rw [sizeKnown known]; exact wf.within,fun k given => by simp [given.1] at known⟩
    simp only [stored, RouteTable.enforceCapacity, RouteTable.touch, storeKnown e wf.within known]
  · have unknown : t.entries.lookup dst = none := by simpa using known
    by_cases room : size t.entries < t.capacity
    · refine .inl ⟨?_,by rw [sizeInsert _ _ _ unknown]; exact room,fun k given => by have full := given.2.1; omega⟩
      simp only [stored, RouteTable.enforceCapacity, RouteTable.touch, storeRoom e unknown room]
    · have full : t.capacity = size t.entries := Nat.le_antisymm (Nat.not_lt.mp room) wf.within
      have filled := wf.ordered.length
      cases queue : t.lru with
      | nil =>
        have positive := wf.room
        simp only [queue, List.length_nil] at filled
        omega
      | cons oldest rest =>
        refine .inr ⟨oldest,rest,rfl,⟨unknown,Nat.le_of_eq full,by simp [queue]⟩,?_⟩
        have given := storeFull e (queue ▸ wf.ordered) unknown
        simp only [stored, RouteTable.enforceCapacity, RouteTable.touch, full, queue, given]

theorem storedWellFormed (wf : WellFormed t) (dst : PeerId) (e : RouteEntry) : WellFormed (stored t dst e) := by
  obtain ⟨same,within,-⟩ | ⟨oldest,rest,queue,given,same⟩ := storedCases wf dst e
  · rw [same]
    exact ⟨wf.room,within,wf.ordered.insert dst e⟩
  · have ordered := storedOrdered e (queue ▸ wf.ordered) given.1
    rw [same]
    refine ⟨wf.room,?_,ordered⟩
    have before := wf.ordered.length
    have after := ordered.length
    have full := wf.within
    simp only [queue, List.length_cons, List.length_append, List.length_nil] at before after
    show size ((t.entries.insert dst e).erase oldest) ≤ t.capacity
    omega

theorem storedHere (wf : WellFormed t) (dst : PeerId) (e : RouteEntry) : (stored t dst e).entries.lookup dst = some e :=
  storeHere e wf.ordered wf.within wf.room

theorem storedOther (wf : WellFormed t) (e : RouteEntry) (other : k ≠ dst) :
    (stored t dst e).entries.lookup k = if GivesUp t dst k then none else t.entries.lookup k := by
  obtain ⟨same,-,none⟩ | ⟨oldest,rest,queue,given,same⟩ := storedCases wf dst e
  · rw [same]
    simp [other, none k]
  · rw [same]
    by_cases first : k = oldest
    · subst first
      simp [given]
    · have behind : ¬ GivesUp t dst k := fun front => first (Option.some.inj (front.2.2.symm.trans given.2.2))
      simp [other, first, behind]

def confirmed (t : RouteTable) (entry : RouteEntry) (now : UInt64) : RouteEntry :=
  match t.entries.lookup entry.destinationPeerId with
  | none => entry
  | some held => if held.isImprovedBy entry then entry else { held with discoveredAtMs := now }

def updated (t : RouteTable) (entry : RouteEntry) (now : UInt64) : RouteEntry :=
  if (t.entries.lookup entry.destinationPeerId).map RouteEntry.routeId = some entry.routeId then entry
  else confirmed t entry now

theorem recordStored (t : RouteTable) (entry : RouteEntry) (now : UInt64) :
    (t.record entry now).2 =
      stored (t.evictExpired now) entry.destinationPeerId (confirmed (t.evictExpired now) entry now) := by
  unfold RouteTable.record confirmed
  dsimp only
  cases (t.evictExpired now).entries.lookup entry.destinationPeerId with
  | none => rfl
  | some held => by_cases improved : held.isImprovedBy entry <;> simp [improved, stored]

theorem evictExpiredTwice (t : RouteTable) (now : UInt64) : (t.evictExpired now).evictExpired now = t.evictExpired now := by
  by_cases forever : t.ttlMs = 0
  · simp [RouteTable.evictExpired, forever]
  · have again := @retainTwice PeerId RouteEntry
      (fun _ e => if now.toNat - e.discoveredAtMs.toNat < t.ttlMs.toNat then some e else none)
      (fun k v w kept => by
        split at kept
        · cases kept
          simpa using ‹_›
        · cases kept) t.entries
    simp only [RouteTable.evictExpired, forever, if_false, again, List.filter_filter, Bool.and_self]

theorem applyUpdateCases (t : RouteTable) (entry : RouteEntry) (now : UInt64) :
    ((((t.evictExpired now).entries.lookup entry.destinationPeerId).map RouteEntry.routeId = some entry.routeId ∧
        (t.applyUpdate entry now).2 = { t.evictExpired now with
          entries := (t.evictExpired now).entries.insert entry.destinationPeerId entry }.touch entry.destinationPeerId)) ∨
      (t.applyUpdate entry now).2 =
        stored (t.evictExpired now) entry.destinationPeerId (confirmed (t.evictExpired now) entry now) ∧
      ((t.evictExpired now).entries.lookup entry.destinationPeerId).map RouteEntry.routeId ≠ some entry.routeId := by
  unfold RouteTable.applyUpdate
  dsimp only
  split
  · rename_i same
    exact .inl ⟨same,rfl⟩
  · rename_i other
    refine .inr ⟨?_,other⟩
    rw [recordStored, evictExpiredTwice]

theorem applyUpdateStored (wf : WellFormed t) (entry : RouteEntry) (now : UInt64) :
    (t.applyUpdate entry now).2 =
      stored (t.evictExpired now) entry.destinationPeerId (updated (t.evictExpired now) entry now) := by
  have wf := evictExpiredWellFormed wf now
  obtain ⟨same,after⟩ | ⟨after,other⟩ := applyUpdateCases t entry now
  · obtain ⟨held,found,-⟩ := Option.map_eq_some_iff.mp same
    have known : ((t.evictExpired now).entries.lookup entry.destinationPeerId).isSome := by simp [found]
    rw [after, updated, if_pos same, stored, RouteTable.enforceCapacity]
    simp only [RouteTable.touch, storeKnown entry wf.within known]
  · rw [after, updated, if_neg other]

theorem removeWellFormed (wf : WellFormed t) (dst : PeerId) : WellFormed (t.remove dst).2 := by
  unfold RouteTable.remove
  split
  · rename_i held
    have ordered := wf.ordered.erase dst
    refine ⟨wf.room,?_,ordered⟩
    rw [← ordered.length]
    calc (t.lru.filter (fun k => k ≠ dst)).length ≤ t.lru.length := List.length_filter_le _ _
      _ = size t.entries := wf.ordered.length
      _ ≤ t.capacity := wf.within
  · exact wf

theorem Built.wellFormed (built : Built t) : WellFormed t := by
  induction built with
  | new order capacity ttlMs => exact ⟨Nat.le_max_right _ _,by simp [RouteTable.new],orderedEmpty⟩
  | evictExpired before now ih => exact evictExpiredWellFormed ih now
  | record before entry now ih =>
    rw [recordStored]
    exact storedWellFormed (evictExpiredWellFormed ih now) _ _
  | applyUpdate before entry now ih =>
    rw [applyUpdateStored ih]
    exact storedWellFormed (evictExpiredWellFormed ih now) _ _
  | remove before dst ih => exact removeWellFormed ih dst

def SameRoute (x y : RouteEntry) : Prop := x.hops = y.hops ∧ x.routeId = y.routeId

theorem evictExpiredOnly (held : (t.evictExpired now).entries.lookup k = some x) : t.entries.lookup k = some x := by
  rw [evictExpiredLookup] at held
  exact (Option.filter_eq_some_iff.mp held).1

theorem confirmedSame (t : RouteTable) (entry : RouteEntry) (now : UInt64) :
    SameRoute (confirmed t entry now) entry ∨
      ∃ held, t.entries.lookup entry.destinationPeerId = some held ∧ SameRoute (confirmed t entry now) held := by
  unfold confirmed
  split
  · exact .inl ⟨rfl,rfl⟩
  · rename_i held found
    split
    · exact .inl ⟨rfl,rfl⟩
    · exact .inr ⟨held,found,rfl,rfl⟩

theorem recordOnly {entry : RouteEntry} (found : (t.record entry now).2.entries.lookup k = some x) :
    (k = entry.destinationPeerId ∧ SameRoute x entry) ∨ ∃ held, t.entries.lookup k = some held ∧ SameRoute x held := by
  rw [recordStored] at found
  obtain ⟨rfl,rfl⟩ | old := storedOnly found
  · obtain taken | ⟨held,before,same⟩ := confirmedSame (t.evictExpired now) entry now
    · exact .inl ⟨rfl,taken⟩
    · exact .inr ⟨held,evictExpiredOnly before,same⟩
  · exact .inr ⟨x,evictExpiredOnly old,rfl,rfl⟩

theorem applyUpdateOnly {entry : RouteEntry} (found : (t.applyUpdate entry now).2.entries.lookup k = some x) :
    (k = entry.destinationPeerId ∧ SameRoute x entry) ∨ ∃ held, t.entries.lookup k = some held ∧ SameRoute x held := by
  obtain ⟨-,after⟩ | ⟨after,-⟩ := applyUpdateCases t entry now
  · rw [after] at found
    simp only [RouteTable.touch, lookupInsert] at found
    split at found
    · rename_i here
      cases found
      exact .inl ⟨here,rfl,rfl⟩
    · exact .inr ⟨x,evictExpiredOnly found,rfl,rfl⟩
  · rw [after, ← evictExpiredTwice, ← recordStored] at found
    obtain fresh | ⟨held,before,same⟩ := recordOnly found
    · exact .inl fresh
    · exact .inr ⟨held,evictExpiredOnly before,same⟩

theorem Built.keyed (built : Built t) (found : t.entries.lookup k = some x) : x.destinationPeerId = k := by
  have confirms : ∀ {t : RouteTable} {entry : RouteEntry} {now : UInt64},
      (∀ {k x}, t.entries.lookup k = some x → x.destinationPeerId = k) →
        (confirmed t entry now).destinationPeerId = entry.destinationPeerId := by
    intro t entry now keyed
    unfold confirmed
    split
    · rfl
    · rename_i held there
      split
      · rfl
      · have leads := keyed there
        exact leads
  induction built generalizing k x with
  | new order capacity ttlMs => simp [RouteTable.new] at found
  | evictExpired before now ih => exact ih (evictExpiredOnly found)
  | @record t before entry now ih =>
    have later : ∀ {k x}, (t.evictExpired now).entries.lookup k = some x → x.destinationPeerId = k := fun there =>
      ih (evictExpiredOnly there)
    rw [recordStored] at found
    obtain ⟨rfl,rfl⟩ | old := storedOnly found
    · exact confirms later
    · exact later old
  | @applyUpdate t before entry now ih =>
    have later : ∀ {k x}, (t.evictExpired now).entries.lookup k = some x → x.destinationPeerId = k := fun there =>
      ih (evictExpiredOnly there)
    rw [applyUpdateStored before.wellFormed] at found
    obtain ⟨rfl,rfl⟩ | old := storedOnly found
    · unfold updated
      split
      · rfl
      · exact confirms later
    · exact later old
  | remove before dst ih =>
    unfold RouteTable.remove at found
    split at found
    · rw [lookupErase] at found
      split at found
      · cases found
      · exact ih found
    · exact ih found

theorem foundStored {routeId : UInt64} (found : t.entryByRouteId routeId = some x) :
    x.routeId = routeId ∧ ∃ k, t.entries.lookup k = some x := by
  have member := (t.order.perm t.entries).mem_iff.mp (List.mem_of_find?_eq_some found)
  obtain ⟨row,there,rfl⟩ := List.mem_map.mp member
  exact ⟨by simpa using List.find?_some found,row.1,AList.mem_lookup_iff.mpr there⟩

end OpenPulse.RouteTables
