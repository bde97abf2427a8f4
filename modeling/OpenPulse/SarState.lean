import OpenPulse.Runs
import OpenPulse.Sar

/-! What `SarReassembler` keeps true of its own state over calls of `ingest` and
`expire` in any order. The counter is compared with the sum over the stored
lists, so a subtraction that stopped at zero would show as a difference. -/
namespace OpenPulse.Sar
open ByteCodec Tables Runs

inductive Call where
  | ingest (now : Nat) (sessionId : String) (payload : Bytes)
  | expire (now : Nat)
  deriving DecidableEq, Repr

namespace SarReassembler

def call (r : SarReassembler) : Call → SarReassembler
  | .ingest now sessionId payload => (r.ingest now sessionId payload).2
  | .expire now => r.expire now

def stored (r : SarReassembler) : Nat := weight List.length r.slots

structure Same (r s : SarReassembler) : Prop where
  slots : ∀ key, r.slots.lookup key = s.slots.lookup key
  total : r.totalCandidates = s.totalCandidates
  timeout : r.timeout = s.timeout

end SarReassembler

structure ReassemblySlot.Pending (c : ReassemblySlot) : Prop where
  sized : c.fragments.length = c.total.toNat
  counted : c.received.toNat = c.fragments.countP Option.isSome
  some : 1 ≤ c.received.toNat
  unfinished : c.received < c.total

structure SarReassembler.Sound (r : SarReassembler) : Prop where
  counted : r.totalCandidates = r.stored
  capped : r.totalCandidates ≤ maxPendingSlots
  filled : ∀ key cs, r.slots.lookup key = some cs → 1 ≤ cs.length ∧ cs.length ≤ maxCandidatesPerKey
  pending : ∀ key cs, r.slots.lookup key = some cs → ∀ c ∈ cs, c.Pending

theorem receivedLe (c : ReassemblySlot) : c.received ≤ c.total := by
  rw [UInt8.le_iff_toNat_le, c.counted, ← c.sized]
  exact List.countP_le_length

theorem fillStarted {c : ReassemblySlot} (started : 1 ≤ c.received.toNat) (f : Fragment) :
    1 ≤ (c.fill f).received.toNat := by
  unfold ReassemblySlot.fill
  split
  · rename_i empty
    change 1 ≤ (c.received + 1).toNat
    rw [receivedSucc c.sized c.counted empty f.data, countSet empty]
    exact Nat.le_add_left 1 _
  · exact started

theorem offerStarted {c : ReassemblySlot} (started : 1 ≤ c.received.toNat) (f : Fragment) :
    1 ≤ (c.offer f).received.toNat := by
  unfold ReassemblySlot.offer
  split
  · exact fillStarted started f
  · exact started

theorem pendingOf {c : ReassemblySlot} (started : 1 ≤ c.received.toNat) (unfinished : c.complete = false) :
    c.Pending := by
  refine ⟨c.sized,c.counted,started,?_⟩
  have differ : c.received ≠ c.total := by simpa [ReassemblySlot.complete] using unfinished
  have bound := UInt8.le_iff_toNat_le.mp (receivedLe c)
  have apart : c.received.toNat ≠ c.total.toNat := fun same => differ (UInt8.toNat_inj.mp same)
  exact UInt8.lt_iff_toNat_lt.mpr (by omega)

theorem oldestInside {cs : List ReassemblySlot} (some : cs ≠ []) : oldest cs < cs.length := by
  refine List.findIdx_lt_length_of_exists ⟨cs.minOn ReassemblySlot.created some,List.minOn_mem,?_⟩
  simp only [List.all_eq_true, decide_eq_true_eq]
  intro d member
  exact List.apply_minOn_le_of_mem member

structure Placed (cs ds : List ReassemblySlot) (total n : Nat) : Prop where
  counted : n + cs.length = total + ds.length
  some : 1 ≤ ds.length
  few : ds.length ≤ maxCandidatesPerKey
  capped : n ≤ maxPendingSlots

theorem placeCounts {now total n : Nat} {f : Fragment} {cs ds : List ReassemblySlot}
    (placed : place now f cs total = .ok (ds,n)) (few : cs.length ≤ maxCandidatesPerKey)
    (counted : cs.length ≤ total) (capped : total ≤ maxPendingSlots) : Placed cs ds total n := by
  unfold place at placed
  split at placed
  · rename_i joins
    cases placed
    have some : 0 < cs.length := by
      obtain ⟨c,member,-⟩ := List.any_eq_true.mp joins
      exact List.length_pos_of_mem member
    exact ⟨by rw [List.length_map],by rw [List.length_map]; exact some,by rw [List.length_map]; exact few,capped⟩
  · split at placed
    · rename_i full
      cases placed
      have positive : 0 < maxCandidatesPerKey := by decide
      have shorter := List.length_eraseIdx_of_lt (oldestInside (List.ne_nil_of_length_pos (by omega : 0 < cs.length)))
      have length : (cs.eraseIdx (oldest cs) ++ [ReassemblySlot.start f now]).length = cs.length - 1 + 1 := by
        rw [List.length_append, shorter, List.length_singleton]
      constructor <;> omega
    · split at placed
      · cases placed
      · cases placed
        have length : (cs ++ [ReassemblySlot.start f now]).length = cs.length + 1 := by simp
        constructor <;> omega

theorem completedKept (ds : List ReassemblySlot) :
    ((ds.filter ReassemblySlot.complete).map ReassemblySlot.assembled).length +
      (ds.filter (fun c => !c.complete)).length = ds.length := by
  rw [List.length_map, ← List.length_eq_length_filter_add]

namespace SarReassembler

variable {r : SarReassembler}

theorem Sound.few (sound : r.Sound) (key : String × UInt16) : (r.candidates key).length ≤ maxCandidatesPerKey := by
  unfold candidates
  cases found : r.slots.lookup key with
  | none => simp
  | some cs => exact (sound.filled key cs found).2

theorem Sound.own (sound : r.Sound) (key : String × UInt16) : (r.candidates key).length ≤ r.totalCandidates := by
  have split := weightErase List.length r.slots key
  rw [sound.counted, stored, candidates]
  cases found : r.slots.lookup key with
  | none => simp
  | some cs =>
    rw [found] at split
    simp only [Option.elim_some, Option.getD_some] at split ⊢
    omega

theorem Sound.started (sound : r.Sound) (key : String × UInt16) : ∀ c ∈ r.candidates key, 1 ≤ c.received.toNat := by
  intro c member
  unfold candidates at member
  cases found : r.slots.lookup key with
  | none => simp [found] at member
  | some cs =>
    rw [found] at member
    exact (sound.pending key cs found c member).some

theorem lookupCandidates (r : SarReassembler) (key : String × UInt16) :
    (r.slots.lookup key).elim 0 List.length = (r.candidates key).length := by
  unfold candidates
  cases r.slots.lookup key <;> rfl

theorem storedSet (r : SarReassembler) (key : String × UInt16) (cs : List ReassemblySlot) :
    weight List.length (r.setCandidates key cs) + (r.candidates key).length = r.stored + cs.length := by
  have erased := weightErase List.length r.slots key
  have inserted := weightInsert List.length r.slots key cs
  rw [lookupCandidates] at erased inserted
  unfold setCandidates stored
  split
  · rename_i empty
    rw [List.isEmpty_iff.mp empty, List.length_nil, erased, Nat.add_zero]
  · exact inserted

theorem lookupSet (r : SarReassembler) (key k : String × UInt16) (cs : List ReassemblySlot) :
    (r.setCandidates key cs).lookup k =
      if k = key then if cs.isEmpty then none else some cs else r.slots.lookup k := by
  unfold setCandidates
  split <;> simp [lookupErase, lookupInsert]

theorem sameSet (sound : r.Sound) (key : String × UInt16) :
    ({ r with slots := r.setCandidates key (r.candidates key) } : SarReassembler).Same r := by
  refine ⟨fun k => ?_,rfl,rfl⟩
  rw [lookupSet]
  split
  · rename_i own
    subst own
    unfold candidates
    cases found : r.slots.lookup k with
    | none => simp
    | some cs =>
      have filled := (sound.filled k cs found).1
      have some : cs ≠ [] := List.ne_nil_of_length_pos filled
      simp [some]
  · rfl

theorem Sound.same {s : SarReassembler} (sound : r.Sound) (same : s.Same r) (count : s.stored = r.stored) :
    s.Sound := by
  refine ⟨by rw [same.total, count, sound.counted],by rw [same.total]; exact sound.capped,?_,?_⟩
  · intro key cs found
    exact sound.filled key cs (by rw [← same.slots, found])
  · intro key cs found
    exact sound.pending key cs (by rw [← same.slots, found])

theorem refusedSame (sound : r.Sound) {now : Nat} {sessionId : String} {payload : Bytes} {e : SarError}
    (refused : (r.ingest now sessionId payload).1 = .error e) :
    (r.ingest now sessionId payload).2.Same r ∧ (r.ingest now sessionId payload).2.stored = r.stored := by
  cases parsed : parse payload with
  | error e =>
    rw [ingestMalformed parsed]
    exact ⟨⟨fun _ => rfl,rfl,rfl⟩,rfl⟩
  | ok f =>
    cases placed : place now f (r.candidates (sessionId,f.segmentId)) r.totalCandidates with
    | error e =>
      have state : (r.ingest now sessionId payload).2 =
          { r with slots := r.setCandidates (sessionId,f.segmentId) (r.candidates (sessionId,f.segmentId)) } := by
        simp only [ingest, parsed, placed]
      rw [state]
      have balance := r.storedSet (sessionId,f.segmentId) (r.candidates (sessionId,f.segmentId))
      exact ⟨sameSet sound _,Nat.add_right_cancel balance⟩
    | ok placement =>
      rw [(ingestOwn parsed placed).1] at refused
      cases refused

theorem ingestSound (sound : r.Sound) (now : Nat) (sessionId : String) (payload : Bytes) :
    (r.ingest now sessionId payload).2.Sound := by
  cases answer : (r.ingest now sessionId payload).1 with
  | error e =>
    obtain ⟨same,count⟩ := refusedSame sound answer
    exact sound.same same count
  | ok completed =>
    cases parsed : parse payload with
    | error e =>
      rw [ingestMalformed parsed] at answer
      cases answer
    | ok f =>
      let key := (sessionId,f.segmentId)
      cases placed : place now f (r.candidates key) r.totalCandidates with
      | error e =>
        simp only [ingest, parsed, key] at answer placed
        rw [placed] at answer
        cases answer
      | ok placement =>
        obtain ⟨ds,n⟩ := placement
        have counts := placeCounts placed (sound.few key) (sound.own key) sound.capped
        have split := completedKept ds
        have balance := r.storedSet key (ds.filter (fun c => !c.complete))
        have own := sound.own key
        have counted := sound.counted
        have total := counts.counted
        have capped := counts.capped
        have state : (r.ingest now sessionId payload).2 =
            { r with
              slots := r.setCandidates key (ds.filter (fun c => !c.complete))
              totalCandidates := n - ((ds.filter ReassemblySlot.complete).map ReassemblySlot.assembled).length } := by
          simp only [key] at placed
          simp only [ingest, parsed, placed, key]
        have started : ∀ d ∈ ds, 1 ≤ d.received.toNat := by
          intro d member
          rcases placeMem placed d member with ⟨c,inside,rfl⟩ | ⟨rfl,-⟩
          · exact offerStarted (sound.started key c inside) f
          · exact Nat.le_refl 1
        rw [state]
        refine ⟨?_,?_,?_,?_⟩
        · simp only [stored] at counted balance ⊢
          omega
        · change n - _ ≤ _
          omega
        · intro k cs found
          rw [lookupSet] at found
          split at found
          · split at found
            · cases found
            · rename_i some
              cases found
              refine ⟨List.length_pos_of_ne_nil (by simpa using some),?_⟩
              exact (List.length_filter_le _ _).trans counts.few
          · exact sound.filled k cs found
        · intro k cs found
          rw [lookupSet] at found
          split at found
          · split at found
            · cases found
            · cases found
              intro c member
              obtain ⟨member,unfinished⟩ := List.mem_filter.mp member
              exact pendingOf (started c member) (by simpa using unfinished)
          · exact sound.pending k cs found

def young (timeout now : Nat) (c : ReassemblySlot) : Bool := now - c.created < timeout

def survivors (timeout now : Nat) (cs : List ReassemblySlot) : Option (List ReassemblySlot) :=
  if (cs.filter (young timeout now)).isEmpty then none else some (cs.filter (young timeout now))

theorem expireSlots (r : SarReassembler) (now : Nat) :
    (r.expire now).slots = retain (fun _ => survivors r.timeout now) r.slots := rfl

theorem expireRows (timeout now : Nat) (es : List (Sigma fun _ : String × UInt16 => List ReassemblySlot)) :
    ((rows (fun _ => survivors timeout now) es).map (fun e => e.2.length)).sum +
        (es.map (fun e => e.2.length - (e.2.filter (young timeout now)).length)).sum =
      (es.map (fun e => e.2.length)).sum := by
  induction es with
  | nil => rfl
  | cons e es ih =>
    have part := List.length_filter_le (young timeout now) e.2
    by_cases gone : (e.2.filter (young timeout now)).isEmpty = true
    · have none : (e.2.filter (young timeout now)).length = 0 := List.length_eq_zero_iff.mpr (List.isEmpty_iff.mp gone)
      simp only [rows, survivors, gone, List.filterMap_cons, if_true, Option.map_none, List.map_cons, List.sum_cons] at ih ⊢
      omega
    · simp only [rows, survivors, gone, List.filterMap_cons, Bool.false_eq_true, if_false, Option.map_some, List.map_cons,
        List.sum_cons] at ih ⊢
      omega

theorem expireSound (sound : r.Sound) (now : Nat) : (r.expire now).Sound := by
  have balance := expireRows r.timeout now r.slots.entries
  have counted := sound.counted
  have capped := sound.capped
  have kept : ∀ key cs, (r.expire now).slots.lookup key = some cs → cs ≠ [] ∧
      ∃ ds, r.slots.lookup key = some ds ∧ cs = ds.filter (young r.timeout now) := by
    intro key cs found
    rw [expireSlots, lookupRetain] at found
    obtain ⟨ds,here,left⟩ := Option.bind_eq_some_iff.mp found
    unfold survivors at left
    split at left
    · cases left
    · rename_i some
      cases left
      exact ⟨by simpa using some,ds,here,rfl⟩
  refine ⟨?_,?_,?_,?_⟩
  · change r.totalCandidates - _ = weight List.length (r.expire now).slots
    rw [counted]
    exact Nat.sub_eq_of_eq_add balance.symm
  · exact (Nat.sub_le _ _).trans capped
  · intro key cs found
    obtain ⟨some,ds,here,rfl⟩ := kept key cs found
    exact ⟨List.length_pos_of_ne_nil some,(List.length_filter_le _ _).trans (sound.filled key ds here).2⟩
  · intro key cs found c member
    obtain ⟨-,ds,here,rfl⟩ := kept key cs found
    exact sound.pending key ds here c (List.mem_of_mem_filter member)

theorem newSound (timeout : Nat) : (new timeout).Sound :=
  ⟨rfl,Nat.zero_le _,fun _ _ found => (nomatch found),fun _ _ found => (nomatch found)⟩

theorem callSound (sound : r.Sound) (c : Call) : (r.call c).Sound := by
  cases c with
  | ingest now sessionId payload => exact ingestSound sound now sessionId payload
  | expire now => exact expireSound sound now

end SarReassembler

theorem runSound (timeout : Nat) (calls : List Call) : (run SarReassembler.call (.new timeout) calls).Sound :=
  runInvariant (I := SarReassembler.Sound) (fun _ c sound => SarReassembler.callSound sound c)
    (SarReassembler.newSound timeout) calls

theorem otherSlots {r : SarReassembler} {now : Nat} {sessionId : String} {payload : Bytes} {key : String × UInt16}
    (other : ∀ f, parse payload = .ok f → key ≠ (sessionId,f.segmentId)) :
    (r.ingest now sessionId payload).2.slots.lookup key = r.slots.lookup key := by
  cases parsed : parse payload with
  | error e => rw [ingestMalformed parsed]
  | ok f =>
    have apart := other f parsed
    simp only [SarReassembler.ingest, parsed]
    split <;> rw [SarReassembler.lookupSet, if_neg apart]

theorem reassemblerState (timeout : Nat) (calls : List Call) :
    (run SarReassembler.call (.new timeout) calls).Sound ∧
      ∀ now sessionId payload,
        (∀ e, ((run SarReassembler.call (.new timeout) calls).ingest now sessionId payload).1 = .error e →
          ((run SarReassembler.call (.new timeout) calls).ingest now sessionId payload).2.Same
            (run SarReassembler.call (.new timeout) calls)) ∧
        ∀ key, (∀ f, parse payload = .ok f → key ≠ (sessionId,f.segmentId)) →
          ((run SarReassembler.call (.new timeout) calls).ingest now sessionId payload).2.slots.lookup key =
            (run SarReassembler.call (.new timeout) calls).slots.lookup key := by
  have sound := runSound timeout calls
  refine ⟨sound,fun now sessionId payload => ⟨fun e refused => ?_,fun key other => otherSlots other⟩⟩
  exact (SarReassembler.refusedSame sound refused).1

end OpenPulse.Sar
