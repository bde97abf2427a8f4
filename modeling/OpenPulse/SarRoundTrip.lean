import OpenPulse.Runs
import OpenPulse.Sar

/-! The reassembler gives back what the encoder split, whatever the order and
the repetitions in which the fragments arrive and whatever other keys see in
between. Until every fragment of the message has been seen the key has at most
one candidate, which holds exactly the chunks seen so far. -/
namespace OpenPulse.SarRoundTrip
open Runs ByteCodec Sar

variable {data : Bytes} {session : String} {segmentId : UInt16}

def Seen (session : String) (segmentId : UInt16) (data : Bytes) (feed : List Arrival) : Prop :=
  ∀ p ∈ payloads segmentId data, ∃ a ∈ feed, a.session = session ∧ a.payload = p

def Pending (data : Bytes) (S : Finset Nat) (cs : List ReassemblySlot) : Prop :=
  (S = ∅ ∧ cs = []) ∨ ∃ c, cs = [c] ∧ Holding data S c

theorem placePending {S : Finset Nat} {cs : List ReassemblySlot} (pending : Pending data S cs) {f : Fragment}
    (legit : Carries data f) (now : Nat) {total : Nat} (room : total < maxPendingSlots) :
    ∃ c n, place now f cs total = .ok ([c],n) ∧ Holding data (insert f.index.toNat S) c := by
  rcases pending with ⟨rfl,rfl⟩ | ⟨c,rfl,holds⟩
  · refine ⟨.start f now,total + 1,?_,startHolding legit now⟩
    have below : ¬ maxPendingSlots ≤ total := by omega
    simp [place, maxCandidatesPerKey, below]
  · exact ⟨c.fill f,total,by simp [place, consistentHolding holds legit],fillHolding holds legit⟩

theorem receivePending (fits : data.length ≤ sarMaxSegmentData) {r : SarReassembler} {S : Finset Nat}
    (pending : Pending data S (r.candidates (session,segmentId))) {a : Arrival} (here : a.session = session)
    {i : Nat} (inside : i < chunkCount data) (sent : a.payload = payloadOf segmentId data i)
    (room : r.totalCandidates < maxPendingSlots) {j : Nat} (some : j < chunkCount data) (missing : j ∉ insert i S) :
    result r a = .ok [] ∧ Pending data (insert i S) ((receive r a).candidates (session,segmentId)) := by
  obtain ⟨f,parsed,key,rfl,legit⟩ := ownFragment fits here inside sent
  rw [← key] at pending ⊢
  obtain ⟨c,n,placed,holds⟩ := placePending pending legit a.now room
  obtain ⟨output,left⟩ := ingestOwn parsed placed
  have unfinished := unfinishedOf holds some missing
  refine ⟨by simpa [result, unfinished] using output,.inr ⟨c,?_,holds⟩⟩
  simpa [receive, unfinished] using left

theorem receiveLast (fits : data.length ≤ sarMaxSegmentData) {r : SarReassembler} {S : Finset Nat}
    (pending : Pending data S (r.candidates (session,segmentId))) {a : Arrival} (here : a.session = session)
    {i : Nat} (inside : i < chunkCount data) (sent : a.payload = payloadOf segmentId data i)
    (room : r.totalCandidates < maxPendingSlots) (all : ∀ j < chunkCount data, j ∈ insert i S) :
    result r a = .ok [data] ∧ (receive r a).candidates (session,segmentId) = [] := by
  obtain ⟨f,parsed,key,rfl,legit⟩ := ownFragment fits here inside sent
  rw [← key] at pending ⊢
  obtain ⟨c,n,placed,holds⟩ := placePending pending legit a.now room
  obtain ⟨output,left⟩ := ingestOwn parsed placed
  have done : c.complete = true := (completeHolding holds).mpr all
  constructor
  · simpa [result, done, assembledHolding holds all] using output
  · simpa [receive, done] using left

theorem runPending (fits : data.length ≤ sarMaxSegmentData) {j : Nat} (some : j < chunkCount data)
    {feed : List Arrival} {r : SarReassembler} {S : Finset Nat}
    (pending : Pending data S (r.candidates (session,segmentId))) (missing : j ∉ S)
    (ours : ∀ a ∈ feed, a.key = .some (session,segmentId) → a.payload ∈ payloads segmentId data)
    (never : ∀ a ∈ feed, a.session = session → a.payload ≠ payloadOf segmentId data j)
    (room : EveryStep receive
      (fun r a => a.key = .some (session,segmentId) → r.totalCandidates < maxPendingSlots) r feed) :
    EveryStep receive (fun r a => a.key = .some (session,segmentId) → result r a = .ok []) r feed ∧
      ∃ T, Pending data T ((run receive r feed).candidates (session,segmentId)) ∧ S ⊆ T ∧
        ∀ i < chunkCount data, (∃ a ∈ feed, a.session = session ∧ a.payload = payloadOf segmentId data i) → i ∈ T := by
  induction feed generalizing r S with
  | nil => exact ⟨trivial,S,pending,subset_refl S,by simp⟩
  | cons a feed ih =>
    obtain ⟨space,room⟩ := room
    have ours' := fun b member => ours b (List.mem_cons_of_mem a member)
    have never' := fun b member => never b (List.mem_cons_of_mem a member)
    by_cases own : a.key = .some (session,segmentId)
    · obtain ⟨f,parsed,key⟩ := keyParsed own
      have here : a.session = session := (Prod.mk.inj key).1
      obtain ⟨i,inside,sent⟩ := List.mem_map.mp (ours a (by simp) own)
      have inside : i < chunkCount data := List.mem_range.mp inside
      have other : j ≠ i := by
        rintro rfl
        exact never a (by simp) here sent.symm
      have absent : j ∉ insert i S := by simp [other, missing]
      obtain ⟨output,next⟩ := receivePending fits pending here inside sent.symm (space own) some absent
      obtain ⟨silent,T,last,grown,seen⟩ := ih next absent ours' never' room
      refine ⟨⟨fun _ => output,silent⟩,T,last,(Finset.subset_insert i S).trans grown,?_⟩
      rintro k bound ⟨b,member,there,payload⟩
      rcases List.mem_cons.mp member with rfl | later
      · have index := payloadInj fits segmentId inside bound (sent.trans payload)
        exact grown (by simp [index])
      · exact seen k bound ⟨b,later,there,payload⟩
    · have same := receiveOther (r := r) own
      rw [← same] at pending
      obtain ⟨silent,T,last,grown,seen⟩ := ih pending missing ours' never' room
      refine ⟨⟨fun key => absurd key own,silent⟩,T,last,grown,?_⟩
      rintro k bound ⟨b,member,there,payload⟩
      rcases List.mem_cons.mp member with rfl | later
      · exact absurd (ownKey fits there bound payload) own
      · exact seen k bound ⟨b,later,there,payload⟩

theorem roundTrip (data : Bytes) (session : String) (segmentId : UInt16) (r : SarReassembler)
    (feed : List Arrival) (fits : data.length ≤ sarMaxSegmentData)
    (fresh : r.candidates (session,segmentId) = [])
    (ours : ∀ a ∈ feed, a.key = some (session,segmentId) → a.payload ∈ payloads segmentId data)
    (all : Seen session segmentId data feed)
    (room : EveryStep receive
      (fun r a => a.key = some (session,segmentId) → r.totalCandidates < maxPendingSlots) r feed) :
    sarEncode segmentId data = .ok (payloads segmentId data) ∧
      ∃ before last after, feed = before ++ last::after ∧ last.key = some (session,segmentId) ∧
        ¬ Seen session segmentId data before ∧ Seen session segmentId data (before ++ [last]) ∧
        EveryStep receive (fun r a => a.key = some (session,segmentId) → result r a = .ok []) r before ∧
        result (run receive r before) last = .ok [data] := by
  have encoded : sarEncode segmentId data = .ok (payloads segmentId data) := if_neg (by omega)
  have unseen : ¬ Seen session segmentId data [] := by
    intro seen
    obtain ⟨a,member,-⟩ := seen _ (memPayloads segmentId (chunkCountPos data))
    cases member
  obtain ⟨before,last,after,rfl,no,yes⟩ := firstMoment unseen all
  -- the fragment that completes the message is one that never came before
  have chosen : ∃ j < chunkCount data, (∀ a ∈ before, a.session = session → a.payload ≠ payloadOf segmentId data j) := by
    unfold Seen at no
    push Not at no
    obtain ⟨p,member,never⟩ := no
    obtain ⟨j,inside,rfl⟩ := List.mem_map.mp member
    exact ⟨j,List.mem_range.mp inside,never⟩
  obtain ⟨j,inside,never⟩ := chosen
  obtain ⟨a,member,here,sent⟩ := yes _ (memPayloads segmentId inside)
  have same : a = last := by
    rcases List.mem_append.mp member with old | new
    · exact absurd sent (never a old here)
    · exact List.mem_singleton.mp new
  subst same
  have own := ownKey fits here inside sent
  obtain ⟨roomBefore,roomLast,-⟩ := everyStepAppend.mp room
  obtain ⟨silent,T,pending,-,seen⟩ := runPending fits inside (.inl ⟨rfl,fresh⟩) (Finset.notMem_empty j)
    (fun b member => ours b (by simp [member])) never roomBefore
  refine ⟨encoded,before,a,after,rfl,own,no,yes,silent,(receiveLast fits pending here inside sent (roomLast own) ?_).1⟩
  intro k bound
  obtain ⟨b,member,there,payload⟩ := yes _ (memPayloads segmentId bound)
  rcases List.mem_append.mp member with old | new
  · exact Finset.mem_insert_of_mem (seen k bound ⟨b,old,there,payload⟩)
  · have last : b = a := List.mem_singleton.mp new
    have index : k = j := payloadInj fits segmentId bound inside (by rw [← payload, last, sent])
    simp [index]

def shuffled : List Arrival :=
  [⟨1,"a",payloadOf 9 (List.replicate 252 7) 1⟩,⟨2,"b",[0,9,0,2,7]⟩,⟨3,"a",payloadOf 9 (List.replicate 252 7) 1⟩,
    ⟨4,"a",payloadOf 9 (List.replicate 252 7) 0⟩]

theorem roundTripShuffled :
    ∃ before last after, shuffled = before ++ last::after ∧
      result (run receive (.new 60) before) last = .ok [List.replicate 252 7] := by
  obtain ⟨-,before,last,after,split,-,-,-,-,returned⟩ :=
    roundTrip (List.replicate 252 7) "a" 9 (.new 60) shuffled (by decide +kernel) (by decide) (by decide +kernel)
      (by unfold Seen; decide +kernel) (by decide +kernel)
  exact ⟨before,last,after,split,returned⟩

end OpenPulse.SarRoundTrip
