import OpenPulse.Runs
import OpenPulse.Sar

/-! Foreign fragments under the key of a message. A candidate that started with
a fragment of the message stays whole as long as no foreign fragment takes a
place before the message's own fragment does; a candidate that started with a
foreign fragment, or lost a place to one, never gives the message back. -/
namespace OpenPulse.SarPoison
open Runs ByteCodec Sar

section
variable (session : String) (segmentId : UInt16) (data : Bytes)

def Own (a : Arrival) : Prop := a.key = some (session,segmentId)

def Legit (a : Arrival) : Prop := a.session = session ∧ a.payload ∈ payloads segmentId data

/-- Under the key of the message, but none of its fragments. -/
def Foreign (a : Arrival) : Prop := Own session segmentId a ∧ a.payload ∉ payloads segmentId data

def Brings (i : Nat) (a : Arrival) : Prop := a.session = session ∧ a.payload = payloadOf segmentId data i

def Once (feed : List Arrival) : Prop :=
  ∀ i < chunkCount data, feed.countP (fun a => a.session == session && a.payload == payloadOf segmentId data i) = 1

def Room (r : SarReassembler) (a : Arrival) : Prop :=
  Own session segmentId a → ∀ f, parse a.payload = .ok f →
    roomFor f (r.candidates (session,segmentId)) r.totalCandidates = true

def Gives (r : SarReassembler) (a : Arrival) : Prop :=
  Own session segmentId a ∧ ∃ out, result r a = .ok out ∧ data ∈ out

def Returned (r : SarReassembler) (feed : List Arrival) : Prop :=
  -- by the time every fragment has arrived, some arrival has given the message back
  ∃ before a after, feed = before ++ a::after ∧ (∃ i < chunkCount data, ∀ b ∈ before, ¬ Brings session segmentId data i b) ∧
    Gives session segmentId data (run receive r before) a

/- The first fragment of the message joins no candidate, and no foreign fragment
of the same total takes the place of a fragment that is still to come. -/
def Clean (r : SarReassembler) (feed : List Arrival) : Prop :=
  ∃ before first after, feed = before ++ first::after ∧ Legit session segmentId data first ∧
    (∀ a ∈ before, ¬ Legit session segmentId data a) ∧
    (∀ f, parse first.payload = .ok f →
      ((run receive r before).candidates (session,segmentId)).any (ReassemblySlot.consistent f) = false) ∧
    ∀ mid a rest f, after = mid ++ a::rest → Foreign session segmentId data a → parse a.payload = .ok f →
      f.total.toNat = chunkCount data → ∃ b ∈ first::mid, Brings session segmentId data f.index.toNat b

instance decidableOnOk {ε α : Type} {x : Except ε α} {P : α → Prop} [∀ v, Decidable (P v)] :
    Decidable (∀ v, x = .ok v → P v) :=
  match x with
  | .ok v => decidable_of_iff (P v) (by simp)
  | .error _ => isTrue (by simp)

instance decidableSomeOk {ε α : Type} {x : Except ε α} {P : α → Prop} [∀ v, Decidable (P v)] :
    Decidable (∃ v, x = .ok v ∧ P v) :=
  match x with
  | .ok v => decidable_of_iff (P v) (by simp)
  | .error _ => isFalse (by simp)

instance (a : Arrival) : Decidable (Own session segmentId a) := inferInstanceAs (Decidable (_ = _))

instance (a : Arrival) : Decidable (Legit session segmentId data a) := inferInstanceAs (Decidable (_ ∧ _))

instance (a : Arrival) : Decidable (Foreign session segmentId data a) := inferInstanceAs (Decidable (_ ∧ _))

instance (feed : List Arrival) : Decidable (Once session segmentId data feed) :=
  inferInstanceAs (Decidable (∀ i < _, _))

instance (r : SarReassembler) (a : Arrival) : Decidable (Room session segmentId r a) :=
  inferInstanceAs (Decidable (_ → _))

instance (r : SarReassembler) (a : Arrival) : Decidable (Gives session segmentId data r a) :=
  inferInstanceAs (Decidable (_ ∧ _))

end

variable {session : String} {segmentId : UInt16} {data : Bytes}

theorem legitBrings {a : Arrival} (legit : Legit session segmentId data a) :
    ∃ i < chunkCount data, Brings session segmentId data i a := by
  obtain ⟨here,member⟩ := legit
  obtain ⟨i,inside,same⟩ := List.mem_map.mp member
  exact ⟨i,List.mem_range.mp inside,here,same.symm⟩

theorem bringsLegit {a : Arrival} {i : Nat} (inside : i < chunkCount data) (brings : Brings session segmentId data i a) :
    Legit session segmentId data a := ⟨brings.1,brings.2 ▸ memPayloads segmentId inside⟩

theorem bringsFragment (fits : data.length ≤ sarMaxSegmentData) {a : Arrival} {i : Nat} (inside : i < chunkCount data)
    (brings : Brings session segmentId data i a) :
    ∃ f, parse a.payload = .ok f ∧ (a.session,f.segmentId) = (session,segmentId) ∧ f.index.toNat = i ∧
      Carries data f := ownFragment fits brings.1 inside brings.2

theorem legitOwn (fits : data.length ≤ sarMaxSegmentData) {a : Arrival} (legit : Legit session segmentId data a) :
    Own session segmentId a := by
  obtain ⟨i,inside,brings⟩ := legitBrings legit
  exact ownKey fits brings.1 inside brings.2

theorem ownCases (data : Bytes) {a : Arrival} (own : Own session segmentId a) :
    Legit session segmentId data a ∨ Foreign session segmentId data a := by
  obtain ⟨f,parsed,key⟩ := keyParsed own
  by_cases member : a.payload ∈ payloads segmentId data
  · exact .inl ⟨(Prod.mk.inj key).1,member⟩
  · exact .inr ⟨own,member⟩

theorem bringsUnique (fits : data.length ≤ sarMaxSegmentData) {a : Arrival} {i j : Nat} (left : i < chunkCount data)
    (right : j < chunkCount data) (first : Brings session segmentId data i a)
    (second : Brings session segmentId data j a) : i = j :=
  payloadInj fits segmentId left right (first.2.symm.trans second.2)

theorem foreignDiffers {a : Arrival} (foreign : Foreign session segmentId data a) {f : Fragment}
    (parsed : parse a.payload = .ok f) : ¬ Carries data f := by
  intro legit
  obtain ⟨g,parsed',key⟩ := keyParsed foreign.1
  rw [parsed] at parsed'
  cases parsed'
  refine foreign.2 ?_
  rw [carriesPayload parsed legit, (Prod.mk.inj key).2]
  exact memPayloads segmentId legit.inside

theorem offerForeign {S : Finset Nat} {c : ReassemblySlot} (holds : Holding data S c) {f : Fragment}
    (differs : ¬ Carries data f) (taken : f.total.toNat = chunkCount data → f.index.toNat ∈ S) : c.offer f = c := by
  unfold ReassemblySlot.offer
  rw [if_neg]
  intro consistent
  simp only [ReassemblySlot.consistent, Bool.and_eq_true, beq_iff_eq] at consistent
  obtain ⟨same,bytes⟩ := consistent
  have total : f.total.toNat = chunkCount data := by rw [← same, holds.total]
  rw [holds.places _ (indexInside total), if_pos (taken total)] at bytes
  exact differs ⟨total,(beq_iff_eq.mp bytes).symm⟩

theorem offerLegit {S : Finset Nat} {c : ReassemblySlot} (holds : Holding data S c) {f : Fragment}
    (legit : Carries data f) : Holding data (insert f.index.toNat S) (c.offer f) := by
  unfold ReassemblySlot.offer
  rw [if_pos (consistentHolding holds legit)]
  exact fillHolding holds legit

theorem receiveRoom {r : SarReassembler} {a : Arrival} (own : Own session segmentId a)
    (room : Room session segmentId r a) {f : Fragment} (parsed : parse a.payload = .ok f) :
    ∃ ds : List ReassemblySlot, result r a = .ok ((ds.filter ReassemblySlot.complete).map ReassemblySlot.assembled) ∧
      (receive r a).candidates (session,segmentId) = ds.filter (fun c => !c.complete) ∧
      (∀ c ∈ r.candidates (session,segmentId), c.offer f ∈ ds) ∧
      ((r.candidates (session,segmentId)).any (ReassemblySlot.consistent f) = false → .start f a.now ∈ ds) := by
  obtain ⟨g,parsed',key⟩ := keyParsed own
  rw [parsed] at parsed'
  cases parsed'
  obtain ⟨ds,n,placed,stays,starts⟩ := placeRoom (room own f parsed) a.now
  rw [← key] at placed stays starts ⊢
  obtain ⟨output,left⟩ := ingestOwn parsed placed
  exact ⟨ds,output,left,stays,starts⟩

theorem receiveKeeps {r : SarReassembler} {a : Arrival} (own : Own session segmentId a)
    (room : Room session segmentId r a) {f : Fragment} (parsed : parse a.payload = .ok f) {c : ReassemblySlot}
    (member : c ∈ r.candidates (session,segmentId)) (unfinished : (c.offer f).complete = false) :
    c.offer f ∈ (receive r a).candidates (session,segmentId) := by
  obtain ⟨ds,-,left,stays,-⟩ := receiveRoom own room parsed
  rw [left, List.mem_filter]
  exact ⟨stays c member,by simp [unfinished]⟩

theorem receiveGives {r : SarReassembler} {a : Arrival} (own : Own session segmentId a)
    (room : Room session segmentId r a) {f : Fragment} (parsed : parse a.payload = .ok f) {c : ReassemblySlot}
    (member : c ∈ r.candidates (session,segmentId)) (done : (c.offer f).complete = true)
    (whole : (c.offer f).assembled = data) : Gives session segmentId data r a := by
  obtain ⟨ds,output,-,stays,-⟩ := receiveRoom own room parsed
  exact ⟨own,_,output,List.mem_map.mpr ⟨_,List.mem_filter.mpr ⟨stays c member,done⟩,whole⟩⟩

theorem receiveStarts (data : Bytes) {r : SarReassembler} {a : Arrival} (own : Own session segmentId a)
    (room : Room session segmentId r a) {f : Fragment} (parsed : parse a.payload = .ok f)
    (alone : (r.candidates (session,segmentId)).any (ReassemblySlot.consistent f) = false) :
    ((ReassemblySlot.start f a.now).complete = false →
        .start f a.now ∈ (receive r a).candidates (session,segmentId)) ∧
      ((ReassemblySlot.start f a.now).complete = true → (ReassemblySlot.start f a.now).assembled = data →
        Gives session segmentId data r a) := by
  obtain ⟨ds,output,left,-,starts⟩ := receiveRoom own room parsed
  have member := starts alone
  constructor
  · intro unfinished
    rw [left, List.mem_filter]
    exact ⟨member,by simp [unfinished]⟩
  · intro done whole
    exact ⟨own,_,output,List.mem_map.mpr ⟨_,List.mem_filter.mpr ⟨member,done⟩,whole⟩⟩

section
variable (session : String) (segmentId : UInt16) (data : Bytes)

/- A foreign fragment that names a place of the message comes when the place is
in `S`, or after the message's own fragment for it. -/
def Late (S : Finset Nat) (mid : List Arrival) : Prop :=
  ∀ past a rest f, mid = past ++ a::rest → Foreign session segmentId data a → parse a.payload = .ok f →
    f.total.toNat = chunkCount data → f.index.toNat ∈ S ∨ ∃ b ∈ past, Brings session segmentId data f.index.toNat b

def Gathers (T : Finset Nat) (es : List Arrival) : Prop :=
  ∀ i < chunkCount data, (∃ b ∈ es, Brings session segmentId data i b) → i ∈ T

end

theorem lateHead {S : Finset Nat} {a : Arrival} {mid : List Arrival} (late : Late session segmentId data S (a::mid))
    (foreign : Foreign session segmentId data a) {f : Fragment} (parsed : parse a.payload = .ok f)
    (total : f.total.toNat = chunkCount data) : f.index.toNat ∈ S := by
  rcases late [] a mid f rfl foreign parsed total with old | ⟨b,none,-⟩
  · exact old
  · cases none

theorem lateTail {S U : Finset Nat} {a : Arrival} {mid : List Arrival} (late : Late session segmentId data S (a::mid))
    (grown : S ⊆ U) (head : Gathers session segmentId data U [a]) : Late session segmentId data U mid := by
  intro past b rest f split foreign parsed total
  rcases late (a::past) b rest f (by simp [split]) foreign parsed total with old | ⟨d,found,brings⟩
  · exact .inl (grown old)
  · rcases List.mem_cons.mp found with rfl | found
    · exact .inl (head _ (indexInside total) ⟨d,by simp,brings⟩)
    · exact .inr ⟨d,found,brings⟩

theorem gathersCons {T : Finset Nat} {a : Arrival} {mid : List Arrival} (head : Gathers session segmentId data T [a])
    (tail : Gathers session segmentId data T mid) : Gathers session segmentId data T (a::mid) := by
  rintro i bound ⟨b,found,brings⟩
  rcases List.mem_cons.mp found with rfl | found
  · exact head i bound ⟨b,by simp,brings⟩
  · exact tail i bound ⟨b,found,brings⟩

theorem gathersOther {a : Arrival} (other : ¬ Legit session segmentId data a) (T : Finset Nat) :
    Gathers session segmentId data T [a] := by
  rintro i bound ⟨b,found,brings⟩
  rw [List.mem_singleton.mp found] at brings
  exact absurd (bringsLegit bound brings) other

theorem receiveWhole (fits : data.length ≤ sarMaxSegmentData) {j : Nat} (inside : j < chunkCount data)
    {r : SarReassembler} {S : Finset Nat} {c : ReassemblySlot} (member : c ∈ r.candidates (session,segmentId))
    (holds : Holding data S c) (missing : j ∉ S) {a : Arrival} (never : ¬ Brings session segmentId data j a)
    (late : Foreign session segmentId data a → ∀ f, parse a.payload = .ok f → f.total.toNat = chunkCount data →
      f.index.toNat ∈ S) (room : Room session segmentId r a) :
    ∃ U d, d ∈ (receive r a).candidates (session,segmentId) ∧ Holding data U d ∧ S ⊆ U ∧ j ∉ U ∧
      Gathers session segmentId data U [a] := by
  by_cases own : Own session segmentId a
  · rcases ownCases data own with legit | foreign
    · obtain ⟨i,bound,brings⟩ := legitBrings legit
      obtain ⟨f,parsed,key,rfl,carries⟩ := bringsFragment fits bound brings
      have grown := offerLegit holds carries
      have absent : j ∉ insert f.index.toNat S := by
        have other : j ≠ f.index.toNat := fun same => never (same ▸ brings)
        simp [other, missing]
      have stays := receiveKeeps own room parsed member (unfinishedOf grown inside absent)
      refine ⟨_,_,stays,grown,Finset.subset_insert _ S,absent,?_⟩
      rintro k small ⟨b,found,other⟩
      rw [List.mem_singleton.mp found] at other
      simp [bringsUnique fits small bound other brings]
    · obtain ⟨f,parsed,key⟩ := keyParsed own
      have same : c.offer f = c := offerForeign holds (foreignDiffers foreign parsed) (late foreign f parsed)
      have stays := receiveKeeps own room parsed member (by rw [same]; exact unfinishedOf holds inside missing)
      rw [same] at stays
      exact ⟨S,c,stays,holds,subset_refl S,missing,gathersOther (fun legit => foreign.2 legit.2) S⟩
  · rw [← receiveOther own] at member
    exact ⟨S,c,member,holds,subset_refl S,missing,gathersOther (fun legit => own (legitOwn fits legit)) S⟩

theorem runWhole (fits : data.length ≤ sarMaxSegmentData) {j : Nat} (inside : j < chunkCount data)
    {mid : List Arrival} {r : SarReassembler} {S : Finset Nat} {c : ReassemblySlot}
    (member : c ∈ r.candidates (session,segmentId)) (holds : Holding data S c) (missing : j ∉ S)
    (never : ∀ a ∈ mid, ¬ Brings session segmentId data j a) (late : Late session segmentId data S mid)
    (room : EveryStep receive (Room session segmentId) r mid) :
    ∃ T d, d ∈ (run receive r mid).candidates (session,segmentId) ∧ Holding data T d ∧ S ⊆ T ∧
      Gathers session segmentId data T mid := by
  induction mid generalizing r S c with
  | nil => exact ⟨S,c,member,holds,subset_refl S,by simp [Gathers]⟩
  | cons a mid ih =>
    obtain ⟨space,room⟩ := room
    obtain ⟨U,d,stays,grown,more,absent,head⟩ := receiveWhole fits inside member holds missing (never a (by simp))
      (fun foreign f parsed total => lateHead late foreign parsed total) space
    obtain ⟨T,e,last,whole,most,seen⟩ := ih stays grown absent (fun b later => never b (List.mem_cons_of_mem a later))
      (lateTail late more head) room
    exact ⟨T,e,last,whole,more.trans most,gathersCons (fun i bound brought => most (head i bound brought)) seen⟩

theorem lastMissing {i : Nat} {after : List Arrival} (several : ¬ ∀ k < chunkCount data, k = i)
    (whole : ∀ k < chunkCount data, k = i ∨ ∃ b ∈ after, Brings session segmentId data k b) :
    ∃ mid last rest j, after = mid ++ last::rest ∧ j < chunkCount data ∧ j ≠ i ∧
      (∀ b ∈ mid, ¬ Brings session segmentId data j b) ∧ Brings session segmentId data j last ∧
      ∀ k < chunkCount data, k = i ∨ ∃ b ∈ mid ++ [last], Brings session segmentId data k b := by
  obtain ⟨mid,last,rest,rfl,no,yes⟩ := firstMoment
    (P := fun es => ∀ k < chunkCount data, k = i ∨ ∃ b ∈ es, Brings session segmentId data k b)
    (by simpa using several) whole
  push Not at no
  obtain ⟨j,bound,other,never⟩ := no
  refine ⟨mid,last,rest,j,rfl,bound,other,never,?_,yes⟩
  obtain ⟨b,found,brings⟩ := (yes j bound).resolve_left other
  rcases List.mem_append.mp found with old | new
  · exact absurd brings (never b old)
  · rwa [List.mem_singleton.mp new] at brings

theorem cleanLate (fits : data.length ≤ sarMaxSegmentData) {first : Arrival} {i : Nat} (inside : i < chunkCount data)
    (brings : Brings session segmentId data i first) {mid more : List Arrival}
    (safe : ∀ past a rest f, mid ++ more = past ++ a::rest → Foreign session segmentId data a →
      parse a.payload = .ok f → f.total.toNat = chunkCount data →
      ∃ b ∈ first::past, Brings session segmentId data f.index.toNat b) : Late session segmentId data {i} mid := by
  intro past a rest f split foreign parsed total
  obtain ⟨b,found,other⟩ := safe past a (rest ++ more) f (by simp [split]) foreign parsed total
  rcases List.mem_cons.mp found with rfl | found
  · exact .inl (Finset.mem_singleton.mpr (bringsUnique fits (indexInside total) inside other brings))
  · exact .inr ⟨b,found,other⟩

theorem cleanReturned (fits : data.length ≤ sarMaxSegmentData) {r : SarReassembler} {feed : List Arrival}
    (all : ∀ i < chunkCount data, ∃ a ∈ feed, Brings session segmentId data i a)
    (room : EveryStep receive (Room session segmentId) r feed) (clean : Clean session segmentId data r feed) :
    Returned session segmentId data r feed := by
  obtain ⟨before,first,after,rfl,legit,none,free,safe⟩ := clean
  obtain ⟨i,inside,brings⟩ := legitBrings legit
  obtain ⟨f,parsed,key,rfl,carries⟩ := bringsFragment fits inside brings
  obtain ⟨-,space,room⟩ := everyStepAppend.mp room
  obtain ⟨kept,given⟩ := receiveStarts data (legitOwn fits legit) space parsed (free f parsed)
  have holds := startHolding carries first.now
  have unseen : ∀ k < chunkCount data, ∀ b ∈ before, ¬ Brings session segmentId data k b :=
    fun k small b old brings => none b old (bringsLegit small brings)
  by_cases single : ∀ k < chunkCount data, k = f.index.toNat
  · have full : ∀ k < chunkCount data, k ∈ ({f.index.toNat} : Finset Nat) := by simpa using single
    exact ⟨before,first,after,rfl,⟨_,inside,unseen _ inside⟩,
      given ((completeHolding holds).mpr full) (assembledHolding holds full)⟩
  · have whole : ∀ k < chunkCount data, k = f.index.toNat ∨ ∃ b ∈ after, Brings session segmentId data k b := by
      intro k small
      obtain ⟨a,found,other⟩ := all k small
      rcases List.mem_append.mp found with old | new
      · exact absurd other (unseen k small a old)
      · rcases List.mem_cons.mp new with rfl | later
        · exact .inl (bringsUnique fits small inside other brings)
        · exact .inr ⟨a,later,other⟩
    obtain ⟨mid,last,rest,j,rfl,bound,other,never,final,yes⟩ := lastMissing single whole
    obtain ⟨roomMid,roomLast,-⟩ := everyStepAppend.mp room
    have missing : j ∉ ({f.index.toNat} : Finset Nat) := by simpa using other
    obtain ⟨T,d,member,gathered,grown,seen⟩ := runWhole fits bound (kept (unfinishedOf holds bound missing)) holds
      missing never (cleanLate fits inside brings safe) roomMid
    obtain ⟨g,parsed',-,rfl,carries'⟩ := bringsFragment fits bound final
    have complete : ∀ k < chunkCount data, k ∈ insert g.index.toNat T := by
      intro k small
      rcases yes k small with rfl | ⟨b,found,brings'⟩
      · exact Finset.mem_insert_of_mem (grown (Finset.mem_singleton_self _))
      · rcases List.mem_append.mp found with old | new
        · exact Finset.mem_insert_of_mem (seen k small ⟨b,old,brings'⟩)
        · rw [List.mem_singleton.mp new] at brings'
          simp [bringsUnique fits small bound brings' final]
    have done := offerLegit gathered carries'
    refine ⟨before ++ first::mid,last,rest,by simp,⟨_,bound,?_⟩,?_⟩
    · intro b found
      rcases List.mem_append.mp found with old | new
      · exact unseen _ bound b old
      · rcases List.mem_cons.mp new with rfl | later
        · exact fun brings' => other (bringsUnique fits bound inside brings' brings)
        · exact never b later
    · rw [runAppend, runCons]
      exact receiveGives (legitOwn fits (bringsLegit bound final)) roomLast parsed' member
        ((completeHolding done).mpr complete) (assembledHolding done complete)

def Strange (data : Bytes) (f : Fragment) : Prop := ¬ f.data <:+: data

def Tainted (data : Bytes) (c : ReassemblySlot) : Prop :=
  ∃ (i : Nat) (b : Bytes), c.fragments[i]? = some (some b) ∧ ¬ b <:+: data

def Doomed (data : Bytes) (j : Nat) (c : ReassemblySlot) : Prop :=
  -- tainted, or without a fragment that will not come (again)
  Tainted data c ∨ (c.total.toNat = chunkCount data ∧ c.fragments[j]? = some none)

theorem taintedAssembled {c : ReassemblySlot} (tainted : Tainted data c) : c.assembled ≠ data := by
  obtain ⟨i,b,found,stray⟩ := tainted
  rintro rfl
  refine stray (List.infix_of_mem_flatten (List.mem_filterMap.mpr ⟨some b,?_,rfl⟩))
  exact List.mem_of_getElem? found

theorem doomedAssembled {j : Nat} (inside : j < chunkCount data) {c : ReassemblySlot} (doomed : Doomed data j c)
    (done : c.complete = true) : c.assembled ≠ data := by
  rcases doomed with tainted | ⟨total,vacant⟩
  · exact taintedAssembled tainted
  · obtain ⟨b,filled⟩ := (completeIff c).mp done j (by omega)
    rw [vacant] at filled
    cases filled

theorem offerFilled {c : ReassemblySlot} {i : Nat} {b : Bytes} (found : c.fragments[i]? = some (some b)) (f : Fragment) :
    (c.offer f).fragments[i]? = some (some b) := by
  unfold ReassemblySlot.offer ReassemblySlot.fill
  split
  · split
    · rename_i vacant
      have other : f.index.toNat ≠ i := by
        rintro rfl
        rw [vacant] at found
        cases found
      simp [List.getElem?_set_ne other, found]
    · exact found
  · exact found

theorem offerTotal (c : ReassemblySlot) (f : Fragment) : (c.offer f).total = c.total := by
  unfold ReassemblySlot.offer ReassemblySlot.fill
  split
  · split <;> rfl
  · rfl

theorem offerVacant {c : ReassemblySlot} {j : Nat} (vacant : c.fragments[j]? = some none) {f : Fragment}
    (other : f.index.toNat ≠ j) : (c.offer f).fragments[j]? = some none := by
  unfold ReassemblySlot.offer ReassemblySlot.fill
  split
  · split
    · simp [List.getElem?_set_ne other, vacant]
    · exact vacant
  · exact vacant

theorem offerTakes {c : ReassemblySlot} {f : Fragment} (total : c.total = f.total)
    (vacant : c.fragments[f.index.toNat]? = some none) : (c.offer f).fragments[f.index.toNat]? = some (some f.data) := by
  have consistent : c.consistent f = true := by simp [ReassemblySlot.consistent, total, vacant]
  obtain ⟨inside,-⟩ := List.getElem?_eq_some_iff.mp vacant
  simp [ReassemblySlot.offer, consistent, ReassemblySlot.fill, vacant, List.getElem?_set_self inside]

theorem startTakes (f : Fragment) (now : Nat) :
    (ReassemblySlot.start f now).fragments[f.index.toNat]? = some (some f.data) := by
  have inside : f.index.toNat < f.total.toNat := UInt8.lt_iff_toNat_lt.mp f.inside
  simp [ReassemblySlot.start, inside]

theorem offerTainted {c : ReassemblySlot} (tainted : Tainted data c) (f : Fragment) : Tainted data (c.offer f) := by
  obtain ⟨i,b,found,stray⟩ := tainted
  exact ⟨i,b,offerFilled found f,stray⟩

theorem startTainted {f : Fragment} (strange : Strange data f) (now : Nat) : Tainted data (.start f now) :=
  ⟨_,_,startTakes f now,strange⟩

theorem offerStrange {c : ReassemblySlot} {f : Fragment} (doomed : Doomed data f.index.toNat c)
    (total : f.total.toNat = chunkCount data) (strange : Strange data f) : Tainted data (c.offer f) := by
  rcases doomed with tainted | ⟨same,vacant⟩
  · exact offerTainted tainted f
  · exact ⟨_,_,offerTakes (UInt8.toNat_inj.mp (same.trans total.symm)) vacant,strange⟩

theorem offerDoomed {j : Nat} {c : ReassemblySlot} (doomed : Doomed data j c) {f : Fragment}
    (allowed : Strange data f ∨ (f.total.toNat = chunkCount data ∧ f.index.toNat ≠ j)) : Doomed data j (c.offer f) := by
  rcases doomed with tainted | ⟨total,vacant⟩
  · exact .inl (offerTainted tainted f)
  · by_cases place : f.index.toNat = j
    · have strange := allowed.resolve_right (fun other => other.2 place)
      by_cases same : c.total = f.total
      · rw [← place] at vacant
        exact .inl ⟨_,_,offerTakes same vacant,strange⟩
      · have stays : c.offer f = c := by simp [ReassemblySlot.offer, ReassemblySlot.consistent, same]
        rw [stays]
        exact .inr ⟨total,vacant⟩
    · exact .inr ⟨by rw [offerTotal, total],offerVacant vacant place⟩

theorem startDoomed {j : Nat} (inside : j < chunkCount data) {f : Fragment}
    (allowed : Strange data f ∨ (f.total.toNat = chunkCount data ∧ f.index.toNat ≠ j)) (now : Nat) :
    Doomed data j (.start f now) := by
  rcases allowed with strange | ⟨total,other⟩
  · exact .inl (startTainted strange now)
  · refine .inr ⟨total,?_⟩
    simp only [ReassemblySlot.start, total]
    rw [List.getElem?_set_ne other, List.getElem?_replicate, if_pos inside]

theorem receiveSpoiled {I J : ReassemblySlot → Prop} {r : SarReassembler} {a : Arrival} {f : Fragment}
    (parsed : parse a.payload = .ok f) (old : ∀ c ∈ r.candidates (session,segmentId), I c)
    (offer : ∀ c, I c → J (c.offer f))
    (start : (r.candidates (session,segmentId)).any (ReassemblySlot.consistent f) = false → J (.start f a.now))
    (done : ∀ c, J c → c.complete = true → c.assembled ≠ data) (own : Own session segmentId a) :
    ¬ Gives session segmentId data r a ∧ ∀ c ∈ (receive r a).candidates (session,segmentId), J c := by
  obtain ⟨g,parsed',key⟩ := keyParsed own
  rw [parsed] at parsed'
  cases parsed'
  rw [← key] at old start ⊢
  obtain ⟨kept,given⟩ := ingestEvery parsed a.now a.session old offer start
  refine ⟨?_,kept⟩
  rintro ⟨-,out,output,found⟩
  obtain ⟨c,spoiled,finished,same⟩ := given out output data found
  exact done c spoiled finished same.symm

theorem runSpoiled {I : ReassemblySlot → Prop} {allowed : Fragment → Prop}
    (offer : ∀ c f, allowed f → I c → I (c.offer f)) (start : ∀ f now, allowed f → I (.start f now))
    (done : ∀ c, I c → c.complete = true → c.assembled ≠ data) {feed : List Arrival}
    (admitted : ∀ a ∈ feed, Own session segmentId a → ∀ f, parse a.payload = .ok f → allowed f)
    {r : SarReassembler} (old : ∀ c ∈ r.candidates (session,segmentId), I c) :
    EveryStep receive (fun r a => ¬ Gives session segmentId data r a) r feed ∧
      ∀ c ∈ (run receive r feed).candidates (session,segmentId), I c := by
  induction feed generalizing r with
  | nil => exact ⟨trivial,old⟩
  | cons a feed ih =>
    have step : ¬ Gives session segmentId data r a ∧ ∀ c ∈ (receive r a).candidates (session,segmentId), I c := by
      by_cases own : Own session segmentId a
      · obtain ⟨f,parsed,-⟩ := keyParsed own
        have fine := admitted a (by simp) own f parsed
        exact receiveSpoiled parsed old (fun c => offer c f fine) (fun _ => start f a.now fine) done own
      · refine ⟨fun gives => own gives.1,?_⟩
        rw [receiveOther own]
        exact old
    obtain ⟨silent,last⟩ := ih (fun b later => admitted b (List.mem_cons_of_mem a later)) step.2
    exact ⟨⟨step.1,silent⟩,last⟩

theorem runDoomed (fits : data.length ≤ sarMaxSegmentData) {j : Nat} (inside : j < chunkCount data)
    {feed : List Arrival} (never : ∀ a ∈ feed, ¬ Brings session segmentId data j a)
    (strangers : ∀ a ∈ feed, Foreign session segmentId data a → ∀ f, parse a.payload = .ok f → Strange data f)
    {r : SarReassembler} (old : ∀ c ∈ r.candidates (session,segmentId), Doomed data j c) :
    EveryStep receive (fun r a => ¬ Gives session segmentId data r a) r feed ∧
      ∀ c ∈ (run receive r feed).candidates (session,segmentId), Doomed data j c := by
  refine runSpoiled (fun c f fine doomed => offerDoomed doomed fine) (fun f now fine => startDoomed inside fine now)
    (fun c doomed done => doomedAssembled inside doomed done) ?_ old
  intro a member own f parsed
  rcases ownCases data own with legit | foreign
  · obtain ⟨i,bound,brings⟩ := legitBrings legit
    obtain ⟨g,parsed',-,rfl,carries⟩ := bringsFragment fits bound brings
    rw [parsed] at parsed'
    cases parsed'
    exact .inr ⟨carries.total,fun same => never a member (same ▸ brings)⟩
  · exact .inl (strangers a member foreign f parsed)

theorem onceElsewhere {p : Arrival → Bool} {xs ys : List Arrival} {a : Arrival}
    (once : (xs ++ a::ys).countP p = 1) (here : p a = true) : ∀ b ∈ ys, ¬ p b = true := by
  rw [List.countP_append, List.countP_cons_of_pos here] at once
  have none : ys.countP p = 0 := by omega
  exact List.countP_eq_zero.mp none

theorem onceArrives {feed : List Arrival} (once : Once session segmentId data feed) :
    ∀ i < chunkCount data, ∃ a ∈ feed, Brings session segmentId data i a := by
  intro i inside
  obtain ⟨a,member,brings⟩ := List.countP_pos_iff.mp (by rw [once i inside]; exact Nat.one_pos)
  simp only [Bool.and_eq_true, beq_iff_eq] at brings
  exact ⟨a,member,brings⟩

theorem onceAfter {before after : List Arrival} {a : Arrival} (once : Once session segmentId data (before ++ a::after))
    {i : Nat} (inside : i < chunkCount data) (brings : Brings session segmentId data i a) :
    ∀ b ∈ after, ¬ Brings session segmentId data i b := by
  intro b member other
  refine onceElsewhere (once i inside) ?_ b member ?_
  · simp [brings.1, brings.2]
  · simp [other.1, other.2]

theorem silentNotReturned {r : SarReassembler} {feed : List Arrival}
    (silent : EveryStep receive (fun r a => ¬ Gives session segmentId data r a) r feed) :
    ¬ Returned session segmentId data r feed := by
  rintro ⟨before,a,after,rfl,-,gives⟩
  exact (everyStepAppend.mp silent).2.1 gives

theorem joinedSilent (fits : data.length ≤ sarMaxSegmentData) {r : SarReassembler} {before after : List Arrival}
    {first : Arrival} (fresh : r.candidates (session,segmentId) = [])
    (once : Once session segmentId data (before ++ first::after))
    (strangers : ∀ a ∈ before ++ first::after, Foreign session segmentId data a →
      ∀ f, parse a.payload = .ok f → Strange data f)
    (legit : Legit session segmentId data first) (none : ∀ a ∈ before, ¬ Legit session segmentId data a)
    {f : Fragment} (parsed : parse first.payload = .ok f)
    (joins : ((run receive r before).candidates (session,segmentId)).any (ReassemblySlot.consistent f) = true) :
    EveryStep receive (fun r a => ¬ Gives session segmentId data r a) r (before ++ first::after) := by
  obtain ⟨i,inside,brings⟩ := legitBrings legit
  have admitted : ∀ a ∈ before, Own session segmentId a → ∀ f, parse a.payload = .ok f → Strange data f := by
    intro a member own f parsed
    have foreign := (ownCases data own).resolve_left (none a member)
    exact strangers a (by simp [member]) foreign f parsed
  obtain ⟨quiet,tainted⟩ := runSpoiled (I := Tainted data) (fun c f _ tainted => offerTainted tainted f)
    (fun f now strange => startTainted strange now) (fun c tainted _ => taintedAssembled tainted) admitted
    (r := r) (by simp [fresh])
  obtain ⟨silent,left⟩ := receiveSpoiled (J := Tainted data) parsed tainted (fun c tainted => offerTainted tainted f)
    (fun alone => by simp [alone] at joins) (fun c tainted _ => taintedAssembled tainted) (legitOwn fits legit)
  obtain ⟨rest,-⟩ := runDoomed fits inside (onceAfter once inside brings)
    (fun a member => strangers a (by simp [member])) (fun c member => .inl (left c member))
  exact everyStepAppend.mpr ⟨quiet,silent,rest⟩

theorem displacedSilent (fits : data.length ≤ sarMaxSegmentData) {r : SarReassembler} {before mid rest : List Arrival}
    {first a : Arrival} (fresh : r.candidates (session,segmentId) = [])
    (once : Once session segmentId data (before ++ first::(mid ++ a::rest)))
    (strangers : ∀ b ∈ before ++ first::(mid ++ a::rest), Foreign session segmentId data b →
      ∀ f, parse b.payload = .ok f → Strange data f)
    (legit : Legit session segmentId data first) (none : ∀ a ∈ before, ¬ Legit session segmentId data a)
    (foreign : Foreign session segmentId data a) {f : Fragment} (parsed : parse a.payload = .ok f)
    (total : f.total.toNat = chunkCount data)
    (ahead : ∀ b ∈ first::mid, ¬ Brings session segmentId data f.index.toNat b) :
    EveryStep receive (fun r a => ¬ Gives session segmentId data r a) r (before ++ first::(mid ++ a::rest)) := by
  obtain ⟨i,inside,brings⟩ := legitBrings legit
  have place := indexInside total
  have strange := strangers a (by simp) foreign f parsed
  have never : ∀ b ∈ before ++ first::mid, ¬ Brings session segmentId data f.index.toNat b := by
    intro b member
    rcases List.mem_append.mp member with old | new
    · exact fun brings => none b old (bringsLegit place brings)
    · exact ahead b new
  have earlier : ∀ b ∈ before ++ first::mid, b ∈ before ++ first::(mid ++ a::rest) := by
    intro b member
    rw [← List.cons_append, ← List.append_assoc]
    exact List.mem_append_left _ member
  have later : ∀ b ∈ rest, b ∈ mid ++ a::rest := fun b member => by simp [member]
  obtain ⟨quiet,doomed⟩ := runDoomed fits place never (fun b member => strangers b (earlier b member))
    (r := r) (by simp [fresh])
  obtain ⟨silent,left⟩ := receiveSpoiled parsed doomed (fun c doomed => offerStrange doomed total strange)
    (fun _ => startTainted strange a.now) (fun c tainted _ => taintedAssembled tainted) foreign.1
  obtain ⟨last,-⟩ := runDoomed fits inside
    (fun b member => onceAfter once inside brings b (later b member))
    (fun b member => strangers b (List.mem_append_right _ (List.mem_cons_of_mem _ (later b member))))
    (fun c member => .inl (left c member))
  have shape : before ++ first::(mid ++ a::rest) = (before ++ first::mid) ++ a::rest := by simp
  rw [shape]
  exact everyStepAppend.mpr ⟨quiet,silent,last⟩

theorem returnedClean (fits : data.length ≤ sarMaxSegmentData) {r : SarReassembler} {feed : List Arrival}
    (fresh : r.candidates (session,segmentId) = []) (once : Once session segmentId data feed)
    (strangers : ∀ a ∈ feed, Foreign session segmentId data a → ∀ f, parse a.payload = .ok f → Strange data f)
    (returned : Returned session segmentId data r feed) : Clean session segmentId data r feed := by
  have some : ∃ a ∈ feed, Legit session segmentId data a := by
    obtain ⟨a,member,brings⟩ := onceArrives once 0 (chunkCountPos data)
    exact ⟨a,member,bringsLegit (chunkCountPos data) brings⟩
  obtain ⟨before,first,after,rfl,no,yes⟩ :=
    firstMoment (P := fun es => ∃ a ∈ es, Legit session segmentId data a) (by simp) some
  have none : ∀ a ∈ before, ¬ Legit session segmentId data a := fun a member legit => no ⟨a,member,legit⟩
  have legit : Legit session segmentId data first := by
    obtain ⟨a,member,legit⟩ := yes
    rcases List.mem_append.mp member with old | new
    · exact absurd legit (none a old)
    · rwa [List.mem_singleton.mp new] at legit
  refine ⟨before,first,after,rfl,legit,none,?_,?_⟩
  · intro f parsed
    by_contra joins
    have joins := Bool.eq_true_of_not_eq_false joins
    exact silentNotReturned (joinedSilent fits fresh once strangers legit none parsed joins) returned
  · intro mid a rest f split foreign parsed total
    by_contra ahead
    push Not at ahead
    subst split
    exact silentNotReturned
      (displacedSilent fits fresh once strangers legit none foreign parsed total ahead) returned

theorem poisonExact (data : Bytes) (session : String) (segmentId : UInt16) (r : SarReassembler)
    (feed : List Arrival) (fits : data.length ≤ sarMaxSegmentData) (once : Once session segmentId data feed)
    (room : EveryStep receive (Room session segmentId) r feed) :
    (Clean session segmentId data r feed → Returned session segmentId data r feed) ∧
      (r.candidates (session,segmentId) = [] →
        (∀ a ∈ feed, Foreign session segmentId data a → ∀ f, parse a.payload = .ok f → Strange data f) →
        Returned session segmentId data r feed → Clean session segmentId data r feed) :=
  ⟨cleanReturned fits (onceArrives once) room,fun fresh => returnedClean fits fresh once⟩

def tolerated : List Arrival :=
  [⟨1,"a",[0,9,0,3,8]⟩,⟨2,"a",payloadOf 9 (List.replicate 252 7) 0⟩,⟨3,"a",payloadOf 9 (List.replicate 252 7) 1⟩]

theorem toleratedReturned : Returned "a" 9 (List.replicate 252 7) (.new 60) tolerated := by
  refine (poisonExact _ "a" 9 (.new 60) tolerated (by decide +kernel) (by decide +kernel) (by decide +kernel)).1 ?_
  refine ⟨tolerated.take 1,_,tolerated.drop 2,rfl,⟨rfl,by decide +kernel⟩,by decide +kernel,by decide +kernel,?_⟩
  intro mid a rest f split foreign
  have last : a ∈ tolerated.drop 2 := by simp [split]
  have legit : ∀ b ∈ tolerated.drop 2, ¬ Foreign "a" 9 (List.replicate 252 7) b := by decide +kernel
  exact absurd foreign (legit a last)

def poisoned : List Arrival :=
  [⟨1,"a",payloadOf 9 (List.replicate 252 7) 0⟩,⟨2,"a",[0,9,1,2,8]⟩,⟨3,"a",payloadOf 9 (List.replicate 252 7) 1⟩]

theorem poisonedNotReturned :
    2 ≤ chunkCount (List.replicate 252 7) ∧ Once "a" 9 (List.replicate 252 7) poisoned ∧
      EveryStep receive (Room "a" 9) (.new 60) poisoned ∧
      ¬ Returned "a" 9 (List.replicate 252 7) (.new 60) poisoned := by
  refine ⟨by decide +kernel,by decide +kernel,by decide +kernel,silentNotReturned ?_⟩
  decide +kernel

end OpenPulse.SarPoison
