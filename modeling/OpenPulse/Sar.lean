import Mathlib.Algebra.GroupWithZero.Nat
import Mathlib.Data.Finset.Insert
import OpenPulse.ByteCodec
import OpenPulse.Tables

/-! Segmentation and reassembly: `openpulse-core/src/sar.rs`. A payload is a
list of bytes. The instant of a call is an argument. The table of candidates is
keyed by session and segment id, as in the source, and an entry is dropped as
soon as its list of candidates is empty. -/
namespace OpenPulse.Sar
open ByteCodec Tables

def sarHeaderSize : Nat := 4
def sarMaxFragmentData : Nat := 255 - sarHeaderSize
def sarMaxSegmentData : Nat := 255 * sarMaxFragmentData
def maxPendingSlots : Nat := 4096
def maxCandidatesPerKey : Nat := 8

inductive SarError where
  | malformedHeader
  | fragmentIndexOutOfRange (index total : UInt8)
  | dataTooLarge (len max : Nat)
  | tooManyPendingSegments (max : Nat)
  deriving DecidableEq, Repr

def chunk (data : Bytes) (i : Nat) : Bytes := (data.drop (i * sarMaxFragmentData)).take sarMaxFragmentData

def chunkCount (data : Bytes) : Nat :=
  if data.isEmpty then 1 else (data.length + (sarMaxFragmentData - 1)) / sarMaxFragmentData

def payloadOf (segmentId : UInt16) (data : Bytes) (index : Nat) : Bytes :=
  (segmentId >>> 8).toUInt8 :: segmentId.toUInt8 :: index.toUInt8 :: (chunkCount data).toUInt8 :: chunk data index

def payloads (segmentId : UInt16) (data : Bytes) : List Bytes :=
  (List.range (chunkCount data)).map (payloadOf segmentId data)

def sarEncode (segmentId : UInt16) (data : Bytes) : Except SarError (List Bytes) :=
  if sarMaxSegmentData < data.length then .error (.dataTooLarge data.length sarMaxSegmentData)
  else .ok (payloads segmentId data)

structure Fragment where
  segmentId : UInt16
  index : UInt8
  total : UInt8
  data : Bytes
  inside : index < total
  deriving DecidableEq, Repr

def parse : Bytes → Except SarError Fragment
  | hi::lo::index::total::data =>
    if inside : index < total then .ok ⟨hi.toUInt16 <<< 8 ||| lo.toUInt16,index,total,data,inside⟩
    else .error (.fragmentIndexOutOfRange index total)
  | _ => .error .malformedHeader

/- `received` counts the fragments present in a list of `total` places, so the
byte never wraps and a candidate is complete when no place is empty. -/
structure ReassemblySlot where
  total : UInt8
  fragments : List (Option Bytes)
  received : UInt8
  created : Nat
  sized : fragments.length = total.toNat
  counted : received.toNat = fragments.countP Option.isSome
  deriving DecidableEq, Repr

theorem countSet {fragments : List (Option Bytes)} {i : Nat} (empty : fragments[i]? = some none) (data : Bytes) :
    (fragments.set i (some data)).countP Option.isSome = fragments.countP Option.isSome + 1 := by
  obtain ⟨inside,vacant⟩ := List.getElem?_eq_some_iff.mp empty
  rw [List.countP_set inside]
  simp [vacant]

theorem receivedSucc {fragments : List (Option Bytes)} {received total : UInt8} {i : Nat}
    (sized : fragments.length = total.toNat) (counted : received.toNat = fragments.countP Option.isSome)
    (empty : fragments[i]? = some none) (data : Bytes) :
    (received + 1).toNat = (fragments.set i (some data)).countP Option.isSome := by
  have grown := countSet empty data
  have bound := List.countP_le_length (p := Option.isSome) (l := fragments.set i (some data))
  have small := total.toNat_lt
  rw [List.length_set, sized] at bound
  rw [UInt8.toNat_add, grown, counted]
  simp only [UInt8.toNat_one]
  omega

def ReassemblySlot.fill (c : ReassemblySlot) (f : Fragment) : ReassemblySlot :=
  if empty : c.fragments[f.index.toNat]? = some none then
    { c with
      fragments := c.fragments.set f.index.toNat (some f.data)
      received := c.received + 1
      sized := by simp [c.sized]
      counted := receivedSucc c.sized c.counted empty f.data }
  else c

def ReassemblySlot.consistent (f : Fragment) (c : ReassemblySlot) : Bool :=
  c.total == f.total &&
    match c.fragments[f.index.toNat]? with
    | some (some existing) => existing == f.data
    | _ => true

def ReassemblySlot.start (f : Fragment) (now : Nat) : ReassemblySlot where
  total := f.total
  fragments := (List.replicate f.total.toNat none).set f.index.toNat (some f.data)
  received := 1
  created := now
  sized := by simp
  counted := by
    have vacant : (List.replicate f.total.toNat (none : Option Bytes))[f.index.toNat]? = some none := by
      rw [List.getElem?_replicate, if_pos (UInt8.lt_iff_toNat_lt.mp f.inside)]
    rw [countSet vacant]
    simp [List.countP_replicate]

def ReassemblySlot.complete (c : ReassemblySlot) : Bool := c.received == c.total

def ReassemblySlot.assembled (c : ReassemblySlot) : Bytes := (c.fragments.filterMap id).flatten

structure SarReassembler where
  slots : Table (String × UInt16) (List ReassemblySlot)
  totalCandidates : Nat
  timeout : Nat

namespace SarReassembler

def new (timeout : Nat) : SarReassembler := ⟨∅,0,timeout⟩

def candidates (r : SarReassembler) (key : String × UInt16) : List ReassemblySlot := (r.slots.lookup key).getD []

end SarReassembler

/-- The first of the candidates with the least `created`, as `min_by_key` picks it. -/
def oldest (cs : List ReassemblySlot) : Nat := cs.findIdx (fun c => cs.all (fun d => c.created ≤ d.created))

def place (now : Nat) (f : Fragment) (cs : List ReassemblySlot) (total : Nat) :
    Except SarError (List ReassemblySlot × Nat) :=
  if cs.any (ReassemblySlot.consistent f) then
    .ok (cs.map (fun c => if c.consistent f then c.fill f else c), total)
  else if maxCandidatesPerKey ≤ cs.length then
    .ok (cs.eraseIdx (oldest cs) ++ [.start f now], total - 1 + 1)
  else if maxPendingSlots ≤ total then .error (.tooManyPendingSegments maxPendingSlots)
  else .ok (cs ++ [.start f now], total + 1)

namespace SarReassembler

def setCandidates (r : SarReassembler) (key : String × UInt16) (cs : List ReassemblySlot) :
    Table (String × UInt16) (List ReassemblySlot) :=
  if cs.isEmpty then r.slots.erase key else r.slots.insert key cs

def ingest (r : SarReassembler) (now : Nat) (sessionId : String) (payload : Bytes) :
    Except SarError (List Bytes) × SarReassembler :=
  match parse payload with
  | .error e => (.error e, r)
  | .ok f =>
    let key := (sessionId, f.segmentId)
    match place now f (r.candidates key) r.totalCandidates with
    | .error e => (.error e, { r with slots := r.setCandidates key (r.candidates key) })
    | .ok (cs, total) =>
      let completed := (cs.filter ReassemblySlot.complete).map ReassemblySlot.assembled
      let kept := cs.filter (fun c => !c.complete)
      (.ok completed, { r with slots := r.setCandidates key kept, totalCandidates := total - completed.length })

def expire (r : SarReassembler) (now : Nat) : SarReassembler :=
  let young (c : ReassemblySlot) : Bool := now - c.created < r.timeout
  let slots := retain (fun _ cs => if (cs.filter young).isEmpty then none else some (cs.filter young)) r.slots
  let removed := (r.slots.entries.map (fun e => e.2.length - (e.2.filter young).length)).sum
  { r with slots, totalCandidates := r.totalCandidates - removed }

def pendingCount (r : SarReassembler) : Nat := r.totalCandidates

end SarReassembler

theorem chunkCountPos (data : Bytes) : 0 < chunkCount data := by
  unfold chunkCount sarMaxFragmentData sarHeaderSize
  split
  · decide
  · rename_i filled
    have := List.length_pos_of_ne_nil (by simpa using filled : data ≠ [])
    omega

theorem chunkCountLe {data : Bytes} (fits : data.length ≤ sarMaxSegmentData) : chunkCount data ≤ 255 := by
  unfold sarMaxSegmentData sarMaxFragmentData sarHeaderSize at fits
  unfold chunkCount sarMaxFragmentData sarHeaderSize
  split <;> omega

theorem chunkCountCovers (data : Bytes) : data.length ≤ chunkCount data * sarMaxFragmentData := by
  unfold chunkCount sarMaxFragmentData sarHeaderSize
  split
  · rename_i empty
    simp [List.isEmpty_iff.mp empty]
  · omega

theorem chunksWhole (data : Bytes) : ((List.range (chunkCount data)).map (chunk data)).flatten = data := by
  change ((List.range (chunkCount data)).map (piece sarMaxFragmentData data)).flatten = data
  rw [piecesFlatten, List.take_of_length_le (chunkCountCovers data)]

theorem segmentIdBytes (s : UInt16) :
    (s >>> 8).toUInt8.toUInt16 <<< 8 ||| s.toUInt8.toUInt16 = s := by
  have small := s.toNat_lt
  have high : s.toNat >>> 8 % 2 ^ 8 = s.toNat / 256 := by
    rw [Nat.shiftRight_eq_div_pow]
    omega
  have whole : (s.toNat / 256) <<< 8 % 2 ^ 16 = (s.toNat / 256) <<< 8 := by
    rw [Nat.shiftLeft_eq]
    omega
  apply UInt16.toNat_inj.mp
  simp only [UInt16.toNat_or, UInt16.toNat_shiftLeft, UInt8.toNat_toUInt16, UInt16.toNat_toUInt8,
    UInt16.toNat_shiftRight, show (8 : UInt16).toNat % 16 = 8 from rfl]
  rw [high, whole, ← Nat.shiftLeft_add_eq_or_of_lt (Nat.mod_lt _ (by decide)), Nat.shiftLeft_eq]
  omega

theorem bytesSegmentId (hi lo : UInt8) :
    ((hi.toUInt16 <<< 8 ||| lo.toUInt16) >>> 8).toUInt8 = hi ∧ (hi.toUInt16 <<< 8 ||| lo.toUInt16).toUInt8 = lo := by
  have small := hi.toNat_lt
  have low := lo.toNat_lt
  constructor
  · apply UInt8.toNat_inj.mp
    rw [UInt16.toNat_toUInt8, UInt16.toNat_shiftRight, wordValue, show (8 : UInt16).toNat % 16 = 8 from rfl,
      Nat.shiftRight_eq_div_pow]
    omega
  · apply UInt8.toNat_inj.mp
    rw [UInt16.toNat_toUInt8, wordValue]
    omega

theorem parseBytes {payload : Bytes} {f : Fragment} (parsed : parse payload = .ok f) :
    payload = (f.segmentId >>> 8).toUInt8 :: f.segmentId.toUInt8 :: f.index :: f.total :: f.data := by
  unfold parse at parsed
  split at parsed
  · rename_i hi lo index total data
    split at parsed
    · cases parsed
      obtain ⟨high,low⟩ := bytesSegmentId hi lo
      rw [high, low]
    · cases parsed
  · cases parsed

structure Carries (data : Bytes) (f : Fragment) : Prop where
  total : f.total.toNat = chunkCount data
  bytes : f.data = chunk data f.index.toNat

theorem indexInside {data : Bytes} {f : Fragment} (total : f.total.toNat = chunkCount data) :
    f.index.toNat < chunkCount data := by
  rw [← total]
  exact UInt8.lt_iff_toNat_lt.mp f.inside

theorem Carries.inside {data : Bytes} {f : Fragment} (legit : Carries data f) : f.index.toNat < chunkCount data :=
  indexInside legit.total

theorem parsePayload {data : Bytes} (fits : data.length ≤ sarMaxSegmentData) (segmentId : UInt16) {i : Nat}
    (inside : i < chunkCount data) :
    ∃ f, parse (payloadOf segmentId data i) = .ok f ∧ f.segmentId = segmentId ∧ f.index.toNat = i ∧
      Carries data f := by
  have bound := chunkCountLe fits
  have index : i.toUInt8.toNat = i := by simp only [Nat.toUInt8_eq, UInt8.toNat_ofNat']; omega
  have total : (chunkCount data).toUInt8.toNat = chunkCount data := by
    simp only [Nat.toUInt8_eq, UInt8.toNat_ofNat']; omega
  have less : i.toUInt8 < (chunkCount data).toUInt8 := by
    rw [UInt8.lt_iff_toNat_lt, index, total]
    exact inside
  refine ⟨⟨segmentId,i.toUInt8,(chunkCount data).toUInt8,chunk data i,less⟩,?_,rfl,index,total,?_⟩
  · simp only [parse, payloadOf, dif_pos less, segmentIdBytes]
  · simp only [index]

theorem payloadInj {data : Bytes} (fits : data.length ≤ sarMaxSegmentData) (segmentId : UInt16) {i j : Nat}
    (left : i < chunkCount data) (right : j < chunkCount data)
    (same : payloadOf segmentId data i = payloadOf segmentId data j) : i = j := by
  obtain ⟨f,parsed,-,first,-⟩ := parsePayload fits segmentId left
  obtain ⟨g,parsed',-,second,-⟩ := parsePayload fits segmentId right
  rw [same, parsed'] at parsed
  cases parsed
  exact first.symm.trans second

theorem memPayloads (segmentId : UInt16) {data : Bytes} {i : Nat} (inside : i < chunkCount data) :
    payloadOf segmentId data i ∈ payloads segmentId data := List.mem_map_of_mem (List.mem_range.mpr inside)

theorem carriesPayload {data payload : Bytes} {f : Fragment} (parsed : parse payload = .ok f)
    (legit : Carries data f) : payload = payloadOf f.segmentId data f.index.toNat := by
  rw [parseBytes parsed, payloadOf, ← legit.bytes, ← legit.total]
  simp

structure Holding (data : Bytes) (S : Finset Nat) (c : ReassemblySlot) : Prop where
  total : c.total.toNat = chunkCount data
  places : ∀ i < chunkCount data, c.fragments[i]? = some (if i ∈ S then some (chunk data i) else none)

theorem startHolding {data : Bytes} {f : Fragment} (legit : Carries data f) (now : Nat) :
    Holding data {f.index.toNat} (.start f now) := by
  refine ⟨legit.total,fun i inside => ?_⟩
  have total := legit.total
  simp only [ReassemblySlot.start, List.getElem?_set, List.length_replicate, Finset.mem_singleton]
  by_cases same : f.index.toNat = i
  · have bytes := legit.bytes
    subst same
    simp [total, inside, bytes]
  · simp [same, Ne.symm same, total, inside]

theorem consistentHolding {data : Bytes} {S : Finset Nat} {c : ReassemblySlot} {f : Fragment}
    (holds : Holding data S c) (legit : Carries data f) : c.consistent f = true := by
  have same : c.total = f.total := UInt8.toNat_inj.mp (holds.total.trans legit.total.symm)
  have place := holds.places f.index.toNat legit.inside
  simp only [ReassemblySlot.consistent, same, beq_self_eq_true, Bool.true_and, place]
  split <;> simp_all [legit.bytes]

theorem fillHolding {data : Bytes} {S : Finset Nat} {c : ReassemblySlot} {f : Fragment}
    (holds : Holding data S c) (legit : Carries data f) :
    Holding data (insert f.index.toNat S) (c.fill f) := by
  have place := holds.places f.index.toNat legit.inside
  unfold ReassemblySlot.fill
  split
  · refine ⟨holds.total,fun i inside => ?_⟩
    have length : c.fragments.length = chunkCount data := c.sized.trans holds.total
    simp only [List.getElem?_set, length, Finset.mem_insert]
    by_cases same : f.index.toNat = i
    · subst same
      simp [inside, legit.bytes]
    · simp [same, Ne.symm same, holds.places i inside]
  · rename_i filled
    have member : f.index.toNat ∈ S := by
      by_contra absent
      exact filled (by simpa [absent] using place)
    rwa [Finset.insert_eq_of_mem member]

theorem completeIff (c : ReassemblySlot) :
    c.complete = true ↔ ∀ i < c.total.toNat, ∃ b, c.fragments[i]? = some (some b) := by
  have sized := c.sized
  rw [ReassemblySlot.complete, beq_iff_eq, ← UInt8.toNat_inj, c.counted, ← sized, List.countP_eq_length]
  constructor
  · intro all i inside
    obtain ⟨b,here⟩ := Option.isSome_iff_exists.mp (all c.fragments[i] (List.getElem_mem inside))
    exact ⟨b,by rw [List.getElem?_eq_getElem inside, here]⟩
  · intro all x member
    obtain ⟨i,inside,rfl⟩ := List.mem_iff_getElem.mp member
    obtain ⟨b,here⟩ := all i inside
    rw [List.getElem?_eq_getElem inside, Option.some.injEq] at here
    simp [here]

theorem completeHolding {data : Bytes} {S : Finset Nat} {c : ReassemblySlot} (holds : Holding data S c) :
    c.complete = true ↔ ∀ i < chunkCount data, i ∈ S := by
  rw [completeIff, holds.total]
  refine forall₂_congr (fun i inside => ?_)
  rw [holds.places i inside]
  by_cases member : i ∈ S <;> simp [member]

theorem unfinishedOf {data : Bytes} {S : Finset Nat} {c : ReassemblySlot} (holds : Holding data S c) {j : Nat}
    (inside : j < chunkCount data) (missing : j ∉ S) : c.complete = false := by
  rw [← Bool.not_eq_true, completeHolding holds]
  intro all
  exact missing (all j inside)

theorem assembledHolding {data : Bytes} {S : Finset Nat} {c : ReassemblySlot} (holds : Holding data S c)
    (all : ∀ i < chunkCount data, i ∈ S) : c.assembled = data := by
  have whole : c.fragments = (List.range (chunkCount data)).map (fun i => some (chunk data i)) := by
    refine List.ext_getElem? (fun i => ?_)
    by_cases inside : i < chunkCount data
    · simp [holds.places i inside, all i inside, inside]
    · have short : c.fragments.length ≤ i := by
        rw [c.sized, holds.total]
        omega
      simp [List.getElem?_eq_none short, inside]
  rw [ReassemblySlot.assembled, whole, List.filterMap_map]
  conv_rhs => rw [← chunksWhole data]
  congr 1
  exact congrFun List.filterMap_eq_map _

def ReassemblySlot.offer (f : Fragment) (c : ReassemblySlot) : ReassemblySlot :=
  if c.consistent f then c.fill f else c

theorem placeMem {now total n : Nat} {f : Fragment} {cs ds : List ReassemblySlot}
    (placed : place now f cs total = .ok (ds,n)) :
    ∀ d ∈ ds, (∃ c ∈ cs, d = c.offer f) ∨ (d = .start f now ∧ cs.any (ReassemblySlot.consistent f) = false) := by
  have stay : ∀ c ∈ cs, ¬ cs.any (ReassemblySlot.consistent f) = true → c.offer f = c := by
    intro c member none
    simp only [List.any_eq_true, not_exists, not_and] at none
    exact if_neg (none c member)
  intro d member
  unfold place at placed
  split at placed
  · cases placed
    obtain ⟨c,inside,rfl⟩ := List.mem_map.mp member
    exact .inl ⟨c,inside,rfl⟩
  · rename_i none
    have fresh : ∀ es : List ReassemblySlot, (∀ c ∈ es, c ∈ cs) → d ∈ es ++ [.start f now] →
        (∃ c ∈ cs, d = c.offer f) ∨ (d = .start f now ∧ cs.any (ReassemblySlot.consistent f) = false) := by
      intro es inside member
      rcases List.mem_append.mp member with old | new
      · exact .inl ⟨d,inside d old,(stay d (inside d old) none).symm⟩
      · exact .inr ⟨List.mem_singleton.mp new,by simpa using none⟩
    split at placed
    · cases placed
      exact fresh _ (fun c old => List.mem_of_mem_eraseIdx old) member
    · split at placed
      · cases placed
      · cases placed
        exact fresh cs (fun c old => old) member

def roomFor (f : Fragment) (cs : List ReassemblySlot) (total : Nat) : Bool :=
  cs.any (ReassemblySlot.consistent f) || (cs.length < maxCandidatesPerKey && total < maxPendingSlots)

theorem placeRoom {f : Fragment} {cs : List ReassemblySlot} {total : Nat} (room : roomFor f cs total = true)
    (now : Nat) :
    ∃ ds n, place now f cs total = .ok (ds,n) ∧ (∀ c ∈ cs, c.offer f ∈ ds) ∧
      (cs.any (ReassemblySlot.consistent f) = false → .start f now ∈ ds) := by
  unfold place
  by_cases joins : cs.any (ReassemblySlot.consistent f) = true
  · rw [if_pos joins]
    exact ⟨_,_,rfl,fun c member => List.mem_map.mpr ⟨c,member,rfl⟩,fun none => by simp [none] at joins⟩
  · simp only [roomFor, joins, Bool.false_or, Bool.and_eq_true, decide_eq_true_eq] at room
    rw [if_neg joins, if_neg (by omega), if_neg (by omega)]
    refine ⟨_,_,rfl,fun c member => ?_,fun _ => by simp⟩
    simp only [List.any_eq_true, not_exists, not_and] at joins
    have stay : c.offer f = c := if_neg (joins c member)
    simp [stay, member]

theorem candidatesSet (r : SarReassembler) (key k : String × UInt16) (cs : List ReassemblySlot) (total : Nat) :
    ({ r with slots := r.setCandidates key cs, totalCandidates := total } : SarReassembler).candidates k =
      if k = key then cs else r.candidates k := by
  unfold SarReassembler.candidates SarReassembler.setCandidates
  split
  · rename_i empty
    rw [lookupErase, List.isEmpty_iff.mp empty]
    split <;> simp
  · rw [lookupInsert]
    split <;> simp

theorem ingestMalformed {r : SarReassembler} {payload : Bytes} {e : SarError} (bad : parse payload = .error e)
    (now : Nat) (sessionId : String) : r.ingest now sessionId payload = (.error e, r) := by
  simp [SarReassembler.ingest, bad]

theorem ingestOther {r : SarReassembler} {payload : Bytes} {f : Fragment} (parsed : parse payload = .ok f)
    (now : Nat) (sessionId : String) {key : String × UInt16} (other : key ≠ (sessionId,f.segmentId)) :
    (r.ingest now sessionId payload).2.candidates key = r.candidates key := by
  simp only [SarReassembler.ingest, parsed]
  split
  · exact (candidatesSet r _ key _ r.totalCandidates).trans (if_neg other)
  · exact (candidatesSet r _ key _ _).trans (if_neg other)

theorem ingestOwn {r : SarReassembler} {payload : Bytes} {f : Fragment} (parsed : parse payload = .ok f)
    {now total : Nat} {sessionId : String} {cs : List ReassemblySlot}
    (placed : place now f (r.candidates (sessionId,f.segmentId)) r.totalCandidates = .ok (cs,total)) :
    (r.ingest now sessionId payload).1 = .ok ((cs.filter ReassemblySlot.complete).map ReassemblySlot.assembled) ∧
      (r.ingest now sessionId payload).2.candidates (sessionId,f.segmentId) = cs.filter (fun c => !c.complete) := by
  simp only [SarReassembler.ingest, parsed, placed]
  exact ⟨trivial,(candidatesSet r _ _ _ _).trans (if_pos rfl)⟩

structure Arrival where
  now : Nat
  session : String
  payload : Bytes
  deriving DecidableEq, Repr

def Arrival.key (a : Arrival) : Option (String × UInt16) :=
  match parse a.payload with
  | .ok f => some (a.session,f.segmentId)
  | .error _ => none

def result (r : SarReassembler) (a : Arrival) : Except SarError (List Bytes) :=
  (r.ingest a.now a.session a.payload).1

def receive (r : SarReassembler) (a : Arrival) : SarReassembler := (r.ingest a.now a.session a.payload).2

theorem keyParsed {a : Arrival} {key : String × UInt16} (own : a.key = some key) :
    ∃ f, parse a.payload = .ok f ∧ (a.session,f.segmentId) = key := by
  unfold Arrival.key at own
  split at own
  · rename_i f parsed
    exact ⟨f,parsed,Option.some.inj own⟩
  · cases own

theorem keyOfParsed {a : Arrival} {f : Fragment} (parsed : parse a.payload = .ok f) :
    a.key = some (a.session,f.segmentId) := by
  rw [Arrival.key, parsed]

theorem receiveOther {r : SarReassembler} {a : Arrival} {key : String × UInt16} (other : a.key ≠ some key) :
    (receive r a).candidates key = r.candidates key := by
  cases parsed : parse a.payload with
  | error e => rw [receive, ingestMalformed parsed]
  | ok f =>
    refine ingestOther parsed a.now a.session (fun same => other ?_)
    rw [keyOfParsed parsed, same]

theorem ownFragment {data : Bytes} (fits : data.length ≤ sarMaxSegmentData) {session : String} {segmentId : UInt16}
    {a : Arrival} (here : a.session = session) {i : Nat} (inside : i < chunkCount data) (sent : a.payload = payloadOf segmentId data i) :
    ∃ f, parse a.payload = .ok f ∧ (a.session,f.segmentId) = (session,segmentId) ∧ f.index.toNat = i ∧
      Carries data f := by
  obtain ⟨f,parsed,segment,index,legit⟩ := parsePayload fits segmentId inside
  exact ⟨f,by rw [sent, parsed],by rw [here, segment],index,legit⟩

theorem ownKey {data : Bytes} (fits : data.length ≤ sarMaxSegmentData) {session : String} {segmentId : UInt16}
    {a : Arrival} (here : a.session = session) {i : Nat} (inside : i < chunkCount data) (sent : a.payload = payloadOf segmentId data i) :
    a.key = some (session,segmentId) := by
  obtain ⟨f,parsed,key,-⟩ := ownFragment fits here inside sent
  rw [keyOfParsed parsed, key]

theorem ingestEvery {I J : ReassemblySlot → Prop} {r : SarReassembler} {payload : Bytes} {f : Fragment}
    (parsed : parse payload = .ok f) (now : Nat) (sessionId : String)
    (old : ∀ c ∈ r.candidates (sessionId,f.segmentId), I c) (offer : ∀ c, I c → J (c.offer f))
    (start : (r.candidates (sessionId,f.segmentId)).any (ReassemblySlot.consistent f) = false → J (.start f now)) :
    (∀ c ∈ (r.ingest now sessionId payload).2.candidates (sessionId,f.segmentId), J c) ∧
      ∀ completed, (r.ingest now sessionId payload).1 = .ok completed →
        ∀ full ∈ completed, ∃ c, J c ∧ c.complete = true ∧ full = c.assembled := by
  cases placed : place now f (r.candidates (sessionId,f.segmentId)) r.totalCandidates with
  | error e =>
    have none : (r.candidates (sessionId,f.segmentId)).any (ReassemblySlot.consistent f) = false := by
      by_contra some
      have some := Bool.eq_true_of_not_eq_false some
      simp [place, some] at placed
    simp only [SarReassembler.ingest, parsed, placed]
    refine ⟨?_,fun _ no => nomatch no⟩
    intro c member
    rw [candidatesSet r _ _ _ r.totalCandidates, if_pos rfl] at member
    have stays : c.offer f = c := if_neg (by simpa using List.any_eq_false.mp none c member)
    rw [← stays]
    exact offer c (old c member)
  | ok placement =>
    obtain ⟨ds,n⟩ := placement
    obtain ⟨output,left⟩ := ingestOwn parsed placed
    have all : ∀ d ∈ ds, J d := by
      intro d member
      rcases placeMem placed d member with ⟨c,inside,rfl⟩ | ⟨rfl,none⟩
      · exact offer c (old c inside)
      · exact start none
    constructor
    · intro c member
      rw [left] at member
      exact all c (List.mem_filter.mp member).1
    · intro completed returned full found
      rw [output] at returned
      cases returned
      obtain ⟨d,member,rfl⟩ := List.mem_map.mp found
      obtain ⟨member,finished⟩ := List.mem_filter.mp member
      exact ⟨d,all d member,finished,rfl⟩

def Primed (Q : Bytes → Prop) (r : SarReassembler) : Prop :=
  ∀ key, ∀ c ∈ r.candidates key, ∀ b, c.fragments[0]? = some (some b) → Q b

theorem offerPrimed {Q : Bytes → Prop} {c : ReassemblySlot} {f : Fragment} (first : f.index.toNat = 0 → Q f.data)
    (primed : ∀ b, c.fragments[0]? = some (some b) → Q b) :
    ∀ b, (c.offer f).fragments[0]? = some (some b) → Q b := by
  intro b found
  unfold ReassemblySlot.offer ReassemblySlot.fill at found
  split at found
  · split at found
    · rename_i vacant
      simp only [List.getElem?_set] at found
      split at found
      · rename_i zero
        split at found
        · cases found
          exact first zero
        · cases found
      · exact primed b found
    · exact primed b found
  · exact primed b found

theorem startPrimed {Q : Bytes → Prop} {f : Fragment} (first : f.index.toNat = 0 → Q f.data) (now : Nat) :
    ∀ b, (ReassemblySlot.start f now).fragments[0]? = some (some b) → Q b := by
  intro b found
  simp only [ReassemblySlot.start, List.getElem?_set] at found
  split at found
  · rename_i zero
    split at found
    · cases found
      exact first zero
    · cases found
  · simp [List.getElem?_replicate] at found

theorem completeHead {c : ReassemblySlot} (complete : c.complete = true) :
    c.assembled = [] ∨ ∃ b rest, c.fragments[0]? = some (some b) ∧ c.assembled = b ++ rest := by
  have all := (completeIff c).mp complete
  rw [← c.sized] at all
  unfold ReassemblySlot.assembled
  cases parts : c.fragments with
  | nil => exact .inl rfl
  | cons x rest =>
    rw [parts] at all
    obtain ⟨b,here⟩ := all 0 (by simp)
    have first : x = some b := by simpa using here
    exact .inr ⟨b,(rest.filterMap id).flatten,here,by simp [first]⟩

theorem ingestPrimed {Q : Bytes → Prop} {r : SarReassembler} (primed : Primed Q r) {payload : Bytes}
    (first : ∀ f, parse payload = .ok f → f.index.toNat = 0 → Q f.data) (now : Nat) (sessionId : String) :
    Primed Q (r.ingest now sessionId payload).2 ∧
      ∀ completed, (r.ingest now sessionId payload).1 = .ok completed →
        ∀ full ∈ completed, full = [] ∨ ∃ b rest, Q b ∧ full = b ++ rest := by
  cases parsed : parse payload with
  | error e =>
    rw [ingestMalformed parsed]
    exact ⟨primed,fun _ no => nomatch no⟩
  | ok f =>
    have first := first f parsed
    obtain ⟨kept,given⟩ := ingestEvery (J := fun c => ∀ b, c.fragments[0]? = some (some b) → Q b) parsed now sessionId
      (primed (sessionId,f.segmentId)) (fun c => offerPrimed first) (fun _ => startPrimed first now)
    constructor
    · intro key c member
      by_cases own : key = (sessionId,f.segmentId)
      · rw [own] at member
        exact kept c member
      · rw [ingestOther parsed now sessionId own] at member
        exact primed key c member
    · intro completed returned full member
      obtain ⟨d,head,complete,rfl⟩ := given completed returned full member
      rcases completeHead complete with empty | ⟨b,rest,here,split⟩
      · exact .inl empty
      · exact .inr ⟨b,rest,head b here,split⟩

theorem expirePrimed {Q : Bytes → Prop} {r : SarReassembler} (primed : Primed Q r) (now : Nat) :
    Primed Q (r.expire now) := by
  intro key c member
  simp only [SarReassembler.expire, SarReassembler.candidates, lookupRetain] at member
  cases found : r.slots.lookup key with
  | none => simp [found] at member
  | some cs =>
    simp only [found, Option.bind_some] at member
    split at member
    · simp at member
    · refine primed key c ?_
      simp only [SarReassembler.candidates, found, Option.getD_some]
      exact List.mem_of_mem_filter member

end OpenPulse.Sar
