import Mathlib.Data.List.Sort
import OpenPulse.Engine
import OpenPulse.Patches

/-! Selective repair of a protected frame: the Window-ARQ part of `openpulse-core/src/fec.rs`.
A cursor into the packet is the list of the bytes that are left. -/
namespace OpenPulse.WindowArq
open ByteCodec Engine Patches

def windowArqFeedbackSize : Nat := 8
def windowArqMaxRanges : Nat := 2

structure ByteRange where
  start : UInt16
  len : UInt8
  deriving DecidableEq, Repr

def ByteRange.endExclusive (r : ByteRange) : Nat := r.start.toNat + r.len.toNat

structure WindowArqFeedback where
  ranges : List ByteRange
  deriving DecidableEq, Repr

namespace WindowArqFeedback

def tooManyRanges : ModemError := .frame s!"window-arq feedback supports at most {windowArqMaxRanges} ranges"

def validatePairs (requireSorted : Bool) : List ByteRange → Except ModemError Unit
  | left::right::rest =>
    if requireSorted && right.start < left.start then
      .error (.frame "window-arq feedback ranges must be sorted by start")
    else if right.start.toNat < left.endExclusive then
      .error (.frame "window-arq feedback ranges must not overlap")
    else validatePairs requireSorted (right::rest)
  | _ => .ok ()

def validateRanges (ranges : List ByteRange) (requireSorted : Bool) : Except ModemError Unit :=
  if windowArqMaxRanges < ranges.length then .error tooManyRanges
  else if ranges.any (fun r => r.len == 0) then .error (.frame "window-arq feedback range length must be >= 1")
  else validatePairs requireSorted ranges

def sortByStart (ranges : List ByteRange) : List ByteRange := ranges.mergeSort (fun a b => a.start ≤ b.start)

def new (ranges : List ByteRange) : Except ModemError WindowArqFeedback := do
  validateRanges (sortByStart ranges) true
  return ⟨sortByStart ranges⟩

def rangeWire (r : ByteRange) : Bytes := le 2 r.start.toNat ++ [r.len]

def encode (fb : WindowArqFeedback) : Except ModemError Bytes :=
  if windowArqMaxRanges < fb.ranges.length then .error tooManyRanges
  else .ok ([fb.ranges.length.toUInt8] ++ fb.ranges.flatMap rangeWire ++
    List.replicate (windowArqFeedbackSize - 1 - 3 * fb.ranges.length) 0)

/- The range at `off`. The offsets of `decode` are inside its eight bytes. -/
def rangeAt (encoded : Bytes) (off : Nat) : ByteRange :=
  ⟨(readLe (slice off 2 encoded)).toUInt16,encoded.getD (off + 2) 0⟩

def wireRanges (encoded : Bytes) (count : Nat) : List ByteRange :=
  (List.range count).map (fun i => rangeAt encoded (1 + i * 3))

def decode (encoded : Bytes) : Except ModemError WindowArqFeedback :=
  if encoded.length ≠ windowArqFeedbackSize then
    .error (.frame s!"window-arq feedback must be exactly {windowArqFeedbackSize} bytes, got {encoded.length}")
  else
    let count := (encoded.getD 0 0).toNat
    if windowArqMaxRanges < count then
      .error (.frame s!"window-arq feedback range count {count} exceeds max {windowArqMaxRanges}")
    else do
      let ranges := wireRanges encoded count
      validateRanges ranges true
      return ⟨ranges⟩

end WindowArqFeedback

def encodeRanges (protectedFrame : Bytes) : List ByteRange → Except ModemError Bytes
  | [] => .ok []
  | r::ranges =>
    if protectedFrame.length < r.endExclusive then
      .error (.frame (s!"window-arq range [{r.start}, {r.endExclusive}) exceeds frame length " ++
        toString protectedFrame.length))
    else do
      let rest ← encodeRanges protectedFrame ranges
      return le 2 r.start.toNat ++ [r.len] ++ slice r.start.toNat r.len.toNat protectedFrame ++ rest

def encodeWindowRetransmit (protectedFrame : Bytes) (feedback : WindowArqFeedback) : Except ModemError Bytes := do
  let body ← encodeRanges protectedFrame feedback.ranges
  return [0xA5,feedback.ranges.length.toUInt8] ++ body

/- The loop of `apply_window_retransmit`: the bytes behind the last range, and the
frame with the ranges read so far written over it. -/
def applyRanges : Nat → Bytes → Bytes → Except ModemError Bytes × Bytes
  | 0, frame, rest => (.ok rest,frame)
  | n + 1, frame, lo::hi::len::rest =>
    let start := readLe [lo,hi]
    let stop := start + len.toNat
    if rest.length < len.toNat then (.error (.frame "window-arq packet truncated at range payload"),frame)
    else if frame.length < stop then
      (.error (.frame s!"window-arq patch range [{start}, {stop}) exceeds frame length {frame.length}"),frame)
    else applyRanges n (overwrite frame ⟨start,rest.take len.toNat⟩) (rest.drop len.toNat)
  | _ + 1, frame, _ => (.error (.frame "window-arq packet truncated at range header"),frame)

def applyWindowRetransmit (frame : Bytes) : Bytes → Except ModemError Unit × Bytes
  | magic::count::rest =>
    if magic ≠ 0xA5 then (.error (.frame "window-arq packet bad magic"),frame)
    else if windowArqMaxRanges < count.toNat then
      (.error (.frame s!"window-arq packet range count {count} exceeds max {windowArqMaxRanges}"),frame)
    else
      match applyRanges count.toNat frame rest with
      | (.error e, frame) => (.error e,frame)
      | (.ok rest, frame) =>
        if rest.isEmpty then (.ok (),frame) else (.error (.frame "window-arq packet has trailing bytes"),frame)
  | _ => (.error (.frame "window-arq packet too short for header"),frame)

def ByteRange.covers (r : ByteRange) (i : Nat) : Prop := r.start.toNat ≤ i ∧ i < r.endExclusive

instance (r : ByteRange) (i : Nat) : Decidable (r.covers i) := inferInstanceAs (Decidable (_ ∧ _))

def Apart (a b : ByteRange) : Prop := ∀ i, ¬ (a.covers i ∧ b.covers i)

structure Repairable (ranges : List ByteRange) : Prop where
  few : ranges.length ≤ windowArqMaxRanges
  filled : ∀ r ∈ ranges, r.len ≠ 0
  apart : ranges.Pairwise Apart

def Ordered (ranges : List ByteRange) : Prop := ranges.Pairwise (fun a b => a.start ≤ b.start)

def Follows (a b : ByteRange) : Prop := a.endExclusive ≤ b.start.toNat

instance : IsTrans ByteRange Follows where
  trans _ b _ first second := by
    unfold Follows ByteRange.endExclusive at *
    omega

theorem lenPos {r : ByteRange} : r.len ≠ 0 ↔ 0 < r.len.toNat := by
  rw [Nat.pos_iff_ne_zero, ne_eq, ne_eq, ← UInt8.toNat_inj, UInt8.toNat_zero]

theorem apartSymm {a b : ByteRange} (apart : Apart a b) : Apart b a := fun i both => apart i both.symm

theorem followsOf {a b : ByteRange} (left : a.len ≠ 0) (right : b.len ≠ 0) (ordered : a.start ≤ b.start) :
    Follows a b ↔ Apart a b := by
  have first := lenPos.mp left
  have second := lenPos.mp right
  have order := UInt16.le_iff_toNat_le.mp ordered
  unfold Follows Apart ByteRange.covers ByteRange.endExclusive
  constructor
  · intro follows i
    omega
  · intro apart
    have met := apart b.start.toNat
    omega

theorem followsOrdered {a b : ByteRange} (follows : Follows a b) : a.start ≤ b.start := by
  unfold Follows ByteRange.endExclusive at follows
  exact UInt16.le_iff_toNat_le.mpr (by omega)

namespace WindowArqFeedback

theorem validatePairsOk {ranges : List ByteRange} : validatePairs true ranges = .ok () ↔ ranges.IsChain Follows := by
  induction ranges with
  | nil => simp [validatePairs]
  | cons left rest ih =>
    cases rest with
    | nil => simp [validatePairs]
    | cons right rest =>
      rw [List.isChain_cons_cons, ← ih, validatePairs, Bool.true_and]
      by_cases unsorted : right.start < left.start
      · have never : ¬ Follows left right := by
          intro follows
          exact absurd (UInt16.le_iff_toNat_le.mp (followsOrdered follows))
            (Nat.not_le.mpr (UInt16.lt_iff_toNat_lt.mp unsorted))
        simp [unsorted, never]
      · rw [if_neg (by simpa using unsorted)]
        by_cases overlap : right.start.toNat < left.endExclusive
        · simp [overlap, Follows]
        · simp [overlap, Follows, Nat.not_lt.mp overlap]

theorem validateOk {ranges : List ByteRange} :
    validateRanges ranges true = .ok () ↔ Repairable ranges ∧ Ordered ranges := by
  unfold validateRanges
  by_cases many : windowArqMaxRanges < ranges.length
  · rw [if_pos many]
    exact ⟨fun refused => (nomatch refused),fun good => absurd good.1.few (Nat.not_le.mpr many)⟩
  · rw [if_neg many]
    by_cases empty : ranges.any (fun r => r.len == 0) = true
    · obtain ⟨r,member,zero⟩ := List.any_eq_true.mp empty
      rw [if_pos empty]
      exact ⟨fun refused => (nomatch refused),fun good => absurd (by simpa using zero) (good.1.filled r member)⟩
    · have filled : ∀ r ∈ ranges, r.len ≠ 0 := by simpa using empty
      rw [if_neg empty, validatePairsOk, List.isChain_iff_pairwise]
      constructor
      · intro follows
        have ordered : Ordered ranges := follows.imp followsOrdered
        refine ⟨⟨Nat.not_lt.mp many,filled,?_⟩,ordered⟩
        refine (follows.and ordered).imp_of_mem (fun left right both => ?_)
        exact (followsOf (filled _ left) (filled _ right) both.2).mp both.1
      · intro ⟨good,ordered⟩
        refine (good.apart.and ordered).imp_of_mem (fun left right both => ?_)
        exact (followsOf (filled _ left) (filled _ right) both.2).mpr both.1

theorem repairablePerm {xs ys : List ByteRange} (perm : xs.Perm ys) : Repairable xs ↔ Repairable ys := by
  have pairs : xs.Pairwise Apart ↔ ys.Pairwise Apart := perm.pairwise_iff apartSymm
  constructor
  · intro good
    exact ⟨by rw [← perm.length_eq]; exact good.few,fun r member => good.filled r (perm.mem_iff.mpr member),
      pairs.mp good.apart⟩
  · intro good
    exact ⟨by rw [perm.length_eq]; exact good.few,fun r member => good.filled r (perm.mem_iff.mp member),
      pairs.mpr good.apart⟩

theorem sortedPerm (ranges : List ByteRange) : (sortByStart ranges).Perm ranges := List.mergeSort_perm ranges _

theorem sortedOrdered (ranges : List ByteRange) : Ordered (sortByStart ranges) := by
  have sorted : (sortByStart ranges).Pairwise (fun a b => decide (a.start ≤ b.start) = true) := List.pairwise_mergeSort
    (fun a b c first second => by simp only [decide_eq_true_eq] at *; exact UInt16.le_trans first second)
    (fun a b => by simpa using UInt16.le_total a.start b.start) ranges
  exact sorted.imp (fun le => by simpa using le)

theorem newOk {ranges : List ByteRange} {fb : WindowArqFeedback} :
    new ranges = .ok fb ↔ Repairable ranges ∧ fb.ranges = sortByStart ranges := by
  have valid := @validateOk (sortByStart ranges)
  rw [repairablePerm (sortedPerm ranges)] at valid
  unfold new
  cases checked : validateRanges (sortByStart ranges) true with
  | error e =>
    have bad : ¬ Repairable ranges := by
      intro good
      rw [valid.mpr ⟨good,sortedOrdered ranges⟩] at checked
      cases checked
    exact ⟨fun refused => (nomatch refused),fun good => absurd good.1 bad⟩
  | ok passed =>
    obtain ⟨good,-⟩ := valid.mp checked
    constructor
    · intro made
      cases made
      exact ⟨good,rfl⟩
    · rintro ⟨-,same⟩
      change Except.ok (WindowArqFeedback.mk (sortByStart ranges)) = _
      rw [← same]

theorem decodeOk {encoded : Bytes} {fb : WindowArqFeedback} :
    decode encoded = .ok fb ↔ encoded.length = windowArqFeedbackSize ∧ (encoded.getD 0 0).toNat ≤ windowArqMaxRanges ∧
      fb.ranges = wireRanges encoded (encoded.getD 0 0).toNat ∧ Repairable fb.ranges ∧ Ordered fb.ranges := by
  unfold decode
  by_cases length : encoded.length = windowArqFeedbackSize
  · rw [if_neg (not_not.mpr length)]
    by_cases many : windowArqMaxRanges < (encoded.getD 0 0).toNat
    · simp only [if_pos many]
      exact ⟨fun refused => (nomatch refused),fun good => absurd good.2.1 (Nat.not_le.mpr many)⟩
    · simp only [if_neg many]
      have valid := @validateOk (wireRanges encoded (encoded.getD 0 0).toNat)
      cases checked : validateRanges (wireRanges encoded (encoded.getD 0 0).toNat) true with
      | error e =>
        constructor
        · exact fun refused => (nomatch refused)
        · rintro ⟨-,-,same,good⟩
          rw [same] at good
          rw [valid.mpr good] at checked
          cases checked
      | ok passed =>
        have good := valid.mp checked
        constructor
        · intro read
          cases read
          exact ⟨length,Nat.not_lt.mp many,rfl,good⟩
        · rintro ⟨-,-,same,-⟩
          change Except.ok (WindowArqFeedback.mk (wireRanges encoded (encoded.getD 0 0).toNat)) = _
          rw [← same]
  · rw [if_pos length]
    exact ⟨fun refused => (nomatch refused),fun good => absurd good.1 length⟩

theorem le16 (n : Nat) : le 2 n = [n.toUInt8,(n / 256).toUInt8] := rfl

theorem readLe16 (n : Nat) (bound : n < 65536) : readLe [n.toUInt8,(n / 256).toUInt8] = n := by
  rw [← le16, readLe, le, List.reverse_reverse, readBeBounded bound]

theorem rangeBack (before after : Bytes) (r : ByteRange) {off : Nat} (position : before.length = off) :
    rangeAt (before ++ (rangeWire r ++ after)) off = r := by
  have start : slice off 2 (before ++ (rangeWire r ++ after)) = le 2 r.start.toNat := by
    rw [rangeWire, List.append_assoc]
    exact sliceAt before _ _ rfl position (leLength 2 _)
  have len : (before ++ (rangeWire r ++ after)).getD (off + 2) 0 = r.len := by
    subst position
    rw [List.getD_eq_getElem?_getD, List.getElem?_append_right (by omega), Nat.add_sub_cancel_left]
    rfl
  rw [rangeAt, start, len, le16, readLe16 _ r.start.toNat_lt]
  simp

theorem rangesBack (ranges : List ByteRange) (before after : Bytes) :
    (List.range ranges.length).map (fun i => rangeAt (before ++ (ranges.flatMap rangeWire ++ after)) (before.length + i * 3)) =
      ranges := by
  induction ranges generalizing before with
  | nil => rfl
  | cons r ranges ih =>
    have first := rangeBack before (ranges.flatMap rangeWire ++ after) r rfl
    have rest := ih (before ++ rangeWire r)
    have width : (before ++ rangeWire r).length = before.length + 3 := by simp [rangeWire]
    rw [List.length_cons, List.range_succ_eq_map, List.map_cons, List.map_map, List.flatMap_cons, List.append_assoc,
      Nat.zero_mul, Nat.add_zero, first]
    refine congrArg (r :: ·) ?_
    rw [width] at rest
    rw [List.append_assoc] at rest
    refine Eq.trans (List.map_congr_left (fun i _ => ?_)) rest
    rw [Function.comp_apply, Nat.succ_mul, Nat.add_right_comm, Nat.add_assoc]

theorem rangesWidth (ranges : List ByteRange) : (ranges.flatMap rangeWire).length = 3 * ranges.length := by
  induction ranges with
  | nil => rfl
  | cons r ranges ih =>
    have each : (rangeWire r).length = 3 := rfl
    rw [List.flatMap_cons, List.length_append, ih, each, List.length_cons]
    omega

theorem decodeEncode {fb : WindowArqFeedback} (good : Repairable fb.ranges) (ordered : Ordered fb.ranges) :
    ∃ wire, fb.encode = .ok wire ∧ decode wire = .ok fb := by
  have few := good.few
  unfold windowArqMaxRanges at few
  let pad : Bytes := List.replicate (windowArqFeedbackSize - 1 - 3 * fb.ranges.length) 0
  have small : (fb.ranges.length.toUInt8).toNat = fb.ranges.length := by
    simp only [Nat.toUInt8_eq, UInt8.toNat_ofNat']
    omega
  have width := rangesWidth fb.ranges
  have head : ([fb.ranges.length.toUInt8] ++ fb.ranges.flatMap rangeWire ++ pad).getD 0 0 = fb.ranges.length.toUInt8 := rfl
  refine ⟨[fb.ranges.length.toUInt8] ++ fb.ranges.flatMap rangeWire ++ pad,if_neg (Nat.not_lt.mpr good.few),?_⟩
  rw [decodeOk, head, small]
  refine ⟨?_,good.few,?_,good,ordered⟩
  · simp only [List.length_append, List.length_singleton, width, pad, List.length_replicate, windowArqFeedbackSize]
    omega
  · rw [wireRanges, List.append_assoc]
    exact (rangesBack fb.ranges [fb.ranges.length.toUInt8] pad).symm

end WindowArqFeedback

def patchWire (p : Patch UInt8) : Bytes := le 2 p.start ++ [p.data.length.toUInt8] ++ p.data

def Portable (ps : List (Patch UInt8)) : Prop := ∀ p ∈ ps, p.start < 65536 ∧ p.data.length < 256

theorem applyRangesWire {ps : List (Patch UInt8)} (portable : Portable ps) {frame : Bytes}
    (inside : Within frame.length ps) (rest : Bytes) :
    applyRanges ps.length frame (ps.flatMap patchWire ++ rest) = (.ok rest,overwriteAll frame ps) := by
  induction ps generalizing frame with
  | nil => rfl
  | cons p ps ih =>
    obtain ⟨first,later⟩ := withinCons.mp inside
    obtain ⟨⟨start,size⟩,portable⟩ := List.forall_mem_cons.mp portable
    have length : p.data.length.toUInt8.toNat = p.data.length := by
      simp only [Nat.toUInt8_eq, UInt8.toNat_ofNat']
      omega
    have next := ih portable (show Within (overwrite frame p).length ps by rwa [overwriteLength first])
    have wire : (p::ps).flatMap patchWire ++ rest = p.start.toUInt8 :: (p.start / 256).toUInt8 :: p.data.length.toUInt8 ::
        (p.data ++ (ps.flatMap patchWire ++ rest)) := by
      simp [patchWire, WindowArqFeedback.le16]
    rw [wire, List.length_cons, applyRanges]
    simp only [length, WindowArqFeedback.readLe16 p.start start, List.take_left, List.drop_left, List.length_append]
    rw [if_neg (by omega), if_neg (show ¬ frame.length < p.start + p.data.length from Nat.not_lt.mpr first)]
    exact next

def patchOf (source : Bytes) (r : ByteRange) : Patch UInt8 := ⟨r.start.toNat,slice r.start.toNat r.len.toNat source⟩

section Repair
variable {source : Bytes} {ranges : List ByteRange}

theorem patchLength {r : ByteRange} (inside : r.endExclusive ≤ source.length) :
    (patchOf source r).data.length = r.len.toNat := by
  unfold ByteRange.endExclusive at inside
  simp only [patchOf, slice, List.length_take, List.length_drop]
  omega

theorem patchCovers {r : ByteRange} (inside : r.endExclusive ≤ source.length) (i : Nat) :
    (patchOf source r).covers i ↔ r.covers i := by
  unfold Patch.covers Patch.stop
  rw [patchLength inside]
  rfl

theorem patchesWithin (inside : ∀ r ∈ ranges, r.endExclusive ≤ source.length) :
    Within source.length (ranges.map (patchOf source)) := by
  intro p member
  obtain ⟨r,own,rfl⟩ := List.mem_map.mp member
  unfold Patch.stop
  rw [patchLength (inside r own)]
  exact inside r own

theorem patchesPortable (inside : ∀ r ∈ ranges, r.endExclusive ≤ source.length) :
    Portable (ranges.map (patchOf source)) := by
  intro p member
  obtain ⟨r,own,rfl⟩ := List.mem_map.mp member
  rw [patchLength (inside r own)]
  exact ⟨r.start.toNat_lt,r.len.toNat_lt⟩

theorem patchWireOf {r : ByteRange} (inside : r.endExclusive ≤ source.length) :
    patchWire (patchOf source r) = le 2 r.start.toNat ++ [r.len] ++ slice r.start.toNat r.len.toNat source := by
  rw [patchWire, patchLength inside]
  simp [patchOf]

theorem encodeRangesOk (inside : ∀ r ∈ ranges, r.endExclusive ≤ source.length) :
    encodeRanges source ranges = .ok ((ranges.map (patchOf source)).flatMap patchWire) := by
  induction ranges with
  | nil => rfl
  | cons r ranges ih =>
    obtain ⟨first,rest⟩ := List.forall_mem_cons.mp inside
    rw [encodeRanges, if_neg (Nat.not_lt.mpr first), ih rest, List.map_cons, List.flatMap_cons, patchWireOf first]
    rfl

theorem repaired (few : ranges.length ≤ windowArqMaxRanges) (inside : ∀ r ∈ ranges, r.endExclusive ≤ source.length)
    {frame : Bytes} (same : frame.length = source.length) :
    ∃ packet, encodeWindowRetransmit source ⟨ranges⟩ = .ok packet ∧
      applyWindowRetransmit frame packet = (.ok (),overwriteAll frame (ranges.map (patchOf source))) := by
  have count : ranges.length.toUInt8.toNat = (ranges.map (patchOf source)).length := by
    unfold windowArqMaxRanges at few
    simp only [Nat.toUInt8_eq, UInt8.toNat_ofNat', List.length_map]
    omega
  have fits : Within frame.length (ranges.map (patchOf source)) := by
    rw [same]
    exact patchesWithin inside
  refine ⟨[0xA5,ranges.length.toUInt8] ++ (ranges.map (patchOf source)).flatMap patchWire,?_,?_⟩
  · simp only [encodeWindowRetransmit, encodeRangesOk inside]
    rfl
  · have applied := applyRangesWire (patchesPortable inside) fits []
    rw [List.append_nil] at applied
    simp only [applyWindowRetransmit, List.cons_append, List.nil_append, count, applied, List.isEmpty_nil, if_true]
    rw [if_neg (by decide), if_neg (by rw [List.length_map]; exact Nat.not_lt.mpr few)]

theorem repairedGet (inside : ∀ r ∈ ranges, r.endExclusive ≤ source.length) {frame : Bytes}
    (same : frame.length = source.length) (i : Nat) :
    (overwriteAll frame (ranges.map (patchOf source)))[i]? =
      if ∃ r ∈ ranges, r.covers i then source[i]? else frame[i]? := by
  have fits : Within frame.length (ranges.map (patchOf source)) := by
    rw [same]
    exact patchesWithin inside
  have cut : ∀ p ∈ ranges.map (patchOf source), p.data = (source.drop p.start).take p.data.length := by
    intro p member
    obtain ⟨r,own,rfl⟩ := List.mem_map.mp member
    rw [patchLength (inside r own)]
    rfl
  have covered : (∃ p ∈ ranges.map (patchOf source), p.covers i) ↔ ∃ r ∈ ranges, r.covers i := by
    constructor
    · rintro ⟨p,member,covers⟩
      obtain ⟨r,own,rfl⟩ := List.mem_map.mp member
      exact ⟨r,own,(patchCovers (inside r own) i).mp covers⟩
    · rintro ⟨r,own,covers⟩
      exact ⟨patchOf source r,List.mem_map_of_mem own,(patchCovers (inside r own) i).mpr covers⟩
  rw [overwriteAllGet fits, lastWriteCut cut, if_congr covered rfl rfl]
  by_cases hit : ∃ r ∈ ranges, r.covers i
  · have here : i < source.length := by
      obtain ⟨r,own,-,high⟩ := hit
      exact Nat.lt_of_lt_of_le high (inside r own)
    rw [if_pos hit, if_pos hit, List.getElem?_eq_getElem here, Option.some_or]
  · rw [if_neg hit, if_neg hit, Option.none_or]

end Repair

def Accepted (fb : WindowArqFeedback) : Prop :=
  (∃ ranges, WindowArqFeedback.new ranges = .ok fb) ∨ ∃ encoded, WindowArqFeedback.decode encoded = .ok fb

theorem acceptedGood {fb : WindowArqFeedback} (accepted : Accepted fb) : Repairable fb.ranges ∧ Ordered fb.ranges := by
  rcases accepted with ⟨ranges,made⟩ | ⟨encoded,read⟩
  · obtain ⟨good,same⟩ := WindowArqFeedback.newOk.mp made
    rw [same, WindowArqFeedback.repairablePerm (WindowArqFeedback.sortedPerm ranges)]
    exact ⟨good,WindowArqFeedback.sortedOrdered ranges⟩
  · exact (WindowArqFeedback.decodeOk.mp read).2.2.2

theorem windowRepair :
    (∀ fb, Accepted fb → ∀ source frame : Bytes, frame.length = source.length →
      (∀ r ∈ fb.ranges, r.endExclusive ≤ source.length) →
      ∃ packet fixed, encodeWindowRetransmit source fb = .ok packet ∧
        applyWindowRetransmit frame packet = (.ok (),fixed) ∧ fixed.length = source.length ∧
        (∀ i, fixed[i]? = if ∃ r ∈ fb.ranges, r.covers i then source[i]? else frame[i]?) ∧
        ((∀ i, frame[i]? ≠ source[i]? → ∃ r ∈ fb.ranges, r.covers i) → fixed = source)) ∧
    (∀ ranges fb, WindowArqFeedback.new ranges = .ok fb →
      ∃ wire, fb.encode = .ok wire ∧ WindowArqFeedback.decode wire = .ok fb) ∧
    (∀ ranges fb, WindowArqFeedback.new ranges = .ok fb ↔
      Repairable ranges ∧ fb.ranges = WindowArqFeedback.sortByStart ranges) ∧
    (∀ fb, (∃ encoded, WindowArqFeedback.decode encoded = .ok fb) ↔ Repairable fb.ranges ∧ Ordered fb.ranges) ∧
    ∀ encoded fb, WindowArqFeedback.decode encoded = .ok fb ↔
      encoded.length = windowArqFeedbackSize ∧ (encoded.getD 0 0).toNat ≤ windowArqMaxRanges ∧
        fb.ranges = WindowArqFeedback.wireRanges encoded (encoded.getD 0 0).toNat ∧
        Repairable fb.ranges ∧ Ordered fb.ranges := by
  refine ⟨?_,?_,fun ranges fb => WindowArqFeedback.newOk,fun fb => ⟨?_,?_⟩,fun encoded fb => WindowArqFeedback.decodeOk⟩
  · intro fb accepted source frame same inside
    obtain ⟨packet,encoded,applied⟩ := repaired (acceptedGood accepted).1.few inside same
    have fits : Within frame.length (fb.ranges.map (patchOf source)) := by
      rw [same]
      exact patchesWithin inside
    refine ⟨packet,_,encoded,applied,(overwriteAllLength fits).trans same,repairedGet inside same,fun all => ?_⟩
    refine List.ext_getElem? (fun i => ?_)
    rw [repairedGet inside same]
    by_cases hit : ∃ r ∈ fb.ranges, r.covers i
    · exact if_pos hit
    · rw [if_neg hit]
      by_contra differ
      exact hit (all i differ)
  · intro ranges fb made
    obtain ⟨good,ordered⟩ := acceptedGood (.inl ⟨ranges,made⟩)
    exact WindowArqFeedback.decodeEncode good ordered
  · rintro ⟨encoded,read⟩
    exact (WindowArqFeedback.decodeOk.mp read).2.2.2
  · rintro ⟨good,ordered⟩
    obtain ⟨wire,-,read⟩ := WindowArqFeedback.decodeEncode good ordered
    exact ⟨wire,read⟩

theorem windowRepairTwo : ∃ fb, WindowArqFeedback.new [⟨1,3⟩,⟨6,2⟩] = .ok fb ∧
    (∃ packet, encodeWindowRetransmit [1,2,3,4,5,6,7,8] fb = .ok packet ∧
      applyWindowRetransmit [1,2,9,4,5,6,7,9] packet = (.ok (),[1,2,3,4,5,6,7,8])) ∧
    ∃ wire, fb.encode = .ok wire ∧ WindowArqFeedback.decode wire = .ok fb := by
  have sorted : WindowArqFeedback.sortByStart [⟨1,3⟩,⟨6,2⟩] = [⟨1,3⟩,⟨6,2⟩] := List.mergeSort_of_pairwise (by decide)
  have made : WindowArqFeedback.new [⟨1,3⟩,⟨6,2⟩] = .ok ⟨[⟨1,3⟩,⟨6,2⟩]⟩ := by
    rw [WindowArqFeedback.new, sorted]
    rfl
  refine ⟨_,made,?_,windowRepair.2.1 _ _ made⟩
  obtain ⟨packet,fixed,encoded,applied,-,-,whole⟩ := windowRepair.1 _ (.inl ⟨_,made⟩) [1,2,3,4,5,6,7,8] [1,2,9,4,5,6,7,9] rfl
    (by decide)
  have damage : ∀ i, ([1,2,9,4,5,6,7,9] : Bytes)[i]? ≠ ([1,2,3,4,5,6,7,8] : Bytes)[i]? →
      ∃ r ∈ ([⟨1,3⟩,⟨6,2⟩] : List ByteRange), r.covers i := by
    intro i differ
    by_cases inside : i < 8
    · exact (by decide : ∀ i < 8, ([1,2,9,4,5,6,7,9] : Bytes)[i]? ≠ ([1,2,3,4,5,6,7,8] : Bytes)[i]? →
        ∃ r ∈ ([⟨1,3⟩,⟨6,2⟩] : List ByteRange), r.covers i) i inside differ
    · rw [List.getElem?_eq_none (Nat.not_lt.mp inside), List.getElem?_eq_none (Nat.not_lt.mp inside)] at differ
      exact absurd rfl differ
  exact ⟨packet,encoded,whole damage ▸ applied⟩

/- The ranges at the head of a packet's body that are whole and inside the frame,
up to the first that is not: what the loop has written when it stops. -/
def landedRanges (room : Nat) : Nat → Bytes → List (Patch UInt8)
  | n + 1, lo::hi::len::rest =>
    if len.toNat ≤ rest.length ∧ readLe [lo,hi] + len.toNat ≤ room then
      ⟨readLe [lo,hi],rest.take len.toNat⟩ :: landedRanges room n (rest.drop len.toNat)
    else []
  | _, _ => []

def landed (room : Nat) : Bytes → List (Patch UInt8)
  | magic::count::rest =>
    if magic = 0xA5 ∧ count.toNat ≤ windowArqMaxRanges then landedRanges room count.toNat rest else []
  | _ => []

def WellFormed (room : Nat) (packet : Bytes) : Prop :=
  ∃ ps, ps.length ≤ windowArqMaxRanges ∧ Portable ps ∧ Within room ps ∧
    packet = [0xA5,ps.length.toUInt8] ++ ps.flatMap patchWire

theorem landedWithin (room n : Nat) (rest : Bytes) : Within room (landedRanges room n rest) := by
  induction n, rest using landedRanges.induct room with
  | case1 n lo hi len rest fits ih =>
    rw [landedRanges, if_pos fits, withinCons]
    refine ⟨?_,ih⟩
    simp only [Patch.stop, List.length_take, Nat.min_eq_left fits.1]
    exact fits.2
  | case2 n lo hi len rest broken =>
    rw [landedRanges, if_neg broken]
    exact List.forall_mem_nil _
  | case3 n rest other =>
    rw [landedRanges.eq_2]
    · exact List.forall_mem_nil _
    · exact other

theorem le16Back (lo hi : UInt8) : le 2 (readLe [lo,hi]) = [lo,hi] ∧ readLe [lo,hi] < 65536 := by
  have low := lo.toNat_lt
  have high := hi.toNat_lt
  have value : readLe [lo,hi] = hi.toNat * 256 + lo.toNat := by simp [readLe, readBe]
  have first : (readLe [lo,hi]).toUInt8 = lo := by
    apply UInt8.toNat_inj.mp
    rw [value]
    simp only [Nat.toUInt8_eq, UInt8.toNat_ofNat']
    omega
  have second : (readLe [lo,hi] / 256).toUInt8 = hi := by
    apply UInt8.toNat_inj.mp
    rw [value]
    simp only [Nat.toUInt8_eq, UInt8.toNat_ofNat']
    omega
  rw [WindowArqFeedback.le16, first, second, value]
  exact ⟨rfl,by omega⟩

inductive Walked (frame : Bytes) (n : Nat) (rest : Bytes) : Except ModemError Bytes × Bytes → Prop where
  | whole (ps : List (Patch UInt8)) (left : Bytes) (length : ps.length = n) (portable : Portable ps)
      (within : Within frame.length ps) (wire : rest = ps.flatMap patchWire ++ left)
      (landed : landedRanges frame.length n rest = ps) : Walked frame n rest (.ok left,overwriteAll frame ps)
  | stopped (e : ModemError) :
      Walked frame n rest (.error e,overwriteAll frame (landedRanges frame.length n rest))

theorem landedRangesBroken {room n : Nat} {lo hi len : UInt8} {rest : Bytes}
    (broken : ¬ (len.toNat ≤ rest.length ∧ readLe [lo,hi] + len.toNat ≤ room)) :
    landedRanges room (n + 1) (lo::hi::len::rest) = [] := by
  rw [landedRanges, if_neg broken]

theorem walkedStopped {frame : Bytes} {n : Nat} {rest : Bytes} (none : landedRanges frame.length n rest = [])
    (e : ModemError) : Walked frame n rest (.error e,frame) := by
  have stop : Walked frame n rest (.error e,overwriteAll frame (landedRanges frame.length n rest)) := .stopped e
  rwa [none] at stop

theorem walks (n : Nat) (frame rest : Bytes) : Walked frame n rest (applyRanges n frame rest) := by
  induction n, frame, rest using applyRanges.induct with
  | case1 frame rest =>
    exact .whole [] rest rfl (fun p member => (nomatch member)) (fun p member => (nomatch member)) rfl rfl
  | case2 n frame lo hi len rest short =>
    simp only [applyRanges, if_pos short]
    exact walkedStopped (landedRangesBroken (by omega)) _
  | case3 n frame lo hi len rest start stop enough beyond =>
    have high : frame.length < readLe [lo,hi] + len.toNat := beyond
    simp only [applyRanges, if_neg enough, if_pos high]
    exact walkedStopped (landedRangesBroken (by omega)) _
  | case4 n frame lo hi len rest start stop enough inside ih =>
    have fits : ¬ frame.length < readLe [lo,hi] + len.toNat := inside
    let p : Patch UInt8 := ⟨readLe [lo,hi],rest.take len.toNat⟩
    have size : p.data.length = len.toNat := by
      simp only [p, List.length_take]
      omega
    have within : p.stop ≤ frame.length := by
      change readLe [lo,hi] + p.data.length ≤ frame.length
      omega
    have length := overwriteLength within
    obtain ⟨address,low⟩ := le16Back lo hi
    have wire : patchWire p = lo::hi::len::rest.take len.toNat := by
      rw [patchWire, size]
      simp [p, address]
    have step : landedRanges frame.length (n + 1) (lo::hi::len::rest) =
        p::landedRanges frame.length n (rest.drop len.toNat) := by
      rw [landedRanges, if_pos ⟨by omega,by omega⟩]
    simp only [applyRanges, if_neg enough, if_neg fits]
    change Walked (overwrite frame p) n (rest.drop len.toNat) (applyRanges n (overwrite frame p) (rest.drop len.toNat)) at ih
    change Walked frame (n + 1) (lo::hi::len::rest) (applyRanges n (overwrite frame p) (rest.drop len.toNat))
    generalize applyRanges n (overwrite frame p) (rest.drop len.toNat) = outcome at ih ⊢
    cases ih with
    | whole ps left count portable inner body landed =>
      rw [length] at inner landed
      refine .whole (p::ps) left (by rw [List.length_cons, count]) ?_ (withinCons.mpr ⟨within,inner⟩) ?_ (by rw [step, landed])
      · exact List.forall_mem_cons.mpr ⟨⟨low,by rw [size]; exact len.toNat_lt⟩,portable⟩
      · rw [List.flatMap_cons, wire, List.append_assoc, ← body]
        simp
    | stopped e =>
      have stop : Walked frame (n + 1) (lo::hi::len::rest)
          (.error e,overwriteAll frame (landedRanges frame.length (n + 1) (lo::hi::len::rest))) := .stopped e
      rwa [step, ← length] at stop
  | case5 n frame rest other =>
    have none : landedRanges frame.length (n + 1) rest = [] := by
      rw [landedRanges]
      exact fun m lo hi len tail same whole => other lo hi len tail whole
    rw [applyRanges]
    · exact walkedStopped none _
    · exact other

theorem walkedState {frame : Bytes} {n : Nat} {rest : Bytes} {outcome : Except ModemError Bytes × Bytes}
    (walked : Walked frame n rest outcome) : outcome.2 = overwriteAll frame (landedRanges frame.length n rest) := by
  cases walked with
  | whole ps left length portable within wire landed => rw [landed]
  | stopped e => rfl

theorem applyState (frame packet : Bytes) :
    (applyWindowRetransmit frame packet).2 = overwriteAll frame (landed frame.length packet) := by
  unfold applyWindowRetransmit landed
  split
  · rename_i magic count rest
    by_cases header : magic = 0xA5 ∧ count.toNat ≤ windowArqMaxRanges
    · rw [if_neg (not_not.mpr header.1), if_neg (Nat.not_lt.mpr header.2), if_pos header,
        ← walkedState (walks count.toNat frame rest)]
      split
      · rename_i e fixed found
        rw [found]
      · rename_i left fixed found
        rw [found]
        split <;> rfl
    · rw [if_neg header]
      by_cases magical : magic = 0xA5
      · rw [if_neg (not_not.mpr magical), if_pos (Nat.not_le.mp (fun few => header ⟨magical,few⟩))]
        rfl
      · rw [if_pos magical]
        rfl
  · rfl

theorem applyOk (frame packet : Bytes) :
    (applyWindowRetransmit frame packet).1 = .ok () ↔ WellFormed frame.length packet := by
  constructor
  · intro accepted
    unfold applyWindowRetransmit at accepted
    split at accepted
    · rename_i magic count rest
      split at accepted
      · cases accepted
      · rename_i magical
        split at accepted
        · cases accepted
        · rename_i few
          have walked := walks count.toNat frame rest
          split at accepted
          · cases accepted
          · rename_i left fixed found
            rw [found] at walked
            split at accepted
            · rename_i done
              cases walked with
              | whole ps left length portable within wire landed =>
                refine ⟨ps,by omega,portable,within,?_⟩
                rw [wire, List.isEmpty_iff.mp done, not_not.mp magical, length]
                simp
            · cases accepted
    · cases accepted
  · rintro ⟨ps,few,portable,within,rfl⟩
    have count : ps.length.toUInt8.toNat = ps.length := by
      unfold windowArqMaxRanges at few
      simp only [Nat.toUInt8_eq, UInt8.toNat_ofNat']
      omega
    have applied := applyRangesWire portable within []
    rw [List.append_nil] at applied
    simp only [applyWindowRetransmit, List.cons_append, List.nil_append, count, applied, List.isEmpty_nil, if_true]
    rw [if_neg (by decide), if_neg (Nat.not_lt.mpr few)]

theorem rejectedIntact (frame packet : Bytes) :
    (∀ e, (applyWindowRetransmit frame packet).1 = .error e → (applyWindowRetransmit frame packet).2 = frame) ↔
      WellFormed frame.length packet ∨
        ∀ i b, lastWrite (landed frame.length packet) i = some b → frame[i]? = some b := by
  have within : Within frame.length (landed frame.length packet) := by
    unfold landed
    split
    · split
      · exact landedWithin frame.length _ _
      · exact fun p member => (nomatch member)
    · exact fun p member => (nomatch member)
  rw [← overwriteAllSame within, ← applyOk, applyState]
  cases answer : (applyWindowRetransmit frame packet).1 with
  | error e =>
    constructor
    · exact fun intact => .inr (intact e rfl)
    · rintro (accepted | same) e' -
      · cases accepted
      · exact same
  | ok done => exact ⟨fun _ => .inl rfl,fun _ e refused => (nomatch refused)⟩

theorem rejectedPatched : ¬ ∀ frame packet e, (applyWindowRetransmit frame packet).1 = .error e →
    (applyWindowRetransmit frame packet).2 = frame := by
  intro intact
  have changed : (applyWindowRetransmit [0x00,0x00] [0xA5,0x01,0x00,0x00,0x01,0xFF,0x00]).2 = [0xFF,0x00] := by decide
  have same := intact [0x00,0x00] [0xA5,0x01,0x00,0x00,0x01,0xFF,0x00] (.frame "window-arq packet has trailing bytes") (by decide)
  rw [changed] at same
  exact absurd same (by decide)

end OpenPulse.WindowArq
