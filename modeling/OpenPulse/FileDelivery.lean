import Mathlib.Data.Finset.Filter
import Mathlib.Data.Finset.Range
import OpenPulse.FileBlocks
import OpenPulse.SarRoundTrip

/-! A file that is cut into blocks, packed and fragmented arrives whole, in whatever
order and with whatever repetitions its fragments are delivered. Between two
completions of a block the reassembler has one candidate for it, with the fragments
delivered since. A completed candidate is dropped, so a block whose fragments all come
once more completes once more. -/
namespace OpenPulse.FileDelivery
open Runs ByteCodec Bitmap Compression FxWire Sar Tables FileBlocks
open SarRoundTrip (Pending receivePending receiveLast)

structure Sending where
  -- a file with an accepted block size, under one transfer id, with libraries that round-trip
  codecs : Codecs
  lossless : codecs.RoundTrip
  transferId : UInt32
  file : Bytes
  blockSize : UInt32
  least : minBlockSize ≤ blockSize.toNat
  most : blockSize.toNat ≤ maxBlockSize
  count : UInt16
  counted : blockCount file.length blockSize.toNat = some count

structure Delivery where
  now : Nat
  fragment : Bytes
  deriving DecidableEq, Repr

namespace Sending
variable (s : Sending)

def block (i : UInt16) : Bytes := ((splitBlocks s.file s.blockSize.toNat)[i.toNat]?).getD []

def frame (i : UInt16) : Bytes := blockFrame s.codecs s.transferId i (s.block i)

def fragment (i : UInt16) (k : Nat) : Bytes := payloadOf (blockSegmentId i) (s.frame i) k

def fragments (i : UInt16) : List Bytes := payloads (blockSegmentId i) (s.frame i)

def Seen (i : UInt16) (ds : List Delivery) : Prop := ∀ p ∈ s.fragments i, ∃ d ∈ ds, d.fragment = p

def Legit (d : Delivery) : Prop := ∃ i < s.count, d.fragment ∈ s.fragments i

def receiver : BlockAssembler := .new s.transferId s.count s.blockSize s.file.length.toUInt64

def event (a : BlockAssembler) (d : Delivery) : BlockEvent := (a.ingestFragment s.codecs d.now d.fragment).1

def deliver (a : BlockAssembler) (d : Delivery) : BlockAssembler := (a.ingestFragment s.codecs d.now d.fragment).2

variable {s}

theorem sizePos : 0 < s.blockSize.toNat := Nat.lt_of_lt_of_le (by decide) s.least

theorem countEq : s.count.toNat = max ((s.file.length + s.blockSize.toNat - 1) / s.blockSize.toNat) 1 ∧
    s.count.toNat ≤ maxBlockCount := by
  have counted := s.counted
  unfold blockCount at counted
  rw [if_neg (by have := s.sizePos; omega)] at counted
  simp only at counted
  split at counted
  next small =>
    have same := Option.some.inj counted
    have bound : max ((s.file.length + s.blockSize.toNat - 1) / s.blockSize.toNat) 1 < 65536 :=
      Nat.lt_of_le_of_lt small (by decide)
    rw [← same, Nat.toUInt16_eq, UInt16.toNat_ofNat', Nat.mod_eq_of_lt bound]
    exact ⟨rfl,small⟩
  next => cases counted

theorem countLt : s.count.toNat < 65535 := Nat.lt_of_le_of_lt s.countEq.2 (by decide)

theorem fileCovered : s.file.length ≤ s.count.toNat * s.blockSize.toNat := by
  have positive := s.sizePos
  have count := s.countEq.1
  have enough : (s.file.length + s.blockSize.toNat - 1) / s.blockSize.toNat ≤ s.count.toNat := by omega
  have ceiling := (Nat.div_le_iff_le_mul_add_pred positive).mp enough
  rw [Nat.mul_comm] at ceiling
  omega

theorem splitPieces : splitBlocks s.file s.blockSize.toNat = (List.range s.count.toNat).map (piece s.blockSize.toNat s.file) := by
  have positive := s.sizePos
  rw [s.countEq.1, splitBlocks]
  split
  next empty =>
    have none : s.file = [] := List.isEmpty_iff.mp empty
    have zero : (0 + s.blockSize.toNat - 1) / s.blockSize.toNat = 0 := Nat.div_eq_of_lt (by omega)
    rw [none, List.length_nil, zero]
    simp [piece]
  next filled =>
    have length : 0 < s.file.length := List.length_pos_of_ne_nil (by simpa using filled)
    have one : 1 ≤ (s.file.length + s.blockSize.toNat - 1) / s.blockSize.toNat :=
      (Nat.one_le_div_iff positive).mpr (by omega)
    rw [Nat.max_eq_left one]

theorem blockPiece {i : UInt16} (inside : i < s.count) : s.block i = piece s.blockSize.toNat s.file i.toNat := by
  have less : i.toNat < s.count.toNat := UInt16.lt_iff_toNat_lt.mp inside
  simp [block, splitPieces, less]

theorem indexOf {k : Nat} (inside : k < s.count.toNat) : k.toUInt16.toNat = k ∧ k.toUInt16 < s.count := by
  have bound := s.countLt
  have same : k.toUInt16.toNat = k := by
    rw [Nat.toUInt16_eq, UInt16.toNat_ofNat']
    omega
  exact ⟨same,by rw [UInt16.lt_iff_toNat_lt, same]; exact inside⟩

theorem blocksWhole : ((List.range s.count.toNat).map fun k => s.block k.toUInt16).flatten = s.file := by
  have pieces : ((List.range s.count.toNat).map fun k => s.block k.toUInt16) =
      (List.range s.count.toNat).map (piece s.blockSize.toNat s.file) := by
    refine List.map_congr_left (fun k member => ?_)
    obtain ⟨same,inside⟩ := s.indexOf (List.mem_range.mp member)
    rw [blockPiece inside, same]
  rw [pieces, piecesFlatten, List.take_of_length_le s.fileCovered]

theorem blockLength (i : UInt16) : (s.block i).length ≤ maxBlockSize := by
  unfold block
  cases found : (splitBlocks s.file s.blockSize.toNat)[i.toNat]? with
  | none => simp
  | some block =>
    have member := List.mem_of_getElem? found
    rw [splitPieces, List.mem_map] at member
    obtain ⟨k,-,rfl⟩ := member
    have size := pieceLength s.blockSize.toNat s.file k
    have most := s.most
    simp only [Option.getD_some]
    omega

theorem frameLength (c : Codecs) (transferId : UInt32) (i : UInt16) (block : Bytes) :
    (blockFrame c transferId i block).length ≤ block.length + 17 := by
  have packed := packLength (c := c) block
  simp only [blockFrame, FxFrame.encode, FxFrame.encodeBody, filexferMagic, List.length_append, List.length_cons,
    List.length_nil, beLength]
  omega

theorem frameFits (c : Codecs) (transferId : UInt32) (i : UInt16) {block : Bytes} (small : block.length ≤ maxBlockSize) :
    (blockFrame c transferId i block).length ≤ sarMaxSegmentData := by
  have length := frameLength c transferId i block
  unfold maxBlockSize at small
  unfold sarMaxSegmentData sarMaxFragmentData sarHeaderSize
  omega

theorem fits (i : UInt16) : (s.frame i).length ≤ sarMaxSegmentData := frameFits _ _ _ (s.blockLength i)

theorem encodeSmall (c : Codecs) (transferId : UInt32) (i : UInt16) {block : Bytes} (small : block.length ≤ maxBlockSize)
    (missing : Option Bytes) :
    encodeBlock c transferId i block missing =
      .ok (match missing with
        | none => payloads (blockSegmentId i) (blockFrame c transferId i block)
        | some bitmap => selected bitmap (payloads (blockSegmentId i) (blockFrame c transferId i block))) := by
  have whole := frameFits c transferId i small
  have encoded : sarEncode (blockSegmentId i) (blockFrame c transferId i block) =
      .ok (payloads (blockSegmentId i) (blockFrame c transferId i block)) := if_neg (by omega)
  rw [encodeBlock, encoded]
  cases missing with
  | none => rfl
  | some bitmap => rfl

theorem segmentId {i : UInt16} (inside : i < s.count) : blockSegmentId i ≠ 0 ∧ blockSegmentId i - 1 = i := by
  have bound := s.countLt
  have less : i.toNat < s.count.toNat := UInt16.lt_iff_toNat_lt.mp inside
  have value : (blockSegmentId i).toNat = i.toNat + 1 := by
    rw [blockSegmentId, UInt16.toNat_add]
    simp only [UInt16.toNat_one]
    omega
  constructor
  · intro zero
    rw [zero] at value
    simp at value
  · exact UInt16.add_sub_cancel i 1

theorem expectedLength {a : BlockAssembler} (size : a.blockSize = s.blockSize) (length : a.fileSize = s.file.length.toUInt64)
    {i : UInt16} (inside : i < s.count) : (s.block i).length = a.expectedBlockLen i := by
  have covered := s.fileCovered
  have bound := s.countLt
  have most := s.most
  unfold maxBlockSize at most
  have product : s.count.toNat * s.blockSize.toNat ≤ 65535 * 49152 :=
    Nat.mul_le_mul (by omega) most
  have file : s.file.length.toUInt64.toNat = s.file.length := by
    rw [Nat.toUInt64_eq, UInt64.toNat_ofNat']
    omega
  rw [blockPiece inside, pieceLength, BlockAssembler.expectedBlockLen, size, length, file]

variable (s) in
def got (i : UInt16) (ds : List Delivery) : Finset Nat :=
  (Finset.range (chunkCount (s.frame i))).filter fun k => ∃ d ∈ ds, d.fragment = s.fragment i k

theorem memGot {i : UInt16} {ds : List Delivery} {k : Nat} :
    k ∈ s.got i ds ↔ k < chunkCount (s.frame i) ∧ ∃ d ∈ ds, d.fragment = s.fragment i k := by
  simp [got]

theorem seenIff {i : UInt16} {ds : List Delivery} : s.Seen i ds ↔ ∀ k < chunkCount (s.frame i), k ∈ s.got i ds := by
  constructor
  · intro seen k inside
    exact memGot.mpr ⟨inside,seen _ (memPayloads _ inside)⟩
  · intro all p member
    obtain ⟨k,inside,rfl⟩ := List.mem_map.mp member
    exact (memGot.mp (all k (List.mem_range.mp inside))).2

theorem unseenNil (i : UInt16) : ¬ s.Seen i [] := by
  intro seen
  obtain ⟨d,member,-⟩ := seen _ (memPayloads _ (chunkCountPos (s.frame i)))
  cases member

theorem seenMono {i : UInt16} {ds es : List Delivery} (seen : s.Seen i ds) (more : ∀ d ∈ ds, d ∈ es) : s.Seen i es := by
  intro p member
  obtain ⟨d,here,same⟩ := seen p member
  exact ⟨d,more d here,same⟩

theorem gotOwn {i : UInt16} {k : Nat} (inside : k < chunkCount (s.frame i)) {d : Delivery}
    (sent : d.fragment = s.fragment i k) (ds : List Delivery) : s.got i (ds ++ [d]) = insert k (s.got i ds) := by
  ext m
  simp only [memGot, Finset.mem_insert, List.mem_append, List.mem_singleton]
  constructor
  · rintro ⟨bound,e,old | rfl,same⟩
    · exact Or.inr ⟨bound,e,old,same⟩
    · exact Or.inl (payloadInj (s.fits i) _ bound inside (same.symm.trans sent))
  · rintro (rfl | ⟨bound,e,old,same⟩)
    · exact ⟨inside,d,Or.inr rfl,sent⟩
    · exact ⟨bound,e,Or.inl old,same⟩

theorem fragmentInj {i j : UInt16} {k m : Nat} (same : s.fragment i k = s.fragment j m) : i = j := by
  unfold fragment payloadOf at same
  obtain ⟨high,rest⟩ := List.cons.inj same
  obtain ⟨low,-⟩ := List.cons.inj rest
  have ids : blockSegmentId i = blockSegmentId j := by
    rw [← segmentIdBytes (blockSegmentId i), high, low, segmentIdBytes]
  exact (UInt16.add_left_inj 1).mp ids

theorem gotOther {i j : UInt16} (other : i ≠ j) {k : Nat} {d : Delivery} (sent : d.fragment = s.fragment j k)
    (ds : List Delivery) : s.got i (ds ++ [d]) = s.got i ds := by
  ext m
  simp only [memGot, List.mem_append, List.mem_singleton]
  constructor
  · rintro ⟨bound,e,old | rfl,same⟩
    · exact ⟨bound,e,old,same⟩
    · exact absurd (fragmentInj (same.symm.trans sent)) other
  · rintro ⟨bound,e,old,same⟩
    exact ⟨bound,e,Or.inl old,same⟩

variable (s) in
def tracker (i : UInt16) (ds : List Delivery) : Option FragTracker :=
  if s.got i ds = ∅ then none
  else some ⟨(chunkCount (s.frame i)).toUInt8,(List.range (chunkCount (s.frame i))).map fun k => decide (k ∈ s.got i ds)⟩

theorem totalByte (i : UInt16) : (chunkCount (s.frame i)).toUInt8.toNat = chunkCount (s.frame i) := by
  have bound := chunkCountLe (s.fits i)
  rw [Nat.toUInt8_eq, UInt8.toNat_ofNat']
  omega

theorem markTracker {i : UInt16} {ds : List Delivery} {k : Nat} (inside : k < chunkCount (s.frame i)) {d : Delivery}
    (sent : d.fragment = s.fragment i k) :
    some (BlockAssembler.FragTracker.mark ((s.tracker i ds).getD
      ⟨(chunkCount (s.frame i)).toUInt8,List.replicate (chunkCount (s.frame i)).toUInt8.toNat false⟩)
        k.toUInt8 (chunkCount (s.frame i)).toUInt8) = s.tracker i (ds ++ [d]) := by
  have bound := chunkCountLe (s.fits i)
  have index : k.toUInt8.toNat = k := by
    rw [Nat.toUInt8_eq, UInt8.toNat_ofNat']
    omega
  have filled : (s.tracker i ds).getD
      ⟨(chunkCount (s.frame i)).toUInt8,List.replicate (chunkCount (s.frame i)).toUInt8.toNat false⟩ =
      ⟨(chunkCount (s.frame i)).toUInt8,(List.range (chunkCount (s.frame i))).map fun k => decide (k ∈ s.got i ds)⟩ := by
    unfold tracker
    split
    next empty => simp [empty, s.totalByte i]
    next => rfl
  have grown : insert k (s.got i ds) ≠ ∅ := Finset.insert_ne_empty k _
  rw [filled, tracker, gotOwn inside sent, if_neg grown, BlockAssembler.FragTracker.mark, if_pos rfl, index]
  refine congrArg (fun flags => some (FragTracker.mk _ flags)) (List.ext_getElem (by simp) ?_)
  intro m left right
  simp only [List.getElem_set, List.getElem_map, List.getElem_range, Finset.mem_insert]
  by_cases same : k = m
  · simp [same]
  · simp [same, Ne.symm same]

variable (s) in
structure Fitting (a : BlockAssembler) : Prop where
  transferId : a.transferId = s.transferId
  count : a.blockCount = s.count
  size : a.blockSize = s.blockSize
  length : a.fileSize = s.file.length.toUInt64

theorem ingestFragmentOf {a : BlockAssembler} (fitting : s.Fitting a) {i : UInt16} (known : i < s.count) {k : Nat}
    (inside : k < chunkCount (s.frame i)) (now : Nat) :
    a.ingestFragment s.codecs now (s.fragment i k) =
      BlockAssembler.settle s.codecs
        { a.track i k.toUInt8 (chunkCount (s.frame i)).toUInt8 with
          reasm := (a.reasm.ingest now sarSession (s.fragment i k)).2 } i
        (a.reasm.ingest now sarSession (s.fragment i k)).1 := by
  obtain ⟨nonzero,index⟩ := segmentId known
  have bound := chunkCountLe (s.fits i)
  have less : k.toUInt8 < (chunkCount (s.frame i)).toUInt8 := by
    rw [UInt8.lt_iff_toNat_lt, s.totalByte i, Nat.toUInt8_eq, UInt8.toNat_ofNat']
    omega
  have positive : (chunkCount (s.frame i)).toUInt8 ≠ 0 := by
    intro zero
    rw [zero, UInt8.lt_iff_toNat_lt] at less
    simp at less
  have header : ¬ (blockSegmentId i = 0 ∨ (chunkCount (s.frame i)).toUInt8 = 0 ∨
      (chunkCount (s.frame i)).toUInt8 ≤ k.toUInt8) := by
    rintro (zero | zero | beyond)
    · exact nonzero zero
    · exact positive zero
    · exact absurd less (UInt8.not_lt.mpr beyond)
  have mine : ¬ a.blockCount ≤ i := by
    rw [fitting.count]
    exact UInt16.not_le.mpr known
  simp only [fragment, payloadOf, BlockAssembler.ingestFragment, segmentIdBytes, index, if_neg header, if_neg mine]
  rfl

theorem acceptsFrame {a : BlockAssembler} (fitting : s.Fitting a) {i : UInt16} (known : i < s.count) :
    a.accepts s.codecs i (s.frame i) = some (s.block i) := by
  have small : (s.block i).length ≤ maxDecompressedSize := (s.blockLength i).trans (by decide)
  have length := expectedLength fitting.size fitting.length known
  have opened : FxFrame.decode (s.frame i) = .ok (.fileData s.transferId i (pack s.codecs (s.block i))) :=
    FxFrame.decodeFileData _ _ _
  simp only [BlockAssembler.accepts, opened, fitting.transferId, and_self, if_true, unpackPack small s.lossless,
    Option.getD_some, length]

/- What is true of one block: since its last completion `new` has been delivered,
and `old` before that. Before the first completion the block is as it was `seeded`. -/
variable (s) in
structure At (seeded : Option Bytes) (i : UInt16) (a : BlockAssembler) (old new : List Delivery) : Prop where
  pending : Pending (s.frame i) (s.got i new) (a.reasm.candidates (sarSession,blockSegmentId i))
  unfinished : ¬ s.Seen i new
  held : (old = [] ∧ a.block i = seeded) ∨ (s.Seen i old ∧ a.block i = some (s.block i))
  tracked : a.seen.lookup i = s.tracker i (old ++ new)

variable {seeded : Option Bytes}

theorem startAt {a : BlockAssembler} (fresh : a.reasm = .new blockSarTimeoutSecs) (untracked : a.seen = ∅) (i : UInt16) :
    s.At (a.block i) i a [] [] := by
  have nothing : s.got i [] = ∅ := by simp [got]
  refine ⟨Or.inl ⟨nothing,by rw [fresh]; rfl⟩,unseenNil i,Or.inl ⟨rfl,rfl⟩,?_⟩
  rw [List.append_nil, tracker, if_pos nothing, untracked]
  rfl

theorem start : s.Fitting s.receiver := ⟨rfl,rfl,rfl,rfl⟩

theorem settleFitting (c : Codecs) (i : UInt16) (result : Except SarError (List Bytes)) {a : BlockAssembler}
    (fitting : s.Fitting a) : s.Fitting (a.settle c i result).2 := by
  unfold BlockAssembler.settle
  split
  · exact fitting
  · split
    · exact fitting
    · split
      · exact ⟨fitting.transferId,fitting.count,fitting.size,fitting.length⟩
      · exact fitting

theorem settleOther (c : Codecs) {i j : UInt16} (other : i ≠ j) (result : Except SarError (List Bytes)) (a : BlockAssembler) :
    (a.settle c j result).1 ≠ .complete i ∧ (a.settle c j result).2.block i = a.block i ∧
      (a.settle c j result).2.seen = a.seen ∧ (a.settle c j result).2.reasm = a.reasm := by
  unfold BlockAssembler.settle
  split
  · simp
  · split
    · simp
    · split
      · simp [Ne.symm other, BlockAssembler.block, other]
      · simp

theorem deliverOther {a : BlockAssembler} (fitting : s.Fitting a) {i j : UInt16} (other : i ≠ j) {old new : List Delivery}
    (before : s.At seeded i a old new) (known : j < s.count) {k : Nat} (inside : k < chunkCount (s.frame j)) {d : Delivery}
    (sent : d.fragment = s.fragment j k) :
    s.event a d ≠ .complete i ∧ s.At seeded i (s.deliver a d) old (new ++ [d]) := by
  obtain ⟨f,parsed,segment,-,-⟩ := parsePayload (s.fits j) (blockSegmentId j) inside
  have key : (sarSession,blockSegmentId i) ≠ (sarSession,f.segmentId) := by
    intro same
    rw [segment] at same
    exact other ((UInt16.add_left_inj 1).mp (Prod.mk.inj same).2)
  rw [event, deliver, sent, ingestFragmentOf fitting known inside]
  obtain ⟨silent,block,seen,reasm⟩ := settleOther s.codecs other (a.reasm.ingest d.now sarSession (s.fragment j k)).1
    { a.track j k.toUInt8 (chunkCount (s.frame j)).toUInt8 with
      reasm := (a.reasm.ingest d.now sarSession (s.fragment j k)).2 }
  refine ⟨silent,?_,?_,?_,?_⟩
  · rw [reasm, gotOther other sent]
    have same := ingestOther (r := a.reasm) parsed d.now sarSession key
    exact same ▸ before.pending
  · rw [seenIff, gotOther other sent, ← seenIff]
    exact before.unfinished
  · rw [block]
    exact before.held
  · rw [seen, ← List.append_assoc, tracker, gotOther other sent, ← tracker, ← before.tracked]
    simp [BlockAssembler.track, other]

theorem trackedOwn {a : BlockAssembler} {i : UInt16} {ds : List Delivery} (tracked : a.seen.lookup i = s.tracker i ds) {k : Nat}
    (inside : k < chunkCount (s.frame i)) {d : Delivery} (sent : d.fragment = s.fragment i k) :
    (a.track i k.toUInt8 (chunkCount (s.frame i)).toUInt8).seen.lookup i = s.tracker i (ds ++ [d]) := by
  rw [← markTracker inside sent, ← tracked]
  simp [BlockAssembler.track]

theorem deliverOwn {a : BlockAssembler} (fitting : s.Fitting a) {i : UInt16} (known : i < s.count) {old new : List Delivery}
    (before : s.At seeded i a old new) {k : Nat} (inside : k < chunkCount (s.frame i)) {d : Delivery} (sent : d.fragment = s.fragment i k)
    (room : a.reasm.totalCandidates < maxPendingSlots) :
    (s.event a d = .complete i ∧ s.Seen i (new ++ [d]) ∧ s.At seeded i (s.deliver a d) (old ++ (new ++ [d])) []) ∨
      (s.event a d ≠ .complete i ∧ s.At seeded i (s.deliver a d) old (new ++ [d])) := by
  have grown := gotOwn inside sent new
  have tracked := trackedOwn before.tracked inside sent
  rw [List.append_assoc] at tracked
  by_cases full : s.Seen i (new ++ [d])
  · refine Or.inl ?_
    have all := seenIff.mp full
    rw [grown] at all
    obtain ⟨output,left⟩ := receiveLast (a := ⟨d.now,sarSession,d.fragment⟩) (s.fits i) before.pending rfl inside sent room all
    simp only [result, receive, sent] at output left
    have taken : [s.frame i].findSome? ({ a.track i k.toUInt8 (chunkCount (s.frame i)).toUInt8 with
        reasm := (a.reasm.ingest d.now sarSession (s.fragment i k)).2 }.accepts s.codecs i) = some (s.block i) := by
      rw [List.findSome?_singleton]
      exact acceptsFrame ⟨fitting.transferId,fitting.count,fitting.size,fitting.length⟩ known
    have whole : ∀ p ∈ s.fragments i, ∃ e ∈ old ++ (new ++ [d]), e.fragment = p :=
      seenMono full fun e member => List.mem_append_right old member
    rw [event, deliver, sent, ingestFragmentOf fitting known inside, output]
    simp only [BlockAssembler.settle, List.isEmpty_cons, Bool.false_eq_true, if_false, taken]
    refine ⟨trivial,full,?_,unseenNil i,Or.inr ⟨whole,by simp [BlockAssembler.block]⟩,?_⟩
    · exact Or.inl ⟨by simp [got],left⟩
    · rw [List.append_nil]
      exact tracked
  · refine Or.inr ?_
    have some : ∃ j < chunkCount (s.frame i), j ∉ insert k (s.got i new) := by
      rw [seenIff, grown] at full
      push Not at full
      exact full
    obtain ⟨j,bound,missing⟩ := some
    obtain ⟨output,next⟩ := receivePending (a := ⟨d.now,sarSession,d.fragment⟩) (s.fits i) before.pending rfl inside sent room
      bound missing
    simp only [result, receive, sent] at output next
    rw [event, deliver, sent, ingestFragmentOf fitting known inside, output]
    simp only [BlockAssembler.settle, List.isEmpty_nil, if_true]
    refine ⟨by simp,?_,full,before.held,tracked⟩
    rw [grown]
    exact next

theorem deliverFitting {a : BlockAssembler} (fitting : s.Fitting a) {d : Delivery} (legit : s.Legit d) :
    s.Fitting (s.deliver a d) := by
  obtain ⟨i,known,member⟩ := legit
  obtain ⟨k,inside,sent⟩ := List.mem_map.mp member
  have same : d.fragment = s.fragment i k := sent.symm
  rw [deliver, same, ingestFragmentOf fitting known (List.mem_range.mp inside)]
  exact settleFitting s.codecs i _ ⟨fitting.transferId,fitting.count,fitting.size,fitting.length⟩

theorem deliverStep {a : BlockAssembler} (fitting : s.Fitting a) {i : UInt16} (known : i < s.count) {old new : List Delivery}
    (before : s.At seeded i a old new) {d : Delivery} (legit : s.Legit d) (room : a.reasm.totalCandidates < maxPendingSlots) :
    (s.event a d = .complete i ∧ s.Seen i (new ++ [d]) ∧ s.At seeded i (s.deliver a d) (old ++ (new ++ [d])) []) ∨
      (s.event a d ≠ .complete i ∧ s.At seeded i (s.deliver a d) old (new ++ [d])) := by
  obtain ⟨j,there,member⟩ := legit
  obtain ⟨k,inside,sent⟩ := List.mem_map.mp member
  have same : d.fragment = s.fragment j k := sent.symm
  by_cases own : i = j
  · subst own
    exact deliverOwn fitting known before (List.mem_range.mp inside) same room
  · exact Or.inr (deliverOther fitting own before there (List.mem_range.mp inside) same)

variable (s) in
def Roomy (a : BlockAssembler) (ds : List Delivery) : Prop :=
  -- the cap on pending segments is not reached when a fragment comes
  EveryStep s.deliver (fun a _ => a.reasm.totalCandidates < maxPendingSlots) a ds

instance (a : BlockAssembler) (ds : List Delivery) : Decidable (s.Roomy a ds) :=
  inferInstanceAs (Decidable (EveryStep s.deliver (fun a _ => a.reasm.totalCandidates < maxPendingSlots) a ds))

variable (s) in
def after (ds : List Delivery) : BlockAssembler := run s.deliver s.receiver ds

theorem afterSnoc (ds : List Delivery) (d : Delivery) : s.after (ds ++ [d]) = s.deliver (s.after ds) d := by
  simp [after, runAppend]

theorem roomyAppend {pre post : List Delivery} :
    s.Roomy s.receiver (pre ++ post) ↔ s.Roomy s.receiver pre ∧ s.Roomy (s.after pre) post := everyStepAppend

theorem runAt {i : UInt16} (known : i < s.count) {a : BlockAssembler} (fitting : s.Fitting a) (begun : s.At seeded i a [] [])
    {ds : List Delivery} (legit : ∀ d ∈ ds, s.Legit d) (room : s.Roomy a ds) :
    s.Fitting (run s.deliver a ds) ∧ ∃ old new, ds = old ++ new ∧ s.At seeded i (run s.deliver a ds) old new := by
  induction ds using List.reverseRecOn with
  | nil => exact ⟨fitting,[],[],rfl,begun⟩
  | append_singleton ds d ih =>
    obtain ⟨roomBefore,roomLast,-⟩ := everyStepAppend.mp room
    obtain ⟨fitting,old,new,split,before⟩ := ih (fun e member => legit e (List.mem_append_left _ member)) roomBefore
    have last := legit d (by simp)
    rw [runAppend, runCons, runNil]
    refine ⟨deliverFitting fitting last,?_⟩
    rcases deliverStep fitting known before last roomLast with ⟨-,-,next⟩ | ⟨-,next⟩
    · exact ⟨old ++ (new ++ [d]),[],by simp [split],next⟩
    · exact ⟨old,new ++ [d],by simp [split],next⟩

theorem afterAt {i : UInt16} (known : i < s.count) {ds : List Delivery} (legit : ∀ d ∈ ds, s.Legit d)
    (room : s.Roomy s.receiver ds) :
    s.Fitting (s.after ds) ∧ ∃ old new, ds = old ++ new ∧ s.At none i (s.after ds) old new :=
  runAt known s.start (startAt rfl rfl i) legit room

theorem quietRun {i : UInt16} (known : i < s.count) {ds old new : List Delivery} {a : BlockAssembler} (fitting : s.Fitting a)
    (before : s.At seeded i a old new) (legit : ∀ d ∈ ds, s.Legit d) (room : s.Roomy a ds)
    (quiet : EveryStep s.deliver (fun a d => s.event a d ≠ .complete i) a ds) :
    s.At seeded i (run s.deliver a ds) old (new ++ ds) := by
  induction ds generalizing a new with
  | nil => simpa using before
  | cons d ds ih =>
    obtain ⟨space,room⟩ := room
    obtain ⟨silent,quiet⟩ := quiet
    have first := legit d (by simp)
    rcases deliverStep fitting known before first space with ⟨reported,-,-⟩ | ⟨-,next⟩
    · exact absurd reported silent
    · have last := ih (deliverFitting fitting first) next (fun e member => legit e (List.mem_cons_of_mem d member)) room quiet
      simpa using last

theorem unheldAt {i : UInt16} {a : BlockAssembler} {old new : List Delivery} (now : s.At seeded i a old new)
    (unseen : ¬ s.Seen i (old ++ new)) : old = [] ∧ a.block i = seeded := by
  rcases now.held with fresh | ⟨seen,-⟩
  · exact fresh
  · exact absurd (seenMono seen fun d member => List.mem_append_left new member) unseen

theorem heldAt {i : UInt16} {a : BlockAssembler} {old new : List Delivery} (now : s.At seeded i a old new)
    (seen : s.Seen i (old ++ new)) : a.block i = some (s.block i) := by
  rcases now.held with ⟨rfl,-⟩ | ⟨-,held⟩
  · exact absurd seen now.unfinished
  · exact held

variable (s)

def Reported (i : UInt16) (pre : List Delivery) (d : Delivery) : Prop := s.event (s.after pre) d = .complete i

def First (i : UInt16) (pre : List Delivery) (d : Delivery) : Prop := ¬ s.Seen i pre ∧ s.Seen i (pre ++ [d])

def ReportedFirst (i : UInt16) (ds : List Delivery) : Prop :=
  -- along the deliveries a completion is reported at the first moment and at no other
  ∀ pre d post, ds = pre ++ d::post → (s.Reported i pre d ↔ s.First i pre d)

/-- The block does not come whole and then whole again. -/
def Once (i : UInt16) (ds : List Delivery) : Prop := ∀ pre post, ds = pre ++ post → s.Seen i pre → ¬ s.Seen i post

variable {s}

theorem firstReported {i : UInt16} (known : i < s.count) {pre : List Delivery} {d : Delivery}
    (legit : ∀ e ∈ pre ++ [d], s.Legit e) (room : s.Roomy s.receiver (pre ++ [d])) (first : s.First i pre d) :
    s.Reported i pre d ∧ s.At none i (s.after (pre ++ [d])) (pre ++ [d]) [] := by
  obtain ⟨roomBefore,roomLast,-⟩ := roomyAppend.mp room
  obtain ⟨fitting,old,new,split,before⟩ := afterAt known (fun e member => legit e (List.mem_append_left _ member)) roomBefore
  obtain ⟨fresh,-⟩ := unheldAt before (split ▸ first.1)
  rw [fresh, List.nil_append] at split
  subst fresh split
  rcases deliverStep fitting known before (legit d (by simp)) roomLast with ⟨reported,-,next⟩ | ⟨-,next⟩
  · exact ⟨reported,by rw [afterSnoc]; exact next⟩
  · exact absurd first.2 next.unfinished

theorem reportedFirstIff {i : UInt16} (known : i < s.count) {ds : List Delivery} (legit : ∀ d ∈ ds, s.Legit d)
    (room : s.Roomy s.receiver ds) : s.ReportedFirst i ds ↔ s.Once i ds := by
  constructor
  · intro exact pre post split seen again
    obtain ⟨start,d,rest,cut,no,yes⟩ := firstMoment (P := s.Seen i) (unseenNil i) seen
    have whole : ds = start ++ d::(rest ++ post) := by simp [split, cut]
    have joined : ds = (start ++ [d]) ++ (rest ++ post) := by simp [split, cut]
    rw [joined] at legit room
    obtain ⟨roomBefore,roomAfter⟩ := roomyAppend.mp room
    have sooner := fun e member => legit e (List.mem_append_left (rest ++ post) member)
    have later := fun e member => legit e (List.mem_append_right (start ++ [d]) member)
    obtain ⟨-,now⟩ := firstReported known sooner roomBefore ⟨no,yes⟩
    obtain ⟨fitting,-⟩ := afterAt known sooner roomBefore
    -- after the first moment nothing may be reported, so the candidate keeps what comes
    have silent : ∀ (more : List Delivery) (done : List Delivery), rest ++ post = done ++ more →
        EveryStep s.deliver (fun a d => s.event a d ≠ .complete i) (s.after (start ++ [d] ++ done)) more := by
      intro more
      induction more with
      | nil => intro done _; exact trivial
      | cons e more ih =>
        intro done part
        refine ⟨?_,?_⟩
        · intro reported
          have first := (exact (start ++ [d] ++ done) e more (by simp [joined, part])).mp reported
          exact first.1 (seenMono yes fun x member => List.mem_append_left done member)
        · have next := ih (done ++ [e]) (by simp [part])
          rwa [← List.append_assoc, afterSnoc] at next
    have quiet := silent (rest ++ post) [] rfl
    rw [List.append_nil] at quiet
    have last := quietRun known fitting now later roomAfter quiet
    exact last.unfinished (seenMono again fun x member => by simp [member])
  · intro once pre d post split
    have joined : ds = (pre ++ [d]) ++ post := by simp [split]
    rw [joined] at legit room
    obtain ⟨room,-⟩ := roomyAppend.mp room
    have legit := fun e member => legit e (List.mem_append_left post member)
    refine ⟨?_,fun first => (firstReported known legit room first).1⟩
    intro reported
    obtain ⟨roomBefore,roomLast,-⟩ := roomyAppend.mp room
    obtain ⟨fitting,old,new,parts,before⟩ := afterAt known (fun e member => legit e (List.mem_append_left _ member)) roomBefore
    rcases deliverStep fitting known before (legit d (by simp)) roomLast with ⟨-,full,-⟩ | ⟨silent,-⟩
    · rcases before.held with ⟨rfl,-⟩ | ⟨seen,-⟩
      · rw [List.nil_append] at parts
        subst parts
        exact ⟨before.unfinished,full⟩
      · have again : s.Seen i (new ++ d::post) := seenMono full fun e member => by
          rcases List.mem_append.mp member with early | last
          · exact List.mem_append_left _ early
          · exact List.mem_append_right new (by simp [List.mem_singleton.mp last])
        exact absurd again (once old (new ++ d::post) (by simp [split, parts]) seen)
    · exact absurd reported silent

theorem selectedPayloads (bitmap : Bytes) (id : UInt16) (data : Bytes) :
    selected bitmap (payloads id data) = ((List.range (chunkCount data)).filter (bitIsSet bitmap)).map (payloadOf id data) := by
  have numbered : (payloads id data).zipIdx = (List.range (chunkCount data)).map fun k => (payloadOf id data k,k) := by
    refine List.ext_getElem (by simp [payloads]) (fun m left right => ?_)
    simp [payloads]
  rw [selected, numbered, List.filter_map, List.map_map]
  rfl

variable (s) in
def missing (i : UInt16) (ds : List Delivery) : List Bytes := (s.fragments i).filter fun p => ∀ d ∈ ds, d.fragment ≠ p

theorem selectedMissing {i : UInt16} {a : BlockAssembler} {ds : List Delivery} (tracked : a.seen.lookup i = s.tracker i ds)
    (some : ∃ d ∈ ds, d.fragment ∈ s.fragments i) : selected (a.missingBitmap i) (s.fragments i) = s.missing i ds := by
  have nonempty : s.got i ds ≠ ∅ := by
    obtain ⟨d,member,here⟩ := some
    obtain ⟨k,inside,same⟩ := List.mem_map.mp here
    exact Finset.ne_empty_of_mem (memGot.mpr ⟨List.mem_range.mp inside,d,member,same.symm⟩)
  rw [tracker, if_neg nonempty] at tracked
  simp only [BlockAssembler.missingBitmap, tracked]
  rw [fragments, selectedPayloads, missing, fragments, payloads, List.filter_map]
  refine congrArg (List.map _) (List.filter_congr (fun k member => ?_))
  have inside : k < chunkCount (s.frame i) := List.mem_range.mp member
  have flag : bitIsSet (ofFlags (((List.range (chunkCount (s.frame i))).map fun k => decide (k ∈ s.got i ds)).map (! ·))) k =
      !decide (k ∈ s.got i ds) := by
    simp [bitIsSetOfFlags, inside]
  rw [flag, ← decide_not]
  exact decide_eq_decide.mpr (by simp [memGot, inside, fragment])

variable (s) in
def Round (i : UInt16) (a : BlockAssembler) (round : List Delivery) : Prop :=
  -- a round answers the bitmap of its start: some of the selected fragments get through, none twice
  ∃ fs, encodeBlock s.codecs s.transferId i (s.block i) (some (a.missingBitmap i)) = .ok fs ∧
    (∀ d ∈ round, d.fragment ∈ fs) ∧ (round.map Delivery.fragment).Nodup

theorem encodeMissing {i : UInt16} (known : i < s.count) {ds : List Delivery} (legit : ∀ d ∈ ds, s.Legit d)
    (room : s.Roomy s.receiver ds) (some : ∃ d ∈ ds, d.fragment ∈ s.fragments i) :
    encodeBlock s.codecs s.transferId i (s.block i) (.some ((s.after ds).missingBitmap i)) = .ok (s.missing i ds) := by
  obtain ⟨-,old,new,split,now⟩ := afterAt known legit room
  rw [encodeSmall _ _ _ (s.blockLength i)]
  exact congrArg Except.ok (selectedMissing (split ▸ now.tracked) some)

theorem missingSeen {i : UInt16} {ds : List Delivery} {p : Bytes} (member : p ∈ s.missing i ds) :
    p ∈ s.fragments i ∧ ∀ d ∈ ds, d.fragment ≠ p := by
  simpa [missing] using member

/- Once everything has come nothing more gets through, in the running round or in a
later one: the fragments of a round are distinct and were missing at its start. -/
theorem roundsEnd {i : UInt16} (known : i < s.count) {rounds : List (List Delivery)} {ds pre post : List Delivery}
    (legit : ∀ d ∈ ds, s.Legit d) (some : ∃ d ∈ ds, d.fragment ∈ s.fragments i)
    (room : s.Roomy s.receiver (ds ++ rounds.flatten))
    (answered : EveryStep (run s.deliver) (s.Round i) (s.after ds) rounds) (split : rounds.flatten = pre ++ post)
    (seen : s.Seen i (ds ++ pre)) : post = [] := by
  induction rounds generalizing ds pre with
  | nil => exact (List.append_eq_nil_iff.mp (by simpa using split.symm)).2
  | cons round rounds ih =>
    obtain ⟨⟨fs,encoded,through,distinct⟩,answered⟩ := answered
    obtain ⟨roomBefore,-⟩ := roomyAppend.mp room
    rw [encodeMissing known legit roomBefore some] at encoded
    obtain rfl := Except.ok.inj encoded
    have sent : ∀ d ∈ round, s.Legit d := fun d member => ⟨i,known,(missingSeen (through d member)).1⟩
    have legit : ∀ d ∈ ds ++ round, s.Legit d := fun d member => (List.mem_append.mp member).elim (legit d) (sent d)
    have some : ∃ d ∈ ds ++ round, d.fragment ∈ s.fragments i := by
      obtain ⟨d,member,here⟩ := some
      exact ⟨d,List.mem_append_left round member,here⟩
    have room : s.Roomy s.receiver ((ds ++ round) ++ rounds.flatten) := by simpa using room
    have answered : EveryStep (run s.deliver) (s.Round i) (s.after (ds ++ round)) rounds := by
      rw [after, runAppend]
      exact answered
    rw [List.flatten_cons] at split
    rcases List.append_eq_append_iff.mp split with ⟨more,first,rest⟩ | ⟨more,first,rest⟩
    · exact ih legit some room answered rest (by rw [List.append_assoc, ← first]; exact seen)
    · have drained : more = [] := by
        refine List.eq_nil_iff_forall_not_mem.mpr (fun d member => ?_)
        obtain ⟨own,absent⟩ := missingSeen (through d (by simp [first, member]))
        obtain ⟨e,here,same⟩ := seen d.fragment own
        rcases List.mem_append.mp here with old | early
        · exact absent e old same
        · rw [first, List.map_append, List.nodup_append] at distinct
          exact distinct.2.2 e.fragment (List.mem_map_of_mem early) d.fragment (List.mem_map_of_mem member) same
      subst drained
      rw [List.append_nil] at first
      subst first
      have nothing : rounds.flatten = [] ++ post := rest.symm
      exact ih legit some room answered nothing (by simpa using seen)

theorem roundsLegit {i : UInt16} (known : i < s.count) {rounds : List (List Delivery)} {a : BlockAssembler}
    (answered : EveryStep (run s.deliver) (s.Round i) a rounds) : ∀ d ∈ rounds.flatten, s.Legit d := by
  induction rounds generalizing a with
  | nil => simp
  | cons round rounds ih =>
    obtain ⟨⟨fs,encoded,through,-⟩,answered⟩ := answered
    intro d member
    rw [List.flatten_cons] at member
    rcases List.mem_append.mp member with here | later
    · rw [encodeSmall _ _ _ (s.blockLength i)] at encoded
      obtain rfl := Except.ok.inj encoded
      have chosen : d.fragment ∈ selected (a.missingBitmap i) (s.fragments i) := through d here
      rw [fragments, selectedPayloads] at chosen
      obtain ⟨k,inside,same⟩ := List.mem_map.mp chosen
      exact ⟨i,known,same ▸ memPayloads _ (List.mem_range.mp (List.mem_filter.mp inside).1)⟩
    · exact ih answered d later

theorem roundsComplete {i : UInt16} (known : i < s.count) {rounds : List (List Delivery)} {ds : List Delivery}
    (legit : ∀ d ∈ ds, s.Legit d) (some : ∃ d ∈ ds, d.fragment ∈ s.fragments i) (unseen : ¬ s.Seen i ds)
    (room : s.Roomy s.receiver (ds ++ rounds.flatten))
    (answered : EveryStep (run s.deliver) (s.Round i) (s.after ds) rounds) (seen : s.Seen i (ds ++ rounds.flatten)) :
    ∃ pre d, rounds.flatten = pre ++ [d] ∧ s.First i (ds ++ pre) d ∧ s.Reported i (ds ++ pre) d := by
  obtain ⟨pre,d,post,split,no,yes⟩ := firstMoment (P := fun es => s.Seen i (ds ++ es)) (by simpa using unseen) seen
  have ended : post = [] := by
    have whole : rounds.flatten = (pre ++ [d]) ++ post := by simp [split]
    exact roundsEnd known legit some room answered whole yes
  subst ended
  have first : s.First i (ds ++ pre) d := ⟨no,by simpa using yes⟩
  have sent := roundsLegit known answered
  rw [split] at sent
  rw [split, ← List.append_assoc] at room
  have all : ∀ e ∈ (ds ++ pre) ++ [d], s.Legit e := by
    intro e member
    rw [List.append_assoc] at member
    exact (List.mem_append.mp member).elim (legit e) (sent e)
  exact ⟨pre,d,split,first,(firstReported known all room first).1⟩

theorem zeroKnown : (0 : UInt16) < s.count := by
  have count := s.countEq.1
  rw [UInt16.lt_iff_toNat_lt, UInt16.toNat_zero]
  omega

theorem mapMSome {A B : Type} {f : A → Option B} {g : A → B} {xs : List A} (each : ∀ x ∈ xs, f x = some (g x)) :
    xs.mapM f = some (xs.map g) := by
  induction xs with
  | nil => rfl
  | cons x xs ih =>
    have rest := ih fun y member => each y (List.mem_cons_of_mem x member)
    rw [List.mapM_cons, each x (by simp), rest]
    rfl

theorem reassembleHeld {a : BlockAssembler} (fitting : s.Fitting a) (held : ∀ i < s.count, a.block i = some (s.block i)) :
    a.reassemble = some s.file := by
  have each : ∀ k ∈ List.range s.count.toNat, a.blocks.lookup k.toUInt16 = some (s.block k.toUInt16) := by
    intro k member
    exact held _ (s.indexOf (List.mem_range.mp member)).2
  have complete : a.isComplete = true := by
    rw [BlockAssembler.isComplete, fitting.count, List.all_eq_true]
    intro k member
    rw [each k member]
    rfl
  rw [BlockAssembler.reassemble, if_pos complete, fitting.count, mapMSome each, Option.map_some, blocksWhole]

theorem reassembleUnheld {a : BlockAssembler} (fitting : s.Fitting a) {i : UInt16} (known : i < s.count)
    (unheld : a.block i = none) : a.reassemble = none := by
  have open_ : ¬ a.isComplete = true := by
    rw [BlockAssembler.isComplete, fitting.count, List.all_eq_true]
    intro all
    have here := all i.toNat (List.mem_range.mpr (UInt16.lt_iff_toNat_lt.mp known))
    have same : i.toNat.toUInt16 = i := by simp
    rw [same, show a.blocks.lookup i = none from unheld] at here
    cases here
  rw [BlockAssembler.reassemble, if_neg open_]

variable (s) in
structure Holds (pre : List Delivery) : Prop where
  whole : ∀ i < s.count, s.Seen i pre → (s.after pre).block i = some (s.block i)
  partly : ∀ i < s.count, ¬ s.Seen i pre → (s.after pre).block i = none
  file : (∀ i < s.count, s.Seen i pre) → (s.after pre).reassemble = some s.file
  nofile : (¬ ∀ i < s.count, s.Seen i pre) → (s.after pre).reassemble = none
  resend : ∀ i < s.count, (∃ d ∈ pre, d.fragment ∈ s.fragments i) →
    encodeBlock s.codecs s.transferId i (s.block i) (some ((s.after pre).missingBitmap i)) = .ok (s.missing i pre)

theorem holds {pre : List Delivery} (legit : ∀ d ∈ pre, s.Legit d) (room : s.Roomy s.receiver pre) : s.Holds pre := by
  have whole : ∀ i < s.count, s.Seen i pre → (s.after pre).block i = some (s.block i) := by
    intro i known seen
    obtain ⟨-,old,new,split,now⟩ := afterAt known legit room
    exact heldAt now (split ▸ seen)
  have partly : ∀ i < s.count, ¬ s.Seen i pre → (s.after pre).block i = none := by
    intro i known unseen
    obtain ⟨-,old,new,split,now⟩ := afterAt known legit room
    exact (unheldAt now (split ▸ unseen)).2
  have fitting := (afterAt s.zeroKnown legit room).1
  refine ⟨whole,partly,?_,?_,fun i known some => encodeMissing known legit room some⟩
  · intro all
    exact reassembleHeld fitting fun i known => whole i known (all i known)
  · intro short
    push Not at short
    obtain ⟨i,known,unseen⟩ := short
    exact reassembleUnheld fitting known (partly i known unseen)

theorem onceAlone {i : UInt16} {p : Bytes} (own : p ∈ s.fragments i) {ds : List Delivery}
    (alone : (ds.map Delivery.fragment).count p ≤ 1) : s.Once i ds := by
  rintro pre post rfl first second
  have came : ∀ es : List Delivery, s.Seen i es → 1 ≤ (es.map Delivery.fragment).count p := by
    intro es seen
    obtain ⟨d,member,same⟩ := seen p own
    exact List.one_le_count_iff.mpr (List.mem_map.mpr ⟨d,member,same⟩)
  have before := came pre first
  have after := came post second
  rw [List.map_append, List.count_append] at alone
  omega

/- Everything but one thing is so for all deliveries. A completion is reported at
the first moment only when the block does not come whole a second time. -/
theorem fileDelivery (s : Sending) (ds : List Delivery) (legit : ∀ d ∈ ds, s.Legit d) (room : s.Roomy s.receiver ds) :
    (∀ transferId i block missing, block.length ≤ maxBlockSize →
      ∃ fs, encodeBlock s.codecs transferId i block missing = .ok fs) ∧
    (∀ i < s.count, encodeBlock s.codecs s.transferId i (s.block i) none = .ok (s.fragments i)) ∧
    (∀ pre post, ds = pre ++ post → s.Holds pre) ∧
    (∀ i < s.count, ∀ pre d post, ds = pre ++ d::post → s.First i pre d → s.Reported i pre d) ∧
    (∀ i < s.count, (∃ d ∈ ds, d.fragment ∈ s.fragments i) → ¬ s.Seen i ds → ∀ rounds,
      s.Roomy s.receiver (ds ++ rounds.flatten) → EveryStep (run s.deliver) (s.Round i) (s.after ds) rounds →
      s.Seen i (ds ++ rounds.flatten) →
      ∃ pre d, rounds.flatten = pre ++ [d] ∧ s.First i (ds ++ pre) d ∧ s.Reported i (ds ++ pre) d) ∧
    (∀ i < s.count, s.ReportedFirst i ds ↔ s.Once i ds) := by
  refine ⟨?_,?_,?_,?_,?_,?_⟩
  · intro transferId i block missing small
    exact ⟨_,encodeSmall s.codecs transferId i small missing⟩
  · intro i _
    exact encodeSmall s.codecs s.transferId i (s.blockLength i) none
  · rintro pre post rfl
    exact holds (fun d member => legit d (List.mem_append_left post member)) (roomyAppend.mp room).1
  · intro i known pre d post split first
    have joined : ds = (pre ++ [d]) ++ post := by simp [split]
    rw [joined] at legit room
    exact (firstReported known (fun e member => legit e (List.mem_append_left post member)) (roomyAppend.mp room).1 first).1
  · intro i known some unseen rounds roomy answered seen
    exact roundsComplete known legit some unseen roomy answered seen
  · intro i known
    exact reportedFirstIff known legit room

end Sending

/- Both libraries store what they cannot shorten: LZ4 as a run of literals after
its length, Zstandard as one raw block after the frame header. -/

def literalRun (n : Nat) : Bytes :=
  if n < 15 then [(16 * n).toUInt8] else 240 :: (List.replicate ((n - 15) / 255) 255 ++ [((n - 15) % 255).toUInt8])

def rawHeader (n : Nat) : Bytes := [40, 181, 47, 253, 35] ++ le 4 zstdDictId.toNat ++ [n.toUInt8] ++ le 3 (8 * n + 1)

def tail (raw : Bytes) (n : Nat) : Except String Bytes := .ok (raw.drop (raw.length - n))

def storing : Codecs where
  lz4Block data := literalRun data.length ++ data
  lz4Unblock := tail
  zstdFrame data := some (rawHeader data.length ++ data)
  zstdUnframe := tail

theorem storingLossless : storing.RoundTrip := by
  constructor
  · intro data
    simp [storing, tail]
  · intro data frame made
    cases made
    simp [storing, tail]

def parcel : Sending where
  codecs := storing
  lossless := storingLossless
  transferId := 7
  file := List.replicate 1100 0x5A
  blockSize := 1024
  least := by decide
  most := by decide
  count := 2
  counted := by decide +kernel

def parcelDelivery (now : Nat) (i : UInt16) (k : Nat) : Delivery := ⟨now,parcel.fragment i k⟩

def parcelFirst : List Delivery := [parcelDelivery 1 1 0,parcelDelivery 2 0 4,parcelDelivery 3 0 0,parcelDelivery 4 0 2]

def parcelRounds : List (List Delivery) := [[parcelDelivery 5 0 1],[parcelDelivery 6 0 3]]

theorem parcelFragments :
    (∀ d ∈ parcelFirst ++ parcelRounds.flatten, d.fragment ∈ parcel.fragments 0 ∨ d.fragment ∈ parcel.fragments 1) ∧
    (∀ p ∈ parcel.fragments 0, ∃ d ∈ parcelFirst ++ parcelRounds.flatten, d.fragment = p) ∧
    ∀ p ∈ parcel.fragments 1, ∃ d ∈ parcelFirst ++ parcelRounds.flatten, d.fragment = p := by decide +kernel

theorem parcelLegit : ∀ d ∈ parcelFirst ++ parcelRounds.flatten, parcel.Legit d := fun d member =>
  (parcelFragments.1 d member).elim (fun own => ⟨0,by decide,own⟩) fun own => ⟨1,by decide,own⟩

theorem parcelSeen : ∀ i < parcel.count, parcel.Seen i (parcelFirst ++ parcelRounds.flatten) := by
  obtain ⟨-,first,second⟩ := parcelFragments
  intro i known
  have less : i.toNat < 2 := UInt16.lt_iff_toNat_lt.mp known
  obtain rfl | rfl : i = 0 ∨ i = 1 := by
    rw [← UInt16.toNat_inj, ← UInt16.toNat_inj, UInt16.toNat_zero, UInt16.toNat_one]
    omega
  · exact first
  · exact second

theorem parcelAnswered : EveryStep (run parcel.deliver) (parcel.Round 0) (parcel.after parcelFirst) parcelRounds := by
  have first : encodeBlock parcel.codecs parcel.transferId 0 (parcel.block 0) (some ((parcel.after parcelFirst).missingBitmap 0)) =
      .ok [parcel.fragment 0 1,parcel.fragment 0 3] := by decide +kernel
  have second : encodeBlock parcel.codecs parcel.transferId 0 (parcel.block 0)
      (some ((run parcel.deliver (parcel.after parcelFirst) [parcelDelivery 5 0 1]).missingBitmap 0)) = .ok [parcel.fragment 0 3] := by
    decide +kernel
  refine ⟨⟨_,first,?_,List.nodup_singleton _⟩,⟨_,second,?_,List.nodup_singleton _⟩,trivial⟩
  · exact fun d member => (List.mem_singleton.mp member) ▸ List.mem_cons_self
  · exact fun d member => (List.mem_singleton.mp member) ▸ List.mem_cons_self

theorem fileDeliveryParcel :
    ((parcel.after (parcelFirst ++ parcelRounds.flatten)).reassemble = some (List.replicate 1100 0x5A) ∧
      parcel.ReportedFirst 0 (parcelFirst ++ parcelRounds.flatten)) ∧
    ∃ pre d, parcelRounds.flatten = pre ++ [d] ∧ parcel.First 0 (parcelFirst ++ pre) d ∧ parcel.Reported 0 (parcelFirst ++ pre) d := by
  have room : parcel.Roomy parcel.receiver (parcelFirst ++ parcelRounds.flatten) := by decide +kernel
  obtain ⟨-,-,moments,-,-,exactly⟩ := Sending.fileDelivery parcel _ parcelLegit room
  obtain ⟨-,-,-,-,rounds,-⟩ := Sending.fileDelivery parcel parcelFirst (fun d member => parcelLegit d (List.mem_append_left _ member))
    (Sending.roomyAppend.mp room).1
  refine ⟨⟨(moments _ [] (List.append_nil _).symm).file parcelSeen,(exactly 0 (by decide)).mpr ?_⟩,?_⟩
  · have own : parcel.fragment 0 3 ∈ parcel.fragments 0 := by decide +kernel
    exact Sending.onceAlone own (by decide +kernel)
  · have begun : parcelDelivery 2 0 4 ∈ parcelFirst := by decide +kernel
    have unseen : ¬ parcel.Seen 0 parcelFirst := by
      unfold Sending.Seen
      decide +kernel
    have own : (parcelDelivery 2 0 4).fragment ∈ parcel.fragments 0 := by decide +kernel
    exact rounds 0 (by decide) ⟨_,begun,own⟩ unseen parcelRounds room parcelAnswered (parcelSeen 0 (by decide))

def tiny : Sending where
  codecs := storing
  lossless := storingLossless
  transferId := 7
  file := [1, 2, 3]
  blockSize := 1024
  least := by decide
  most := by decide
  count := 1
  counted := by decide

def tinyDelivery (now : Nat) : Delivery := ⟨now,tiny.fragment 0 0⟩

theorem tinyOnly {i : UInt16} (known : i < tiny.count) : i = 0 := by
  have less : i.toNat < 1 := UInt16.lt_iff_toNat_lt.mp known
  exact UInt16.toNat_inj.mp (by simpa using less)

theorem tinyFragments : tiny.fragments 0 = [tiny.fragment 0 0] := rfl

theorem tinyLegit (now : Nat) : tiny.Legit (tinyDelivery now) := by
  refine ⟨0,by decide,?_⟩
  rw [tinyFragments]
  exact List.mem_singleton.mpr rfl

theorem tinySeen (now : Nat) : tiny.Seen 0 [tinyDelivery now] := by
  intro p member
  rw [tinyFragments] at member
  exact ⟨tinyDelivery now,by simp,(List.mem_singleton.mp member).symm⟩

theorem tinyReportedAgain : (∀ d ∈ [tinyDelivery 1, tinyDelivery 2], tiny.Legit d) ∧
    tiny.Roomy tiny.receiver [tinyDelivery 1, tinyDelivery 2] ∧ (∀ i < tiny.count, tiny.Seen i [tinyDelivery 1, tinyDelivery 2]) ∧
    tiny.Reported 0 [] (tinyDelivery 1) ∧ tiny.Reported 0 [tinyDelivery 1] (tinyDelivery 2) ∧
    ¬ tiny.ReportedFirst 0 [tinyDelivery 1, tinyDelivery 2] := by
  have again : tiny.Reported 0 [tinyDelivery 1] (tinyDelivery 2) := by
    unfold Sending.Reported
    decide +kernel
  refine ⟨?_,by decide +kernel,?_,?_,again,?_⟩
  · simp [tinyLegit]
  · intro i known
    rw [tinyOnly known]
    exact Sending.seenMono (tinySeen 1) (by simp)
  · unfold Sending.Reported
    decide +kernel
  · intro exactly
    have first := (exactly [tinyDelivery 1] (tinyDelivery 2) [] rfl).mp again
    exact first.1 (tinySeen 1)

end OpenPulse.FileDelivery
