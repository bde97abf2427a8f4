import OpenPulse.Downloads
import OpenPulse.FileBlocks

/-! A received file is no longer than its offer says. Whatever fragments and saved
blocks come, the assembler stores a block only at the length the offer gives it. -/
namespace OpenPulse.BlockBounds
open ByteCodec Compression FxWire Sar Tables FileBlocks Downloads

inductive Call where
  | ingest (now : Nat) (fragment : Bytes)
  | seed (blockIndex : UInt16) (bytes : Bytes)
  deriving DecidableEq, Repr

def Call.apply (c : Codecs) (a : BlockAssembler) : Call → BlockAssembler
  | .ingest now fragment => (a.ingestFragment c now fragment).2
  | .seed blockIndex bytes => a.seedBlock blockIndex bytes

def run (c : Codecs) (a : BlockAssembler) (calls : List Call) : BlockAssembler := calls.foldl (Call.apply c) a

structure Geometry where
  blockCount : UInt16
  blockSize : UInt32
  fileSize : UInt64
  deriving DecidableEq, Repr

def geometry (a : BlockAssembler) : Geometry := ⟨a.blockCount,a.blockSize,a.fileSize⟩

def Geometry.blockLength (g : Geometry) (i : UInt16) : Nat := min (g.fileSize.toNat - i.toNat * g.blockSize.toNat) g.blockSize.toNat

structure Bounded (g : Geometry) (a : BlockAssembler) : Prop where
  same : geometry a = g
  blocks : ∀ i block, a.block i = some block → i < g.blockCount ∧ block.length = g.blockLength i

variable {g : Geometry} {a : BlockAssembler} {c : Codecs}

theorem Bounded.expected (bounded : Bounded g a) (i : UInt16) : a.expectedBlockLen i = g.blockLength i := by
  rw [← bounded.same]
  rfl

theorem Bounded.store (bounded : Bounded g a) {i : UInt16} {block : Bytes} (known : i < a.blockCount)
    (length : block.length = a.expectedBlockLen i) : Bounded g { a with blocks := a.blocks.insert i block } := by
  refine ⟨bounded.same,fun j other stored => ?_⟩
  rw [BlockAssembler.block, lookupInsert] at stored
  split at stored
  · rename_i here
    cases stored
    rw [here, ← bounded.expected, ← bounded.same]
    exact ⟨known,length⟩
  · exact bounded.blocks j other stored

theorem Bounded.tracked (bounded : Bounded g a) (i : UInt16) (fragIndex fragTotal : UInt8) (reasm : SarReassembler) :
    Bounded g { a.track i fragIndex fragTotal with reasm } := ⟨bounded.same,bounded.blocks⟩

theorem acceptsLength {i : UInt16} {frame block : Bytes} (accepted : a.accepts c i frame = some block) :
    block.length = a.expectedBlockLen i := by
  unfold BlockAssembler.accepts at accepted
  split at accepted
  · dsimp only at accepted
    split at accepted
    · split at accepted
      · cases accepted
        assumption
      · cases accepted
    · cases accepted
  · cases accepted

theorem settleBounded (bounded : Bounded g a) {i : UInt16} (known : i < a.blockCount) (result : Except SarError (List Bytes)) :
    Bounded g (a.settle c i result).2 := by
  unfold BlockAssembler.settle
  split
  · exact bounded
  · split
    · exact bounded
    · split
      · rename_i block found
        obtain ⟨frame,-,accepted⟩ := List.exists_of_findSome?_eq_some found
        exact bounded.store known (acceptsLength accepted)
      · exact bounded

theorem ingestBounded (bounded : Bounded g a) (now : Nat) (fragment : Bytes) : Bounded g (a.ingestFragment c now fragment).2 := by
  unfold BlockAssembler.ingestFragment
  split
  · dsimp only
    split
    · exact bounded
    · split
      · exact bounded
      · rename_i known
        exact settleBounded (bounded.tracked _ _ _ _) (UInt16.not_le.mp known) _
  · exact bounded

theorem seedBounded (bounded : Bounded g a) (i : UInt16) (bytes : Bytes) : Bounded g (a.seedBlock i bytes) := by
  unfold BlockAssembler.seedBlock
  split
  · exact bounded.store (And.left ‹_›) (And.right ‹_›)
  · exact bounded

theorem runBounded (bounded : Bounded g a) (calls : List Call) : Bounded g (run c a calls) := by
  induction calls generalizing a with
  | nil => exact bounded
  | cons call calls ih =>
    cases call with
    | ingest now fragment => exact ih (ingestBounded bounded now fragment)
    | seed i bytes => exact ih (seedBounded bounded i bytes)

theorem flattenLength {A : Type} {xs : List A} {f : A → Option Bytes} {len : A → Nat} {parts : List Bytes}
    (each : ∀ x ∈ xs, ∀ part, f x = some part → part.length = len x) (read : xs.mapM f = some parts) :
    parts.flatten.length = (xs.map len).sum := by
  induction xs generalizing parts with
  | nil =>
    cases read
    rfl
  | cons x xs ih =>
    rw [List.mapM_cons] at read
    obtain ⟨part,first,read⟩ := Option.bind_eq_some_iff.mp read
    obtain ⟨rest,later,last⟩ := Option.bind_eq_some_iff.mp read
    cases last
    rw [List.flatten_cons, List.length_append, each x (by simp) part first, ih (fun y member => each y (by simp [member])) later,
      List.map_cons, List.sum_cons]

theorem piecesSum (fileSize blockSize n : Nat) :
    ((List.range n).map fun k => min (fileSize - k * blockSize) blockSize).sum = min fileSize (n * blockSize) := by
  induction n with
  | zero => simp
  | succ n ih =>
    rw [List.range_succ, List.map_append, List.sum_append, ih, List.map_singleton, List.sum_singleton, Nat.succ_mul]
    omega

theorem Bounded.reassembled (bounded : Bounded g a) {bytes : Bytes} (whole : a.reassemble = some bytes) :
    bytes.length = min g.fileSize.toNat (g.blockCount.toNat * g.blockSize.toNat) := by
  unfold BlockAssembler.reassemble at whole
  split at whole
  · obtain ⟨parts,read,last⟩ := Option.map_eq_some_iff.mp whole
    have count : a.blockCount = g.blockCount := congrArg Geometry.blockCount bounded.same
    rw [← last, ← piecesSum, ← count]
    refine flattenLength (fun k member part stored => ?_) read
    have small := List.mem_range.mp member
    have bound := a.blockCount.toNat_lt
    have index : k.toUInt16.toNat = k := by
      rw [Nat.toUInt16_eq, UInt16.toNat_ofNat']
      omega
    rw [(bounded.blocks _ part stored).2, Geometry.blockLength, index]
  · cases whole

theorem quotaMono {policy : FileTransferPolicy} {disk : Disk} {sender : String} {less more : Nat} (le : less ≤ more)
    (approved : quotaWouldExceed policy disk sender more = false) : quotaWouldExceed policy disk sender less = false := by
  simp only [quotaWouldExceed, Bool.and_eq_false_iff, bne_eq_false_iff_eq, decide_eq_false_iff_not] at approved ⊢
  omega

theorem receivedLength (c : Codecs) (transferId : UInt32) (g : Geometry) (calls : List Call) :
    let a := run c (.new transferId g.blockCount g.blockSize g.fileSize) calls
    (∀ i block, a.block i = some block → i < g.blockCount ∧ block.length = a.expectedBlockLen i ∧
        a.expectedBlockLen i = min (g.fileSize.toNat - i.toNat * g.blockSize.toNat) g.blockSize.toNat) ∧
      ∀ bytes, a.reassemble = some bytes →
        bytes.length = min g.fileSize.toNat (g.blockCount.toNat * g.blockSize.toNat) ∧
          ∀ policy disk sender, quotaWouldExceed policy disk sender g.fileSize.toNat = false →
            quotaWouldExceed policy disk sender bytes.length = false := by
  intro a
  have fresh : Bounded g (.new transferId g.blockCount g.blockSize g.fileSize) := by
    refine ⟨rfl,fun i block stored => ?_⟩
    simp [BlockAssembler.block, BlockAssembler.new] at stored
  have bounded : Bounded g a := runBounded fresh calls
  refine ⟨fun i block stored => ?_,fun bytes whole => ?_⟩
  · obtain ⟨known,length⟩ := bounded.blocks i block stored
    exact ⟨known,by rw [length, bounded.expected],bounded.expected i⟩
  · have length := bounded.reassembled whole
    refine ⟨length,fun policy disk sender approved => quotaMono ?_ approved⟩
    rw [length]
    exact Nat.min_le_left _ _

end OpenPulse.BlockBounds
