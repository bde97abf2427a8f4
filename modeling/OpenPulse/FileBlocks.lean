import OpenPulse.Bitmap
import OpenPulse.Compression
import OpenPulse.FxWire
import OpenPulse.Sar

/-! Files, blocks and fragments: `openpulse-filexfer/src/blocks.rs`. A block is
packed, wrapped in a FileData frame and cut into the fragments of one segment,
whose id is the block index plus one. The assembler keeps, for every block, which
fragments have come, and the unpacked bytes of the blocks that are complete. -/
namespace OpenPulse.FileBlocks
open ByteCodec Bitmap Compression FxWire Sar Tables

def sarSession : String := "filexfer"
def blockSarTimeoutSecs : Nat := 300

def blockCount (fileSize blockSize : Nat) : Option UInt16 :=
  if blockSize = 0 then none
  else
    let n := max ((fileSize + blockSize - 1) / blockSize) 1
    if n ≤ maxBlockCount then some n.toUInt16 else none

def splitBlocks (file : Bytes) (blockSize : Nat) : List Bytes :=
  if file.isEmpty then [[]]
  else (List.range ((file.length + blockSize - 1) / blockSize)).map (piece blockSize file)

def blockSegmentId (blockIndex : UInt16) : UInt16 := blockIndex + 1

section Coding
variable (c : Codecs)

def blockFrame (transferId : UInt32) (blockIndex : UInt16) (block : Bytes) : Bytes :=
  FxFrame.encode (.fileData transferId blockIndex (pack c block))

def selected (bitmap : Bytes) (fragments : List Bytes) : List Bytes :=
  (fragments.zipIdx.filter fun f => bitIsSet bitmap f.2).map Prod.fst

def encodeBlock (transferId : UInt32) (blockIndex : UInt16) (block : Bytes) (missing : Option Bytes) :
    Except FxError (List Bytes) :=
  match sarEncode (blockSegmentId blockIndex) (blockFrame c transferId blockIndex block) with
  | .error _ => .error (.blockTooLarge blockIndex)
  | .ok fragments =>
    match missing with
    | none => .ok fragments
    | some bitmap => .ok (selected bitmap fragments)

end Coding

structure FragTracker where
  total : UInt8
  seen : List Bool
  deriving DecidableEq, Repr

structure BlockAssembler where
  transferId : UInt32
  blockCount : UInt16
  blockSize : UInt32
  fileSize : UInt64
  reasm : SarReassembler
  seen : Table UInt16 FragTracker
  blocks : Table UInt16 Bytes

inductive BlockEvent where
  | progress (blockIndex : UInt16)
  | complete (blockIndex : UInt16)
  | ignored
  deriving DecidableEq, Repr

namespace BlockAssembler

def new (transferId : UInt32) (blockCount : UInt16) (blockSize : UInt32) (fileSize : UInt64) : BlockAssembler :=
  ⟨transferId,blockCount,blockSize,fileSize,.new blockSarTimeoutSecs,∅,∅⟩

-- The product of a u16 and a u32 does not reach the saturation of the source's u64.
def expectedBlockLen (a : BlockAssembler) (blockIndex : UInt16) : Nat :=
  min (a.fileSize.toNat - blockIndex.toNat * a.blockSize.toNat) a.blockSize.toNat

def FragTracker.mark (t : FragTracker) (fragIndex fragTotal : UInt8) : FragTracker :=
  if t.total = fragTotal then { t with seen := t.seen.set fragIndex.toNat true } else t

def track (a : BlockAssembler) (blockIndex : UInt16) (fragIndex fragTotal : UInt8) : BlockAssembler :=
  let tracker := (a.seen.lookup blockIndex).getD ⟨fragTotal,List.replicate fragTotal.toNat false⟩
  { a with seen := a.seen.insert blockIndex (FragTracker.mark tracker fragIndex fragTotal) }

variable (c : Codecs)

def accepts (a : BlockAssembler) (blockIndex : UInt16) (frameBytes : Bytes) : Option Bytes :=
  match FxFrame.decode frameBytes with
  | .ok (.fileData transferId bi packed) =>
    if transferId = a.transferId ∧ bi = blockIndex then
      let block := (unpack c packed).getD packed
      if block.length = a.expectedBlockLen blockIndex then some block else none
    else none
  | _ => none

def settle (a : BlockAssembler) (blockIndex : UInt16) : Except SarError (List Bytes) → BlockEvent × BlockAssembler
  | .error _ => (.ignored,a)
  | .ok completed =>
    if completed.isEmpty then (.progress blockIndex,a)
    else
      match completed.findSome? (a.accepts c blockIndex) with
      | some block => (.complete blockIndex,{ a with blocks := a.blocks.insert blockIndex block })
      | none => (.ignored,a)

def ingestFragment (a : BlockAssembler) (now : Nat) (fragment : Bytes) : BlockEvent × BlockAssembler :=
  match fragment with
  | hi::lo::fragIndex::fragTotal::_ =>
    let segmentId := hi.toUInt16 <<< 8 ||| lo.toUInt16
    if segmentId = 0 ∨ fragTotal = 0 ∨ fragTotal ≤ fragIndex then (.ignored,a)
    else
      let blockIndex := segmentId - 1
      if a.blockCount ≤ blockIndex then (.ignored,a)
      else
        let a := a.track blockIndex fragIndex fragTotal
        let out := a.reasm.ingest now sarSession fragment
        settle c { a with reasm := out.2 } blockIndex out.1
  | _ => (.ignored,a)

def seedBlock (a : BlockAssembler) (blockIndex : UInt16) (bytes : Bytes) : BlockAssembler :=
  if blockIndex < a.blockCount ∧ bytes.length = a.expectedBlockLen blockIndex then
    { a with blocks := a.blocks.insert blockIndex bytes }
  else a

def block (a : BlockAssembler) (blockIndex : UInt16) : Option Bytes := a.blocks.lookup blockIndex

def missingBitmap (a : BlockAssembler) (blockIndex : UInt16) : Bytes :=
  match a.seen.lookup blockIndex with
  | none => []
  | some t => ofFlags (t.seen.map (! ·))

def isComplete (a : BlockAssembler) : Bool :=
  (List.range a.blockCount.toNat).all fun k => (a.blocks.lookup k.toUInt16).isSome

def reassemble (a : BlockAssembler) : Option Bytes :=
  if a.isComplete then
    ((List.range a.blockCount.toNat).mapM fun k => a.blocks.lookup k.toUInt16).map List.flatten
  else none

end BlockAssembler

end OpenPulse.FileBlocks
