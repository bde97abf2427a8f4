import OpenPulse.ByteCodec

/-! Self-describing compressed frames: `openpulse-core/src/compression.rs`. The
LZ4 and Zstandard libraries are parameters: their compressors and decompressors
of bare blocks. The size prefixes, the choice of the smaller result and the tags
are the source's own. -/
namespace OpenPulse.Compression
open ByteCodec

def maxDecompressedSize : Nat := 64005
-- Bytes 4 to 7 of the embedded dictionary.
def zstdDictId : UInt32 := 2104440671

inductive CompressionAlgorithm where
  | none
  | lz4
  | zstd (dictId : UInt32)
  deriving DecidableEq, Repr

inductive CompressionError where
  | decompressFailed (text : String)
  | decompressedSizeTooLarge (claimed limit : Nat)
  deriving DecidableEq, Repr

/-- The two libraries, on blocks without a size prefix. The decompressors take the size of the result. -/
structure Codecs where
  lz4Block : Bytes → Bytes
  lz4Unblock : Bytes → Nat → Except String Bytes
  zstdFrame : Bytes → Option Bytes
  zstdUnframe : Bytes → Nat → Except String Bytes

/-- What the libraries document: a result of the compressor decompresses to the input. -/
structure Codecs.RoundTrip (c : Codecs) : Prop where
  lz4 : ∀ data, c.lz4Unblock (c.lz4Block data) data.length = .ok data
  zstd : ∀ data frame, c.zstdFrame data = some frame → c.zstdUnframe frame data.length = .ok data

variable (c : Codecs)

def compressPrependSize (data : Bytes) : Bytes := le 4 data.length ++ c.lz4Block data

def decompressSizePrepended (data : Bytes) : Except String Bytes := c.lz4Unblock (data.drop 4) (readLe (data.take 4))

-- A failing compressor leaves a size no decompressor accepts, and a result that is never the smaller one.
def zstdCompress (data : Bytes) : Bytes :=
  match c.zstdFrame data with
  | some frame => be 4 data.length ++ frame
  | none => be 4 4294967295 ++ data

def compress (data : Bytes) : CompressionAlgorithm → Bytes
  | .none => data
  | .lz4 => compressPrependSize c data
  | .zstd _ => zstdCompress c data

def decompress (data : Bytes) : CompressionAlgorithm → Except CompressionError Bytes
  | .none => .ok data
  | .lz4 =>
    if data.length < 4 then .error (.decompressFailed "input too short for size prefix")
    else
      let claimed := readLe (data.take 4)
      if maxDecompressedSize < claimed then .error (.decompressedSizeTooLarge claimed maxDecompressedSize)
      else (decompressSizePrepended c data).mapError .decompressFailed
  | .zstd _ =>
    if data.length < 4 then .error (.decompressFailed "input too short for size prefix")
    else
      let claimed := readBe (data.take 4)
      if maxDecompressedSize < claimed then .error (.decompressedSizeTooLarge claimed maxDecompressedSize)
      else (c.zstdUnframe (data.drop 4) claimed).mapError .decompressFailed

def bestOf (data : Bytes) : Bytes × CompressionAlgorithm :=
  if (compressPrependSize c data).length ≤ (zstdCompress c data).length then (compressPrependSize c data,.lz4)
  else (zstdCompress c data,.zstd zstdDictId)

def compressIfSmaller (data : Bytes) : Bytes × CompressionAlgorithm :=
  if (bestOf c data).1.length < data.length then bestOf c data else (data,.none)

def packMagic : Bytes := [79, 80, 90, 49]

def CompressionAlgorithm.tag : CompressionAlgorithm → UInt8
  | .none => 0
  | .lz4 => 1
  | .zstd _ => 2

def pack (data : Bytes) : Bytes :=
  packMagic ++ ((compressIfSmaller c data).2.tag :: (compressIfSmaller c data).1)

def unpack (framed : Bytes) : Option Bytes :=
  if framed.length < packMagic.length + 1 ∨ framed.take packMagic.length ≠ packMagic then none
  else
    match framed.drop packMagic.length with
    | 0::payload => (decompress c payload .none).toOption
    | 1::payload => (decompress c payload .lz4).toOption
    | 2::payload => (decompress c payload (.zstd zstdDictId)).toOption
    | _ => none

variable {c}

theorem decompressPrefixed {data : Bytes} (small : data.length ≤ maxDecompressedSize) (lossless : c.RoundTrip) :
    decompress c (compressPrependSize c data) .lz4 = .ok data := by
  have bound : data.length < 256 ^ 4 := by
    unfold maxDecompressedSize at small
    omega
  have size : readLe ((compressPrependSize c data).take 4) = data.length := by
    simp [compressPrependSize, readLe, le, readBeBounded bound]
  have rest : (compressPrependSize c data).drop 4 = c.lz4Block data := by simp [compressPrependSize]
  have long : ¬ (compressPrependSize c data).length < 4 := by simp [compressPrependSize]
  simp only [decompress, decompressSizePrepended, size, rest, long, if_false, not_lt.mpr small, lossless.lz4 data]
  rfl

theorem decompressFramed {data frame : Bytes} (small : data.length ≤ maxDecompressedSize) (lossless : c.RoundTrip)
    (made : c.zstdFrame data = some frame) (dictId : UInt32) :
    decompress c (zstdCompress c data) (.zstd dictId) = .ok data := by
  have bound : data.length < 256 ^ 4 := by
    unfold maxDecompressedSize at small
    omega
  have whole : zstdCompress c data = be 4 data.length ++ frame := by rw [zstdCompress, made]
  have size : readBe ((be 4 data.length ++ frame).take 4) = data.length := by simp [readBeBounded bound]
  have rest : (be 4 data.length ++ frame).drop 4 = frame := by simp
  have long : ¬ (be 4 data.length ++ frame).length < 4 := by simp
  simp only [decompress, whole, size, rest, long, if_false, not_lt.mpr small, lossless.zstd data frame made]
  rfl

theorem bestCases (data : Bytes) : bestOf c data = (compressPrependSize c data,.lz4) ∨
    bestOf c data = (zstdCompress c data,.zstd zstdDictId) := by
  unfold bestOf
  split
  · exact Or.inl rfl
  · exact Or.inr rfl

theorem decompressChosen {data : Bytes} (small : data.length ≤ maxDecompressedSize) (lossless : c.RoundTrip) :
    decompress c (compressIfSmaller c data).1 (compressIfSmaller c data).2 = .ok data := by
  unfold compressIfSmaller
  split
  next shorter =>
    rcases bestCases data with best | best
    · rw [best]
      exact decompressPrefixed small lossless
    · rw [best] at shorter ⊢
      cases made : c.zstdFrame data with
      | some frame => exact decompressFramed small lossless made zstdDictId
      | none =>
        simp only [zstdCompress, made, List.length_append, beLength] at shorter
        omega
  next => rfl

theorem unpackTagged (algo : CompressionAlgorithm) (payload : Bytes) (known : algo = .none ∨ algo = .lz4 ∨ algo = .zstd zstdDictId) :
    unpack c (packMagic ++ (algo.tag :: payload)) = (decompress c payload algo).toOption := by
  unfold unpack
  rw [if_neg (by simp [packMagic])]
  rcases known with rfl | rfl | rfl
  · rfl
  · rfl
  · rfl

theorem chosenKnown (data : Bytes) : (compressIfSmaller c data).2 = .none ∨ (compressIfSmaller c data).2 = .lz4 ∨
    (compressIfSmaller c data).2 = .zstd zstdDictId := by
  unfold compressIfSmaller
  split
  · rcases bestCases data with best | best
    · exact Or.inr (Or.inl (by rw [best]))
    · exact Or.inr (Or.inr (by rw [best]))
  · exact Or.inl rfl

theorem unpackPack {data : Bytes} (small : data.length ≤ maxDecompressedSize) (lossless : c.RoundTrip) :
    unpack c (pack c data) = some data := by
  rw [pack, unpackTagged _ _ (chosenKnown data), decompressChosen small lossless]
  rfl

theorem packLength (data : Bytes) : (pack c data).length ≤ data.length + 5 := by
  have chosen : (compressIfSmaller c data).1.length ≤ data.length := by
    unfold compressIfSmaller
    split
    next shorter => exact Nat.le_of_lt shorter
    next => exact Nat.le_refl _
  simp only [pack, packMagic, List.length_append, List.length_cons, List.length_nil]
  omega

end OpenPulse.Compression
