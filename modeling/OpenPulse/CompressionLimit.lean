import OpenPulse.Compression

/-! Which data come back out of a packed frame: the receiver refuses sizes the
sender still compresses. -/
namespace OpenPulse.Compression
open ByteCodec

/-- What the libraries document: a decompressor never gives more than the size it is called with. -/
structure Codecs.Bounded (c : Codecs) : Prop where
  lz4 : ∀ block size out, c.lz4Unblock block size = .ok out → out.length ≤ size
  zstd : ∀ frame size out, c.zstdUnframe frame size = .ok out → out.length ≤ size

def Incompressible (c : Codecs) (data : Bytes) : Prop :=
  data.length ≤ (compress c data .lz4).length ∧ data.length ≤ (compress c data (.zstd zstdDictId)).length

variable {c : Codecs}

theorem bestLength (data : Bytes) : data.length ≤ (bestOf c data).1.length ↔ Incompressible c data := by
  unfold Incompressible bestOf
  simp only [compress]
  split <;> dsimp only <;> omega

theorem mapErrorOk {α ε δ : Type} {f : ε → δ} {r : Except ε α} {a : α} (ok : r.mapError f = .ok a) : r = .ok a := by
  cases r with
  | error e => cases ok
  | ok b =>
    cases ok
    rfl

theorem decompressBounded (bounded : c.Bounded) {data out : Bytes} {algo : CompressionAlgorithm} (packed : algo ≠ .none)
    (ok : decompress c data algo = .ok out) : out.length ≤ maxDecompressedSize := by
  cases algo with
  | none => exact absurd rfl packed
  | lz4 =>
    simp only [decompress] at ok
    split at ok
    · cases ok
    split at ok
    · cases ok
    rename_i within
    exact Nat.le_trans (bounded.lz4 _ _ out (mapErrorOk ok)) (Nat.not_lt.mp within)
  | zstd dictId =>
    simp only [decompress] at ok
    split at ok
    · cases ok
    split at ok
    · cases ok
    rename_i within
    exact Nat.le_trans (bounded.zstd _ _ out (mapErrorOk ok)) (Nat.not_lt.mp within)

theorem chosenSame {data : Bytes} (kept : Incompressible c data) : compressIfSmaller c data = (data,.none) :=
  if_neg (Nat.not_lt.mpr ((bestLength data).mpr kept))

theorem chosenPacked {data : Bytes} (shorter : ¬ Incompressible c data) : (compressIfSmaller c data).2 ≠ .none := by
  rw [compressIfSmaller, if_pos (Nat.not_le.mp (fun long => shorter ((bestLength data).mp long)))]
  rcases bestCases (c := c) data with best | best
  · rw [best]
    exact fun same => (nomatch same)
  · rw [best]
    exact fun same => (nomatch same)

theorem packedLost (bounded : c.Bounded) {data : Bytes} (large : maxDecompressedSize < data.length)
    (shorter : ¬ Incompressible c data) : unpack c (pack c data) ≠ some data := by
  intro same
  rw [pack, unpackTagged _ _ (chosenKnown data)] at same
  cases read : decompress c (compressIfSmaller c data).1 (compressIfSmaller c data).2 with
  | error e =>
    rw [read] at same
    cases same
  | ok out =>
    rw [read] at same
    cases same
    exact absurd (decompressBounded bounded (chosenPacked shorter) read) (Nat.not_le.mpr large)

theorem unpackPackIff (lossless : c.RoundTrip) (bounded : c.Bounded) (data : Bytes) :
    unpack c (pack c data) = some data ↔ data.length ≤ maxDecompressedSize ∨ Incompressible c data := by
  constructor
  · intro same
    by_contra lost
    simp only [not_or, Nat.not_le] at lost
    exact packedLost bounded lost.1 lost.2 same
  · rintro (small | kept)
    · exact unpackPack small lossless
    · rw [pack, unpackTagged _ _ (chosenKnown data), chosenSame kept]
      rfl

/- An LZ4 block of one literal, one match and the five last literals, and a
Zstandard frame with one block of run length; other data is stored. -/
def literals (n : Nat) : Bytes :=
  if n < 15 then [(16 * n).toUInt8] else 240 :: (List.replicate ((n - 15) / 255) 255 ++ [((n - 15) % 255).toUInt8])

def runBlock (n : Nat) : Bytes :=
  [0x1F,0,1,0] ++ List.replicate ((n - 25) / 255) 255 ++ [((n - 25) % 255).toUInt8] ++ [0x50,0,0,0,0,0]

def runFrame (n : Nat) : Bytes :=
  [40,181,47,253,0x63] ++ le 4 zstdDictId.toNat ++ le 2 (n - 256) ++ le 3 (8 * n + 3) ++ [0]

def Run (least most : Nat) (data : Bytes) : Prop :=
  data = List.replicate data.length 0 ∧ least ≤ data.length ∧ data.length < most

instance (least most : Nat) (data : Bytes) : Decidable (Run least most data) := inferInstanceAs (Decidable (_ ∧ _))

def running : Codecs where
  lz4Block data := if Run 25 (2 ^ 32) data then runBlock data.length else literals data.length ++ data
  lz4Unblock block n :=
    if 25 ≤ n ∧ block = runBlock n then .ok (List.replicate n 0) else .ok (block.drop (block.length - n))
  zstdFrame data := if Run 256 65792 data then some (runFrame data.length) else none
  zstdUnframe frame n := if frame = runFrame n then .ok (List.replicate n 0) else .error "Data corruption detected"

theorem runningLossless : running.RoundTrip := by
  constructor
  · intro data
    simp only [running]
    by_cases run : Run 25 (2 ^ 32) data
    · rw [if_pos run, if_pos ⟨run.2.1,rfl⟩, ← run.1]
    · have differ : ¬ (25 ≤ data.length ∧ literals data.length ++ data = runBlock data.length) := by
        rintro ⟨long,same⟩
        have length := congrArg List.length same
        simp only [runBlock, List.length_append, List.length_cons, List.length_nil, List.length_replicate] at length
        omega
      rw [if_neg run, if_neg differ]
      simp
  · intro data frame made
    simp only [running] at made ⊢
    split at made
    · rename_i run
      cases made
      rw [if_pos rfl, ← run.1]
    · cases made

theorem runningBounded : running.Bounded := by
  constructor
  · intro block size out ok
    simp only [running] at ok
    split at ok
    · cases ok
      simp
    · cases ok
      rw [List.length_drop]
      omega
  · intro frame size out ok
    simp only [running] at ok
    split at ok
    · cases ok
      simp
    · cases ok

theorem runShorter {n : Nat} (least : 256 ≤ n) (most : n < 65792) : ¬ Incompressible running (List.replicate n 0) := by
  intro kept
  have run : Run 256 65792 (List.replicate n 0) := by
    unfold Run
    rw [List.length_replicate]
    exact ⟨rfl,least,most⟩
  have frame : (compress running (List.replicate n 0) (.zstd zstdDictId)).length = 19 := by
    simp only [compress, zstdCompress, running, if_pos run, runFrame, List.length_append, beLength, leLength,
      List.length_cons, List.length_nil]
  have long := kept.2
  rw [frame, List.length_replicate] at long
  omega

def longRun : Bytes := List.replicate 64006 0

theorem unpackPackSample : unpack running (pack running longRun) = some longRun ↔
    longRun.length ≤ maxDecompressedSize ∨ Incompressible running longRun :=
  unpackPackIff runningLossless runningBounded longRun

theorem packNotLossless : ¬ ∀ c : Codecs, c.RoundTrip → c.Bounded → ∀ data, unpack c (pack c data) = some data := by
  intro lossless
  have large : maxDecompressedSize < longRun.length := by
    rw [longRun, List.length_replicate]
    decide
  exact packedLost runningBounded large (runShorter (by decide) (by decide)) (lossless running runningLossless runningBounded longRun)

end OpenPulse.Compression
