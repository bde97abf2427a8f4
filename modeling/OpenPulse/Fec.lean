import Mathlib.FieldTheory.Finite.GaloisField
import OpenPulse.Engine
import OpenPulse.ReedSolomon

/-! The Reed-Solomon layer, `FecCodec` of `openpulse-core/src/fec.rs`. The data goes
out behind its length in blocks of 255 bytes. The block code is a library's and a
parameter here. -/
namespace OpenPulse.Fec
open ByteCodec Engine ReedSolomon

def blockTotal : Nat := 255
def prefixLen : Nat := 4
def fecEccLen : Nat := 32
def fecEccLenStrong : Nat := 64

/-- The library's codec with this many check bytes, which come after the data. A
corrected block is as long as it was. An error is given by its debug text. -/
structure RsCodec (eccLen : Nat) where
  encode : Bytes → Bytes
  correct : Bytes → Except String Bytes
  encodeLength : ∀ data, data.length + eccLen ≤ blockTotal → (encode data).length = data.length + eccLen
  encodeStarts : ∀ data, data.length + eccLen ≤ blockTotal → (encode data).take data.length = data
  correctLength : ∀ block out, correct block = .ok out → out.length = block.length

/-- A block with errors in at most half as many bytes as there are check bytes is
corrected, and so a block without errors is kept. -/
def RsCodec.Corrects {eccLen : Nat} (rs : RsCodec eccLen) : Prop :=
  ∀ data block, data.length + eccLen = blockTotal → block.length = blockTotal → errors (rs.encode data) block ≤ eccLen / 2 →
    rs.correct block = .ok (rs.encode data)

def divCeil (a b : Nat) : Nat := (a + b - 1) / b

def chunks (size : Nat) (data : Bytes) : List Bytes :=
  (List.range (divCeil data.length size)).map (fun i => slice (i * size) size data)

/- Nothing stands for the panic of a slice out of range. -/
def checkedSlice (raw : Bytes) (first stop : Nat) : Option Bytes :=
  if first ≤ stop ∧ stop ≤ raw.length then some ((raw.take stop).drop first) else none

def checkedAdd (a b : Nat) : Option Nat := if a + b < 2 ^ 64 then some (a + b) else none

structure FecCodec where
  eccLen : Nat
  rs : RsCodec eccLen

namespace FecCodec

def new (library : ∀ eccLen, RsCodec eccLen) : FecCodec := ⟨fecEccLen,library fecEccLen⟩

def strong (library : ∀ eccLen, RsCodec eccLen) : FecCodec := ⟨fecEccLenStrong,library fecEccLenStrong⟩

def blockData (self : FecCodec) : Nat := blockTotal - self.eccLen

def padded (self : FecCodec) (data : Bytes) : Bytes :=
  let input := be prefixLen data.length ++ data
  input ++ List.replicate (divCeil input.length self.blockData * self.blockData - input.length) 0

def encode (self : FecCodec) (data : Bytes) : Bytes := (chunks self.blockData (self.padded data)).flatMap self.rs.encode

def correctBlocks (self : FecCodec) : Nat → List Bytes → Option (Except ModemError Bytes)
  | _, [] => some (.ok [])
  | i, block::rest =>
    match self.rs.correct block with
    | .error e => some (.error (.fec s!"RS correction failed at block {i}: {e}"))
    | .ok corrected =>
      (checkedSlice corrected 0 self.blockData).bind fun head =>
        (self.correctBlocks (i + 1) rest).map fun tail => tail.map (head ++ ·)

def tooShort (held need : Nat) : ModemError := .fec s!"decoded data shorter than expected: have {held} bytes, need {need}"

def stripped (decoded : Bytes) : Option (Except ModemError Bytes) :=
  if decoded.length < prefixLen then some (.error (.fec "decoded data too short to contain length prefix"))
  else
    (checkedSlice decoded 0 prefixLen).bind fun width =>
      let origLen := readBe width
      match checkedAdd prefixLen origLen with
      | none => some (.error (tooShort decoded.length (prefixLen + origLen)))
      | some stop =>
        if stop ≤ decoded.length then (checkedSlice decoded prefixLen stop).map .ok
        else some (.error (tooShort decoded.length (prefixLen + origLen)))

def decode (self : FecCodec) (data : Bytes) : Option (Except ModemError Bytes) :=
  if data.isEmpty || data.length % blockTotal ≠ 0 then
    some (.error (.fec s!"FEC data length {data.length} is not a non-zero multiple of {blockTotal}"))
  else
    (self.correctBlocks 0 (chunks blockTotal data)).bind fun
      | .error e => some (.error e)
      | .ok decoded => stripped decoded

def tryBlocks (self : FecCodec) (data : Bytes) : Nat → Nat → Option ModemError → Option (Except ModemError Bytes)
  | 0, _, last => some (.error (last.getD (.fec "FEC prefix decode failed")))
  | left + 1, k, _ =>
    (checkedSlice data 0 (k * blockTotal)).bind fun start =>
      (self.decode start).bind fun
        | .ok out => some (.ok out)
        | .error e => self.tryBlocks data left (k + 1) (some e)

def decodePrefix (self : FecCodec) (data : Bytes) : Option (Except ModemError Bytes) :=
  let blocks := data.length / blockTotal
  if blocks = 0 then some (.error (.fec s!"FEC data length {data.length} is shorter than one {blockTotal}-byte block"))
  else self.tryBlocks data blocks 1 none

end FecCodec

theorem checkedSliceFits {raw : Bytes} {first stop : Nat} (order : first ≤ stop) (fits : stop ≤ raw.length) :
    checkedSlice raw first stop = some ((raw.take stop).drop first) := if_pos ⟨order,fits⟩

theorem divCeilCovers {a b : Nat} (positive : 0 < b) : a ≤ divCeil a b * b ∧ (divCeil a b * b < a + b) := by
  have cut := Nat.div_add_mod (a + b - 1) b
  have rest := Nat.mod_lt (a + b - 1) positive
  unfold divCeil
  rw [Nat.mul_comm b] at cut
  omega

theorem divCeilWhole {b : Nat} (positive : 0 < b) (n : Nat) : divCeil (n * b) b = n := by
  obtain ⟨low,high⟩ := divCeilCovers (a := n * b) positive
  have le := Nat.le_of_mul_le_mul_right low positive
  have lt : divCeil (n * b) b < n + 1 := Nat.lt_of_mul_lt_mul_right (a := b) (by rwa [Nat.add_mul, Nat.one_mul])
  omega

theorem chunksWhole {size n : Nat} (positive : 0 < size) {data : Bytes} (whole : data.length = n * size) :
    chunks size data = (List.range n).map (fun i => slice (i * size) size data) := by
  rw [chunks, whole, divCeilWhole positive]

theorem sliceLength {size n i : Nat} {data : Bytes} (whole : data.length = n * size) (inside : i < n) :
    (slice (i * size) size data).length = size := by
  have below : (i + 1) * size ≤ n * size := Nat.mul_le_mul_right size inside
  rw [Nat.add_mul, Nat.one_mul] at below
  rw [slice, List.length_take, List.length_drop]
  omega

theorem slicesFlatten (size k : Nat) (data : Bytes) :
    ((List.range k).map (fun i => slice (i * size) size data)).flatten = data.take (k * size) := by
  induction k with
  | zero => rw [Nat.zero_mul]; rfl
  | succ k ih =>
    rw [List.range_succ, List.map_append, List.flatten_append, ih, Nat.add_mul, Nat.one_mul, List.take_add, List.map_singleton,
      List.flatten_singleton]
    rfl

theorem sliceTaken {size k i : Nat} (inside : i < k) (data : Bytes) :
    slice (i * size) size (data.take (k * size)) = slice (i * size) size data := by
  have below : (i + 1) * size ≤ k * size := Nat.mul_le_mul_right size inside
  rw [Nat.add_mul, Nat.one_mul] at below
  rw [slice, slice, List.drop_take, List.take_take, Nat.min_eq_left (by omega)]

theorem flattenLength {size : Nat} {pieces : List Bytes} (each : ∀ p ∈ pieces, p.length = size) :
    pieces.flatten.length = pieces.length * size := by
  induction pieces with
  | nil => rw [List.length_nil, Nat.zero_mul]; rfl
  | cons p ps ih =>
    obtain ⟨first,rest⟩ := List.forall_mem_cons.mp each
    rw [List.flatten_cons, List.length_append, ih rest, first, List.length_cons, Nat.add_mul, Nat.one_mul, Nat.add_comm]

theorem sliceFlatten {size : Nat} {pieces : List Bytes} (each : ∀ p ∈ pieces, p.length = size) {i : Nat} {p : Bytes}
    (here : pieces[i]? = some p) : slice (i * size) size pieces.flatten = p := by
  induction pieces generalizing i with
  | nil => cases here
  | cons q qs ih =>
    obtain ⟨first,rest⟩ := List.forall_mem_cons.mp each
    cases i with
    | zero =>
      cases Option.some.inj here
      rw [slice, Nat.zero_mul, List.drop_zero, List.flatten_cons, List.take_left' first]
    | succ i =>
      rw [slice, Nat.add_mul, Nat.one_mul, Nat.add_comm, ← List.drop_drop, List.flatten_cons, List.drop_left' first]
      exact ih rest here

namespace FecCodec

theorem strippedSome (decoded : Bytes) : (stripped decoded).isSome := by
  unfold stripped
  split
  · rfl
  · next long =>
    have long := Nat.not_lt.mp long
    rw [checkedSliceFits (Nat.zero_le _) long, Option.bind_some]
    dsimp only
    split
    · rfl
    · next stop sum =>
      split
      · next fits =>
        have order : prefixLen ≤ stop := by
          unfold checkedAdd at sum
          split at sum
          · cases sum
            exact Nat.le_add_right _ _
          · cases sum
        rw [checkedSliceFits order fits]
        rfl
      · rfl

theorem correctBlocksSome (self : FecCodec) {blocks : List Bytes} (full : ∀ b ∈ blocks, b.length = blockTotal) (i : Nat) :
    (self.correctBlocks i blocks).isSome := by
  induction blocks generalizing i with
  | nil => rfl
  | cons b bs ih =>
    obtain ⟨first,rest⟩ := List.forall_mem_cons.mp full
    rw [correctBlocks]
    split
    · rfl
    · next corrected shown =>
      have length := self.rs.correctLength b corrected shown
      rw [checkedSliceFits (Nat.zero_le _) (by rw [length, first]; exact Nat.sub_le _ _), Option.bind_some, Option.isSome_map]
      exact ih rest (i + 1)

theorem decodeSome (self : FecCodec) (data : Bytes) : (self.decode data).isSome := by
  unfold decode
  split
  · rfl
  · next whole =>
    have whole : data.length = data.length / blockTotal * blockTotal := by
      rw [Bool.or_eq_true, decide_eq_true_eq, not_or, not_not] at whole
      exact (Nat.div_mul_cancel (Nat.dvd_of_mod_eq_zero whole.2)).symm
    have full : ∀ b ∈ chunks blockTotal data, b.length = blockTotal := fun b member => by
      rw [chunksWhole (by decide) whole] at member
      obtain ⟨i,inside,rfl⟩ := List.mem_map.mp member
      exact sliceLength whole (List.mem_range.mp inside)
    obtain ⟨result,shown⟩ := Option.isSome_iff_exists.mp (self.correctBlocksSome full 0)
    rw [shown, Option.bind_some]
    cases result with
    | error e => rfl
    | ok decoded => exact strippedSome decoded

theorem tryBlocksSome (self : FecCodec) (data : Bytes) (left k : Nat) (room : (k + left) * blockTotal ≤ data.length + blockTotal)
    (last : Option ModemError) : (self.tryBlocks data left k last).isSome := by
  induction left generalizing k last with
  | zero => rfl
  | succ left ih =>
    have fits : k * blockTotal ≤ data.length := by
      have below : (k + 1) * blockTotal ≤ (k + (left + 1)) * blockTotal := Nat.mul_le_mul_right _ (by omega)
      rw [Nat.add_mul, Nat.one_mul] at below
      omega
    rw [tryBlocks, checkedSliceFits (Nat.zero_le _) fits, Option.bind_some]
    obtain ⟨result,shown⟩ := Option.isSome_iff_exists.mp (self.decodeSome ((data.take (k * blockTotal)).drop 0))
    rw [shown, Option.bind_some]
    cases result with
    | ok out => rfl
    | error e => exact ih (k + 1) (Nat.le_trans (Nat.mul_le_mul_right _ (by omega)) room) (some e)

theorem decodePrefixSome (self : FecCodec) (data : Bytes) : (self.decodePrefix data).isSome := by
  unfold decodePrefix
  dsimp only
  split
  · rfl
  · refine self.tryBlocksSome data _ 1 ?_ none
    have cut := Nat.div_mul_le_self data.length blockTotal
    rw [Nat.add_mul, Nat.one_mul]
    omega

end FecCodec

def blockAt (data : Bytes) (i : Nat) : Bytes := slice (i * blockTotal) blockTotal data

theorem blockGet (raw : Bytes) (b : Nat) {j : Nat} (inside : j < blockTotal) : (blockAt raw b)[j]? = raw[b * blockTotal + j]? := by
  rw [blockAt, slice, List.getElem?_take_of_lt inside, List.getElem?_drop]

/-- What may arrive: of each block at most `t` bytes are wrong. -/
structure Damaged (t : Nat) (sent got : Bytes) : Prop where
  length : got.length = sent.length
  few : ∀ i, errors (blockAt sent i) (blockAt got i) ≤ t

namespace FecCodec

def blockCount (self : FecCodec) (data : Bytes) : Nat := divCeil (prefixLen + data.length) self.blockData

def chunkAt (self : FecCodec) (data : Bytes) (i : Nat) : Bytes := slice (i * self.blockData) self.blockData (self.padded data)

theorem inputLength (data : Bytes) : (be prefixLen data.length ++ data).length = prefixLen + data.length := by
  rw [List.length_append, beLength]

structure Corrected (codec : FecCodec) (data got : Bytes) : Prop where
  length : got.length = (codec.encode data).length
  good : ∀ i < codec.blockCount data, codec.rs.correct (blockAt got i) = .ok (codec.rs.encode (codec.chunkAt data i))

section Blocks
variable {self : FecCodec} (room : self.eccLen < blockTotal)
include room

theorem dataPositive : 0 < self.blockData := Nat.sub_pos_of_lt room

theorem blockFull : self.blockData + self.eccLen = blockTotal := Nat.sub_add_cancel (Nat.le_of_lt room)

theorem paddedLength (data : Bytes) : (self.padded data).length = self.blockCount data * self.blockData := by
  have covers := (divCeilCovers (a := prefixLen + data.length) (dataPositive room)).1
  rw [padded, List.length_append, List.length_replicate, inputLength, blockCount]
  omega

theorem chunkFull (data : Bytes) {i : Nat} (inside : i < self.blockCount data) :
    (self.chunkAt data i).length + self.eccLen = blockTotal := by
  rw [chunkAt, sliceLength (paddedLength room data) inside, blockFull room]

theorem encodePieces (data : Bytes) :
    self.encode data = ((List.range (self.blockCount data)).map (fun i => self.rs.encode (self.chunkAt data i))).flatten := by
  rw [encode, chunksWhole (dataPositive room) (paddedLength room data), List.flatMap_def, List.map_map]
  rfl

theorem piecesFull (data : Bytes) :
    ∀ p ∈ (List.range (self.blockCount data)).map (fun i => self.rs.encode (self.chunkAt data i)), p.length = blockTotal := by
  intro p member
  obtain ⟨i,inside,rfl⟩ := List.mem_map.mp member
  have full := chunkFull room data (List.mem_range.mp inside)
  rw [self.rs.encodeLength _ (Nat.le_of_eq full), full]

theorem encodeLength (data : Bytes) : (self.encode data).length = self.blockCount data * blockTotal := by
  rw [encodePieces room, flattenLength (piecesFull room data), List.length_map, List.length_range]

theorem encodeBlock (data : Bytes) {i : Nat} (inside : i < self.blockCount data) :
    blockAt (self.encode data) i = self.rs.encode (self.chunkAt data i) := by
  rw [encodePieces room]
  refine sliceFlatten (piecesFull room data) ?_
  rw [List.getElem?_map, List.getElem?_range inside]
  rfl

omit room in
theorem correctBlocksGood {ks : List Nat} {block word : Nat → Bytes} (full : ∀ i ∈ ks, (block i).length = blockTotal)
    (good : ∀ i ∈ ks, self.rs.correct (block i) = .ok (word i)) (first : Nat) :
    self.correctBlocks first (ks.map block) = some (.ok (ks.map (fun i => (word i).take self.blockData)).flatten) := by
  induction ks generalizing first with
  | nil => rfl
  | cons i ks ih =>
    obtain ⟨here,fullRest⟩ := List.forall_mem_cons.mp full
    obtain ⟨corrected,goodRest⟩ := List.forall_mem_cons.mp good
    have fits : self.blockData ≤ (word i).length := by
      rw [self.rs.correctLength _ _ corrected, here]
      exact Nat.sub_le _ _
    rw [List.map_cons, correctBlocks, corrected]
    dsimp only
    rw [checkedSliceFits (Nat.zero_le _) fits, Option.bind_some, ih fullRest goodRest (first + 1)]
    rfl

omit room in
theorem decodeWords {got : Bytes} {k : Nat} (positive : 0 < k) (long : k * blockTotal ≤ got.length) {word : Nat → Bytes}
    (good : ∀ i < k, self.rs.correct (blockAt got i) = .ok (word i)) :
    self.decode (got.take (k * blockTotal)) = stripped ((List.range k).map (fun i => (word i).take self.blockData)).flatten := by
  have taken : (got.take (k * blockTotal)).length = k * blockTotal := List.length_take_of_le long
  have whole : ¬ ((got.take (k * blockTotal)).isEmpty || decide ((got.take (k * blockTotal)).length % blockTotal ≠ 0)) = true := by
    have some : 0 < (got.take (k * blockTotal)).length := by
      rw [taken]
      exact Nat.mul_pos positive (by decide)
    rw [Bool.or_eq_true, not_or, List.isEmpty_iff, decide_eq_true_eq, not_not, taken, Nat.mul_mod_left]
    exact ⟨List.ne_nil_of_length_pos some,rfl⟩
  have blocks : chunks blockTotal (got.take (k * blockTotal)) = (List.range k).map (blockAt got) := by
    rw [chunksWhole (by decide) taken]
    exact List.map_congr_left (fun i inside => sliceTaken (List.mem_range.mp inside) got)
  have full : ∀ i ∈ List.range k, (blockAt got i).length = blockTotal := fun i member => by
    have below : (i + 1) * blockTotal ≤ k * blockTotal := Nat.mul_le_mul_right _ (List.mem_range.mp member)
    rw [Nat.add_mul, Nat.one_mul] at below
    rw [blockAt, slice, List.length_take, List.length_drop]
    omega
  rw [decode, if_neg whole, blocks, correctBlocksGood full (fun i member => good i (List.mem_range.mp member)) 0]
  rfl

theorem correctedOf (corrects : self.rs.Corrects) {data got : Bytes} (damaged : Damaged (self.eccLen / 2) (self.encode data) got) :
    self.Corrected data got := by
  refine ⟨damaged.length,fun i inside => corrects _ _ (chunkFull room data inside) (sliceLength ?_ inside) ?_⟩
  · rw [damaged.length, encodeLength room]
  · rw [← encodeBlock room data inside]
    exact damaged.few i

theorem decodeStart {data got : Bytes} (corrected : self.Corrected data got) {k : Nat} (positive : 0 < k)
    (within : k ≤ self.blockCount data) :
    self.decode (got.take (k * blockTotal)) = stripped ((self.padded data).take (k * self.blockData)) := by
  have long : k * blockTotal ≤ got.length := by
    rw [corrected.length, encodeLength room]
    exact Nat.mul_le_mul_right _ within
  have starts : ∀ i ∈ List.range k, (self.rs.encode (self.chunkAt data i)).take self.blockData = self.chunkAt data i := fun i member => by
    have full := chunkFull room data (Nat.lt_of_lt_of_le (List.mem_range.mp member) within)
    have start := self.rs.encodeStarts _ (Nat.le_of_eq full)
    have whole := blockFull room
    rwa [show (self.chunkAt data i).length = self.blockData by omega] at start
  have chunks : ((List.range k).map (self.chunkAt data)).flatten = (self.padded data).take (k * self.blockData) := slicesFlatten _ k _
  rw [decodeWords positive long (fun i inside => corrected.good i (Nat.lt_of_lt_of_le inside within)), List.map_congr_left starts, chunks]

omit room in
theorem prefixRead {data decoded : Bytes} (short : data.length < 2 ^ 32) (start : decoded.take prefixLen = be prefixLen data.length) :
    stripped decoded = if prefixLen + data.length ≤ decoded.length then (checkedSlice decoded prefixLen (prefixLen + data.length)).map .ok
      else some (.error (tooShort decoded.length (prefixLen + data.length))) := by
  have long : prefixLen ≤ decoded.length := by
    have width := congrArg List.length start
    rw [List.length_take, beLength] at width
    omega
  have value : readBe (be prefixLen data.length) = data.length := readBeBounded short
  have sum : checkedAdd prefixLen data.length = some (prefixLen + data.length) := by
    unfold prefixLen
    exact if_pos (by omega)
  rw [stripped, if_neg (Nat.not_lt.mpr long), checkedSliceFits (Nat.zero_le _) long, Option.bind_some, List.drop_zero, start, value]
  dsimp only
  rw [sum]

omit room in
theorem paddedStart (data : Bytes) {n : Nat} (enough : prefixLen ≤ n) :
    ((self.padded data).take n).take prefixLen = be prefixLen data.length := by
  rw [List.take_take, Nat.min_eq_left enough, padded, List.append_assoc, List.take_left' (beLength _ _)]

theorem strippedWhole {data : Bytes} (short : data.length < 2 ^ 32) :
    stripped ((self.padded data).take (self.blockCount data * self.blockData)) = some (.ok data) := by
  have covers : prefixLen + data.length ≤ self.blockCount data * self.blockData := (divCeilCovers (dataPositive room)).1
  have length := paddedLength room data
  rw [prefixRead short (paddedStart data (Nat.le_trans (Nat.le_add_right _ _) covers)), ← length, List.take_length, length,
    if_pos covers, checkedSliceFits (Nat.le_add_right _ _) (by rw [length]; exact covers)]
  rw [padded, List.take_left' (inputLength data), List.drop_left' (beLength _ _)]
  rfl

theorem strippedPart {data : Bytes} (short : data.length < 2 ^ 32) {k : Nat} (part : k < self.blockCount data) :
    ∃ e, stripped ((self.padded data).take (k * self.blockData)) = some (.error e) := by
  have high := (divCeilCovers (a := prefixLen + data.length) (dataPositive room)).2
  have below : (k + 1) * self.blockData ≤ self.blockCount data * self.blockData := Nat.mul_le_mul_right _ part
  rw [Nat.add_mul, Nat.one_mul] at below
  unfold blockCount at below part
  have taken : ((self.padded data).take (k * self.blockData)).length = k * self.blockData := by
    refine List.length_take_of_le ?_
    rw [paddedLength room, blockCount]
    omega
  by_cases enough : prefixLen ≤ k * self.blockData
  · rw [prefixRead short (paddedStart data enough), taken, if_neg (by omega)]
    exact ⟨_,rfl⟩
  · rw [stripped, taken, if_pos (Nat.not_le.mp enough)]
    exact ⟨_,rfl⟩

omit room in
theorem tryBlocksUntil {data out : Bytes} {n : Nat} (fits : n * blockTotal ≤ data.length)
    (whole : self.decode (data.take (n * blockTotal)) = some (.ok out)) {left k : Nat} (enough : n < k + left) (below : k ≤ n)
    (part : ∀ j, k ≤ j → j < n → ∃ e, self.decode (data.take (j * blockTotal)) = some (.error e)) (last : Option ModemError) :
    self.tryBlocks data left k last = some (.ok out) := by
  induction left generalizing k last with
  | zero => omega
  | succ left ih =>
    have inside : k * blockTotal ≤ data.length := Nat.le_trans (Nat.mul_le_mul_right _ below) fits
    rw [tryBlocks, checkedSliceFits (Nat.zero_le _) inside, Option.bind_some, List.drop_zero]
    by_cases here : k = n
    · rw [here, whole]
      rfl
    · obtain ⟨e,failed⟩ := part k (Nat.le_refl k) (by omega)
      rw [failed, Option.bind_some]
      exact ih (by omega) (by omega) (fun j above => part j (by omega)) (some e)

omit room in
theorem decodePrefixUntil {got out : Bytes} {n : Nat} (positive : 0 < n) (fits : n * blockTotal ≤ got.length)
    (whole : self.decode (got.take (n * blockTotal)) = some (.ok out))
    (part : ∀ j, 0 < j → j < n → ∃ e, self.decode (got.take (j * blockTotal)) = some (.error e)) (trailing : Bytes) :
    self.decodePrefix (got ++ trailing) = some (.ok out) := by
  have start : ∀ j ≤ n, (got ++ trailing).take (j * blockTotal) = got.take (j * blockTotal) := fun j within =>
    List.take_append_of_le_length (Nat.le_trans (Nat.mul_le_mul_right _ within) fits)
  have room : n * blockTotal ≤ (got ++ trailing).length := by
    rw [List.length_append]
    omega
  have count : n ≤ (got ++ trailing).length / blockTotal := (Nat.le_div_iff_mul_le (by decide)).mpr room
  rw [decodePrefix, if_neg (by omega)]
  refine tryBlocksUntil room ?_ (by omega) positive (fun j above below => ?_) none
  · rw [start n (Nat.le_refl n), whole]
  · rw [start j (Nat.le_of_lt below)]
    exact part j above below

theorem blocksPositive (data : Bytes) : 0 < self.blockCount data := by
  have covers := (divCeilCovers (a := prefixLen + data.length) (dataPositive room)).1
  refine Nat.pos_of_ne_zero (fun none => ?_)
  unfold blockCount at none
  rw [none, Nat.zero_mul] at covers
  unfold prefixLen at covers
  omega

variable {data got : Bytes} (short : data.length < 2 ^ 32) (corrected : self.Corrected data got)
include short corrected

theorem decodeStartWhole : self.decode (got.take (self.blockCount data * blockTotal)) = some (.ok data) := by
  rw [decodeStart room corrected (blocksPositive room data) (Nat.le_refl _), strippedWhole room short]

theorem decodeCorrected : self.decode got = some (.ok data) := by
  have all := decodeStartWhole room short corrected
  rwa [← encodeLength room, ← corrected.length, List.take_length] at all

theorem decodePrefixCorrected (trailing : Bytes) : self.decodePrefix (got ++ trailing) = some (.ok data) := by
  have fits : self.blockCount data * blockTotal ≤ got.length := by rw [corrected.length, encodeLength room]
  refine decodePrefixUntil (blocksPositive room data) fits (decodeStartWhole room short corrected) (fun j above part => ?_) trailing
  rw [decodeStart room corrected above (Nat.le_of_lt part)]
  exact strippedPart room short part

end Blocks

theorem checkedLength {raw out : Bytes} {first stop : Nat} (cut : checkedSlice raw first stop = some out) :
    first + out.length = stop ∧ stop ≤ raw.length := by
  unfold checkedSlice at cut
  split at cut
  · next fits =>
    cases cut
    rw [List.length_drop, List.length_take]
    omega
  · cases cut

theorem strippedLength {decoded out : Bytes} (answer : stripped decoded = some (.ok out)) : prefixLen + out.length ≤ decoded.length := by
  unfold stripped at answer
  split at answer
  · cases answer
  obtain ⟨width,-,answer⟩ := Option.bind_eq_some_iff.mp answer
  dsimp only at answer
  split at answer
  · cases answer
  split at answer
  · obtain ⟨out',cut,same⟩ := Option.map_eq_some_iff.mp answer
    cases same
    obtain ⟨sum,fits⟩ := checkedLength cut
    omega
  · cases answer

theorem correctedLength {self : FecCodec} {blocks : List Bytes} {i : Nat} {decoded : Bytes}
    (answer : self.correctBlocks i blocks = some (.ok decoded)) : decoded.length = blocks.length * self.blockData := by
  induction blocks generalizing i decoded with
  | nil =>
    cases answer
    rw [List.length_nil, List.length_nil, Nat.zero_mul]
  | cons block rest ih =>
    rw [correctBlocks] at answer
    split at answer
    · cases answer
    obtain ⟨head,cut,answer⟩ := Option.bind_eq_some_iff.mp answer
    obtain ⟨tail,more,joined⟩ := Option.map_eq_some_iff.mp answer
    cases tail with
    | error e => cases joined
    | ok tail =>
      cases joined
      obtain ⟨size,-⟩ := checkedLength cut
      rw [List.length_append, ih more, List.length_cons, Nat.add_mul]
      omega

theorem decodeLength {self : FecCodec} {raw out : Bytes} (answer : self.decode raw = some (.ok out)) :
    prefixLen + out.length ≤ raw.length / blockTotal * self.blockData := by
  unfold decode at answer
  split at answer
  · cases answer
  next whole =>
    obtain ⟨result,blocks,answer⟩ := Option.bind_eq_some_iff.mp answer
    cases result with
    | error e => cases answer
    | ok decoded =>
      have whole : raw.length = raw.length / blockTotal * blockTotal := by
        rw [Bool.or_eq_true, decide_eq_true_eq, not_or, not_not] at whole
        exact (Nat.div_mul_cancel (Nat.dvd_of_mod_eq_zero whole.2)).symm
      have size := correctedLength blocks
      rw [chunksWhole (by decide) whole, List.length_map, List.length_range] at size
      rw [← size]
      exact strippedLength answer

theorem undamaged (t : Nat) (sent : Bytes) : Damaged t sent sent :=
  ⟨rfl,fun i => by rw [errorsSelf]; exact Nat.zero_le t⟩

/- The length is written in four bytes. -/
theorem decodeWrapped {self : FecCodec} (room : self.eccLen < blockTotal) (corrects : self.rs.Corrects) {data : Bytes}
    (wraps : data.length = 2 ^ 32) : self.decode (self.encode data) = some (.ok []) := by
  have covers : prefixLen + data.length ≤ self.blockCount data * self.blockData := (divCeilCovers (dataPositive room)).1
  have length := paddedLength room data
  have all := decodeStart room (correctedOf room corrects (undamaged _ (self.encode data))) (blocksPositive room data) (Nat.le_refl _)
  have enough : prefixLen ≤ self.blockCount data * self.blockData := Nat.le_trans (Nat.le_add_right _ _) covers
  have start : ((self.padded data).take (self.blockCount data * self.blockData)).take prefixLen = be prefixLen data.length :=
    paddedStart data enough
  have zero : be prefixLen (2 ^ 32) = be prefixLen ([] : Bytes).length := by decide +kernel
  rw [wraps, zero] at start
  rw [← encodeLength room, List.take_length, prefixRead (by decide) start] at all
  rw [all, ← length, List.take_length, List.length_nil, Nat.add_zero, length, if_pos enough,
    checkedSliceFits (Nat.le_refl _) (by rw [length]; exact enough)]
  rw [List.drop_of_length_le (by rw [List.length_take]; exact Nat.min_le_left _ _)]
  rfl

end FecCodec

theorem prefixDecoding (library : ∀ eccLen, RsCodec eccLen) :
    ∀ codec ∈ [FecCodec.new library,FecCodec.strong library],
      (codec.rs.Corrects → ∀ data : Bytes, data.length < 2 ^ 32 - 4 → ∀ got, Damaged (codec.eccLen / 2) (codec.encode data) got →
        ∀ trailing, codec.decodePrefix (got ++ trailing) = some (.ok data) ∧ codec.decode got = some (.ok data)) ∧
      ∀ raw, (codec.decode raw).isSome ∧ (codec.decodePrefix raw).isSome := by
  intro codec kind
  have room : codec.eccLen < blockTotal := by
    have all : ∀ codec ∈ [FecCodec.new library,FecCodec.strong library], codec.eccLen = fecEccLen ∨ codec.eccLen = fecEccLenStrong := by
      simp [FecCodec.new, FecCodec.strong]
    cases all codec kind with
    | inl standard => rw [standard]; decide
    | inr strong => rw [strong]; decide
  refine ⟨fun corrects data short got damaged trailing => ?_,fun raw => ⟨codec.decodeSome raw,codec.decodePrefixSome raw⟩⟩
  have small : data.length < 2 ^ 32 := by omega
  have corrected := FecCodec.correctedOf room corrects damaged
  exact ⟨FecCodec.decodePrefixCorrected room small corrected trailing,FecCodec.decodeCorrected room small corrected⟩

noncomputable def byteSymbols : UInt8 ≃ GaloisField 2 8 :=
  have size : Nat.card (GaloisField 2 8) = 256 := GaloisField.card 2 8 (by decide)
  let bytes : UInt8 ≃ Fin 256 := ⟨UInt8.toFin,UInt8.ofFin,fun _ => rfl,fun _ => rfl⟩
  bytes.trans (Finite.equivFinOfCardEq size).symm

noncomputable def blockPoints : Points UInt8 (GaloisField 2 8) blockTotal where
  symbol := byteSymbols
  point i := byteSymbols i.toUInt8
  apart i left j right same := by
    have equal := byteSymbols.injective same
    have inside := Finset.mem_range.mp (Finset.mem_coe.mp left)
    have inside' := Finset.mem_range.mp (Finset.mem_coe.mp right)
    have values := congrArg UInt8.toNat equal
    simp only [Nat.toUInt8_eq, UInt8.toNat_ofNat'] at values
    unfold blockTotal at inside inside'
    omega

/-- A codec that keeps what the library documents: the check bytes are the last values
of the message's polynomial, and the nearest codeword is the correction. -/
noncomputable def interpolating (eccLen : Nat) : RsCodec eccLen where
  encode data := data ++ (blockPoints.codeword (blockTotal - eccLen) data).drop (blockTotal - eccLen)
  correct block :=
    if block.length = blockTotal then
      match blockPoints.nearest (blockTotal - eccLen) (eccLen / 2) block with
      | some out => .ok out
      | none => .error "TooManyErrors"
    else .error "TooManyErrors"
  encodeLength data room := by
    rw [List.length_append, List.length_drop, Points.codewordLength]
    omega
  encodeStarts data _ := List.take_left
  correctLength block out shown := by
    split at shown
    · next full =>
      split at shown
      · next found =>
        cases shown
        rw [Points.nearestLength _ found, full]
      · cases shown
    · cases shown

theorem interpolatingFull {eccLen : Nat} {data : Bytes} (full : data.length + eccLen = blockTotal) :
    (interpolating eccLen).encode data = blockPoints.codeword (blockTotal - eccLen) data := by
  have start : (blockPoints.codeword (blockTotal - eccLen) data).take (blockTotal - eccLen) = data :=
    blockPoints.codewordStarts (by omega) (by omega)
  exact (congrArg (· ++ _) start.symm).trans (List.take_append_drop _ _)

theorem interpolatingCorrects (eccLen : Nat) : (interpolating eccLen).Corrects := by
  intro data block full whole near
  rw [interpolatingFull full] at near ⊢
  change (if block.length = blockTotal then _ else _) = _
  have found := blockPoints.nearestCorrects (k := blockTotal - eccLen) (t := eccLen / 2) (by omega) whole near
  rw [if_pos whole, found]

/- Damage for a concrete run: the bytes at some places are inverted. -/
def struck (wrong : Nat → Bool) (sent : Bytes) : Bytes := sent.mapIdx fun i b => if wrong i then ~~~b else b

theorem struckLength (wrong : Nat → Bool) (sent : Bytes) : (struck wrong sent).length = sent.length := List.length_mapIdx

theorem struckElsewhere {wrong : Nat → Bool} {i : Nat} (spared : wrong i = false) (sent : Bytes) :
    (struck wrong sent)[i]? = sent[i]? := by
  rw [struck, List.getElem?_mapIdx, spared]
  exact congrFun Option.map_id _

def headStruck (n : Nat) : Bytes → Bytes := struck fun i => i % blockTotal < n

theorem headStruckDamaged (n : Nat) (sent : Bytes) : Damaged n sent (headStruck n sent) := by
  refine ⟨struckLength _ sent,fun b => ?_⟩
  refine (Finset.card_le_card (t := Finset.range n) fun j wrong => ?_).trans_eq (Finset.card_range n)
  obtain ⟨inside,differ⟩ := Finset.mem_filter.mp wrong
  have inside : j < blockTotal := Nat.lt_of_lt_of_le (Finset.mem_range.mp inside) (List.length_take_le _ _)
  refine Finset.mem_range.mpr (Nat.lt_of_not_le fun beyond => differ ?_)
  have spared : decide ((b * blockTotal + j) % blockTotal < n) = false := by
    rw [Nat.mul_add_mod_of_lt inside]
    exact decide_eq_false (Nat.not_lt.mpr beyond)
  rw [blockGet _ b inside, blockGet _ b inside, headStruck, struckElsewhere spared]

theorem prefixDecodingStruck :
    let sent := (FecCodec.new interpolating).encode (List.replicate 300 0xA5)
    (FecCodec.new interpolating).decodePrefix (headStruck 16 sent ++ [1,2]) = some (.ok (List.replicate 300 0xA5)) ∧
      (FecCodec.new interpolating).decode (headStruck 16 sent) = some (.ok (List.replicate 300 0xA5)) :=
  (prefixDecoding interpolating _ List.mem_cons_self).1 (interpolatingCorrects _) _
    (by rw [List.length_replicate]; decide) _ (headStruckDamaged 16 _) [1,2]

end OpenPulse.Fec
