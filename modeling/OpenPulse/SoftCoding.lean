import OpenPulse.FrameCodec
import OpenPulse.Interleave
import OpenPulse.Ldpc
import OpenPulse.SoftViterbi

/-! Frames in soft codes, as `openpulse-modem/src/engine.rs` puts them there: parity check blocks one after
another, read until one fails, and Reed-Solomon blocks, interleaved when there are several, in the
convolutional code. -/
namespace OpenPulse.SoftCoding
open ByteCodec BitPacking Engine Fec Ldpc
open Binary32 (negative)
open Interleave (standard)

section Blocks
variable (codec : LdpcCodec)

def infoBytes : Nat := codec.k / 8

def codewordBytes : Nat := (codec.k + codec.m) / 8

def encodeLdpcBlocks (info : Bytes) : Bytes := (chunks (infoBytes codec) info).flatMap fun chunk => codec.encode (padded codec.k chunk)

end Blocks

def chunksExact {α : Type} (size : Nat) (xs : List α) : List (List α) :=
  (List.range (xs.length / size)).map fun i => (xs.drop (i * size)).take size

def takeBlocks (codec : LdpcCodec) (out : Bytes) : List (List Float32) → Bytes × Option ModemError
  | [] => (out,none)
  | block::rest =>
    match codec.decodeSoft block with
    | .ok info => takeBlocks codec (out ++ info) rest
    | .error e => (out,some e)

def decodeLdpcLlrsPrefix (codec : LdpcCodec) (llrs : List Float32) : Except ModemError Bytes :=
  let nBits := codewordBytes codec * 8
  if llrs.length < nBits then .error (.fec s!"LDPC: {llrs.length} LLRs is less than one {nBits}-bit codeword")
  else
    let (out,firstErr) := takeBlocks codec [] (chunksExact nBits llrs)
    if out.isEmpty then .error (firstErr.getD (.fec "LDPC prefix decode produced nothing")) else .ok out

def rsBlockBytes : Nat := 255

def softConcatEncode (rsBytes : Bytes) : Bytes :=
  SoftViterbi.encode (if rsBlockBytes < rsBytes.length then standard.interleave rsBytes else rsBytes)

def softConcatDecodeLlrs (library : ∀ eccLen, RsCodec eccLen) (llrs : List Int) : Option (Except ModemError Bytes) :=
  match SoftViterbi.decodeSoft llrs with
  | .error e => some (.error e)
  | .ok sv => (FecCodec.new library).decode (if rsBlockBytes < sv.length then standard.deinterleave sv else sv)

theorem chunksExactCons {α : Type} {size : Nat} (positive : 0 < size) {first : List α} (full : first.length = size) (rest : List α) :
    chunksExact size (first ++ rest) = first :: chunksExact size rest := by
  have count : (first ++ rest).length / size = rest.length / size + 1 := by
    rw [List.length_append, full, Nat.add_comm, Nat.add_div_right _ positive]
  rw [chunksExact, count, List.range_succ_eq_map, List.map_cons, List.map_map, Nat.zero_mul, List.drop_zero, List.take_left' full]
  refine congrArg (first :: ·) (List.map_congr_left fun i _ => ?_)
  rw [Function.comp_apply, Nat.succ_mul, Nat.add_comm, ← List.drop_drop, List.drop_left' full]

theorem chunksFilled {size : Nat} (positive : 0 < size) (data : Bytes) : ∃ zeros,
    ((chunks size data).map fun chunk => chunk ++ List.replicate (size - chunk.length) 0).flatten = data ++ zeros := by
  obtain ⟨covers,tight⟩ := divCeilCovers (a := data.length) positive
  generalize count : divCeil data.length size = n at covers tight
  refine ⟨List.replicate (n * size - data.length) 0,?_⟩
  have filled : ∀ i ∈ List.range n, slice (i * size) size data ++ List.replicate (size - (slice (i * size) size data).length) 0 =
      slice (i * size) size (data ++ List.replicate (n * size - data.length) 0) := by
    intro i member
    have below : (i + 1) * size ≤ n * size := Nat.mul_le_mul_right size (List.mem_range.mp member)
    rw [Nat.add_mul, Nat.one_mul] at below
    have inside : i * size ≤ data.length := by omega
    rw [slice, slice, List.drop_append_of_le_length inside, List.take_append, List.take_replicate, List.length_take, List.length_drop]
    congr 2
    omega
  rw [chunks, count, List.map_map]
  change ((List.range n).map fun i => slice (i * size) size data ++ List.replicate (size - (slice (i * size) size data).length) 0).flatten = _
  rw [List.map_congr_left filled, slicesFlatten, List.take_of_length_le]
  rw [List.length_append, List.length_replicate]
  omega

theorem chunkShort {size : Nat} {data chunk : Bytes} (member : chunk ∈ chunks size data) : chunk.length ≤ size := by
  obtain ⟨i,-,rfl⟩ := List.mem_map.mp member
  exact List.length_take_le _ _

theorem takeBlocksMore (codec : LdpcCodec) (blocks : List (List Float32)) (out : Bytes) :
    ∃ more, (takeBlocks codec out blocks).1 = out ++ more := by
  induction blocks generalizing out with
  | nil => exact ⟨[],(List.append_nil out).symm⟩
  | cons block rest ih =>
    rw [takeBlocks]
    cases codec.decodeSoft block with
    | error e => exact ⟨[],(List.append_nil out).symm⟩
    | ok info =>
      obtain ⟨more,taken⟩ := ih (out ++ info)
      exact ⟨info ++ more,by rw [← List.append_assoc]; exact taken⟩

section Scan
variable {codec : LdpcCodec} (bytesK : 8 ∣ codec.k) (bytesM : 8 ∣ codec.m)
include bytesK bytesM

theorem wordBits : codewordBytes codec * 8 = codec.k + codec.m := Nat.div_mul_cancel (Nat.dvd_add bytesK bytesM)

variable (sys : Peg.Systematic codec.k codec.m codec.checkToVars)
include sys

theorem wordLength (word : Bytes) : (unpack .leastSignificant (codec.encode word)).length = codewordBytes codec * 8 := by
  rw [unpackLength, encodeLength sys bytesK bytesM, Nat.mul_comm]
  rfl

variable (some : 0 < codec.k)
include some

theorem takeBlocksSent {words : List Bytes} (full : ∀ word ∈ words, word.length = codec.k / 8)
    {llrs : List Float32} (signs : llrs.map negative = unpack .leastSignificant (words.flatMap codec.encode)) (trailing : List Float32)
    (out : Bytes) : ∃ more, (takeBlocks codec out (chunksExact (codewordBytes codec * 8) (llrs ++ trailing))).1 =
      out ++ words.flatten ++ more := by
  have positive : 0 < codewordBytes codec * 8 := by
    rw [wordBits bytesK bytesM]
    omega
  induction words generalizing llrs out with
  | nil =>
    obtain ⟨more,taken⟩ := takeBlocksMore codec (chunksExact (codewordBytes codec * 8) (llrs ++ trailing)) out
    exact ⟨more,by rw [taken, List.flatten_nil, List.append_nil]⟩
  | cons word words ih =>
    obtain ⟨fits,rest⟩ := List.forall_mem_cons.mp full
    rw [List.flatMap_cons, unpackAppend] at signs
    obtain ⟨first,later,rfl,signsFirst,signsLater⟩ := List.map_eq_append_iff.mp signs
    have size : first.length = codewordBytes codec * 8 := by
      rw [← wordLength bytesK bytesM sys word, ← signsFirst, List.length_map]
    have read : codec.decodeSoft first = .ok word := by
      have whole : padded codec.k word = word := by
        rw [padded, fits, Nat.sub_self]
        exact List.append_nil word
      have answer := decodeSigns sys bytesK bytesM (Nat.le_of_eq fits)
        (by rw [← wordBits bytesK bytesM, List.take_of_length_le (Nat.le_of_eq size)]; exact signsFirst)
      rwa [whole] at answer
    obtain ⟨more,taken⟩ := ih rest signsLater (out ++ word)
    refine ⟨more,?_⟩
    rw [List.append_assoc first, chunksExactCons positive size, takeBlocks, read]
    dsimp only
    rw [taken, List.flatten_cons, List.append_assoc out]

theorem prefixSent {info : Bytes} (sent : 0 < info.length) {llrs : List Float32}
    (signs : llrs.map negative = unpack .leastSignificant (encodeLdpcBlocks codec info)) (trailing : List Float32) :
    ∃ more, decodeLdpcLlrsPrefix codec (llrs ++ trailing) = .ok (info ++ more) := by
  have positive : 0 < infoBytes codec := Nat.div_pos (Nat.le_of_dvd some bytesK) (by decide)
  have full : ∀ word ∈ (chunks (infoBytes codec) info).map (padded codec.k), word.length = codec.k / 8 := by
    intro word member
    obtain ⟨chunk,within,rfl⟩ := List.mem_map.mp member
    have fits : chunk.length ≤ codec.k / 8 := chunkShort within
    rw [padded, List.length_append, List.length_replicate]
    omega
  obtain ⟨zeros,filled⟩ := chunksFilled positive info
  have joined : ((chunks (infoBytes codec) info).map (padded codec.k)).flatten = info ++ zeros := filled
  have words : encodeLdpcBlocks codec info = ((chunks (infoBytes codec) info).map (padded codec.k)).flatMap codec.encode := by
    rw [encodeLdpcBlocks, List.flatMap_map]
  rw [words] at signs
  obtain ⟨more,taken⟩ := takeBlocksSent bytesK bytesM sys some full signs trailing []
  rw [joined, List.nil_append, List.append_assoc] at taken
  have enough : ¬ (llrs ++ trailing).length < codewordBytes codec * 8 := by
    intro short
    have none : chunksExact (codewordBytes codec * 8) (llrs ++ trailing) = [] := by
      rw [chunksExact, Nat.div_eq_of_lt short]
      rfl
    have length := congrArg List.length taken
    rw [none, List.length_append] at length
    exact absurd length (by simp only [takeBlocks, List.length_nil]; omega)
  refine ⟨zeros ++ more,?_⟩
  unfold decodeLdpcLlrsPrefix
  dsimp only
  rw [if_neg enough, taken, if_neg]
  rw [List.isEmpty_iff]
  exact List.append_ne_nil_of_left_ne_nil (List.ne_nil_of_length_pos sent) _

end Scan

theorem pegScanned {k m : Nat} (dv : Nat) (bytesK : 8 ∣ k) (bytesM : 8 ∣ m) (some : 0 < k) (checks : 0 < m) (f : Frame)
    {llrs : List Float32} (signs : llrs.map negative = unpack .leastSignificant (encodeLdpcBlocks (LdpcCodec.withPeg k m dv) f.encode))
    (trailing : List Float32) : ∃ d, decodeLdpcLlrsPrefix (LdpcCodec.withPeg k m dv) (llrs ++ trailing) = .ok d ∧ Frame.decode d = .ok f := by
  let codec := LdpcCodec.withPeg k m dv
  have sys : Peg.Systematic codec.k codec.m codec.checkToVars := Peg.pegSystematic k dv checks
  have sent : 0 < f.encode.length := by
    rw [frameLength, Frame.wireOverhead]
    omega
  obtain ⟨more,read⟩ := prefixSent bytesK bytesM sys some sent signs trailing
  exact ⟨_,read,decodeEncode f more⟩

theorem frameScanned {codec : LdpcCodec} (member : codec ∈ [LdpcCodec.new,LdpcCodec.highRate]) (f : Frame) {llrs : List Float32}
    (signs : llrs.map negative = unpack .leastSignificant (encodeLdpcBlocks codec f.encode)) (trailing : List Float32) :
    ∃ d, decodeLdpcLlrsPrefix codec (llrs ++ trailing) = .ok d ∧ Frame.decode d = .ok f := by
  rcases List.mem_pair.mp member with rfl | rfl
  · exact pegScanned 3 (by decide) (by decide) (by decide) (by decide) f signs trailing
  · exact pegScanned 3 (by decide) (by decide) (by decide) (by decide) f signs trailing

/-- The library leaves its own words alone. -/
def Keeps (library : ∀ eccLen, RsCodec eccLen) : Prop := ∀ data, data.length + fecEccLen = blockTotal →
  (library fecEccLen).correct ((library fecEccLen).encode data) = .ok ((library fecEccLen).encode data)

theorem softSent {payload : Bytes} (short : payload.length < 2 ^ 32) :
    SoftViterbi.decodeSoft ((unpack .leastSignificant (SoftViterbi.encode payload)).map SoftViterbi.llr) = .ok payload := by
  refine SoftViterbi.nearestReads short rfl ?_
  rw [Convolutional.distanceSelf]
  exact Nat.zero_le 4

theorem swapped {raw : Bytes} (short : raw.length < 2 ^ 32) :
    (if rsBlockBytes < (if rsBlockBytes < raw.length then standard.interleave raw else raw).length
      then standard.deinterleave (if rsBlockBytes < raw.length then standard.interleave raw else raw)
      else if rsBlockBytes < raw.length then standard.interleave raw else raw) = raw := by
  have room : raw.length + standard.depth ≤ 2 ^ 64 := by
    change raw.length + 100 ≤ 2 ^ 64
    omega
  by_cases several : rsBlockBytes < raw.length
  · rw [if_pos several, (standard.interleavePerm room).length_eq, if_pos several, standard.deinterleaveInterleave room]
  · rw [if_neg several, if_neg several]

section Concatenated
variable {library : ∀ eccLen, RsCodec eccLen}

theorem newRoom : (FecCodec.new library).eccLen < blockTotal := by
  show fecEccLen < blockTotal
  decide

theorem keptDecodes (keeps : Keeps library) {data : Bytes} (short : data.length < 2 ^ 32) :
    (FecCodec.new library).decode ((FecCodec.new library).encode data) = some (.ok data) := by
  refine FecCodec.decodeCorrected newRoom short ⟨rfl,fun i inside => ?_⟩
  rw [FecCodec.encodeBlock newRoom data inside]
  exact keeps _ (FecCodec.chunkFull newRoom data inside)

theorem encodeLonger (data : Bytes) : data.length ≤ ((FecCodec.new library).encode data).length := by
  have covers := (divCeilCovers (a := prefixLen + data.length) (FecCodec.dataPositive (@newRoom library))).1
  have wide : (FecCodec.new library).blockCount data * (FecCodec.new library).blockData ≤
      (FecCodec.new library).blockCount data * blockTotal := Nat.mul_le_mul_left _ (Nat.sub_le _ _)
  rw [FecCodec.encodeLength newRoom]
  unfold FecCodec.blockCount at wide ⊢
  omega

theorem concatReads (keeps : Keeps library) {data : Bytes} (short : ((FecCodec.new library).encode data).length < 2 ^ 32) :
    softConcatDecodeLlrs library ((unpack .leastSignificant (softConcatEncode ((FecCodec.new library).encode data))).map SoftViterbi.llr) =
      some (.ok data) := by
  generalize wire : (FecCodec.new library).encode data = raw at short
  have length : (if rsBlockBytes < raw.length then standard.interleave raw else raw).length = raw.length := by
    have room : raw.length + standard.depth ≤ 2 ^ 64 := by
      change raw.length + 100 ≤ 2 ^ 64
      omega
    split
    · exact (standard.interleavePerm room).length_eq
    · rfl
  have long := @encodeLonger library data
  rw [wire] at long
  rw [softConcatDecodeLlrs, softConcatEncode, softSent (by rw [length]; exact short)]
  dsimp only
  rw [swapped short, ← wire]
  exact keptDecodes keeps (Nat.lt_of_le_of_lt long short)

theorem concatBounded {llrs : List Int} {data : Bytes} (read : softConcatDecodeLlrs library llrs = some (.ok data)) :
    ((FecCodec.new library).encode data).length < 2 ^ 32 := by
  unfold softConcatDecodeLlrs at read
  split at read
  · cases read
  next sv soft =>
    have bounded := SoftViterbi.softBounded soft
    have fits := FecCodec.decodeLength read
    have length : (if rsBlockBytes < sv.length then standard.deinterleave sv else sv).length = sv.length := by
      split
      · exact standard.deinterleaveLength sv
      · rfl
    have tight := (divCeilCovers (a := prefixLen + data.length) (FecCodec.dataPositive (@newRoom library))).2
    rw [length] at fits
    rw [FecCodec.encodeLength newRoom, FecCodec.blockCount]
    have size : (FecCodec.new library).blockData = 223 := rfl
    rw [size] at fits tight ⊢
    unfold blockTotal at fits ⊢
    omega

end Concatenated

/-- Frames in parity check blocks are read whatever follows them, and the concatenated code gives back exactly the data whose
blocks are shorter than its length prefix can say. -/
theorem softCoding :
    (∀ codec ∈ [LdpcCodec.new,LdpcCodec.highRate], ∀ (f : Frame) (llrs trailing : List Float32),
      llrs.map negative = unpack .leastSignificant (encodeLdpcBlocks codec f.encode) →
        ∃ d, decodeLdpcLlrsPrefix codec (llrs ++ trailing) = .ok d ∧ Frame.decode d = .ok f) ∧
    ∀ library : ∀ eccLen, RsCodec eccLen, Keeps library → ∀ data : Bytes,
      softConcatDecodeLlrs library ((unpack .leastSignificant (softConcatEncode ((FecCodec.new library).encode data))).map SoftViterbi.llr) =
        some (.ok data) ↔ ((FecCodec.new library).encode data).length < 2 ^ 32 :=
  ⟨fun _ member f _ trailing signs => frameScanned member f signs trailing,
    fun _ keeps _ => ⟨concatBounded,concatReads keeps⟩⟩

def ratio (b : Bool) : Float32 := if b then -1.0 else 1.0

theorem ratioSigns (bits : List Bool) : (bits.map ratio).map negative = bits := by
  have sign : ∀ b, negative (ratio b) = b := by decide +kernel
  have same : negative ∘ ratio = id := funext sign
  rw [List.map_map, same, List.map_id]

theorem interpolatingKeeps : Keeps interpolating := by
  intro data full
  have length : ((interpolating fecEccLen).encode data).length = blockTotal :=
    ((interpolating fecEccLen).encodeLength data (Nat.le_of_eq full)).trans full
  refine interpolatingCorrects fecEccLen data _ full length ?_
  rw [ReedSolomon.errorsSelf]
  exact Nat.zero_le _

def longFrame : Frame := ⟨7,List.replicate 200 0xA5,by rw [List.length_replicate]; decide⟩

theorem softCodingLong :
    (∃ d, decodeLdpcLlrsPrefix LdpcCodec.new ((unpack .leastSignificant
        (encodeLdpcBlocks LdpcCodec.new longFrame.encode)).map ratio ++ [1.0,-1.0]) = .ok d ∧ Frame.decode d = .ok longFrame) ∧
    softConcatDecodeLlrs interpolating ((unpack .leastSignificant (softConcatEncode
      ((FecCodec.new interpolating).encode (List.replicate 300 0xA5)))).map SoftViterbi.llr) = some (.ok (List.replicate 300 0xA5)) := by
  refine ⟨softCoding.1 LdpcCodec.new List.mem_cons_self _ _ _ (ratioSigns _),(softCoding.2 interpolating interpolatingKeeps _).mpr ?_⟩
  rw [FecCodec.encodeLength newRoom, FecCodec.blockCount, List.length_replicate]
  decide

theorem softCodingWraps : Keeps interpolating ∧
    softConcatDecodeLlrs interpolating ((unpack .leastSignificant (softConcatEncode
      ((FecCodec.new interpolating).encode (List.replicate (2 ^ 32) 0)))).map SoftViterbi.llr) ≠ some (.ok (List.replicate (2 ^ 32) 0)) := by
  refine ⟨interpolatingKeeps,fun read => ?_⟩
  have long := @encodeLonger interpolating (List.replicate (2 ^ 32) 0)
  rw [List.length_replicate] at long
  exact absurd (concatBounded read) (Nat.not_lt.mpr long)

end OpenPulse.SoftCoding
