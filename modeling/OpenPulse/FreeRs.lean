import OpenPulse.Fec
import OpenPulse.FrameCodec
import OpenPulse.OtaRate

/-! The stronger Reed-Solomon code where it costs no block: `free_rs_strengthening` of
`openpulse-core/src/fec.rs` and the two readers of `openpulse-modem/src/engine.rs`. A word of
the strong code is a word of the weak one too; what the weak code reads is kept if it is a frame. -/
namespace OpenPulse.FreeRs
open ByteCodec Engine Fec ReedSolomon
open OtaRate (FecMode)

def rsBlockCount (dataLen dataPerBlock : Nat) : Nat := max (divCeil (prefixLen + dataLen) dataPerBlock) 1

def freeRsStrengthening (fec : FecMode) (encodeInputLen : Nat) : FecMode :=
  if fec = .rs ∧ rsBlockCount encodeInputLen (blockTotal - fecEccLenStrong) = rsBlockCount encodeInputLen (blockTotal - fecEccLen) then
    .rsStrong
  else fec

def orStrong (weak strong : Option (Except ModemError Bytes)) : Option (Except ModemError Bytes) :=
  weak.bind fun
    | .ok d => if (Frame.decode d).isOk then some (.ok d) else strong
    | .error _ => strong

section
variable (library : ∀ eccLen, RsCodec eccLen)

/-- The words of the strong code are words of the weak one: its generator has all the roots. -/
def Nested : Prop := ∀ data, data.length + fecEccLenStrong = blockTotal →
  (library fecEccLen).encode (((library fecEccLenStrong).encode data).take (blockTotal - fecEccLen)) =
    (library fecEccLenStrong).encode data

def transmitWithFecMode (f : Frame) : Bytes :=
  match freeRsStrengthening .rs (f.payload.length + Frame.wireOverhead) with
  | .rsStrong => (FecCodec.strong library).encode f.encode
  | _ => (FecCodec.new library).encode f.encode

def rsDecodeFreeStrengthened (bytes : Bytes) : Option (Except ModemError Bytes) :=
  orStrong ((FecCodec.new library).decode bytes) ((FecCodec.strong library).decode bytes)

def rsDecodePrefixFreeStrengthened (bytes : Bytes) : Option (Except ModemError Bytes) :=
  orStrong ((FecCodec.new library).decodePrefix bytes) ((FecCodec.strong library).decodePrefix bytes)

def firstPart : Nat := blockTotal - fecEccLenStrong - prefixLen

/-- Two strong blocks as the weak code reads them: half of the first block's check bytes are among the data. -/
def spliced (data : Bytes) : Bytes :=
  let first := be prefixLen data.length ++ data.take firstPart
  let check := slice (blockTotal - fecEccLenStrong) (fecEccLenStrong - fecEccLen) ((library fecEccLenStrong).encode first)
  (data.take firstPart ++ check ++ data.drop firstPart).take data.length

/-- The check of the frame tells the two readings apart. -/
def Arbitrated (f : Frame) : Prop := 210 ≤ f.payload.length → ∀ g, Frame.decode (spliced library f.encode) = .ok g → g = f

end

theorem strengthenedShort {n : Nat} (small : n ≤ 265) :
    freeRsStrengthening .rs n = if n ≤ 187 ∨ 220 ≤ n then .rsStrong else .rs := by
  have one : rsBlockCount n (blockTotal - fecEccLenStrong) = rsBlockCount n (blockTotal - fecEccLen) ↔ n ≤ 187 ∨ 220 ≤ n := by
    unfold rsBlockCount divCeil prefixLen blockTotal fecEccLenStrong fecEccLen
    omega
  unfold freeRsStrengthening
  split
  · next free => rw [if_pos (one.mp free.2)]
  · next costs => rw [if_neg (fun free => costs ⟨rfl,one.mpr free⟩)]

theorem sentShort (library : ∀ eccLen, RsCodec eccLen) (f : Frame) : transmitWithFecMode library f =
    if f.payload.length ≤ 177 ∨ 210 ≤ f.payload.length then (FecCodec.strong library).encode f.encode
    else (FecCodec.new library).encode f.encode := by
  have small := f.small
  have length : f.payload.length + Frame.wireOverhead ≤ 265 := by
    unfold Frame.wireOverhead
    omega
  unfold transmitWithFecMode
  rw [strengthenedShort length]
  by_cases free : f.payload.length ≤ 177 ∨ 210 ≤ f.payload.length
  · rw [if_pos free, if_pos (by unfold Frame.wireOverhead; omega)]
  · rw [if_neg free, if_neg (by unfold Frame.wireOverhead; omega)]

section
variable {library : ∀ eccLen, RsCodec eccLen} (corrects : (library fecEccLen).Corrects) (nested : Nested library)

def strongWord (library : ∀ eccLen, RsCodec eccLen) (data : Bytes) (i : Nat) : Bytes :=
  (library fecEccLenStrong).encode ((FecCodec.strong library).chunkAt data i)

theorem roomStrong : (FecCodec.strong library).eccLen < blockTotal := by
  show fecEccLenStrong < blockTotal
  decide

include corrects nested

theorem weakCorrects {data got : Bytes} (damaged : Damaged 16 ((FecCodec.strong library).encode data) got) {i : Nat}
    (inside : i < (FecCodec.strong library).blockCount data) :
    (FecCodec.new library).rs.correct (blockAt got i) = .ok (strongWord library data i) := by
  have full := FecCodec.chunkFull roomStrong data inside
  have length : (strongWord library data i).length = blockTotal :=
    ((library fecEccLenStrong).encodeLength _ (Nat.le_of_eq full)).trans full
  have gotLength := damaged.length
  rw [FecCodec.encodeLength roomStrong] at gotLength
  have few := damaged.few i
  rw [FecCodec.encodeBlock roomStrong data inside] at few
  have word := nested _ full
  have found := corrects ((strongWord library data i).take (blockTotal - fecEccLen)) (blockAt got i)
    (by rw [List.length_take_of_le (by rw [length]; exact Nat.sub_le _ _)]; rfl) (sliceLength gotLength inside)
  change errors (strongWord library data i) _ ≤ _ at few
  change (library fecEccLen).encode ((strongWord library data i).take (blockTotal - fecEccLen)) = strongWord library data i at word
  rw [word] at found
  exact found few

theorem weakDecodes {data got : Bytes} (damaged : Damaged 16 ((FecCodec.strong library).encode data) got) {k : Nat}
    (positive : 0 < k) (within : k ≤ (FecCodec.strong library).blockCount data) :
    (FecCodec.new library).decode (got.take (k * blockTotal)) =
      FecCodec.stripped ((List.range k).map fun i => (strongWord library data i).take (blockTotal - fecEccLen)).flatten := by
  have long : k * blockTotal ≤ got.length := by
    rw [damaged.length, FecCodec.encodeLength roomStrong]
    exact Nat.mul_le_mul_right _ within
  exact FecCodec.decodeWords positive long fun i inside => weakCorrects corrects nested damaged (Nat.lt_of_lt_of_le inside within)

end

theorem strippedReads {data rest : Bytes} (short : data.length < 2 ^ 32) (fits : data.length ≤ rest.length) :
    FecCodec.stripped (be prefixLen data.length ++ rest) = some (.ok (rest.take data.length)) := by
  have width : (be prefixLen data.length).length = prefixLen := beLength _ _
  have room : prefixLen + data.length ≤ (be prefixLen data.length ++ rest).length := by
    rw [List.length_append, width]
    omega
  rw [FecCodec.prefixRead short (List.take_left' width), if_pos room, checkedSliceFits (Nat.le_add_right _ _) room, List.take_add,
    List.take_left' width, List.drop_left' width, List.drop_left' width]
  rfl

theorem strippedRefuses {data rest : Bytes} (short : data.length < 2 ^ 32) (less : rest.length < data.length) :
    ∃ e, FecCodec.stripped (be prefixLen data.length ++ rest) = some (.error e) := by
  have width : (be prefixLen data.length).length = prefixLen := beLength _ _
  rw [FecCodec.prefixRead short (List.take_left' width), if_neg (by rw [List.length_append, width]; omega)]
  exact ⟨_,rfl⟩

section
variable (library : ∀ eccLen, RsCodec eccLen) (data : Bytes)

def checkOf (i : Nat) : Bytes := slice (blockTotal - fecEccLenStrong) (fecEccLenStrong - fecEccLen) (strongWord library data i)

theorem wordTaken {i : Nat} (inside : i < (FecCodec.strong library).blockCount data) :
    (strongWord library data i).take (blockTotal - fecEccLen) = (FecCodec.strong library).chunkAt data i ++ checkOf library data i := by
  have full := FecCodec.chunkFull roomStrong data inside
  have start := (library fecEccLenStrong).encodeStarts _ (Nat.le_of_eq full)
  have size : ((FecCodec.strong library).chunkAt data i).length = blockTotal - fecEccLenStrong := Nat.eq_sub_of_add_eq full
  rw [size] at start
  have cut : blockTotal - fecEccLen = (blockTotal - fecEccLenStrong) + (fecEccLenStrong - fecEccLen) := rfl
  rw [cut, List.take_add, strongWord, start]
  rfl

theorem checkLength {i : Nat} (inside : i < (FecCodec.strong library).blockCount data) :
    (checkOf library data i).length = fecEccLenStrong - fecEccLen := by
  have full := FecCodec.chunkFull roomStrong data inside
  have length : (strongWord library data i).length = blockTotal :=
    ((library fecEccLenStrong).encodeLength _ (Nat.le_of_eq full)).trans full
  rw [checkOf, slice, List.length_take, List.length_drop, length]
  rfl

theorem paddedParts : ∃ zeros, (FecCodec.strong library).padded data = be prefixLen data.length ++ (data ++ zeros) :=
  ⟨_,List.append_assoc _ _ _⟩

theorem oneBlock (short : data.length ≤ 187) : (FecCodec.strong library).blockCount data = 1 := by
  unfold FecCodec.blockCount FecCodec.blockData divCeil prefixLen
  change (4 + data.length + (255 - 64) - 1) / (255 - 64) = 1
  omega

theorem twoBlocks (long : 187 < data.length) (small : data.length ≤ 378) : (FecCodec.strong library).blockCount data = 2 := by
  unfold FecCodec.blockCount FecCodec.blockData divCeil prefixLen
  change (4 + data.length + (255 - 64) - 1) / (255 - 64) = 2
  omega

theorem chunkOnly (short : data.length ≤ 187) : ∃ rest, (FecCodec.strong library).chunkAt data 0 = be prefixLen data.length ++ (data ++ rest) := by
  obtain ⟨zeros,parts⟩ := paddedParts library data
  refine ⟨zeros.take (187 - data.length),?_⟩
  rw [FecCodec.chunkAt, slice, Nat.zero_mul, List.drop_zero, parts]
  change List.take (prefixLen + 187) _ = _
  rw [List.take_add, List.take_left' (beLength _ _), List.drop_left' (beLength _ _), List.take_append, List.take_of_length_le short]

theorem chunkFirst (long : 187 < data.length) :
    (FecCodec.strong library).chunkAt data 0 = be prefixLen data.length ++ data.take firstPart := by
  obtain ⟨zeros,parts⟩ := paddedParts library data
  rw [FecCodec.chunkAt, slice, Nat.zero_mul, List.drop_zero, parts]
  change List.take (prefixLen + 187) _ = _
  rw [List.take_add, List.take_left' (beLength _ _), List.drop_left' (beLength _ _), List.take_append_of_le_length (Nat.le_of_lt long)]
  rfl

theorem chunkSecond (long : 187 < data.length) (small : data.length ≤ 378) :
    ∃ rest, (FecCodec.strong library).chunkAt data 1 = data.drop firstPart ++ rest := by
  obtain ⟨zeros,parts⟩ := paddedParts library data
  refine ⟨zeros.take (191 - (data.drop 187).length),?_⟩
  rw [FecCodec.chunkAt, slice, Nat.one_mul, parts]
  change List.take 191 (List.drop (prefixLen + 187) _) = List.drop 187 data ++ _
  rw [← List.drop_drop, List.drop_left' (beLength _ _), List.drop_append_of_le_length (Nat.le_of_lt long), List.take_append,
    List.take_of_length_le (by rw [List.length_drop]; omega)]

variable {data}

theorem onlyRead (short : data.length ≤ 187) :
    FecCodec.stripped ((List.range 1).map fun i => (strongWord library data i).take (blockTotal - fecEccLen)).flatten = some (.ok data) := by
  obtain ⟨rest,first⟩ := chunkOnly library data short
  have word := wordTaken library data (i := 0) (by rw [oneBlock library data short]; decide)
  rw [List.range_one, List.map_singleton, List.flatten_singleton, word, first, List.append_assoc,
    strippedReads (by omega) (by simp only [List.length_append]; omega), List.append_assoc, List.take_left' rfl]

theorem firstRead (long : 219 < data.length) (small : data.length ≤ 378) :
    ∃ e, FecCodec.stripped ((List.range 1).map fun i => (strongWord library data i).take (blockTotal - fecEccLen)).flatten = some (.error e) := by
  have inside : 0 < (FecCodec.strong library).blockCount data := by
    rw [twoBlocks library data (by omega) small]
    decide
  rw [List.range_one, List.map_singleton, List.flatten_singleton, wordTaken library data inside, chunkFirst library data (by omega),
    List.append_assoc]
  refine strippedRefuses (by omega) ?_
  have check : (checkOf library data 0).length = 32 := checkLength library data inside
  have part : (data.take firstPart).length ≤ 187 := List.length_take_le _ _
  rw [List.length_append]
  omega

theorem bothRead (long : 219 < data.length) (small : data.length ≤ 378) :
    FecCodec.stripped ((List.range 2).map fun i => (strongWord library data i).take (blockTotal - fecEccLen)).flatten =
      some (.ok (spliced library data)) := by
  have count := twoBlocks library data (by omega) small
  have first := chunkFirst library data (by omega)
  obtain ⟨rest,second⟩ := chunkSecond library data (by omega) small
  have length : data.length ≤ (data.take firstPart ++ checkOf library data 0 ++ data.drop firstPart).length := by
    have whole := congrArg List.length (List.take_append_drop firstPart data)
    simp only [List.length_append] at whole ⊢
    omega
  have check : spliced library data = (data.take firstPart ++ checkOf library data 0 ++ data.drop firstPart).take data.length := by
    rw [checkOf, strongWord, first]
    rfl
  have joined : ((List.range 2).map fun i => (strongWord library data i).take (blockTotal - fecEccLen)).flatten =
      be prefixLen data.length ++
        ((data.take firstPart ++ checkOf library data 0 ++ data.drop firstPart) ++ (rest ++ checkOf library data 1)) := by
    change (strongWord library data 0).take (blockTotal - fecEccLen) ++ ((strongWord library data 1).take (blockTotal - fecEccLen) ++ []) = _
    rw [wordTaken library data (by rw [count]; decide), wordTaken library data (by rw [count]; decide), first, second]
    simp only [List.append_assoc, List.append_nil]
  rw [joined, strippedReads (by omega) (by rw [List.length_append]; omega), List.take_append_of_le_length length, check]

end

section
variable (library : ∀ eccLen, RsCodec eccLen)

def collidingCheck : Bytes :=
  slice (blockTotal - fecEccLenStrong) (fecEccLenStrong - fecEccLen)
    ((library fecEccLenStrong).encode (be prefixLen 265 ++ (header 0 7 255 ++ List.replicate 179 0)))

theorem collidingCheckLength : (collidingCheck library).length = 32 := by
  have first : (be prefixLen 265 ++ (header 0 7 255 ++ List.replicate 179 0)).length = 191 := by
    rw [List.length_append, List.length_append, beLength, List.length_replicate]
    rfl
  have word := (library fecEccLenStrong).encodeLength _ (Nat.le_of_eq (congrArg (· + fecEccLenStrong) first))
  rw [collidingCheck, slice, List.length_take, List.length_drop, word, first]
  rfl

def misread : Frame where
  sequence := 7
  payload := List.replicate 179 0 ++ collidingCheck library ++ List.replicate 44 0
  small := by simp only [List.length_append, List.length_replicate, collidingCheckLength, Nat.le_refl, Nat.reduceAdd]

def colliding : Frame where
  sequence := 7
  payload := List.replicate 179 0 ++ (List.replicate 44 0 ++ be 2 (crc16 (misread library).body).toNat ++ List.replicate 30 1)
  small := by simp only [List.length_append, List.length_replicate, beLength, Nat.le_refl, Nat.reduceAdd]

theorem fullBody {f : Frame} (seven : f.sequence = 7) (full : f.payload.length = 255) : f.body = header 0 7 255 ++ f.payload := by
  rw [Frame.body, seven, full]
  rfl

theorem fullSpliced {f : Frame} {w : Bytes} (two : w.length = 2) (seven : f.sequence = 7)
    (payload : f.payload = List.replicate 179 0 ++ (List.replicate 44 0 ++ w ++ List.replicate 30 1)) :
    spliced library f.encode = (header 0 7 255 ++ List.replicate 179 0) ++ collidingCheck library ++ (List.replicate 44 0 ++ w) := by
  have length : f.payload.length = 255 := by simp only [payload, List.length_append, List.length_replicate, two]
  have total : f.encode.length = 265 := by
    rw [frameLength, length]
    rfl
  obtain ⟨tail,whole⟩ : ∃ tail, f.encode = (header 0 7 255 ++ List.replicate 179 0) ++ (List.replicate 44 0 ++ w ++ tail) := by
    refine ⟨List.replicate 30 1 ++ be 2 (crc16 f.body).toNat,?_⟩
    rw [Frame.encode, fullBody seven length, payload]
    simp only [List.append_assoc]
  have head : (header 0 7 255 ++ List.replicate 179 0).length = firstPart := by
    rw [List.length_append, List.length_replicate]
    rfl
  have start : f.encode.take firstPart = header 0 7 255 ++ List.replicate 179 0 := by rw [whole, List.take_left' head]
  have rest : f.encode.drop firstPart = List.replicate 44 0 ++ w ++ tail := by rw [whole, List.drop_left' head]
  have fits : ((header 0 7 255 ++ List.replicate 179 0) ++ collidingCheck library ++ (List.replicate 44 0 ++ w)).length = 265 := by
    simp only [List.length_append, List.length_replicate, head, collidingCheckLength, two, firstPart]
    rfl
  rw [spliced, start, rest, total]
  change ((header 0 7 255 ++ List.replicate 179 0) ++ collidingCheck library ++ _).take 265 = _
  rw [← List.append_assoc, List.take_left' fits]

theorem collidingSpliced : spliced library (colliding library).encode = (misread library).encode := by
  have readLength : (misread library).payload.length = 255 := by
    simp only [misread, List.length_append, List.length_replicate, collidingCheckLength]
  rw [fullSpliced library (beLength _ _) rfl rfl, Frame.encode, fullBody rfl readLength]
  simp only [misread, List.append_assoc]

/- The spliced reading of this frame ends with the bytes 0 and `b`. -/
def marked (b : UInt8) : Frame where
  sequence := 7
  payload := List.replicate 179 0 ++ (List.replicate 44 0 ++ [0,b] ++ List.replicate 30 1)
  small := by simp only [List.length_append, List.length_replicate, List.length_cons, List.length_nil, Nat.reduceAdd, Nat.le_refl]

theorem markedRead {b : UInt8} {g : Frame} (read : Frame.decode (spliced library (marked b).encode) = .ok g) :
    crc16 ((header 0 7 255 ++ List.replicate 179 0) ++ collidingCheck library ++ List.replicate 44 0) = word 0 b := by
  obtain ⟨s1,s0,len,c1,c0,t,whole,fits,-,good⟩ := decodeShape read
  rw [fullSpliced library (w := [0,b]) rfl rfl rfl, ← List.append_assoc] at whole
  have size : len = 255 := (congrArg (fun raw : Bytes => raw.getD 7 0) whole).symm
  subst size
  have same := List.append_inj whole (by
    simp only [List.length_append, List.length_replicate, collidingCheckLength, fits]
    rfl)
  rw [same.1, good]
  cases same.2
  rfl

theorem oneArbitrated : Arbitrated library (marked 0) ∨ Arbitrated library (marked 1) := by
  refine or_iff_not_imp_left.mpr fun unsettled _ g read => ?_
  obtain ⟨-,g',read',-⟩ : ∃ _ : 210 ≤ (marked 0).payload.length, ∃ g', Frame.decode (spliced library (marked 0).encode) = .ok g' ∧ g' ≠ marked 0 := by
    simpa only [Arbitrated, not_forall, exists_prop] using unsettled
  have same := (markedRead library read').symm.trans (markedRead library read)
  cases (wordInj same).2

theorem misreadOther : misread library ≠ colliding library := by
  intro same
  have last := congrArg (fun f : Frame => f.payload.getLast?) same
  have zero : (misread library).payload.getLast? = some 0 := by
    rw [misread, List.getLast?_append]
    rfl
  have one : (colliding library).payload.getLast? = some 1 := by
    rw [colliding, List.getLast?_append]
    rfl
  rw [zero, one] at last
  cases last

end

section
variable {library : ∀ eccLen, RsCodec eccLen} (weak : (library fecEccLen).Corrects) (strong : (library fecEccLenStrong).Corrects)
    (nested : Nested library) {f : Frame} {got : Bytes}

theorem encodeSmall (f : Frame) : f.encode.length < 2 ^ 32 := by
  have small := f.small
  rw [frameLength, Frame.wireOverhead]
  omega

include weak in
theorem weakReads (nested : Nested library) (short : f.payload.length < 210) (damaged : Damaged 16 (transmitWithFecMode library f) got)
    (trailing : Bytes) : (FecCodec.new library).decode got = some (.ok f.encode) ∧
      (FecCodec.new library).decodePrefix (got ++ trailing) = some (.ok f.encode) := by
  rw [sentShort] at damaged
  split at damaged
  · have length : f.encode.length ≤ 187 := by
      rw [frameLength, Frame.wireOverhead]
      omega
    have count := oneBlock library f.encode length
    have fits : 1 * blockTotal = got.length := by rw [damaged.length, FecCodec.encodeLength roomStrong, count]
    have read : (FecCodec.new library).decode (got.take (1 * blockTotal)) = some (.ok f.encode) :=
      (weakDecodes weak nested damaged (by decide) (Nat.le_of_eq count.symm)).trans (onlyRead library length)
    refine ⟨?_,FecCodec.decodePrefixUntil (by decide) (Nat.le_of_eq fits) read (fun j above below => by omega) trailing⟩
    rwa [fits, List.take_length] at read
  · have room : (FecCodec.new library).eccLen < blockTotal := by
      show fecEccLen < blockTotal
      decide
    have more : 16 ≤ (FecCodec.new library).eccLen / 2 := by
      show 16 ≤ fecEccLen / 2
      decide
    have corrected := FecCodec.correctedOf room weak ⟨damaged.length,fun i => Nat.le_trans (damaged.few i) more⟩
    exact ⟨FecCodec.decodeCorrected room (encodeSmall f) corrected,FecCodec.decodePrefixCorrected room (encodeSmall f) corrected trailing⟩

include weak nested in
theorem weakSplices (long : 210 ≤ f.payload.length) (damaged : Damaged 16 (transmitWithFecMode library f) got) (trailing : Bytes) :
    (FecCodec.new library).decode got = some (.ok (spliced library f.encode)) ∧
      (FecCodec.new library).decodePrefix (got ++ trailing) = some (.ok (spliced library f.encode)) := by
  have small := f.small
  rw [sentShort, if_pos (.inr long)] at damaged
  have low : 219 < f.encode.length := by
    rw [frameLength, Frame.wireOverhead]
    omega
  have high : f.encode.length ≤ 378 := by
    rw [frameLength, Frame.wireOverhead]
    omega
  have count := twoBlocks library f.encode (by omega) high
  have fits : 2 * blockTotal = got.length := by rw [damaged.length, FecCodec.encodeLength roomStrong, count]
  have read : (FecCodec.new library).decode (got.take (2 * blockTotal)) = some (.ok (spliced library f.encode)) :=
    (weakDecodes weak nested damaged (by decide) (Nat.le_of_eq count.symm)).trans (bothRead library low high)
  have alone : ∃ e, (FecCodec.new library).decode (got.take (1 * blockTotal)) = some (.error e) := by
    rw [weakDecodes weak nested damaged (by decide) (by rw [count]; decide)]
    exact firstRead library low high
  refine ⟨?_,FecCodec.decodePrefixUntil (by decide) (Nat.le_of_eq fits) read (fun j above below => ?_) trailing⟩
  · rwa [fits, List.take_length] at read
  · obtain rfl : j = 1 := by omega
    exact alone

include strong in
theorem strongReads (long : 210 ≤ f.payload.length) (damaged : Damaged 16 (transmitWithFecMode library f) got) (trailing : Bytes) :
    (FecCodec.strong library).decode got = some (.ok f.encode) ∧
      (FecCodec.strong library).decodePrefix (got ++ trailing) = some (.ok f.encode) := by
  rw [sentShort, if_pos (.inr long)] at damaged
  have more : 16 ≤ (FecCodec.strong library).eccLen / 2 := by
    show 16 ≤ fecEccLenStrong / 2
    decide
  have corrected := FecCodec.correctedOf roomStrong strong ⟨damaged.length,fun i => Nat.le_trans (damaged.few i) more⟩
  exact ⟨FecCodec.decodeCorrected roomStrong (encodeSmall f) corrected,FecCodec.decodePrefixCorrected roomStrong (encodeSmall f) corrected trailing⟩

theorem frameValid (f : Frame) : Frame.decode f.encode = .ok f := by
  have whole := decodeEncode f []
  rwa [List.append_nil] at whole

theorem orStrongFrame (f : Frame) (other : Option (Except ModemError Bytes)) :
    orStrong (some (.ok f.encode)) other = some (.ok f.encode) := by
  rw [orStrong, Option.bind_some]
  dsimp only
  rw [frameValid]
  rfl

theorem orStrongReads (f : Frame) (d : Bytes) : (∃ r, orStrong (some (.ok d)) (some (.ok f.encode)) = some (.ok r) ∧ Frame.decode r = .ok f) ↔
    ∀ g, Frame.decode d = .ok g → g = f := by
  rw [orStrong, Option.bind_some]
  dsimp only
  cases read : Frame.decode d with
  | error e => exact ⟨fun _ g other => (by cases other),fun _ => ⟨f.encode,rfl,frameValid f⟩⟩
  | ok g =>
    constructor
    · rintro ⟨r,kept,valid⟩ g' same
      cases kept
      rw [read] at valid
      cases valid
      cases same
      rfl
    · intro only
      obtain rfl := only g rfl
      exact ⟨d,rfl,read⟩

/-- A frame under `Rs` is read as it was sent: always up to 209 bytes of payload, and above exactly when the check of the frame
refuses the spliced reading. -/
theorem freeStrengthening (library : ∀ eccLen, RsCodec eccLen) (weak : (library fecEccLen).Corrects)
    (strong : (library fecEccLenStrong).Corrects) (nested : Nested library) (f : Frame) (got : Bytes)
    (damaged : Damaged 16 (transmitWithFecMode library f) got) (trailing : Bytes) :
    ((∃ d, rsDecodeFreeStrengthened library got = some (.ok d) ∧ Frame.decode d = .ok f) ↔ Arbitrated library f) ∧
    ((∃ d, rsDecodePrefixFreeStrengthened library (got ++ trailing) = some (.ok d) ∧ Frame.decode d = .ok f) ↔ Arbitrated library f) := by
  unfold rsDecodeFreeStrengthened rsDecodePrefixFreeStrengthened
  by_cases long : 210 ≤ f.payload.length
  · obtain ⟨first,firstPrefix⟩ := weakSplices weak nested long damaged trailing
    obtain ⟨second,secondPrefix⟩ := strongReads strong long damaged trailing
    have only : Arbitrated library f ↔ ∀ g, Frame.decode (spliced library f.encode) = .ok g → g = f :=
      ⟨fun told => told long,fun told _ => told⟩
    rw [first, firstPrefix, second, secondPrefix, only]
    exact ⟨orStrongReads f _,orStrongReads f _⟩
  · obtain ⟨first,firstPrefix⟩ := weakReads weak nested (Nat.not_le.mp long) damaged trailing
    have told : Arbitrated library f := fun above => absurd above long
    rw [first, firstPrefix, orStrongFrame, orStrongFrame]
    have read : ∃ d, some (.ok f.encode) = some (.ok d : Except ModemError Bytes) ∧ Frame.decode d = .ok f := ⟨_,rfl,frameValid f⟩
    exact ⟨⟨fun _ => told,fun _ => read⟩,⟨fun _ => told,fun _ => read⟩⟩

end

theorem interpolatingNested : Nested interpolating := by
  intro data full
  have length : (blockPoints.codeword (blockTotal - fecEccLenStrong) data).length = blockTotal := blockPoints.codewordLength _ data
  rw [interpolatingFull full, interpolatingFull (by rw [List.length_take, length]; rfl)]
  exact blockPoints.codewordNested (by decide) (by decide) data

theorem freeStrengtheningStruck :
    let reads := fun f : Frame => ∃ d, rsDecodePrefixFreeStrengthened interpolating
      (headStruck 16 (transmitWithFecMode interpolating f) ++ [1,2]) = some (.ok d) ∧ Frame.decode d = .ok f
    reads ⟨7,List.replicate 200 0xA5,by rw [List.length_replicate]; decide⟩ ∧ (reads (marked 0) ∨ reads (marked 1)) := by
  have read := fun f => (freeStrengthening interpolating (interpolatingCorrects _) (interpolatingCorrects _) interpolatingNested f _
    (headStruckDamaged 16 _) [1,2]).2.mpr
  refine ⟨read _ fun long => ?_,(oneArbitrated interpolating).imp (read _) (read _)⟩
  rw [List.length_replicate] at long
  exact absurd long (by decide)

/- Without a single error on the way. -/
theorem strengthenedMisread : (interpolating fecEccLen).Corrects ∧ (interpolating fecEccLenStrong).Corrects ∧ Nested interpolating ∧
    rsDecodeFreeStrengthened interpolating (transmitWithFecMode interpolating (colliding interpolating)) =
      some (.ok (misread interpolating).encode) ∧
    Frame.decode (misread interpolating).encode = .ok (misread interpolating) ∧ misread interpolating ≠ colliding interpolating := by
  refine ⟨interpolatingCorrects _,interpolatingCorrects _,interpolatingNested,?_,frameValid _,misreadOther _⟩
  have long : 210 ≤ (colliding interpolating).payload.length := by
    simp only [colliding, List.length_append, List.length_replicate, beLength, Nat.reduceAdd, Nat.reduceLeDiff]
  obtain ⟨first,-⟩ := weakSplices (interpolatingCorrects _) interpolatingNested long (FecCodec.undamaged 16 _) []
  rw [rsDecodeFreeStrengthened, first, collidingSpliced, orStrongFrame]

end OpenPulse.FreeRs
