import Mathlib.Data.List.Forall2
import Mathlib.Data.List.GetD
import Mathlib.Tactic.ByContra
import OpenPulse.Js8
import OpenPulse.Reads

/-! What a JS8 frame gives back: the callsign and number of a compound frame, the
text of a data frame, and where the free text of an over is cut into frames. -/
namespace OpenPulse.Js8
open ByteCodec

theorem alnumIndexBound (c : Char) : alnumIndex c ≤ 38 := by
  unfold alnumIndex
  cases found : alphanumeric.idxOf? c with
  | none => simp
  | some i =>
    have inside : i < alphanumeric.length := by
      rw [List.idxOf?_eq_some_iff] at found
      exact found.1
    have length : alphanumeric.length = 39 := by decide
    simp only [Option.getD_some]
    omega

theorem isSlashBound (c : Char) : isSlash c ≤ 1 := by
  unfold isSlash
  split <;> omega

theorem packBound (callsign : List Char) : packAlphanumeric50 callsign < 2 ^ 50 := by
  have index := fun i => alnumIndexBound ((callsignWord callsign).getD i ' ')
  have slash := fun i => isSlashBound ((callsignWord callsign).getD i ' ')
  have i0 := index 0
  have i1 := index 1
  have i2 := index 2
  have i4 := index 4
  have i5 := index 5
  have i6 := index 6
  have i8 := index 8
  have i9 := index 9
  have i10 := index 10
  have s3 := slash 3
  have s7 := slash 7
  simp only [packAlphanumeric50]
  omega

theorem unpackCompound {flag callsign50 : Nat} (kind : flag < 3) (fits : callsign50 < 2 ^ 50) (num : UInt16) (bits3 : UInt8)
    (length : (compoundBytes flag callsign50 num bits3).length = 9) :
    unpackCompoundFrame ⟨compoundBytes flag callsign50 num bits3,length⟩ =
      some ⟨FrameType.fromFlag flag,unpackAlphanumeric50 callsign50,num⟩ := by
  have small := num.toNat_lt
  have value : flag * 2 ^ 61 + callsign50 * 2 ^ 11 + num.toNat / 32 % 2048 < 256 ^ 8 := by omega
  have front : (compoundBytes flag callsign50 num bits3).take 8 =
      be 8 (flag * 2 ^ 61 + callsign50 * 2 ^ 11 + num.toNat / 32 % 2048) := by
    rw [compoundBytes, List.take_left' (by simp)]
  have last : (compoundBytes flag callsign50 num bits3).getD 8 0 =
      UInt8.ofNat (num.toNat % 32 * 8 + bits3.toNat % 8) := by
    rw [compoundBytes, List.getD_append_right _ _ _ _ (by simp)]
    simp
  have low : (UInt8.ofNat (num.toNat % 32 * 8 + bits3.toNat % 8)).toNat / 8 = num.toNat % 32 := by
    rw [UInt8.toNat_ofNat']
    omega
  simp only [unpackCompoundFrame, front, last, low, readBeBounded value]
  have top : (flag * 2 ^ 61 + callsign50 * 2 ^ 11 + num.toNat / 32 % 2048) / 2 ^ 61 % 8 = flag := by omega
  have middle : (flag * 2 ^ 61 + callsign50 * 2 ^ 11 + num.toNat / 32 % 2048) / 2 ^ 11 % 2 ^ 50 = callsign50 := by omega
  have number : UInt16.ofNat ((flag * 2 ^ 61 + callsign50 * 2 ^ 11 + num.toNat / 32 % 2048) % 2 ^ 11 * 32 + num.toNat % 32) =
      num := by
    apply UInt16.toNat_inj.mp
    rw [UInt16.toNat_ofNat']
    omega
  rw [top, middle, number, if_neg (by omega)]

theorem flagBack {frameType : FrameType} {flag : Nat} (kind : compoundFlag frameType = some flag) :
    flag < 3 ∧ FrameType.fromFlag flag = frameType := by
  cases frameType <;> cases kind <;> exact ⟨by decide,rfl⟩

def Representable (callsign : List Char) : Prop :=
  packAlphanumeric50 callsign ≠ 0 ∧ unpackAlphanumeric50 (packAlphanumeric50 callsign) = callsign

instance (callsign : List Char) : Decidable (Representable callsign) := by unfold Representable; infer_instance

theorem Representable.carried {callsign : List Char} (representable : Representable callsign) {frameType : FrameType}
    {flag : Nat} (kind : compoundFlag frameType = some flag) (num : UInt16) :
    ∃ payload, packCompoundFrame callsign frameType num 0 = some payload ∧
      unpackCompoundFrame payload = some ⟨frameType,callsign,num⟩ := by
  have small := flagBack kind
  refine ⟨⟨_,compoundLength flag (packAlphanumeric50 callsign) num 0⟩,?_,?_⟩
  · simp [packCompoundFrame, kind, representable.1]
  · rw [unpackCompound small.1 (packBound callsign), small.2, representable.2]

theorem Representable.chars {callsign : List Char} (representable : Representable callsign) {c : Char}
    (member : c ∈ callsign) : c ∈ alphanumeric ∧ c ≠ ' ' := by
  have known : ∀ i, charAt i ∈ alphanumeric := by
    intro i
    unfold charAt
    by_cases inside : i < alphanumeric.length
    · rw [List.getD_eq_getElem _ _ inside]
      exact List.getElem_mem inside
    · rw [List.getD_eq_default _ _ (Nat.not_lt.mp inside)]
      decide
  have slash : ∀ flag, slashOr flag ∈ alphanumeric := by
    intro flag
    unfold slashOr
    split <;> decide
  rw [← representable.2, unpackAlphanumeric50, List.mem_filter] at member
  obtain ⟨inside,bare⟩ := member
  refine ⟨?_,by simpa using bare⟩
  simp only [List.mem_cons, List.not_mem_nil, or_false] at inside
  rcases inside with rfl | rfl | rfl | rfl | rfl | rfl | rfl | rfl | rfl | rfl | rfl
  all_goals first | exact known _ | exact slash _

theorem eightBits {bits : List Bool} (length : bits.length = 8) :
    ∃ a b c d e f g h : Bool, bits = [a,b,c,d,e,f,g,h] := by
  match bits, length with
  | [a,b,c,d,e,f,g,h], _ => exact ⟨a,b,c,d,e,f,g,h,rfl⟩

theorem byteBitsByte {bits : List Bool} (length : bits.length = 8) : byteBits (bitsByte bits) = bits := by
  obtain ⟨a,b,c,d,e,f,g,h,rfl⟩ := eightBits length
  revert a b c d e f g h
  decide +kernel

theorem bitsBytesBack (n : Nat) {bits : List Bool} (length : bits.length = 8 * n) :
    (bitsBytes n bits).flatMap byteBits = bits := by
  induction n generalizing bits with
  | zero => simpa [bitsBytes, eq_comm] using length
  | succ n ih =>
    have rest : (bits.drop 8).length = 8 * n := by
      rw [List.length_drop]
      omega
    have first : (bits.take 8).length = 8 := by
      rw [List.length_take]
      omega
    rw [bitsBytes, List.flatMap_cons, byteBitsByte first, ih rest, List.take_append_drop]

theorem huffPrefixFree : PrefixCode.PrefixFree huffTable := by
  unfold PrefixCode.PrefixFree
  decide +kernel

def code (c : Char) : List Bool := ((huffRow c).map (·.2)).getD []

def Coded (c : Char) : Prop := huffRow c = some (c,code c)

instance (c : Char) : Decidable (Coded c) := by unfold Coded; infer_instance

def weight (text : List Char) : Nat := (text.flatMap code).length

@[simp] theorem weightNil : weight [] = 0 := rfl

theorem weightCons (c : Char) (text : List Char) : weight (c::text) = (code c).length + weight text := by
  simp [weight]

theorem weightAppend (left right : List Char) : weight (left ++ right) = weight left + weight right := by
  simp [weight]

structure Fills (room : Nat) (text : List Char) (n : Nat) : Prop where
  inside : n ≤ text.length
  fits : weight (text.take n) < room
  full : ∀ c, text[n]? = some c → room ≤ weight (text.take n) + (code c).length

theorem fillSpec {text : List Char} (coded : ∀ c ∈ text, Coded c) {bits : List Bool} {room : Nat}
    (left : bits.length + room = frameSize) (some' : 0 < room) :
    (fillBits bits text).1 = bits ++ (text.take (fillBits bits text).2).flatMap code ∧
      Fills room text (fillBits bits text).2 := by
  induction text generalizing bits room with
  | nil => exact ⟨by simp [fillBits],⟨by simp [fillBits],by simpa using some',by simp⟩⟩
  | cons ch text ih =>
    have row : huffRow ch = some (ch,code ch) := coded ch (by simp)
    by_cases over' : frameSize ≤ bits.length + (code ch).length
    · have stop : fillBits bits (ch::text) = (bits,0) := by simp [fillBits, row, over']
      rw [stop]
      refine ⟨by simp,⟨by simp,by simpa using some',?_⟩⟩
      intro c first
      simp only [List.getElem?_cons_zero, Option.some.injEq] at first
      subst first
      simp only [List.take_zero, weightNil]
      omega
    · have more : (bits ++ code ch).length + (room - (code ch).length) = frameSize := by
        rw [List.length_append]
        omega
      obtain ⟨written,fills⟩ := ih (fun c member => coded c (List.mem_cons_of_mem _ member)) more (by omega)
      have step : fillBits bits (ch::text) = ((fillBits (bits ++ code ch) text).1,(fillBits (bits ++ code ch) text).2 + 1) := by
        simp [fillBits, row, over']
      rw [step]
      refine ⟨by simp [written],⟨by simpa using fills.inside,?_,?_⟩⟩
      · have fits := fills.fits
        rw [List.take_succ_cons, weightCons]
        omega
      · intro c next
        have full := fills.full c (by simpa using next)
        rw [List.take_succ_cons, weightCons]
        omega

def cut (text : List Char) : Nat := (packHuffFrame text).2

theorem cutFills {text : List Char} (coded : ∀ c ∈ text, Coded c) : Fills 70 text (cut text) :=
  (@fillSpec text coded [true,false] 70 rfl (by decide)).2

theorem padding {k : Nat} (some' : 0 < k) : (List.range k).map (· != 0) = false :: List.replicate (k - 1) true := by
  cases k with
  | zero => cases some'
  | succ k =>
    have ones : (List.range k).map ((· != 0) ∘ Nat.succ) = List.replicate k true := by
      rw [List.eq_replicate_iff]
      exact ⟨by simp,by simp⟩
    simpa [List.range_succ_eq_map] using ones

theorem frameBits {text : List Char} (coded : ∀ c ∈ text, Coded c) :
    bits72 (packHuffFrame text).1 = true :: (false :: (text.take (cut text)).flatMap code ++
      false :: List.replicate (69 - weight (text.take (cut text))) true) := by
  obtain ⟨written,fills⟩ := @fillSpec text coded [true,false] 70 rfl (by decide)
  have size : ((fillBits [true,false] text).1).length = 2 + weight (text.take (fillBits [true,false] text).2) := by
    rw [written, List.length_append, weight]
    rfl
  have fits := fills.fits
  have room : frameSize - ((fillBits [true,false] text).1).length - 1 =
      69 - weight (text.take (fillBits [true,false] text).2) := by
    rw [size, frameSize]
    omega
  have whole : padBits (fillBits [true,false] text).1 = true :: (false :: (text.take (cut text)).flatMap code ++
      false :: List.replicate (69 - weight (text.take (cut text))) true) := by
    rw [padBits, padding (by rw [size, frameSize]; omega), room, written]
    rfl
  have length : (padBits (fillBits [true,false] text).1).length = 8 * 9 := by
    rw [padBits, List.length_append, List.length_map, List.length_range, size, frameSize]
    omega
  rw [← whole]
  exact bitsBytesBack 9 length

theorem huffRead {text : List Char} (coded : ∀ c ∈ text, Coded c) : PrefixCode.decode huffTable (text.flatMap code) = text := by
  have rows : text.flatMap code = PrefixCode.written (text.map fun c => (c,code c)) := by
    simp [PrefixCode.written, List.flatMap_map]
  have inside : ∀ row ∈ text.map (fun c => (c,code c)), row ∈ huffTable := by
    intro row member
    obtain ⟨c,here,rfl⟩ := List.mem_map.mp member
    exact List.mem_of_find?_eq_some (coded c here)
  rw [rows, PrefixCode.decodeWritten huffPrefixFree inside, List.map_map]
  exact List.map_id text

theorem dataRead (jsc : List Bool → List Char) {text : List Char} (coded : ∀ c ∈ text, Coded c) :
    unpackDataMessage jsc (packHuffFrame text).1 = some (text.take (cut text)) := by
  have piece : ∀ c ∈ text.take (cut text), Coded c := fun c member => coded c (List.mem_of_mem_take member)
  have ones : ∀ (k : Nat) (tail : List Bool), (List.replicate k true ++ false::tail).dropWhile id = false::tail := by
    intro k tail
    induction k with
    | zero => rfl
    | succ k ih => simp [List.replicate_succ, ih]
  rw [unpackDataMessage, frameBits coded]
  simp only [List.cons_append, List.reverse_cons, List.reverse_append, List.append_assoc, List.reverse_replicate,
    List.nil_append, ones]
  simp [huffRead piece]

theorem readBeCons (b : UInt8) (raw : Bytes) : readBe (b::raw) = b.toNat * 256 ^ raw.length + readBe raw := by
  induction raw using List.reverseRecOn with
  | nil => simp [readBe]
  | append_singleton raw c ih =>
    rw [← List.cons_append, readBeSnoc, ih, readBeSnoc, List.length_append, List.length_singleton, Nat.pow_succ,
      Nat.add_mul, Nat.mul_assoc, Nat.add_assoc]

theorem dataNotCompound {payload : Payload} {b71 : List Bool} (data : bits72 payload = true::b71) :
    unpackCompoundFrame payload = none := by
  obtain ⟨raw,length⟩ := payload
  cases raw with
  | nil => cases length
  | cons b raw =>
    have bit : b.toNat.testBit 7 = true := (List.cons.inj data).1
    have top := Nat.ge_two_pow_of_testBit bit
    have seven : (raw.take 7).length = 7 := by
      rw [List.length_take]
      simp only [List.length_cons] at length
      omega
    have value : readBe ((b::raw).take 8) = b.toNat * 256 ^ 7 + readBe (raw.take 7) := by
      rw [List.take_succ_cons, readBeCons, seven]
    have small := Reads.readBeSmall (raw.take 7)
    rw [seven] at small
    have byte := b.toNat_lt
    rw [unpackCompoundFrame]
    simp only [value]
    rw [if_pos (by omega)]

theorem weightTake {j k : Nat} (le : j ≤ k) (text : List Char) : weight (text.take j) ≤ weight (text.take k) := by
  have split : text.take k = text.take j ++ (text.drop j).take (k - j) := by
    rw [← List.take_add, Nat.add_sub_cancel' le]
  rw [split, weightAppend]
  exact Nat.le_add_right _ _

theorem Fills.reaches {room n : Nat} {text : List Char} (fills : Fills room text n) {k : Nat} (inside : k ≤ text.length)
    (fits : weight (text.take k) < room) : k ≤ n := by
  by_contra short
  have here : n < text.length := by omega
  have full := fills.full text[n] (List.getElem?_eq_getElem here)
  have mono := weightTake (Nat.not_le.mp short) text
  rw [List.take_succ_eq_append_getElem here, weightAppend, weightCons, weightNil] at mono
  omega

theorem Fills.stops {room n : Nat} {text : List Char} (fills : Fills room text n) {k : Nat}
    (heavy : room ≤ weight (text.take k)) : n < k := by
  by_contra long
  have mono := weightTake (Nat.not_lt.mp long) text
  have fits := fills.fits
  omega

theorem codeShort {c : Char} (coded : Coded c) : (code c).length ≤ 8 := by
  have every : ∀ row ∈ huffTable, row.2.length ≤ 8 := by decide
  exact every _ (List.mem_of_find?_eq_some coded)

theorem cutPositive {text : List Char} (coded : ∀ c ∈ text, Coded c) (some' : text ≠ []) : 0 < cut text := by
  cases text with
  | nil => exact absurd rfl some'
  | cons c text =>
    have short := codeShort (coded c (by simp))
    exact (cutFills coded).reaches (by simp) (by simp only [List.take_succ_cons, List.take_zero, weightCons, weightNil]; omega)

def pieces : Nat → List Char → List (List Char)
  | 0, _ => []
  | fuel + 1, rest =>
    if rest.isEmpty then []
    else if cut rest = 0 then [] else rest.take (cut rest) :: pieces fuel (rest.drop (cut rest))

def textPieces (text : List Char) : List (List Char) := pieces text.length text

section Coded

variable {text : List Char} (coded : ∀ c ∈ text, Coded c)
include coded

theorem codedDrop (n : Nat) : ∀ c ∈ text.drop n, Coded c := fun c member => coded c (List.mem_of_mem_drop member)

theorem dropShorter (some' : text ≠ []) : (text.drop (cut text)).length < text.length := by
  have positive := cutPositive coded some'
  have size := List.length_pos_iff.mpr some'
  rw [List.length_drop]
  omega

theorem piecesFuel {m n : Nat} (enough : text.length ≤ m) (plenty : text.length ≤ n) : pieces m text = pieces n text := by
  induction m generalizing n text with
  | zero =>
    rw [List.length_eq_zero_iff.mp (Nat.le_zero.mp enough)]
    cases n <;> rfl
  | succ m ih =>
    cases n with
    | zero =>
      rw [List.length_eq_zero_iff.mp (Nat.le_zero.mp plenty)]
      rfl
    | succ n =>
      by_cases empty : text = []
      · rw [empty]
        rfl
      · have shorter := dropShorter coded empty
        have rest := @ih _ (codedDrop coded (cut text)) n (by omega) (by omega)
        rw [pieces, pieces, rest]

theorem textPiecesCons (some' : text ≠ []) :
    textPieces text = text.take (cut text) :: textPieces (text.drop (cut text)) := by
  have shorter := dropShorter coded some'
  have positive := cutPositive coded some'
  obtain ⟨n,size⟩ : ∃ n, text.length = n + 1 := ⟨text.length - 1,by omega⟩
  rw [textPieces, size, pieces, if_neg (by simpa using some'), if_neg (by omega), textPieces,
    piecesFuel (codedDrop coded _) (by omega : _ ≤ n) (Nat.le_refl _)]

end Coded

@[simp] theorem textPiecesNil : textPieces [] = [] := rfl

theorem piecesInduction {motive : List Char → Prop} (nil : motive [])
    (cons : ∀ text, (∀ c ∈ text, Coded c) → text ≠ [] → motive (text.drop (cut text)) → motive text)
    {text : List Char} (coded : ∀ c ∈ text, Coded c) : motive text := by
  induction size : text.length using Nat.strongRecOn generalizing text with
  | _ n ih =>
    by_cases empty : text = []
    · exact empty ▸ nil
    · exact cons text coded empty (ih _ (size ▸ dropShorter coded empty) (codedDrop coded _) rfl)

theorem textPiecesFlatten {text : List Char} (coded : ∀ c ∈ text, Coded c) : (textPieces text).flatten = text := by
  refine piecesInduction (motive := fun text => (textPieces text).flatten = text) rfl ?_ coded
  intro text coded some' rest
  rw [textPiecesCons coded some', List.flatten_cons, rest, List.take_append_drop]

theorem textPiecesBegun {text : List Char} (coded : ∀ c ∈ text, Coded c) : ∀ piece ∈ textPieces text, piece ≠ [] := by
  refine piecesInduction (motive := fun text => ∀ piece ∈ textPieces text, piece ≠ []) (by simp) ?_ coded
  intro text coded some' rest piece member
  rw [textPiecesCons coded some', List.mem_cons] at member
  rcases member with rfl | later
  · have positive := cutPositive coded some'
    have size := List.length_pos_iff.mpr some'
    rw [Ne, List.take_eq_nil_iff, not_or]
    exact ⟨by omega,some'⟩
  · exact rest piece later

theorem textPiecesShort {text : List Char} (coded : ∀ c ∈ text, Coded c) {n : Nat} (fewer : n < (textPieces text).length) :
    ((textPieces text).take n).flatten <+: text ∧ ((textPieces text).take n).flatten ≠ text := by
  have parts : ((textPieces text).take n).flatten ++ ((textPieces text).drop n).flatten = text := by
    rw [← List.flatten_append, List.take_append_drop, textPiecesFlatten coded]
  refine ⟨⟨_,parts⟩,fun whole => ?_⟩
  rw [whole, List.append_right_eq_self, List.drop_eq_getElem_cons fewer, List.flatten_cons, List.append_eq_nil_iff] at parts
  exact textPiecesBegun coded _ (List.getElem_mem fewer) parts.1

def Carries (jsc : List Bool → List Char) (payload : Payload) (piece : List Char) : Prop :=
  unpackCompoundFrame payload = none ∧ unpackDataMessage jsc payload = some piece

theorem dataFramesCarry (jsc : List Bool → List Char) (fuel : Nat) {text : List Char} (coded : ∀ c ∈ text, Coded c) :
    List.Forall₂ (Carries jsc) (dataFrames fuel text) (pieces fuel text) := by
  induction fuel generalizing text with
  | zero => exact .nil
  | succ fuel ih =>
    rw [dataFrames, pieces]
    show List.Forall₂ _ (if text.isEmpty then [] else if cut text = 0 then [] else _) _
    split_ifs
    · exact .nil
    · exact .nil
    · exact .cons ⟨dataNotCompound (frameBits coded),dataRead jsc coded⟩ (ih (codedDrop coded _))

theorem flagLastPayloads (frames : List BeaconFrame) :
    (flagLast frames).map BeaconFrame.payload = frames.map BeaconFrame.payload := by
  induction frames using flagLast.induct with
  | case1 => rfl
  | case2 last => rfl
  | case3 frame frames more ih => rw [flagLast, List.map_cons, List.map_cons, ih]; exact more

end OpenPulse.Js8
