import Mathlib.Data.List.TakeWhile
import OpenPulse.Js8Frames

/-! Free text in data frames, for every text: `plugins/js8/src/encode.rs`, `varicode.rs` and
the loop of `build_over` in `beacon.rs`. A frame takes characters from the front as long as
they have codes; the loop cuts the text at as many bytes as the frame took characters. -/
namespace OpenPulse.Js8

/-- The text from byte `n` on; none where that is past the end or inside a character. -/
def sliceFrom : Nat → List Char → Option (List Char)
  | 0, text => some text
  | _ + 1, [] => none
  | n + 1, c::text => if c.utf8Size ≤ n + 1 then sliceFrom (n + 1 - c.utf8Size) text else none

inductive LoopFault where
  | running
  | slice
  deriving DecidableEq

def overLoop : Nat → List Char → Except LoopFault (List Payload)
  | 0, _ => .error .running
  | turns + 1, rest =>
    if rest.isEmpty then .ok []
    else if (packHuffFrame rest).2 = 0 then .ok []
    else
      match sliceFrom (packHuffFrame rest).2 rest with
      | none => .error .slice
      | some rest' => (overLoop turns rest').map ((packHuffFrame rest).1 :: ·)

def InAlphabet (c : Char) : Bool := (huffRow c).isSome

theorem toUpperCases (c : Char) : c.toUpper = c ∨ (97 ≤ c.val.toNat ∧ c.val.toNat ≤ 122) ∧ c.toUpper.val.toNat = c.val.toNat - 32 := by
  delta Char.toUpper
  split
  · next lower =>
    have low : 97 ≤ c.val.toNat := UInt32.le_iff_toNat_le.mp lower.1
    have high : c.val.toNat ≤ 122 := UInt32.le_iff_toNat_le.mp lower.2
    refine .inr ⟨⟨low,high⟩,?_⟩
    have shift : ('A'.val - 'a'.val).toNat = 2 ^ 32 - 32 := by decide
    rw [UInt32.toNat_add, shift]
    omega
  · exact .inl rfl

theorem toUpperUpper (c : Char) : c.toUpper.toUpper = c.toUpper := by
  rcases toUpperCases c with same | ⟨⟨low,high⟩,value⟩
  · rw [same, same]
  · rcases toUpperCases c.toUpper with same | ⟨⟨low',-⟩,-⟩
    · exact same
    · omega

theorem rowUpper (c : Char) : huffRow c.toUpper = huffRow c := by
  rw [huffRow, toUpperUpper, huffRow]

theorem upperCoded {c : Char} (inside : InAlphabet c) : Coded c.toUpper := by
  obtain ⟨row,found⟩ := Option.isSome_iff_exists.mp inside
  have same : row.1 = c.toUpper := by simpa using List.find?_some found
  rw [Coded, code, rowUpper, found, ← same]
  rfl

theorem alphabetPlain {c : Char} (inside : InAlphabet c) : c.utf8Size = 1 := by
  obtain ⟨row,found⟩ := Option.isSome_iff_exists.mp inside
  have same : row.1 = c.toUpper := by simpa using List.find?_some found
  have ascii : ∀ row ∈ huffTable, row.1.val.toNat ≤ 127 := by decide
  have small := ascii row (List.mem_of_find?_eq_some found)
  rw [same] at small
  refine Char.utf8Size_eq_one_iff.mpr (UInt32.le_iff_toNat_le.mpr ?_)
  rcases toUpperCases c with plain | ⟨⟨-,high⟩,-⟩
  · rwa [plain] at small
  · exact high.trans (by decide)

def carried (text : List Char) : List Char := (text.takeWhile InAlphabet).map Char.toUpper

theorem carriedCoded (text : List Char) : ∀ c ∈ carried text, Coded c := by
  intro c member
  obtain ⟨d,kept,rfl⟩ := List.mem_map.mp member
  exact upperCoded (List.mem_takeWhile_imp kept)

theorem carriedLength (text : List Char) : (carried text).length ≤ text.length := by
  rw [carried, List.length_map]
  exact (List.takeWhile_prefix InAlphabet).length_le

theorem carriedTake (text : List Char) {n : Nat} (inside : n ≤ (carried text).length) :
    (carried text).take n = (text.take n).map Char.toUpper := by
  have begins := List.prefix_iff_eq_take.mp (List.takeWhile_prefix InAlphabet : text.takeWhile InAlphabet <+: text)
  rw [carried, List.length_map] at inside
  rw [carried, ← List.map_take]
  conv_lhs => rw [begins]
  rw [List.take_take, Nat.min_eq_left inside]

theorem fillCarried (bits : List Bool) (text : List Char) : fillBits bits text = fillBits bits (carried text) := by
  induction text generalizing bits with
  | nil => rfl
  | cons c text ih =>
    cases found : huffRow c with
    | none =>
      have outside : carried (c::text) = [] := by simp [carried, InAlphabet, found]
      rw [outside]
      simp only [fillBits, found]
    | some row =>
      have inside : carried (c::text) = c.toUpper :: carried text := by simp [carried, InAlphabet, found]
      rw [inside, fillBits, fillBits, rowUpper, found]
      simp only [ih]

theorem packCarried (text : List Char) : packHuffFrame text = packHuffFrame (carried text) := by
  have same := fillCarried [true,false] text
  simp only [packHuffFrame, same]

theorem cutInside (text : List Char) : cut text ≤ (carried text).length := by
  rw [cut, packCarried]
  exact (cutFills (carriedCoded text)).inside

theorem textRead (jsc : List Bool → List Char) (text : List Char) :
    unpackDataMessage jsc (packHuffFrame text).1 = some ((text.take (packHuffFrame text).2).map Char.toUpper) := by
  have read := dataRead jsc (carriedCoded text)
  have taken := carriedTake text (cutInside text)
  rw [← packCarried, cut, ← packCarried] at read
  rw [cut] at taken
  rw [read, taken]

theorem textTaken {c : Char} (inside : InAlphabet c) (text : List Char) : 0 < (packHuffFrame (c::text)).2 := by
  have some' : carried (c::text) ≠ [] := by simp [carried, inside]
  rw [packCarried]
  exact cutPositive (carriedCoded (c::text)) some'

theorem sliceTaken {n : Nat} {text : List Char} (inside : n ≤ text.length) (plain : ∀ c ∈ text.take n, c.utf8Size = 1) :
    sliceFrom n text = some (text.drop n) := by
  induction n generalizing text with
  | zero => rw [sliceFrom, List.drop_zero]
  | succ n ih =>
    cases text with
    | nil => cases inside
    | cons c text =>
      have one := plain c (by simp)
      rw [sliceFrom, one, if_pos (by omega)]
      exact ih (Nat.le_of_succ_le_succ inside) fun d member => plain d (by simp [member])

theorem takenPlain (text : List Char) : ∀ c ∈ text.take (cut text), c.utf8Size = 1 := by
  intro c member
  have inside := cutInside text
  rw [carried, List.length_map] at inside
  have begins := List.prefix_iff_eq_take.mp (List.takeWhile_prefix InAlphabet : text.takeWhile InAlphabet <+: text)
  have early : c ∈ text.takeWhile InAlphabet := by
    rw [begins]
    exact List.take_subset_take_left text inside member
  exact alphabetPlain (List.mem_takeWhile_imp early)

theorem overLoopDone {room : Nat} (text : List Char) (enough : text.length ≤ room) (k : Nat) :
    overLoop (room + 1 + k) text = .ok (dataFrames room text) := by
  induction room generalizing text with
  | zero =>
    rw [List.length_eq_zero_iff.mp (Nat.le_zero.mp enough), Nat.add_comm, overLoop]
    rfl
  | succ room ih =>
    rw [show room + 1 + 1 + k = (room + 1 + k) + 1 by omega, overLoop, dataFrames]
    by_cases empty : text.isEmpty
    · rw [if_pos empty, if_pos empty]
    · by_cases stuck : (packHuffFrame text).2 = 0
      · rw [if_neg empty, if_neg empty, if_pos stuck, if_pos stuck]
      · have slice := sliceTaken (Nat.le_trans (cutInside text) (carriedLength text)) (takenPlain text)
        have shorter : (text.drop (packHuffFrame text).2).length ≤ room := by
          rw [List.length_drop]
          omega
        rw [cut] at slice
        rw [if_neg empty, if_neg empty, if_neg stuck, if_neg stuck, slice]
        simp only [ih _ shorter]
        rfl

theorem carriedAll {text : List Char} (inside : ∀ c ∈ text, InAlphabet c) : carried text = text.map Char.toUpper := by
  rw [carried, List.takeWhile_eq_self_iff.mpr inside]

theorem dataFramesUpper (fuel : Nat) {text : List Char} (inside : ∀ c ∈ text, InAlphabet c) :
    dataFrames fuel text = dataFrames fuel (text.map Char.toUpper) := by
  induction fuel generalizing text with
  | zero => rfl
  | succ fuel ih =>
    have same : packHuffFrame text = packHuffFrame (text.map Char.toUpper) := by rw [packCarried, carriedAll inside]
    have rest := @ih (text.drop (packHuffFrame text).2) fun c member => inside c (List.mem_of_mem_drop member)
    rw [dataFrames, dataFrames, ← same, rest, List.map_drop, List.isEmpty_map]

theorem overData {sender grid target text : List Char} {frames : List BeaconFrame}
    (built : buildOver sender grid target text = some frames) (packed : frames ≠ []) :
    (frames.drop 2).map BeaconFrame.payload = dataFrames text.length text := by
  obtain ⟨num,-,rfl⟩ := Option.map_eq_some_iff.mp built
  split at packed
  · next senderFrame targetFrame _ _ =>
    rw [List.map_drop, flagLastPayloads]
    simp [flagFirst, Function.comp_def]
  · exact absurd rfl packed

theorem carriesRead {jsc : List Bool → List Char} {payloads : List Payload} {pieces : List (List Char)}
    (carry : List.Forall₂ (Carries jsc) payloads pieces) : payloads.map (unpackDataMessage jsc) = pieces.map some := by
  induction carry with
  | nil => rfl
  | cons first rest ih => rw [List.map_cons, List.map_cons, first.2, ih]

theorem freeText (jsc : List Bool → List Char) :
    (∀ text, unpackDataMessage jsc (packHuffFrame text).1 = some ((text.take (packHuffFrame text).2).map Char.toUpper)) ∧
    (∀ c text, InAlphabet c → 0 < (packHuffFrame (c::text)).2) ∧
    (∀ sender grid target text frames, (∀ c ∈ text, InAlphabet c) → buildOver sender grid target text = some frames → frames ≠ [] →
      ∃ texts : List (List Char), (frames.drop 2).map (fun frame => unpackDataMessage jsc frame.payload) = texts.map some ∧
        texts.flatten = text.map Char.toUpper) ∧
    ∀ text k, overLoop (text.length + 1 + k) text = .ok (dataFrames text.length text) := by
  refine ⟨textRead jsc,fun c text inside => textTaken inside text,?_,fun text k => overLoopDone text (Nat.le_refl _) k⟩
  intro sender grid target text frames inside built packed
  have coded : ∀ c ∈ text.map Char.toUpper, Coded c := carriedAll inside ▸ carriedCoded text
  have carry := dataFramesCarry jsc text.length coded
  rw [← dataFramesUpper text.length inside, ← overData built packed] at carry
  refine ⟨textPieces (text.map Char.toUpper),?_,textPiecesFlatten coded⟩
  rw [textPieces, List.length_map, ← carriesRead carry, List.map_map]
  rfl

def greeting : List BeaconFrame := (buildOver "W1AW".toList "FN20".toList "@OPULSE".toList "hi 73 de w1aw".toList).getD []

theorem freeText_greeting :
    ∃ texts : List (List Char), (greeting.drop 2).map (fun frame => unpackDataMessage (fun _ => []) frame.payload) = texts.map some ∧
      texts.flatten = "hi 73 de w1aw".toList.map Char.toUpper :=
  (freeText (fun _ => [])).2.2.1 "W1AW".toList "FN20".toList "@OPULSE".toList "hi 73 de w1aw".toList greeting
    (List.all_eq_true.mp (by decide)) (by decide +kernel) (by decide +kernel)

end OpenPulse.Js8
