import OpenPulse.Js8Frames
import OpenPulse.Words

/-! Callsigns in compound frames. Eleven places hold nine characters and two separators
in a number of mixed radix; the blanks put in for separators drop out again. -/
namespace OpenPulse.Js8
open ByteCodec
open Words (everyChar)

theorem insertSplit {i : Nat} {word : List Char} (inside : i ≤ word.length) (c : Char) :
    word.insertIdx i c = word.take i ++ c :: word.drop i := by
  induction i generalizing word with
  | zero => rfl
  | succ i ih =>
    cases word with
    | nil => cases inside
    | cons d word => rw [List.insertIdx_succ_cons, ih (Nat.le_of_succ_le_succ inside)]; rfl

structure Separates (i : Nat) (word out : List Char) : Prop where
  bare : out.filter (· != ' ') = word.filter (· != ' ')
  length : out.length ≤ word.length + 1
  before : out.take i = word.take i
  mark : out.getD i ' ' = '/' ∨ out.getD i ' ' = ' '
  plain : 0 < i → ∀ c ∈ out.drop 1, c ∈ word.drop 1 ∨ c = ' '

theorem separates (i : Nat) (word : List Char) : Separates i word (separatedAt i word) := by
  unfold separatedAt
  split
  · next inside =>
    have reach := Nat.le_of_lt inside.1
    have taken : (word.take i).length = i := List.length_take_of_le reach
    rw [insertSplit reach]
    refine ⟨?_,?_,?_,.inr ?_,fun positive c member => ?_⟩
    · conv_rhs => rw [← List.take_append_drop i word]
      rw [List.filter_append, List.filter_append]
      rfl
    · rw [List.length_append, List.length_cons, taken, List.length_drop]
      omega
    · rw [List.take_left' taken]
    · rw [List.getD_append_right _ _ _ _ (Nat.le_of_eq taken), taken, Nat.sub_self]
      rfl
    · rw [List.drop_append_of_le_length (by omega)] at member
      conv => rw [← List.take_append_drop i word, List.drop_append_of_le_length (by omega)]
      rcases List.mem_append.mp member with early | late
      · exact .inl (List.mem_append_left _ early)
      · rcases List.mem_cons.mp late with blank | late
        · exact .inr blank
        · exact .inl (List.mem_append_right _ late)
  · next kept =>
    refine ⟨rfl,Nat.le_succ _,rfl,?_,fun _ c member => .inl member⟩
    by_cases inside : i < word.length
    · exact .inl (by_contra fun other => kept ⟨inside,other⟩)
    · exact .inr (List.getD_eq_default _ _ (Nat.not_lt.mp inside))

def callsignLetters : List Char := "0123456789ABCDEFGHIJKLMNOPQRSTUVWXYZ/".toList

/-- One to nine characters: letters, digits and slashes, and an at sign only in front. -/
structure Callsign (value : List Char) : Prop where
  some' : 0 < value.length
  short : value.length ≤ 9
  head : ∀ c ∈ value, c = '@' ∨ c ∈ callsignLetters
  tail : ∀ c ∈ value.drop 1, c ∈ callsignLetters

theorem lettersPlain : ∀ c ∈ callsignLetters, callsignChar c = true ∧ (c != ' ') = true := everyChar (by decide)

theorem alphanumericBack : ∀ c ∈ alphanumeric, charAt (alnumIndex c) = c := everyChar (by decide)

theorem alphanumericSmall : ∀ c ∈ ' '::callsignLetters, alnumIndex c < 38 ∧ c ∈ alphanumeric := everyChar (by decide)

structure Placed (value word : List Char) : Prop where
  length : word.length = 11
  bare : word.filter (· != ' ') = value
  third : word.getD 3 ' ' = '/' ∨ word.getD 3 ' ' = ' '
  seventh : word.getD 7 ' ' = '/' ∨ word.getD 7 ' ' = ' '
  head : word.getD 0 ' ' ∈ alphanumeric
  tail : ∀ c ∈ word.drop 1, c ∈ ' '::callsignLetters

theorem getPadded (word : List Char) (n i : Nat) : (word ++ List.replicate n ' ').getD i ' ' = word.getD i ' ' := by
  rcases Nat.lt_or_ge i word.length with inside | beyond
  · exact List.getD_append _ _ _ _ inside
  · rw [List.getD_append_right _ _ _ _ beyond, List.getD_eq_default _ _ beyond, List.getD_eq_getElem?_getD, List.getElem?_replicate]
    split <;> rfl

theorem getTaken {i n : Nat} (early : i < n) {left right : List Char} (same : left.take n = right.take n) :
    left.getD i ' ' = right.getD i ' ' := by
  have equal := congrArg (fun word => word.getD i ' ') same
  simpa [List.getD_eq_getElem?_getD, List.getElem?_take, early] using equal

theorem behindFirst {c : Char} {left right : List Char} (member : c ∈ (left ++ right).drop 1) : c ∈ left.drop 1 ∨ c ∈ right := by
  cases left with
  | nil => exact .inr (List.mem_of_mem_drop member)
  | cons d left => exact List.mem_append.mp member

section
variable {value : List Char} (callsign : Callsign value)
include callsign

theorem Callsign.plain : value.filter callsignChar = value ∧ value.filter (· != ' ') = value := by
  have known : ∀ c ∈ value, callsignChar c = true ∧ (c != ' ') = true := fun c member => by
    rcases callsign.head c member with rfl | letter
    · decide
    · exact lettersPlain c letter
  exact ⟨List.filter_eq_self.mpr fun c member => (known c member).1,List.filter_eq_self.mpr fun c member => (known c member).2⟩

theorem Callsign.placed : Placed value (callsignWord value) := by
  obtain ⟨kept,bare⟩ := callsign.plain
  have third := separates 3 value
  have seventh := separates 7 (separatedAt 3 value)
  have longest := third.length
  have longest' := seventh.length
  have short := callsign.short
  unfold callsignWord
  rw [kept]
  refine ⟨?_,?_,?_,?_,?_,fun c member => ?_⟩
  · rw [List.length_append, List.length_replicate]
    omega
  · rw [List.filter_append, seventh.bare, third.bare, bare, List.filter_replicate]
    simp
  · rw [getPadded, getTaken (show 3 < 7 by decide) seventh.before]
    exact third.mark
  · rw [getPadded]
    exact seventh.mark
  · rw [getPadded, getTaken (show 0 < 7 by decide) seventh.before, getTaken (show 0 < 3 by decide) third.before,
      List.getD_eq_getElem _ _ callsign.some']
    rcases callsign.head _ (List.getElem_mem callsign.some') with at' | letter
    · rw [at']
      decide
    · exact (alphanumericSmall _ (List.mem_cons_of_mem _ letter)).2
  · rcases behindFirst member with early | padding
    · rcases seventh.plain (by decide) c early with early | rfl
      · rcases third.plain (by decide) c early with early | rfl
        · exact List.mem_cons_of_mem _ (callsign.tail c early)
        · exact List.mem_cons_self
      · exact List.mem_cons_self
    · rw [List.eq_of_mem_replicate padding]
      exact List.mem_cons_self

end

theorem digitBack {d r : Nat} (small : d < r) (n : Nat) : (n * r + d) % r = d ∧ (n * r + d) / r = n := by
  constructor
  · rw [Nat.add_comm, Nat.add_mul_mod_self_right, Nat.mod_eq_of_lt small]
  · rw [Nat.add_comm, Nat.add_mul_div_right _ _ (Nat.zero_lt_of_lt small), Nat.div_eq_of_lt small, Nat.zero_add]

theorem packHorner (value : List Char) :
    let at' (i : Nat) : Char := (callsignWord value).getD i ' '
    packAlphanumeric50 value =
      (((((((((alnumIndex (at' 0) * 38 + alnumIndex (at' 1)) * 38 + alnumIndex (at' 2)) * 2 + isSlash (at' 3)) * 38 +
        alnumIndex (at' 4)) * 38 + alnumIndex (at' 5)) * 38 + alnumIndex (at' 6)) * 2 + isSlash (at' 7)) * 38 +
        alnumIndex (at' 8)) * 38 + alnumIndex (at' 9)) * 38 + alnumIndex (at' 10) := by
  simp only [packAlphanumeric50]
  omega

theorem slashBack {c : Char} (mark : c = '/' ∨ c = ' ') : slashOr (isSlash c) = c := by
  rcases mark with rfl | rfl <;> decide

theorem isSlashSmall (c : Char) : isSlash c < 2 := Nat.lt_succ_of_le (isSlashBound c)

theorem eleven {word : List Char} (length : word.length = 11) :
    word = [word.getD 0 ' ',word.getD 1 ' ',word.getD 2 ' ',word.getD 3 ' ',word.getD 4 ' ',word.getD 5 ' ',word.getD 6 ' ',
      word.getD 7 ' ',word.getD 8 ' ',word.getD 9 ' ',word.getD 10 ' '] := by
  have all : (List.range word.length).map (fun i => word.getD i ' ') = word := by
    refine List.ext_getElem (by simp) fun i inside here => ?_
    rw [List.getElem_map, List.getElem_range, List.getD_eq_getElem _ _ here]
  rw [length] at all
  exact all.symm

theorem behindMember {word : List Char} {i : Nat} (positive : 0 < i) (inside : i < word.length) : word.getD i ' ' ∈ word.drop 1 := by
  rw [List.getD_eq_getElem _ _ inside]
  refine List.mem_iff_getElem.mpr ⟨i - 1,by rw [List.length_drop]; omega,?_⟩
  rw [List.getElem_drop]
  congr 1
  omega

theorem Callsign.back {value : List Char} (callsign : Callsign value) : unpackAlphanumeric50 (packAlphanumeric50 value) = value := by
  have placed := callsign.placed
  have behind : ∀ i, 0 < i → i < 11 → alnumIndex ((callsignWord value).getD i ' ') < 38 ∧
      charAt (alnumIndex ((callsignWord value).getD i ' ')) = (callsignWord value).getD i ' ' := fun i positive inside => by
    have member := behindMember positive (Nat.lt_of_lt_of_eq inside placed.length.symm)
    obtain ⟨small,known⟩ := alphanumericSmall _ (placed.tail _ member)
    exact ⟨small,alphanumericBack _ known⟩
  have first : alnumIndex ((callsignWord value).getD 0 ' ') < 39 := Nat.lt_succ_of_le (alnumIndexBound _)
  obtain ⟨b1,c1⟩ := behind 1 (by decide) (by decide)
  obtain ⟨b2,c2⟩ := behind 2 (by decide) (by decide)
  obtain ⟨b4,c4⟩ := behind 4 (by decide) (by decide)
  obtain ⟨b5,c5⟩ := behind 5 (by decide) (by decide)
  obtain ⟨b6,c6⟩ := behind 6 (by decide) (by decide)
  obtain ⟨b8,c8⟩ := behind 8 (by decide) (by decide)
  obtain ⟨b9,c9⟩ := behind 9 (by decide) (by decide)
  obtain ⟨b10,c10⟩ := behind 10 (by decide) (by decide)
  simp only [packHorner, unpackAlphanumeric50, digitBack b1, digitBack b2, digitBack b4, digitBack b5, digitBack b6, digitBack b8,
    digitBack b9, digitBack b10, digitBack (isSlashSmall _), Nat.mod_eq_of_lt first, c1, c2, c4, c5, c6, c8, c9, c10,
    slashBack placed.third, slashBack placed.seventh, alphanumericBack _ placed.head]
  rw [← eleven placed.length, placed.bare]

theorem compoundCallsigns :
    (∀ value, Callsign value → packAlphanumeric50 value < 2 ^ 50 ∧ unpackAlphanumeric50 (packAlphanumeric50 value) = value) ∧
    (∀ value frameType num bits3 payload, Callsign value → packCompoundFrame value frameType num bits3 = some payload →
      unpackCompoundFrame payload = some ⟨frameType,value,num⟩) ∧
    ∀ left right, Callsign left → Callsign right → packAlphanumeric50 left = packAlphanumeric50 right → left = right := by
  refine ⟨fun value callsign => ⟨packBound value,callsign.back⟩,?_,fun left right known known' same => ?_⟩
  · intro value frameType num bits3 payload callsign packed
    unfold packCompoundFrame at packed
    split at packed
    · cases packed
    · next flag kind =>
      obtain ⟨small,type⟩ := flagBack kind
      dsimp only at packed
      split at packed
      · cases packed
      · cases packed
        rw [unpackCompound small (packBound value), type, callsign.back]
  · rw [← known.back, same, known'.back]

theorem compoundCallsigns_group : unpackAlphanumeric50 (packAlphanumeric50 "@AB/CDE/7".toList) = "@AB/CDE/7".toList ∧
    (∃ payload, packCompoundFrame "@AB/CDE/7".toList .heartbeat 40000 5 = some payload ∧
      unpackCompoundFrame payload = some ⟨.heartbeat,"@AB/CDE/7".toList,40000⟩) ∧
    packAlphanumeric50 "@AB/CDE/7".toList ≠ packAlphanumeric50 "@AB/CDE".toList := by
  have group : Callsign "@AB/CDE/7".toList := ⟨by decide,by decide,everyChar (by decide),everyChar (by decide)⟩
  have shorter : Callsign "@AB/CDE".toList := ⟨by decide,by decide,everyChar (by decide),everyChar (by decide)⟩
  have packs : (packCompoundFrame "@AB/CDE/7".toList .heartbeat 40000 5).isSome := by decide +kernel
  obtain ⟨payload,packed⟩ := Option.isSome_iff_exists.mp packs
  refine ⟨(compoundCallsigns.1 _ group).2,⟨payload,packed,compoundCallsigns.2.1 _ _ _ _ payload group packed⟩,fun same => ?_⟩
  exact absurd (compoundCallsigns.2.2 _ _ group shorter same) (by decide)

end OpenPulse.Js8
