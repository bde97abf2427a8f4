import Mathlib.Data.List.Induction

/-! Words of a text between separators, and unsigned decimal numbers as
`str::parse` reads them. A word that has only begun is read like any other. -/
namespace OpenPulse.Words

def eqIgnoreAsciiCase (a b : List Char) : Bool := a.map Char.toLower == b.map Char.toLower

theorem everyChar {p : Char → Prop} [DecidablePred p] {text : List Char} (all : (text.all fun c => decide (p c)) = true) :
    ∀ c ∈ text, p c := by
  simpa using all

section Separated

variable {α : Type} {sep : α → Bool}

def words (sep : α → Bool) (text : List α) : List (List α) := (text.splitOnP sep).filter fun w => !w.isEmpty

@[simp] theorem wordsNil : words sep ([] : List α) = [] := by simp [words]

theorem wordsBreak {s : α} (breaks : sep s = true) (left right : List α) :
    words sep (left ++ s::right) = words sep left ++ words sep right := by
  simp [words, List.splitOnP_append_cons left right breaks]

theorem wordsAfter {s : α} (breaks : sep s = true) (right : List α) : words sep (s::right) = words sep right := by
  simpa using wordsBreak breaks [] right

theorem wordsOne {w : List α} (begun : w ≠ []) (whole : ∀ c ∈ w, sep c = false) : words sep w = [w] := by
  simp [words, List.splitOnP_eq_singleton whole, begun]

theorem wordsDropWhile (text : List α) : words sep (text.dropWhile sep) = words sep text := by
  induction text with
  | nil => rfl
  | cons c text ih =>
    cases breaks : sep c with
    | true => rw [List.dropWhile_cons_of_pos breaks, ih, wordsAfter breaks]
    | false => rw [List.dropWhile_cons_of_neg (by simp [breaks])]

theorem wordsTrimEnd (text : List α) : words sep (text.reverse.dropWhile sep).reverse = words sep text := by
  induction text using List.reverseRecOn with
  | nil => rfl
  | append_singleton text c ih =>
    cases breaks : sep c with
    | true =>
      rw [List.reverse_append, List.reverse_singleton, List.singleton_append, List.dropWhile_cons_of_pos breaks, ih]
      simpa using (wordsBreak breaks text []).symm
    | false =>
      rw [List.reverse_append, List.reverse_singleton, List.singleton_append,
        List.dropWhile_cons_of_neg (by simp [breaks])]
      simp

def Apart (sep : α → Bool) (tail : List α) : Prop := ∀ s rest, tail = s::rest → sep s = true

theorem wordsFirst {w tail : List α} (begun : w ≠ []) (whole : ∀ c ∈ w, sep c = false) (apart : Apart sep tail) :
    words sep (w ++ tail) = w :: words sep tail := by
  cases tail with
  | nil => simpa using wordsOne begun whole
  | cons s rest =>
    have breaks := apart s rest rfl
    rw [wordsBreak breaks, wordsOne begun whole, wordsAfter breaks]
    rfl

theorem wordsCount (text : List α) : (words sep text).length ≤ text.countP sep + 1 := by
  have pieces : (text.splitOnP sep).length = text.countP sep + 1 := by
    induction text with
    | nil => simp
    | cons c text ih =>
      cases breaks : sep c with
      | true => simp [List.splitOnP_cons_eq_if_modifyHead, breaks, ih]
      | false => simp [List.splitOnP_cons_eq_if_modifyHead, breaks, ih]
  rw [← pieces]
  exact List.length_filter_le _ _

end Separated

def dropPlus : List Char → List Char
  | '+'::digits => digits
  | digits => digits

/-- A plus sign is allowed, an empty number is not. -/
def parseBelow (limit : Nat) (text : List Char) : Option Nat :=
  let digits := dropPlus text
  if digits ≠ [] ∧ digits.all Char.isDigit ∧ Nat.ofDigitChars 10 digits 0 < limit then
    some (Nat.ofDigitChars 10 digits 0)
  else none

theorem parseDigits {limit : Nat} {digits : List Char} (some : digits ≠ []) (every : ∀ c ∈ digits, c.isDigit = true)
    (small : Nat.ofDigitChars 10 digits 0 < limit) :
    parseBelow limit digits = Option.some (Nat.ofDigitChars 10 digits 0) := by
  have unsigned : dropPlus digits = digits := by
    unfold dropPlus
    split
    · exact absurd (every '+' (by simp)) (by decide)
    · rfl
  rw [parseBelow, unsigned]
  exact if_pos ⟨some,List.all_eq_true.mpr every,small⟩

theorem digitsDecimal {n : Nat} {c : Char} (member : c ∈ Nat.toDigits 10 n) : c.isDigit = true :=
  Nat.isDigit_of_mem_toDigits (by decide) (by decide) member

theorem parseToDigits {limit n : Nat} (small : n < limit) : parseBelow limit (Nat.toDigits 10 n) = some n := by
  have value : Nat.ofDigitChars 10 (Nat.toDigits 10 n) 0 = n := Nat.ofDigitChars_ten_toDigits
  rw [parseDigits Nat.toDigits_ne_nil (fun c member => digitsDecimal member) (value.symm ▸ small), value]

theorem valueGrows (digits : List Char) (n : Nat) : n ≤ Nat.ofDigitChars 10 digits n := by
  rw [Nat.ofDigitChars_eq_foldl]
  induction digits generalizing n with
  | nil => exact Nat.le_refl n
  | cons d digits ih =>
    rw [List.foldl_cons]
    exact Nat.le_trans (by omega) (ih _)

theorem parseBegun {limit n : Nat} (small : n < limit) {digits : List Char} (some : digits ≠ [])
    (begins : digits <+: Nat.toDigits 10 n) :
    ∃ m, m ≤ n ∧ parseBelow limit digits = Option.some m := by
  obtain ⟨more,whole⟩ := begins
  have value : Nat.ofDigitChars 10 (digits ++ more) 0 = n := by rw [whole]; exact Nat.ofDigitChars_ten_toDigits
  have below : Nat.ofDigitChars 10 digits 0 ≤ n := by
    rw [← value, Nat.ofDigitChars_append]
    exact valueGrows _ _
  refine ⟨_,below,parseDigits some ?_ (Nat.lt_of_le_of_lt below small)⟩
  intro c member
  exact digitsDecimal (whole ▸ List.mem_append_left more member)

end OpenPulse.Words
