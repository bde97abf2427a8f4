import Mathlib.Data.List.TakeWhile

/-! Text in lines, and the first and the last place of a pattern in a string. A line ends at a line feed;
a carriage return before the line feed belongs to the ending. -/
namespace OpenPulse.Lines

def chomp (line : List Char) : List Char := if line.getLast? = some '\r' then line.dropLast else line

/-- The lines of a text behind a line that is begun. What follows the last line feed is a line if it
is not empty, with its carriage return. -/
def linesFrom (begun : List Char) : List Char → List (List Char)
  | [] => if begun.isEmpty then [] else [begun]
  | c::cs => if c = '\n' then chomp begun :: linesFrom [] cs else linesFrom (begun ++ [c]) cs

def lines (text : List Char) : List (List Char) := linesFrom [] text

def ended (line : List Char) : List Char := line ++ ['\r','\n']

theorem linesFromWord {w : List Char} (word : '\n' ∉ w) (begun rest : List Char) :
    linesFrom begun (w ++ '\n'::rest) = chomp (begun ++ w) :: linesFrom [] rest := by
  induction w generalizing begun with
  | nil => rw [List.nil_append, linesFrom, if_pos rfl, List.append_nil]
  | cons c w ih =>
    rw [List.mem_cons, not_or] at word
    rw [List.cons_append, linesFrom, if_neg (Ne.symm word.1), ih word.2, List.append_assoc]
    rfl

theorem linesEnded {ls : List (List Char)} (plain : ∀ l ∈ ls, '\n' ∉ l) : lines (ls.flatMap ended) = ls := by
  induction ls with
  | nil => rfl
  | cons l ls ih =>
    obtain ⟨first,rest⟩ := List.forall_mem_cons.mp plain
    have word : '\n' ∉ l ++ ['\r'] := by simpa using first
    have split : ended l ++ ls.flatMap ended = (l ++ ['\r']) ++ '\n'::ls.flatMap ended := by simp [ended]
    have bare : chomp (l ++ ['\r']) = l := by simp [chomp]
    rw [List.flatMap_cons, lines, split, linesFromWord word, List.nil_append, bare]
    exact congrArg (l :: ·) (ih rest)

def splitOnce (sep : Char) (cs : List Char) : Option (List Char × List Char) :=
  match cs.dropWhile (· != sep) with
  | [] => none
  | _::rest => some (cs.takeWhile (· != sep),rest)

theorem notSeparator {sep : Char} {w : List Char} (word : sep ∉ w) : ∀ c ∈ w, (c != sep) = true :=
  fun _ member => bne_iff_ne.mpr fun same => word (same ▸ member)

theorem takeUntil {sep : Char} {w : List Char} (word : sep ∉ w) (rest : List Char) : (w ++ sep::rest).takeWhile (· != sep) = w := by
  rw [List.takeWhile_append_of_pos (notSeparator word)]
  simp

theorem dropUntil {sep : Char} {w : List Char} (word : sep ∉ w) (rest : List Char) :
    (w ++ sep::rest).dropWhile (· != sep) = sep::rest := by
  rw [List.dropWhile_append_of_pos (notSeparator word)]
  simp

theorem splitOnceAt {sep : Char} {w : List Char} (word : sep ∉ w) (rest : List Char) :
    splitOnce sep (w ++ sep::rest) = some (w,rest) := by
  rw [splitOnce, dropUntil word, takeUntil word]

section
variable {A : Type} [BEq A] [LawfulBEq A]

def position (pattern : List A) : List A → Option Nat
  | [] => none
  | x::xs => if pattern.isPrefixOf (x::xs) then some 0 else (position pattern xs).map (· + 1)

theorem positionHere {pattern : List A} (some' : pattern ≠ []) (rest : List A) : position pattern (pattern ++ rest) = some 0 := by
  cases pattern with
  | nil => exact absurd rfl some'
  | cons p pattern =>
    have starts : (p::pattern).isPrefixOf (p::(pattern ++ rest)) = true :=
      List.isPrefixOf_iff_prefix.mpr (List.prefix_append (p::pattern) rest)
    rw [List.cons_append, position, if_pos starts]

theorem positionPast {p : A} {pattern w : List A} (word : p ∉ w) (rest : List A) :
    position (p::pattern) (w ++ rest) = (position (p::pattern) rest).map (· + w.length) := by
  induction w with
  | nil => simp
  | cons x w ih =>
    rw [List.mem_cons, not_or] at word
    have other : (p::pattern).isPrefixOf (x::(w ++ rest)) = false := by
      rw [List.isPrefixOf_cons_cons, beq_false_of_ne word.1, Bool.false_and]
    rw [List.cons_append, position, if_neg (by rw [other]; exact Bool.false_ne_true), ih word.2, Option.map_map]
    rfl

def rsplitOnce (pattern : List A) : List A → Option (List A × List A)
  | [] => none
  | x::xs =>
    match rsplitOnce pattern xs with
    | some (before,behind) => some (x::before,behind)
    | none => if pattern.isPrefixOf (x::xs) then some ([],(x::xs).drop pattern.length) else none

theorem rsplitOnceNone {p : A} {w : List A} (word : p ∉ w) (pattern : List A) : rsplitOnce (p::pattern) w = none := by
  induction w with
  | nil => rfl
  | cons x w ih =>
    rw [List.mem_cons, not_or] at word
    have other : (p::pattern).isPrefixOf (x::w) = false := by
      rw [List.isPrefixOf_cons_cons, beq_false_of_ne word.1, Bool.false_and]
    rw [rsplitOnce, ih word.2, other]
    rfl

theorem rsplitOnceAt {p : A} {pattern behind : List A} (own : p ∉ pattern) (word : p ∉ behind) (before : List A) :
    rsplitOnce (p::pattern) (before ++ (p::pattern ++ behind)) = some (before,behind) := by
  induction before with
  | nil =>
    have later : p ∉ pattern ++ behind := fun member => (List.mem_append.mp member).elim own word
    have here : (p::pattern).isPrefixOf (p::(pattern ++ behind)) = true :=
      List.isPrefixOf_iff_prefix.mpr (List.prefix_append (p::pattern) behind)
    rw [List.nil_append, List.cons_append, rsplitOnce, rsplitOnceNone later]
    dsimp only
    rw [here, if_pos rfl, ← List.cons_append, List.drop_left]
  | cons x before ih => rw [List.cons_append, rsplitOnce, ih]

theorem rsplitOnceSome {pattern w before behind : List A} (cut : rsplitOnce pattern w = some (before,behind)) :
    w = before ++ (pattern ++ behind) := by
  induction w generalizing before with
  | nil => cases cut
  | cons x w ih =>
    rw [rsplitOnce] at cut
    split at cut
    next before' behind' found =>
      cases cut
      exact congrArg (x :: ·) (ih found)
    next =>
      split at cut
      next here =>
        cases cut
        obtain ⟨rest,whole⟩ := List.isPrefixOf_iff_prefix.mp here
        rw [← whole, List.drop_left]
        rfl
      next => cases cut

end

end OpenPulse.Lines
