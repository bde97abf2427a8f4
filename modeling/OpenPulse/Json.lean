import Mathlib.Data.List.Basic
import OpenPulse.Hex

/-! Flat JSON objects in the compact form of `serde_json`: the members in the
order they were given, texts escaped, numbers in decimal. The written characters
determine the object (`writeInj`), so a signature over them covers every member. -/
namespace OpenPulse.Json

def escapeChar (c : Char) : List Char :=
  if c = '"' then ['\\','"']
  else if c = '\\' then ['\\','\\']
  else if c = '\x08' then ['\\','b']
  else if c = '\x0c' then ['\\','f']
  else if c = '\n' then ['\\','n']
  else if c = '\r' then ['\\','r']
  else if c = '\t' then ['\\','t']
  else if c.toNat < 0x20 then '\\' :: 'u'::Hex.padded 4 c.toNat
  else [c]

def text (s : String) : List Char := '"' :: (s.toList.flatMap escapeChar ++ ['"'])

inductive Value where
  | text (s : String)
  | number (n : Nat)
  deriving DecidableEq, Repr

def Value.write : Value → List Char
  | text s => Json.text s
  | number n => Nat.toDigits 10 n

abbrev Member := String × Value

def member (m : Member) : List Char := text m.1 ++ ':' :: m.2.write

def rest : List Member → List Char
  | [] => ['\x7d']
  | m::ms => ',' :: (member m ++ rest ms)

def write : List Member → List Char
  | [] => ['\x7b','\x7d']
  | m::ms => '\x7b' :: (member m ++ rest ms)

def unescape : List Char → Option (Char × List Char)
  | '\\' :: '"'::cs => some ('"',cs)
  | '\\' :: '\\'::cs => some ('\\',cs)
  | '\\' :: 'b'::cs => some ('\x08',cs)
  | '\\' :: 'f'::cs => some ('\x0c',cs)
  | '\\' :: 'n'::cs => some ('\n',cs)
  | '\\' :: 'r'::cs => some ('\r',cs)
  | '\\' :: 't'::cs => some ('\t',cs)
  | '\\' :: 'u'::cs => some (Char.ofNat (Hex.value (cs.take 4)),cs.drop 4)
  | '\\'::_ => none
  | c::cs => some (c,cs)
  | [] => none

theorem controlLength {n : Nat} (control : n < 0x20) : (Hex.padded 4 n).length = 4 := by
  have every : ∀ m < 0x20, (Hex.padded 4 m).length = 4 := by decide
  exact every n control

theorem unescapePlain {c : Char} (plain : c ≠ '\\') (cs : List Char) : unescape (c::cs) = some (c,cs) := by
  unfold unescape
  split
  next same => exact absurd (List.cons.inj same).1 plain
  next same => exact absurd (List.cons.inj same).1 plain
  next same => exact absurd (List.cons.inj same).1 plain
  next same => exact absurd (List.cons.inj same).1 plain
  next same => exact absurd (List.cons.inj same).1 plain
  next same => exact absurd (List.cons.inj same).1 plain
  next same => exact absurd (List.cons.inj same).1 plain
  next same => exact absurd (List.cons.inj same).1 plain
  next same => exact absurd (List.cons.inj same).1 plain
  next same =>
    obtain ⟨rfl,rfl⟩ := List.cons.inj same
    rfl
  next same => cases same

theorem escapeCases (c : Char) : (∃ rest, escapeChar c = '\\'::rest ∧ ∀ cs, unescape ('\\'::rest ++ cs) = some (c,cs)) ∨
    (escapeChar c = [c] ∧ c ≠ '"' ∧ c ≠ '\\') := by
  unfold escapeChar
  by_cases quote : c = '"'
  · exact .inl ⟨_,if_pos quote,fun cs => by rw [quote]; rfl⟩
  rw [if_neg quote]
  by_cases slash : c = '\\'
  · exact .inl ⟨_,if_pos slash,fun cs => by rw [slash]; rfl⟩
  rw [if_neg slash]
  by_cases back : c = '\x08'
  · exact .inl ⟨_,if_pos back,fun cs => by rw [back]; rfl⟩
  rw [if_neg back]
  by_cases feed : c = '\x0c'
  · exact .inl ⟨_,if_pos feed,fun cs => by rw [feed]; rfl⟩
  rw [if_neg feed]
  by_cases line : c = '\n'
  · exact .inl ⟨_,if_pos line,fun cs => by rw [line]; rfl⟩
  rw [if_neg line]
  by_cases ret : c = '\r'
  · exact .inl ⟨_,if_pos ret,fun cs => by rw [ret]; rfl⟩
  rw [if_neg ret]
  by_cases tab : c = '\t'
  · exact .inl ⟨_,if_pos tab,fun cs => by rw [tab]; rfl⟩
  rw [if_neg tab]
  by_cases control : c.toNat < 0x20
  · refine .inl ⟨_,if_pos control,fun cs => ?_⟩
    have length := controlLength control
    show some (Char.ofNat (Hex.value ((Hex.padded 4 c.toNat ++ cs).take 4)),(Hex.padded 4 c.toNat ++ cs).drop 4) = _
    rw [List.take_left' length, List.drop_left' length, Hex.valuePadded, Char.ofNat_toNat]
  · exact .inr ⟨if_neg control,quote,slash⟩

theorem unescapeEscape (c : Char) (cs : List Char) : unescape (escapeChar c ++ cs) = some (c,cs) := by
  rcases escapeCases c with ⟨rest,escaped,read⟩ | ⟨plain,-,slash⟩
  · rw [escaped, read]
  · rw [plain]
    exact unescapePlain slash cs

theorem escapeInj {c d : Char} {x y : List Char} (same : escapeChar c ++ x = escapeChar d ++ y) : c = d ∧ x = y := by
  have read := (unescapeEscape c x).symm.trans ((congrArg unescape same).trans (unescapeEscape d y))
  exact Prod.mk.inj (Option.some.inj read)

theorem escapeOpen (c : Char) (x y : List Char) : escapeChar c ++ x ≠ '"'::y := by
  intro same
  rcases escapeCases c with ⟨rest,escaped,-⟩ | ⟨plain,quote,-⟩
  · rw [escaped] at same
    exact absurd (List.cons.inj same).1 (by decide)
  · rw [plain] at same
    exact quote (List.cons.inj same).1

theorem escapedInj {a b x y : List Char} (same : a.flatMap escapeChar ++ '"'::x = b.flatMap escapeChar ++ '"'::y) :
    a = b ∧ x = y := by
  induction a generalizing b with
  | nil =>
    cases b with
    | nil => simpa using same
    | cons d b =>
      rw [List.flatMap_cons, List.append_assoc] at same
      exact absurd same.symm (escapeOpen d _ _)
  | cons c a ih =>
    rw [List.flatMap_cons, List.append_assoc] at same
    cases b with
    | nil => exact absurd same (escapeOpen c _ _)
    | cons d b =>
      rw [List.flatMap_cons, List.append_assoc] at same
      obtain ⟨rfl,tails⟩ := escapeInj same
      obtain ⟨rfl,after⟩ := ih tails
      exact ⟨rfl,after⟩

theorem textInj {s t : String} {x y : List Char} (same : text s ++ x = text t ++ y) : s = t ∧ x = y := by
  simp only [text, List.cons_append, List.append_assoc, List.nil_append, List.cons.injEq, true_and] at same
  obtain ⟨chars,after⟩ := escapedInj same
  exact ⟨String.toList_inj.mp chars,after⟩

def Closed (x : List Char) : Prop := ∃ c cs, x = c::cs ∧ c.isDigit = false

theorem restClosed (ms : List Member) : Closed (rest ms) := by
  cases ms with
  | nil => exact ⟨_,_,rfl,rfl⟩
  | cons m ms => exact ⟨_,_,rfl,rfl⟩

theorem digitsRead (n : Nat) {x : List Char} (closed : Closed x) :
    (Nat.toDigits 10 n ++ x).takeWhile Char.isDigit = Nat.toDigits 10 n := by
  obtain ⟨c,cs,rfl,stops⟩ := closed
  have every : ∀ d ∈ Nat.toDigits 10 n, d.isDigit = true :=
    fun d member => Nat.isDigit_of_mem_toDigits (by decide) (by decide) member
  rw [List.takeWhile_append_of_pos every, List.takeWhile_cons_of_neg (by simp [stops]), List.append_nil]

theorem numberInj {m n : Nat} {x y : List Char} (left : Closed x) (right : Closed y)
    (same : Nat.toDigits 10 m ++ x = Nat.toDigits 10 n ++ y) : m = n ∧ x = y := by
  have digits : Nat.toDigits 10 m = Nat.toDigits 10 n := by
    rw [← digitsRead m left, same, digitsRead n right]
  refine ⟨?_,List.append_cancel_left (digits ▸ same)⟩
  rw [← @Nat.ofDigitChars_ten_toDigits m, digits, Nat.ofDigitChars_ten_toDigits]

theorem numberNotText {n : Nat} {s : String} {x y : List Char} : Nat.toDigits 10 n ++ x ≠ text s ++ y := by
  intro same
  cases digits : Nat.toDigits 10 n with
  | nil => exact Nat.toDigits_ne_nil digits
  | cons d ds =>
    have first : d.isDigit = true := Nat.isDigit_of_mem_toDigits (b := 10) (by decide) (by decide) (digits ▸ List.mem_cons_self)
    rw [digits] at same
    obtain ⟨rfl,-⟩ := List.cons.inj same
    cases first

theorem valueInj {v w : Value} {x y : List Char} (left : Closed x) (right : Closed y)
    (same : v.write ++ x = w.write ++ y) : v = w ∧ x = y := by
  cases v with
  | text s =>
    cases w with
    | text t => exact (textInj same).imp (congrArg Value.text) id
    | number n => exact absurd same.symm numberNotText
  | number m =>
    cases w with
    | text t => exact absurd same numberNotText
    | number n => exact (numberInj left right same).imp (congrArg Value.number) id

theorem memberInj {m n : Member} {x y : List Char} (left : Closed x) (right : Closed y)
    (same : member m ++ x = member n ++ y) : m = n ∧ x = y := by
  simp only [member, List.append_assoc, List.cons_append] at same
  obtain ⟨keys,values⟩ := textInj same
  obtain ⟨value,after⟩ := valueInj left right (List.cons.inj values).2
  exact ⟨Prod.ext keys value,after⟩

theorem restInj {ms ns : List Member} (same : rest ms = rest ns) : ms = ns := by
  induction ms generalizing ns with
  | nil =>
    cases ns with
    | nil => rfl
    | cons n ns => simp [rest] at same
  | cons m ms ih =>
    cases ns with
    | nil => simp [rest] at same
    | cons n ns =>
      obtain ⟨rfl,others⟩ := memberInj (restClosed ms) (restClosed ns) (List.cons.inj same).2
      rw [ih others]

theorem writeInj {ms ns : List Member} (same : write ms = write ns) : ms = ns := by
  cases ms with
  | nil =>
    cases ns with
    | nil => rfl
    | cons n ns => simp [write, member, text] at same
  | cons m ms =>
    cases ns with
    | nil => simp [write, member, text] at same
    | cons n ns =>
      obtain ⟨rfl,others⟩ := memberInj (restClosed ms) (restClosed ns) (List.cons.inj same).2
      rw [restInj others]

end OpenPulse.Json
