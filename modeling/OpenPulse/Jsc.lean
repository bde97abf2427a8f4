import Mathlib.Tactic.Ring
import OpenPulse.ByteCodec

/-! The word dictionary of JS8 data frames, `plugins/js8/src/jsc.rs`. A word is written as
the place it has in a table sorted by use: a run of high groups of four bits, then a low
group that ends it. Arithmetic is `u32` as a build with overflow checks runs it. -/
namespace OpenPulse.DenseCode

/-! A dense code with `s` digits that stop a word and `c` that continue it. The words with
a shorter run come first. -/

variable (s c : Nat)

def offset : Nat → Nat
  | 0 => 0
  | k + 1 => offset k + s * c ^ k

def value (n : Nat) (run : List Nat) : Nat := run.foldl (fun n digit => n * c + digit) n

def index (run : List Nat) (last : Nat) : Nat := value c 0 run * s + last + offset s c run.length

@[simp] theorem valueNil (n : Nat) : value c n [] = n := rfl

@[simp] theorem valueCons (n digit : Nat) (run : List Nat) : value c n (digit::run) = value c (n * c + digit) run := rfl

variable {c}

theorem valueGrows (some' : 0 < c) (n : Nat) (run : List Nat) : n ≤ value c n run := by
  induction run generalizing n with
  | nil => exact le_refl n
  | cons digit run ih => exact (Nat.le_add_right_of_le (Nat.le_mul_of_pos_right n some')).trans (ih _)

end OpenPulse.DenseCode

namespace OpenPulse.Jsc
open ByteCodec

def S : Nat := 7
def C : Nat := 16 - S
def size : Nat := 262144

inductive Fault where
  | overflow
  | outOfRange
  deriving DecidableEq

structure CodeBook where
  pool : Bytes
  entries : List (Nat × Nat)
  inside : ∀ entry ∈ entries, entry.1 + entry.2 ≤ pool.length

def CodeBook.word (cb : CodeBook) (index : Nat) : Except Fault Bytes :=
  match cb.entries[index]? with
  | none => .error .outOfRange
  | some (off,len) => if off + len ≤ cb.pool.length then .ok ((cb.pool.drop off).take len) else .error .outOfRange

def addU32 (a b : Nat) : Except Fault Nat := if a + b < 2 ^ 32 then .ok (a + b) else .error .overflow

def mulU32 (a b : Nat) : Except Fault Nat := if a * b < 2 ^ 32 then .ok (a * b) else .error .overflow

def saturating (n : Nat) : Nat := min n (2 ^ 32 - 1)

def baseFrom : Nat → Nat → Nat → Except Fault Nat
  | 0, b, _ => .ok b
  | k + 1, b, pow => do
    let b ← addU32 b (← mulU32 S pow)
    let pow ← mulU32 pow C
    baseFrom k b pow

def base (k : Nat) : Except Fault Nat := baseFrom k 0 1

def bitsToInt (bits : List Bool) : Nat := bits.foldl (fun acc b => (acc * 2 + b.toNat) % 2 ^ 32) 0

def utf8Shape (a : Nat) : Option (Nat × Nat × Nat) :=
  if 0xC2 ≤ a ∧ a ≤ 0xDF then some (0x80,0xBF,0)
  else if a = 0xE0 then some (0xA0,0xBF,1)
  else if a = 0xED then some (0x80,0x9F,1)
  else if 0xE1 ≤ a ∧ a ≤ 0xEF then some (0x80,0xBF,1)
  else if a = 0xF0 then some (0x90,0xBF,2)
  else if 0xF1 ≤ a ∧ a ≤ 0xF3 then some (0x80,0xBF,2)
  else if a = 0xF4 then some (0x80,0x8F,2)
  else none

def continuation (b : UInt8) : Bool := b.toNat / 64 == 2

def utf8Tail (shape : Nat × Nat × Nat) : Bytes → Bytes
  | [] => []
  | b::rest =>
    if shape.1 ≤ b.toNat ∧ b.toNat ≤ shape.2.1 then b :: (rest.take shape.2.2).takeWhile continuation else []

/-- A whole sequence gives its character; one that breaks off gives one replacement character. -/
def fromUtf8Lossy (bytes : Bytes) : List Char :=
  match bytes with
  | [] => []
  | a::rest =>
    if a.toNat < 0x80 then Char.ofNat a.toNat :: fromUtf8Lossy rest
    else
      match utf8Shape a.toNat with
      | none => '\uFFFD' :: fromUtf8Lossy rest
      | some shape =>
        let tail := utf8Tail shape rest
        let first := a.toNat % 2 ^ (5 - shape.2.2)
        let scalar := tail.foldl (fun n b => n * 64 + b.toNat % 64) first
        (if tail.length = shape.2.2 + 1 then Char.ofNat scalar else '\uFFFD') :: fromUtf8Lossy (rest.drop tail.length)
  termination_by bytes.length
  decreasing_by all_goals simp only [List.length_drop, List.length_cons]; omega

def splitGroups (n : Nat) : List Bool → List Nat × List Nat
  | b3::b2::b1::b0::rest =>
    let g := bitsToInt [b3,b2,b1,b0]
    if g < S then
      match rest with
      | [] => ([g],[])
      | mark::rest =>
        let later := splitGroups (n + 1) rest
        (g :: later.1,if mark then n :: later.2 else later.2)
    else
      let later := splitGroups (n + 1) rest
      (g :: later.1,later.2)
  | _ => ([],[])

/- The run of high groups at the front: how many, and their value. It stops early once the value
is past the table. -/
def foldRun : List Nat → Nat → Nat → Nat × Nat
  | [], k, j => (k,j)
  | g::rest, k, j =>
    if S ≤ g then
      let j' := saturating (saturating (j * C) + (g - S))
      if size ≤ j' then (k + 1,j') else foldRun rest (k + 1) j'
    else (k,j)

/- `j * S + last + base(k)`, the sums in the order they are made. -/
def place (k j last : Nat) : Except Fault Nat := do addU32 (← addU32 (← mulU32 j S) last) (← base k)

def nextWord (groups : List Nat) : Except Fault (Option (Nat × Nat)) :=
  let run := foldRun groups 0 0
  if size ≤ run.2 then .ok none
  else
    match groups[run.1]? with
    | none => .ok none
    | some last => (place run.1 run.2 last).map fun j => if size ≤ j then none else some (run.1,j)

def emitWords (cb : CodeBook) (start : Nat) (separators groups : List Nat) (out : Bytes) : Except Fault Bytes :=
  match groups with
  | [] => .ok out
  | g::rest => do
    match ← nextWord (g::rest) with
    | none => return out
    | some (k,j) =>
      let word ← cb.word j
      if separators.head? = some (start + k) then
        emitWords cb (start + k + 1) separators.tail (rest.drop k) (out ++ word ++ [0x20])
      else emitWords cb (start + k + 1) separators (rest.drop k) (out ++ word)
  termination_by groups.length
  decreasing_by all_goals (rw [List.length_drop, List.length_cons]; omega)

def jscDecompress (cb : CodeBook) (bits : List Bool) : Except Fault (List Char) :=
  (emitWords cb 0 (splitGroups 0 bits).2 (splitGroups 0 bits).1 []).map fromUtf8Lossy

/- The eleventh turn needs `7 * 9 ^ 10`, past `2 ^ 32`. -/
theorem baseShort : ∀ k < 11, base k = .ok (DenseCode.offset S C k) ∧ DenseCode.offset S C k < 2 ^ 32 - 8 * size := by
  decide +kernel

theorem baseLong (k : Nat) : base (k + 11) = .error .overflow := rfl

theorem saturatingBelow {n : Nat} (below : n < size) : saturating n = n := by
  simp only [saturating, size] at *
  omega

theorem saturatingPast {n : Nat} (past : size ≤ n) : size ≤ saturating n := by
  simp only [saturating, size] at *
  omega

def digits (run : List Nat) : List Nat := run.map (· - S)

def runValue (run : List Nat) : Nat := DenseCode.value C 0 (digits run)

def wordIndex (run : List Nat) (last : Nat) : Nat := DenseCode.index S C (digits run) last

def Stops : List Nat → Prop
  | [] => True
  | last::_ => last < S

theorem foldRunStops {rest : List Nat} (stops : Stops rest) (k j : Nat) : foldRun rest k j = (k,j) := by
  cases rest with
  | nil => rfl
  | cons last rest => rw [foldRun, if_neg (Nat.not_le.mpr stops)]

theorem foldRunTurn {j g : Nat} (known : j < size) (rest : List Nat) (k : Nat) (high : S ≤ g) :
    (j * C + (g - S) < size ∧ foldRun (g::rest) k j = foldRun rest (k + 1) (j * C + (g - S))) ∨
      (size ≤ j * C + (g - S) ∧ size ≤ (foldRun (g::rest) k j).2) := by
  have product : saturating (j * C) = j * C := by
    simp only [saturating, size, C, S] at *
    omega
  rw [foldRun, if_pos high, product]
  rcases Nat.lt_or_ge (j * C + (g - S)) size with below | past
  · left
    simp only [saturatingBelow below, if_neg (Nat.not_le.mpr below)]
    exact ⟨below,trivial⟩
  · right
    simp only [if_pos (saturatingPast past)]
    exact ⟨past,saturatingPast past⟩

theorem foldRunValue {run rest : List Nat} (high : ∀ g ∈ run, S ≤ g) (stops : Stops rest) {j : Nat} (known : j < size) (k : Nat) :
    (DenseCode.value C j (digits run) < size ∧
        foldRun (run ++ rest) k j = (k + run.length,DenseCode.value C j (digits run))) ∨
      (size ≤ DenseCode.value C j (digits run) ∧ size ≤ (foldRun (run ++ rest) k j).2) := by
  induction run generalizing k j with
  | nil => exact .inl ⟨known,foldRunStops stops k j⟩
  | cons g run ih =>
    have grows := DenseCode.valueGrows (show 0 < C by decide) (j * C + (g - S)) (digits run)
    have reads : DenseCode.value C j (digits (g::run)) = DenseCode.value C (j * C + (g - S)) (digits run) := rfl
    rw [reads]
    rcases foldRunTurn known (run ++ rest) k (high g (by simp)) with ⟨below,turn⟩ | ⟨past,turn⟩
    · rw [List.cons_append, turn, List.length_cons, Nat.add_comm run.length, ← Nat.add_assoc]
      exact ih (fun g' member => high g' (by simp [member])) below (k + 1)
    · exact .inr ⟨past.trans grows,turn⟩

inductive LongGroups : List Nat → Prop where
  | run {run rest : List Nat} {last : Nat} (high : ∀ g ∈ run, S ≤ g) (low : last < S) (long : 11 ≤ run.length)
      (small : runValue run < size) : LongGroups (run ++ last :: rest)
  | word {run rest : List Nat} {last : Nat} (high : ∀ g ∈ run, S ≤ g) (low : last < S)
      (known : wordIndex run last < size) (later : LongGroups rest) : LongGroups (run ++ last :: rest)

theorem runUnique {run run' rest rest' : List Nat} {last last' : Nat} (high : ∀ g ∈ run, S ≤ g) (low : last < S)
    (high' : ∀ g ∈ run', S ≤ g) (low' : last' < S) (same : run ++ last :: rest = run' ++ last' :: rest') :
    run = run' ∧ last = last' ∧ rest = rest' := by
  induction run generalizing run' with
  | nil =>
    cases run' with
    | nil => simpa using same
    | cons g run' =>
      obtain ⟨rfl,-⟩ := List.cons.inj same
      exact absurd low (Nat.not_lt.mpr (high' _ (by simp)))
  | cons g run ih =>
    cases run' with
    | nil =>
      obtain ⟨rfl,-⟩ := List.cons.inj same
      exact absurd low' (Nat.not_lt.mpr (high _ (by simp)))
    | cons g' run' =>
      obtain ⟨rfl,tail⟩ := List.cons.inj same
      obtain ⟨rfl,rfl,rfl⟩ := ih (fun x member => high x (by simp [member])) (fun x member => high' x (by simp [member])) tail
      exact ⟨rfl,rfl,rfl⟩

variable {cb : CodeBook}

theorem placeShort {j last k : Nat} (small : j < size) (low : last < S) (short : k < 11) :
    place k j last = .ok (j * S + last + DenseCode.offset S C k) := by
  obtain ⟨known,room⟩ := baseShort k short
  have product : j * S < 2 ^ 32 := by simp only [S, size] at *; omega
  have sum : j * S + last < 2 ^ 32 := by simp only [S, size] at *; omega
  have whole : j * S + last + DenseCode.offset S C k < 2 ^ 32 := by simp only [S, size] at *; omega
  simp only [place, mulU32, addU32, if_pos product, known, bind, Except.bind, if_pos sum, if_pos whole]

theorem placeLong {j last k : Nat} (small : j < size) (low : last < S) (long : 11 ≤ k) :
    place k j last = .error .overflow := by
  obtain ⟨k,rfl⟩ := Nat.exists_eq_add_of_le' long
  have product : j * S < 2 ^ 32 := by simp only [S, size] at *; omega
  have sum : j * S + last < 2 ^ 32 := by simp only [S, size] at *; omega
  simp only [place, mulU32, addU32, if_pos product, baseLong, bind, Except.bind, if_pos sum]

theorem wordKnown (full : cb.entries.length = size) {index : Nat} (known : index < size) : ∃ word, cb.word index = .ok word := by
  have found : cb.entries[index]? = some cb.entries[index] := List.getElem?_eq_getElem (full ▸ known)
  have inside := cb.inside cb.entries[index] (List.getElem_mem _)
  refine ⟨(cb.pool.drop cb.entries[index].1).take cb.entries[index].2,?_⟩
  simp only [CodeBook.word, found, if_pos inside]

theorem nextUnended {run : List Nat} (high : ∀ g ∈ run, S ≤ g) : nextWord run = .ok none := by
  have fold := @foldRunValue run [] high trivial 0 (by decide) 0
  rw [List.append_nil, Nat.zero_add] at fold
  rcases fold with ⟨-,fold⟩ | ⟨-,past⟩
  · simp only [nextWord, fold, List.getElem?_length, ite_self]
  · simp only [nextWord, if_pos past]

theorem nextWordCases {run rest : List Nat} {last : Nat} (high : ∀ g ∈ run, S ≤ g) (low : last < S) :
    (runValue run < size ∧ 11 ≤ run.length ∧ nextWord (run ++ last :: rest) = .error .overflow) ∨
    ((size ≤ runValue run ∨ run.length < 11) ∧ size ≤ wordIndex run last ∧ nextWord (run ++ last :: rest) = .ok none) ∨
    (run.length < 11 ∧ wordIndex run last < size ∧
      nextWord (run ++ last :: rest) = .ok (some (run.length,wordIndex run last))) := by
  have fold := @foldRunValue run (last :: rest) high low 0 (by decide) 0
  rw [Nat.zero_add] at fold
  have sized : (digits run).length = run.length := List.length_map _
  rcases fold with ⟨small,fold⟩ | ⟨past,stopped⟩
  · have here : (run ++ last :: rest)[run.length]? = some last := by simp
    simp only [nextWord, fold, if_neg (Nat.not_le.mpr small), here]
    rcases Nat.lt_or_ge run.length 11 with short | long
    · right
      have index : DenseCode.value C 0 (digits run) * S + last + DenseCode.offset S C run.length = wordIndex run last := by
        rw [wordIndex, DenseCode.index, sized]
      rw [placeShort small low short, index]
      rcases Nat.lt_or_ge (wordIndex run last) size with known | past
      · exact .inr ⟨short,known,by simp only [Except.map, if_neg (Nat.not_le.mpr known)]⟩
      · exact .inl ⟨.inr short,past,by simp only [Except.map, if_pos past]⟩
    · exact .inl ⟨small,long,by rw [placeLong small low long]; rfl⟩
  · refine .inr (.inl ⟨.inl past,?_,by simp only [nextWord, if_pos stopped]⟩)
    simp only [wordIndex, DenseCode.index, S]
    omega

theorem groupsCases (groups : List Nat) : (∀ g ∈ groups, S ≤ g) ∨
    ∃ run last rest, groups = run ++ last :: rest ∧ (∀ g ∈ run, S ≤ g) ∧ last < S := by
  induction groups with
  | nil => exact .inl (List.forall_mem_nil _)
  | cons g groups ih =>
    rcases Nat.lt_or_ge g S with low | high
    · exact .inr ⟨[],g,groups,rfl,List.forall_mem_nil _,low⟩
    · rcases ih with all | ⟨run,last,rest,rfl,all,low⟩
      · exact .inl (List.forall_mem_cons.mpr ⟨high,all⟩)
      · exact .inr ⟨g::run,last,rest,rfl,List.forall_mem_cons.mpr ⟨high,all⟩,low⟩

theorem longGroupsEnded {groups : List Nat} (longGroups : LongGroups groups) : ∃ g ∈ groups, g < S := by
  cases longGroups with
  | run _ low _ _ => exact ⟨_,by simp,low⟩
  | word _ low _ _ => exact ⟨_,by simp,low⟩

theorem longGroupsIff {run rest : List Nat} {last : Nat} (high : ∀ g ∈ run, S ≤ g) (low : last < S) :
    LongGroups (run ++ last :: rest) ↔
      11 ≤ run.length ∧ runValue run < size ∨ wordIndex run last < size ∧ LongGroups rest := by
  constructor
  · intro longGroups
    generalize whole : run ++ last :: rest = groups at longGroups
    cases longGroups with
    | run high' low' long small =>
      obtain ⟨rfl,rfl,rfl⟩ := runUnique high low high' low' whole
      exact .inl ⟨long,small⟩
    | word high' low' known later =>
      obtain ⟨rfl,rfl,rfl⟩ := runUnique high low high' low' whole
      exact .inr ⟨known,later⟩
  · rintro (⟨long,small⟩ | ⟨known,later⟩)
    · exact .run high low long small
    · exact .word high low known later

section
variable {groups : List Nat} (start : Nat) (separators : List Nat) (out : Bytes)

theorem emitFaults {e : Fault} (fault : nextWord groups = .error e) : emitWords cb start separators groups out = .error e := by
  cases groups with
  | nil => cases fault
  | cons g rest => rw [emitWords, fault]; rfl

theorem emitStops (last : nextWord groups = .ok none) : emitWords cb start separators groups out = .ok out := by
  cases groups with
  | nil => rw [emitWords]
  | cons g rest => rw [emitWords, last]; rfl

theorem emitGoesOn {k j : Nat} {word : Bytes} (next : nextWord groups = .ok (some (k,j))) (known : cb.word j = .ok word) :
    ∃ start' separators' out',
      emitWords cb start separators groups out = emitWords cb start' separators' (groups.drop (k + 1)) out' := by
  cases groups with
  | nil => cases next
  | cons g rest =>
    rw [emitWords, next]
    simp only [bind, Except.bind, known, List.drop_succ_cons]
    split
    · exact ⟨_,_,_,rfl⟩
    · exact ⟨_,_,_,rfl⟩

theorem emitEnds (full : cb.entries.length = size) (groups : List Nat) :
    (LongGroups groups ∧ emitWords cb start separators groups out = .error .overflow) ∨
      (¬ LongGroups groups ∧ ∃ text, emitWords cb start separators groups out = .ok text) := by
  induction bound : groups.length using Nat.strong_induction_on generalizing groups start separators out with
  | _ n ih =>
    rcases groupsCases groups with high | ⟨run,last,rest,rfl,high,low⟩
    · refine .inr ⟨fun longGroups => ?_,out,emitStops start separators out (nextUnended high)⟩
      obtain ⟨g,member,low⟩ := longGroupsEnded longGroups
      exact absurd low (Nat.not_lt.mpr (high g member))
    · rw [longGroupsIff high low]
      rcases @nextWordCases run rest last high low with ⟨small,long,next⟩ | ⟨ends,past,next⟩ | ⟨short,known,next⟩
      · exact .inl ⟨.inl ⟨long,small⟩,emitFaults start separators out next⟩
      · refine .inr ⟨?_,out,emitStops start separators out next⟩
        omega
      · obtain ⟨word,found⟩ := wordKnown full known
        obtain ⟨start',separators',out',goesOn⟩ := emitGoesOn start separators out next found
        have behind : (run ++ last :: rest).drop (run.length + 1) = rest := by
          rw [← List.drop_drop, List.drop_left, List.drop_one, List.tail_cons]
        have shorter : rest.length < n := by
          rw [← bound, List.length_append, List.length_cons]
          omega
        rw [goesOn, behind]
        rcases ih rest.length shorter start' separators' out' rest rfl with ⟨later,fault⟩ | ⟨none',text,done⟩
        · exact .inl ⟨.inr ⟨known,later⟩,fault⟩
        · refine .inr ⟨?_,text,done⟩
          rintro (⟨long,-⟩ | ⟨-,later⟩)
          · omega
          · exact none' later

end

def groupBits (g : Nat) : List Bool := [g.testBit 3,g.testBit 2,g.testBit 1,g.testBit 0]

def High (run : List Nat) : Prop := ∀ g ∈ run, S ≤ g ∧ g < 16

/-- Whole words of the table, each with the bit behind it, then a run of eleven high groups or more
that is worth less than the size of the table, and a low group behind it. -/
inductive LongRun : List Bool → Prop where
  | run {run : List Nat} {last : Nat} {rest : List Bool} (high : High run) (low : last < S) (long : 11 ≤ run.length)
      (small : runValue run < size) : LongRun (run.flatMap groupBits ++ (groupBits last ++ rest))
  | word {run : List Nat} {last : Nat} {mark : Bool} {rest : List Bool} (high : High run) (low : last < S)
      (known : wordIndex run last < size) (later : LongRun rest) :
      LongRun (run.flatMap groupBits ++ (groupBits last ++ mark :: rest))

theorem groupRead : ∀ g < 16, bitsToInt (groupBits g) = g := by decide

theorem bitsRead : ∀ b3 b2 b1 b0, groupBits (bitsToInt [b3,b2,b1,b0]) = [b3,b2,b1,b0] ∧ bitsToInt [b3,b2,b1,b0] < 16 := by
  decide

theorem splitTurn (n : Nat) (b3 b2 b1 b0 : Bool) (behind : List Bool) :
    (splitGroups n (b3::b2::b1::b0::behind)).1 = bitsToInt [b3,b2,b1,b0] ::
      (splitGroups (n + 1) (if bitsToInt [b3,b2,b1,b0] < S then behind.tail else behind)).1 := by
  cases behind with
  | nil =>
    rw [List.tail_nil, ite_self, splitGroups]
    dsimp only
    split <;> rfl
  | cons mark behind =>
    rw [splitGroups]
    dsimp only
    split <;> rfl

theorem splitGroup {g : Nat} (bound : g < 16) (n : Nat) (behind : List Bool) :
    (splitGroups n (groupBits g ++ behind)).1 = g :: (splitGroups (n + 1) (if g < S then behind.tail else behind)).1 := by
  have read : bitsToInt [g.testBit 3,g.testBit 2,g.testBit 1,g.testBit 0] = g := groupRead g bound
  have turn := splitTurn n (g.testBit 3) (g.testBit 2) (g.testBit 1) (g.testBit 0) behind
  rw [read] at turn
  exact turn

theorem splitRun {run : List Nat} (high : High run) (n : Nat) (bits : List Bool) :
    (splitGroups n (run.flatMap groupBits ++ bits)).1 = run ++ (splitGroups (n + run.length) bits).1 := by
  induction run generalizing n with
  | nil => rfl
  | cons g run ih =>
    obtain ⟨first,rest⟩ := List.forall_mem_cons.mp high
    rw [List.flatMap_cons, List.append_assoc, splitGroup first.2, if_neg (Nat.not_lt.mpr first.1), ih rest, List.length_cons,
      List.cons_append, Nat.add_comm run.length, Nat.add_assoc]

theorem splitLow {last : Nat} (low : last < S) (n : Nat) (behind : List Bool) :
    (splitGroups n (groupBits last ++ behind)).1 = last :: (splitGroups (n + 1) behind.tail).1 := by
  rw [splitGroup (low.trans (by decide)), if_pos low]

theorem splitCons {n g : Nat} {bits : List Bool} {groups : List Nat} (split : (splitGroups n bits).1 = g :: groups) :
    g < 16 ∧ ∃ behind, bits = groupBits g ++ behind ∧
      groups = (splitGroups (n + 1) (if g < S then behind.tail else behind)).1 := by
  rcases bits with _ | ⟨b3,_ | ⟨b2,_ | ⟨b1,_ | ⟨b0,behind⟩⟩⟩⟩
  · cases split
  · cases split
  · cases split
  · cases split
  · obtain ⟨back,bound⟩ := bitsRead b3 b2 b1 b0
    rw [splitTurn] at split
    obtain ⟨rfl,later⟩ := List.cons.inj split
    exact ⟨bound,behind,by rw [back]; rfl,later.symm⟩

theorem splitWord {n last : Nat} {bits : List Bool} {run rest : List Nat} (high : ∀ g ∈ run, S ≤ g) (low : last < S)
    (split : (splitGroups n bits).1 = run ++ last :: rest) :
    High run ∧ ∃ behind, bits = run.flatMap groupBits ++ (groupBits last ++ behind) ∧
      rest = (splitGroups (n + run.length + 1) behind.tail).1 := by
  induction run generalizing n bits with
  | nil =>
    obtain ⟨-,behind,rfl,later⟩ := splitCons split
    rw [if_pos low] at later
    exact ⟨List.forall_mem_nil _,behind,rfl,later⟩
  | cons g run ih =>
    obtain ⟨first,more⟩ := List.forall_mem_cons.mp high
    obtain ⟨bound,bits,rfl,later⟩ := splitCons split
    rw [if_neg (Nat.not_lt.mpr first)] at later
    obtain ⟨high,behind,rfl,there⟩ := ih more later.symm
    refine ⟨List.forall_mem_cons.mpr ⟨⟨first,bound⟩,high⟩,behind,?_,?_⟩
    · rw [List.flatMap_cons, List.append_assoc]
    · rw [there, List.length_cons, Nat.add_comm run.length, ← Nat.add_assoc]

theorem longRunSplit (n : Nat) (bits : List Bool) : LongRun bits ↔ LongGroups (splitGroups n bits).1 := by
  constructor
  · intro longRun
    induction longRun generalizing n with
    | run high low long small =>
      rw [splitRun high, splitLow low]
      exact .run (fun g member => (high g member).1) low long small
    | word high low known _ ih =>
      rw [splitRun high, splitLow low]
      exact .word (fun g member => (high g member).1) low known (ih _)
  · intro longGroups
    generalize split : (splitGroups n bits).1 = groups at longGroups
    induction longGroups generalizing n bits with
    | run high low long small =>
      obtain ⟨high,behind,rfl,-⟩ := splitWord high low split
      exact .run high low long small
    | word high low known later ih =>
      obtain ⟨high,behind,rfl,rest⟩ := splitWord high low split
      cases behind with
      | nil =>
        obtain ⟨g,member,-⟩ := longGroupsEnded later
        rw [rest] at member
        cases member
      | cons mark behind => exact .word high low known (ih _ _ rest.symm)

/-- Decompression meets no overflow just where no long run follows the words, and never asks for a
word the table does not have. -/
theorem decompressTotal (cb : CodeBook) (full : cb.entries.length = size) (bits : List Bool) :
    ((∃ text, jscDecompress cb bits = .ok text) ↔ ¬ LongRun bits) ∧ jscDecompress cb bits ≠ .error .outOfRange := by
  rw [longRunSplit 0 bits]
  rcases emitEnds 0 (splitGroups 0 bits).2 [] full (splitGroups 0 bits).1 with ⟨longGroups,fault⟩ | ⟨none',text,done⟩
  · rw [jscDecompress, fault]
    refine ⟨⟨?_,fun none' => absurd longGroups none'⟩,by rintro ⟨⟩⟩
    rintro ⟨text,⟨⟩⟩
  · rw [jscDecompress, done]
    exact ⟨⟨fun _ => none',fun _ => ⟨_,rfl⟩⟩,by rintro ⟨⟩⟩

def blank : CodeBook where
  pool := []
  entries := List.replicate size (0,0)
  inside := fun entry member => by rw [List.eq_of_mem_replicate member]; exact Nat.le_refl 0

theorem decompressTotal_space :
    ((∃ text, jscDecompress blank [false,false,false,false,true] = .ok text) ↔ ¬ LongRun [false,false,false,false,true]) ∧
      jscDecompress blank [false,false,false,false,true] ≠ .error .outOfRange :=
  decompressTotal blank List.length_replicate [false,false,false,false,true]

/-- Eleven groups `0111` and a group `0000`: the run is worth nothing, the base of its length overflows. -/
def elevenHigh : List Bool := (List.replicate 11 [false,true,true,true]).flatten ++ [false,false,false,false]

theorem decompressOverflows :
    ¬ ∀ cb : CodeBook, cb.entries.length = size → ∀ bits : List Bool, bits.length ≤ 70 → ∃ text, jscDecompress cb bits = .ok text := by
  intro total
  obtain ⟨text,done⟩ := total blank List.length_replicate elevenHigh (by decide)
  have run : (splitGroups 0 elevenHigh).1 = List.replicate 11 S ++ [0] := by decide
  have long : nextWord (splitGroups 0 elevenHigh).1 = .error .overflow := by
    rw [run]
    decide
  rw [jscDecompress, emitFaults 0 _ [] long] at done
  cases done

end OpenPulse.Jsc
