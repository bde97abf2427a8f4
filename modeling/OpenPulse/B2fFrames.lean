import Mathlib.Data.List.TakeWhile
import OpenPulse.B2f
import OpenPulse.Lines

/-! The control lines read back. An answer line always is; a proposal line is read as
a proposal of its type unless the size it seems to carry is no number. -/
namespace OpenPulse.B2f
open ByteCodec Lines

theorem trimEndAfter {p : Char → Bool} {x : Char} (kept : p x = false) (a b : List Char) :
    trimEnd p (a ++ x::b) = a ++ x::trimEnd p b := by
  unfold trimEnd
  rw [List.reverse_append, List.reverse_cons, List.append_assoc, List.dropWhile_append]
  split
  · rename_i none
    rw [List.isEmpty_iff.mp none]
    simp [kept]
  · simp

theorem trimEndDrops {p : Char → Bool} {x : Char} (dropped : p x = true) (cs : List Char) :
    trimEnd p (cs ++ [x]) = trimEnd p cs := by
  simp [trimEnd, dropped]

theorem splitNCons {sep : Char} {w : List Char} (word : sep ∉ w) (n : Nat) (rest : List Char) :
    splitN sep (n + 2) (w ++ sep::rest) = w :: splitN sep (n + 1) rest := by
  rw [splitN, dropUntil word, takeUntil word]

theorem splitNWord {sep : Char} {w : List Char} (word : sep ∉ w) (n : Nat) : splitN sep (n + 1) w = [w] := by
  cases n with
  | zero => rfl
  | succ n =>
    have none : w.dropWhile (· != sep) = [] := List.dropWhile_eq_nil_iff.mpr (notSeparator word)
    rw [splitN, none]

theorem cutAt {sep : Char} {cs : List Char} (here : sep ∈ cs) : ∃ w rest, sep ∉ w ∧ cs = w ++ sep::rest := by
  induction cs with
  | nil => cases here
  | cons c cs ih =>
    by_cases same : c = sep
    · exact ⟨[],cs,List.not_mem_nil,by rw [same]; rfl⟩
    · rcases List.mem_cons.mp here with first | later
      · exact absurd first.symm same
      · obtain ⟨w,rest,word,whole⟩ := ih later
        refine ⟨c::w,rest,?_,by rw [whole]; rfl⟩
        rw [List.mem_cons, not_or]
        exact ⟨fun equal => same equal.symm,word⟩

theorem splitNLength {sep : Char} (n : Nat) {cs : List Char} (enough : n ≤ cs.count sep) :
    (splitN sep (n + 1) cs).length = n + 1 := by
  induction n generalizing cs with
  | zero => rfl
  | succ n ih =>
    obtain ⟨w,rest,word,rfl⟩ := cutAt (List.count_pos_iff.mp (Nat.lt_of_lt_of_le (Nat.succ_pos n) enough))
    have fewer : n ≤ rest.count sep := by
      rw [List.count_append, List.count_eq_zero_of_not_mem word, List.count_cons_self] at enough
      omega
    rw [splitNCons word, List.length_cons, ih fewer]

theorem proposalLine (t : ProposalType) (mid : String) (size : UInt32) (date : String) :
    (encode (.fc t mid size date)).toList = ['F','C'] ++ ' '::([t.letter] ++ ' '::(mid.toList ++
      ' '::((toString size.toNat).toList ++ ' '::(date.toList ++ ['\r'])))) := by
  unfold encode
  rw [String.toList_append, String.toList_append, String.toList_append, String.toList_append, String.toList_append,
    String.toList_append, String.toList_append, String.toList_append]
  rw [show (String.ofList [t.letter]).toList = [t.letter] from String.toList_ofList]
  simp only [List.append_assoc]
  rfl

theorem answerLine (answers : List FsAnswer) :
    (encode (.fs answers)).toList = ['F','S'] ++ ' '::(answers.map FsAnswer.letter ++ ['\r']) := by
  unfold encode
  rw [String.toList_append, String.toList_append]
  rw [show (String.ofList (answers.map FsAnswer.letter)).toList = answers.map FsAnswer.letter from String.toList_ofList]
  rfl

theorem notBracketed {c : Char} (first : c ≠ '[') (cs : List Char) {p : Char → Bool} (kept : p c = false) :
    bracketed (trimEnd p (c::cs)) = false := by
  have whole := trimEndAfter kept [] cs
  rw [List.nil_append, List.nil_append] at whole
  rw [whole, bracketed]
  simp [first]

def afterType (mid : String) (size : UInt32) (date : String) : List (List Char) :=
  splitN ' ' 3 (mid.toList ++ ' '::((toString size.toNat).toList ++ ' '::trimEnd isLineEnd date.toList))

theorem decodeTyped (t : ProposalType) (mid : String) (size : UInt32) (date : String) :
    decode (encode (.fc t mid size date)) = match parseU32 ((afterType mid size date).getD 1 []) with
      | some size' => .ok (.fc t (String.ofList ((afterType mid size date).getD 0 [])) size'
          (String.ofList ((afterType mid size date).getD 2 [])))
      | none => .error (.invalidFrame "bad size") := by
  have trimmed : trimEnd isLineEnd (encode (.fc t mid size date)).toList = ['F','C'] ++ ' '::([t.letter] ++ ' '::(mid.toList ++
      ' '::((toString size.toNat).toList ++ ' '::trimEnd isLineEnd date.toList))) := by
    have space : isLineEnd ' ' = false := rfl
    rw [proposalLine, trimEndAfter space, trimEndAfter space, trimEndAfter space, trimEndAfter space,
      trimEndDrops (by rfl)]
  have letter : ' ' ∉ [t.letter] := by cases t <;> decide
  have rest : 2 ≤ (mid.toList ++ ' '::((toString size.toNat).toList ++ ' '::trimEnd isLineEnd date.toList)).count ' ' := by
    simp only [List.count_append, List.count_cons_self]
    omega
  have length := splitNLength 2 rest
  have kind : proposalTypeOf [t.letter] = .ok t := by cases t <;> rfl
  have name : toUppercase ['F','C'] = ['F','C'] := by decide
  unfold decode
  simp only [trimmed, splitNCons (by decide : ' ' ∉ ['F','C']), splitNCons letter]
  simp only [List.getD_cons_succ, List.getD_cons_zero, List.length_cons, name, kind]
  rw [if_pos ⟨trivial,by omega⟩]
  rfl

theorem decodeProposal (t : ProposalType) (mid : String) (size : UInt32) (date : String) :
    (∃ e, decode (encode (.fc t mid size date)) = .error e) ∨
      ∃ mid' size' date', decode (encode (.fc t mid size date)) = .ok (.fc t mid' size' date') := by
  rw [decodeTyped]
  cases parseU32 _ with
  | none => exact .inl ⟨_,rfl⟩
  | some size' => exact .inr ⟨_,size',_,rfl⟩

theorem digitOf {n : Nat} {c : Char} (member : c ∈ (toString n).toList) : c.isDigit = true := by
  have digits : (toString n).toList = Nat.toDigits 10 n := Nat.toList_repr
  rw [digits] at member
  exact Nat.isDigit_of_mem_toDigits (by decide) (by decide) member

theorem parseSize (size : UInt32) : parseU32 (toString size.toNat).toList = some size := by
  have digits : (toString size.toNat).toList = Nat.toDigits 10 size.toNat := Nat.toList_repr
  have every : (toString size.toNat).toList.all Char.isDigit = true := List.all_eq_true.mpr fun c member => digitOf member
  have nonempty : (toString size.toNat).toList ≠ [] := by simp
  have value : digitsValue (toString size.toNat).toList = size.toNat := by
    refine Eq.trans ?_ (@Nat.ofDigitChars_ten_toDigits size.toNat)
    rw [digits, digitsValue, Nat.ofDigitChars_eq_foldl]
    simp [Nat.mul_comm]
  have unsigned : ∀ ds, (toString size.toNat).toList ≠ '+'::ds := by
    intro ds signed
    have sign : '+'.isDigit = true := digitOf (signed ▸ List.mem_cons_self)
    cases sign
  unfold parseU32
  split
  · rename_i ds signed
    exact absurd signed (unsigned ds)
  · simp only
    rw [if_pos ⟨nonempty,every,by rw [value]; exact size.toNat_lt⟩, value]
    simp

theorem decodeWord (t : ProposalType) {mid : String} (word : ' ' ∉ mid.toList) (size : UInt32) (date : String) :
    decode (encode (.fc t mid size date)) = .ok (.fc t mid size (String.ofList (trimEnd isLineEnd date.toList))) := by
  have number : ' ' ∉ (toString size.toNat).toList := by
    intro member
    cases digitOf member
  have pieces : afterType mid size date = [mid.toList,(toString size.toNat).toList,trimEnd isLineEnd date.toList] := by
    rw [afterType, splitNCons word, splitNCons number]
    rfl
  rw [decodeTyped, pieces]
  simp only [List.getD_cons_succ, List.getD_cons_zero, parseSize, String.ofList_toList]

theorem readAnswers (answers : List FsAnswer) : (answers.map FsAnswer.letter).mapM answerOf = .ok answers := by
  induction answers with
  | nil => rfl
  | cons a answers ih =>
    have first : answerOf a.letter = .ok a := by cases a <;> decide
    rw [List.map_cons, List.mapM_cons, first, ih]
    rfl

theorem decodeAnswers (answers : List FsAnswer) : decode (encode (.fs answers)) = .ok (.fs answers) := by
  have kept : ∀ a : FsAnswer, isLineEnd a.letter = false ∧ a.letter ≠ ' ' := by
    intro a
    cases a <;> decide
  have plain : trimEnd isLineEnd (answers.map FsAnswer.letter) = answers.map FsAnswer.letter := by
    rcases List.eq_nil_or_concat answers with rfl | ⟨before,last,rfl⟩
    · rfl
    · rw [List.map_concat, List.concat_eq_append, trimEndAfter (kept last).1]
      rfl
  have word : ' ' ∉ answers.map FsAnswer.letter := by
    intro member
    obtain ⟨a,_,same⟩ := List.mem_map.mp member
    exact (kept a).2 same
  have trimmed : trimEnd isLineEnd (encode (.fs answers)).toList = ['F','S'] ++ ' '::answers.map FsAnswer.letter := by
    rw [answerLine, trimEndAfter (by rfl), trimEndDrops (by rfl), plain]
  have read : (answers.map FsAnswer.letter).mapM answerOf = .ok answers := readAnswers answers
  unfold decode
  simp only [trimmed, splitNCons (by decide : ' ' ∉ ['F','S']), splitNWord word]
  have name : toUppercase ['F','S'] = ['F','S'] := by decide
  simp only [List.getD_cons_succ, List.getD_cons_zero, List.length_cons, name, read]
  rfl

end OpenPulse.B2f
