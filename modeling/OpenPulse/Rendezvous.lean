import OpenPulse.Js8Frames
import OpenPulse.Words

/-! Rendezvous messages: the codec of `openpulse-discovery/src/rendezvous.rs`, and
what its decoder makes of a text that has only begun. -/
namespace OpenPulse.Rendezvous
open Words
open B2f (isWhitespace)

inductive RejectReason where
  | busy | trust | noCommonFreq | other
  deriving DecidableEq, Repr

def RejectReason.code : RejectReason → Char
  | busy => 'B'
  | trust => 'T'
  | noCommonFreq => 'F'
  | other => 'X'

def RejectReason.fromCode (c : Char) : RejectReason :=
  match c.toUpper with
  | 'B' => busy
  | 'T' => trust
  | 'F' => noCommonFreq
  | _ => other

inductive RendezvousMsg where
  | propose (token : List Char) (channels : List UInt8)
  | accept (token : List Char) (channel switchInSlots : UInt8)
  | reject (token : List Char) (reason : RejectReason)
  deriving DecidableEq, Repr

def RendezvousMsg.token : RendezvousMsg → List Char
  | propose token _ | accept token _ _ | reject token _ => token

def magic : List Char := "OPHF".toList

def version : Nat := 1

def wireToken : List Char := magic ++ Nat.toDigits 10 version

def proposeKind : List Char := "QSY?".toList

def acceptKind : List Char := "QSY".toList

def rejectKind : List Char := "NO".toList

def opening (kind token : List Char) : List Char := wireToken ++ ' ' :: (kind ++ ' ' :: token)

def number (letter : Char) (n : UInt8) : List Char := ' ' :: letter :: Nat.toDigits 10 n.toNat

def RendezvousMsg.encode : RendezvousMsg → List Char
  | propose token channels => opening proposeKind token ++ channels.flatMap (number 'C')
  | accept token channel switchInSlots => opening acceptKind token ++ (number 'C' channel ++ number 'S' switchInSlots)
  | reject token reason => opening rejectKind token ++ [' ',reason.code]

def validToken (s : List Char) : Option (List Char) :=
  let up := s.map Char.toUpper
  if up.length = 2 && up.all (fun c => c.isUpper || c.isDigit) then some up else none

def spoken (tok : List Char) : Bool :=
  magic.isPrefixOf tok && parseBelow 256 (tok.drop magic.length) == some version

def numberOf (letter : Char) : List Char → Option UInt8
  | [] => none
  | c::digits => if c = letter then (parseBelow 256 digits).map UInt8.ofNat else none

def decodeFields (kind : List Char) (fields : List (List Char)) : Option RendezvousMsg :=
  if kind = proposeKind then
    match fields with
    | [] => none
    | t::channels => do
      let token ← validToken t
      let channels ← channels.mapM (numberOf 'C')
      if channels.isEmpty then none else some (.propose token channels)
  else if kind = acceptKind then
    match fields with
    | t::c::s::_ => do
      let token ← validToken t
      let channel ← numberOf 'C' c
      let switchInSlots ← numberOf 'S' s
      some (.accept token channel switchInSlots)
    | _ => none
  else if kind = rejectKind then
    match fields with
    | t::r::_ => do
      let token ← validToken t
      let letter ← r.head?
      some (.reject token (.fromCode letter))
    | _ => none
  else none

def RendezvousMsg.decode (text : List Char) : Option RendezvousMsg :=
  match words isWhitespace text with
  | tok::kind::fields => if spoken tok then decodeFields kind fields else none
  | _ => none

def Plain (c : Char) : Prop := (c.isUpper || c.isDigit) = true

theorem plainBelow {c : Char} (plain : Plain c) : c.toNat < 128 := by
  unfold Plain at plain
  have upper : c.isUpper = true → c.val ≤ 90 := fun upper => (of_decide_eq_true upper).2
  have digit : c.isDigit = true → c.val ≤ 57 := fun digit => of_decide_eq_true ((Bool.and_eq_true_iff.mp digit).2)
  have bound : c.val ≤ 90 ∨ c.val ≤ 57 := (Bool.or_eq_true_iff.mp plain).imp upper digit
  rcases bound with h | h
  · exact Nat.lt_of_le_of_lt (UInt32.le_iff_toNat_le.mp h) (by decide)
  · exact Nat.lt_of_le_of_lt (UInt32.le_iff_toNat_le.mp h) (by decide)

theorem plainFacts {c : Char} (plain : Plain c) :
    isWhitespace c = false ∧ Js8.Coded c ∧ 3 ≤ (Js8.code c).length ∧ c.toUpper = c := by
  have every : ∀ n < 128, ((Char.ofNat n).isUpper || (Char.ofNat n).isDigit) = true →
      isWhitespace (Char.ofNat n) = false ∧ Js8.Coded (Char.ofNat n) ∧ 3 ≤ (Js8.code (Char.ofNat n)).length ∧
        (Char.ofNat n).toUpper = Char.ofNat n := by decide +kernel
  have here := every c.toNat (plainBelow plain)
  rw [Char.ofNat_toNat] at here
  exact here plain

theorem digitPlain {c : Char} (digit : c.isDigit = true) : Plain c := by simp [Plain, digit]

theorem digitHeavy {c : Char} (digit : c.isDigit = true) : 7 ≤ (Js8.code c).length := by
  have every : ∀ n < 128, (Char.ofNat n).isDigit = true → 7 ≤ (Js8.code (Char.ofNat n)).length := by decide +kernel
  have here := every c.toNat (plainBelow (digitPlain digit))
  rw [Char.ofNat_toNat] at here
  exact here digit

theorem blankBreaks : isWhitespace ' ' = true := by decide

theorem validTokenForm {token : List Char} (valid : validToken token = some token) :
    ∃ a b, token = [a,b] ∧ Plain a ∧ Plain b := by
  unfold validToken at valid
  simp only at valid
  split at valid
  · rename_i form
    rw [Option.some.inj valid, Bool.and_eq_true, decide_eq_true_eq, List.all_eq_true] at form
    match token, form with
    | [a,b], ⟨_,plain⟩ => exact ⟨a,b,rfl,plain a (by simp),plain b (by simp)⟩
  · cases valid

theorem wordPlain {w : List Char} (plain : ∀ c ∈ w, Plain c) : ∀ c ∈ w, isWhitespace c = false :=
  fun c member => (plainFacts (plain c member)).1

theorem digitsPlain (n : Nat) : ∀ c ∈ Nat.toDigits 10 n, Plain c := fun _ member => digitPlain (digitsDecimal member)

theorem blankApart (rest : List Char) : Apart isWhitespace (' '::rest) := by
  intro s more same
  rw [← (List.cons.inj same).1]
  exact blankBreaks

theorem openingWords {kind token tail : List Char} (begun : kind ≠ []) (whole : ∀ c ∈ kind, isWhitespace c = false)
    (valid : validToken token = some token) (apart : Apart isWhitespace tail) :
    words isWhitespace (opening kind token ++ tail) = wireToken :: kind :: token :: words isWhitespace tail := by
  obtain ⟨a,b,rfl,plainA,plainB⟩ := validTokenForm valid
  have plain : ∀ c ∈ [a,b], Plain c := by simp [plainA, plainB]
  have wire : ∀ c ∈ wireToken, isWhitespace c = false := everyChar (by decide)
  have split : opening kind [a,b] ++ tail = wireToken ++ ' ' :: (kind ++ ' ' :: ([a,b] ++ tail)) := by
    simp [opening]
  rw [split, wordsFirst (by decide) wire (blankApart _), wordsAfter blankBreaks, wordsFirst begun whole (blankApart _),
    wordsAfter blankBreaks, wordsFirst (by simp) (wordPlain plain) apart]

theorem spokenWire : spoken wireToken = true := by decide

theorem decodeOpening {kind token tail : List Char} (begun : kind ≠ []) (whole : ∀ c ∈ kind, isWhitespace c = false)
    (valid : validToken token = some token) (apart : Apart isWhitespace tail) :
    RendezvousMsg.decode (opening kind token ++ tail) = decodeFields kind (token :: words isWhitespace tail) := by
  rw [RendezvousMsg.decode, openingWords begun whole valid apart]
  exact if_pos spokenWire

theorem decodeFew {text : List Char} (few : (words isWhitespace text).length < 4) : RendezvousMsg.decode text = none := by
  unfold RendezvousMsg.decode
  split
  · rename_i tok kind fields split
    rw [split] at few
    split
    · unfold decodeFields
      match fields, few with
      | [], _ => simp
      | [t], _ => cases validToken t <;> simp
    · rfl
  · rfl

theorem numberRead (letter : Char) (n : UInt8) : numberOf letter (letter :: Nat.toDigits 10 n.toNat) = some n := by
  rw [numberOf, if_pos rfl, parseToDigits n.toNat_lt]
  simp

def channelText (channels : List UInt8) : List Char := channels.flatMap (number 'C')

theorem channelTextCons (c : UInt8) (channels : List UInt8) :
    channelText (c::channels) = ' ' :: 'C' :: (Nat.toDigits 10 c.toNat ++ channelText channels) := by
  simp [channelText, number]

theorem channelApart {channels : List UInt8} {q : List Char} (begins : q <+: channelText channels) : Apart isWhitespace q := by
  rintro s rest rfl
  cases channels with
  | nil => simp [channelText] at begins
  | cons c channels =>
    have first := (List.cons_prefix_cons.mp begins).1
    rw [first]
    exact blankBreaks

theorem letterPlain {letter : Char} (plain : Plain letter) {digits : List Char} {n : Nat}
    (begins : digits <+: Nat.toDigits 10 n) : ∀ c ∈ letter::digits, Plain c := by
  intro c member
  rcases List.mem_cons.mp member with rfl | digit
  · exact plain
  · exact digitsPlain n c (begins.subset digit)

theorem plainC : Plain 'C' := rfl

theorem plainS : Plain 'S' := rfl

theorem numberFirst {letter : Char} (plain : Plain letter) (n : UInt8) {tail : List Char} (apart : Apart isWhitespace tail) :
    words isWhitespace (' ' :: letter :: (Nat.toDigits 10 n.toNat ++ tail)) =
      (letter :: Nat.toDigits 10 n.toNat) :: words isWhitespace tail := by
  rw [wordsAfter blankBreaks, ← List.cons_append,
    wordsFirst (by simp) (wordPlain (letterPlain plain (List.prefix_refl _))) apart]

theorem lastBehind (s l : Char) {q : List Char} (some' : q ≠ []) : (s::l::q).getLast? = q.getLast? := by
  cases q with
  | nil => exact absurd rfl some'
  | cons c q => rw [List.getLast?_cons_cons, List.getLast?_cons_cons]

theorem channelLast (c : UInt8) (tail : List Char) : (' ' :: 'C' :: (Nat.toDigits 10 c.toNat ++ tail)).getLast? =
    tail.getLast?.or (Nat.toDigits 10 c.toNat).getLast? := by
  rw [lastBehind, List.getLast?_append]
  simp

theorem digitLast (n : Nat) : (Nat.toDigits 10 n).getLast? ≠ some 'C' := by
  intro last
  have digit := digitsDecimal (List.mem_of_getLast? last)
  revert digit
  decide

theorem numberBegun {c : UInt8} {q : List Char} (begins : q <+: Nat.toDigits 10 c.toNat) :
    ((' ' :: 'C'::q).getLast? = some 'C' ∧ (words isWhitespace (' ' :: 'C'::q)).mapM (numberOf 'C') = none) ∨
    ((' ' :: 'C'::q).getLast? ≠ some 'C' ∧ ∃ cs, (words isWhitespace (' ' :: 'C'::q)).mapM (numberOf 'C') = some cs ∧
      (2 < (' ' :: 'C'::q).length → cs ≠ [])) := by
  rw [wordsAfter blankBreaks, wordsOne (by simp) (wordPlain (letterPlain plainC begins))]
  by_cases alone : q = []
  · subst alone
    exact .inl ⟨rfl,by decide⟩
  · obtain ⟨m,-,read⟩ := parseBegun c.toNat_lt alone begins
    refine .inr ⟨?_,[UInt8.ofNat m],by simp [numberOf, read],by simp⟩
    intro last
    rw [lastBehind _ _ alone] at last
    have digit := digitsDecimal (begins.subset (List.mem_of_getLast? last))
    revert digit
    decide

theorem channelsBegun {channels : List UInt8} {q : List Char} (begins : q <+: channelText channels) :
    (q.getLast? = some 'C' ∧ (words isWhitespace q).mapM (numberOf 'C') = none) ∨
    (q.getLast? ≠ some 'C' ∧ ∃ cs, (words isWhitespace q).mapM (numberOf 'C') = some cs ∧
      (2 < q.length → cs ≠ [])) := by
  induction channels generalizing q with
  | nil =>
    have empty : q = [] := by simpa [channelText] using begins
    subst empty
    exact .inr ⟨by simp,[],by simp,by simp⟩
  | cons c channels ih =>
    match q with
    | [] => exact .inr ⟨by simp,[],by simp,by simp⟩
    | [s] =>
      obtain ⟨rfl,-⟩ := List.cons_prefix_cons.mp begins
      exact .inr ⟨by decide,[],by rw [wordsAfter blankBreaks]; simp,by simp⟩
    | s::l::q' =>
      rw [channelTextCons] at begins
      obtain ⟨rfl,behind⟩ := List.cons_prefix_cons.mp begins
      obtain ⟨rfl,rest⟩ := List.cons_prefix_cons.mp behind
      rcases List.prefix_or_prefix_of_prefix rest (List.prefix_append _ _) with cutShort | passed
      · exact numberBegun cutShort
      · -- the number is whole, what follows it is a shorter list
        obtain ⟨tail,rfl⟩ := passed
        have after := (List.prefix_append_right_inj _).mp rest
        rw [numberFirst plainC c (channelApart after)]
        rcases ih after with ⟨last,unread⟩ | ⟨last,cs,read,-⟩
        · refine .inl ⟨?_,by simp [numberRead, unread]⟩
          rw [channelLast c tail, last]
          rfl
        · refine .inr ⟨?_,c::cs,by simp [numberRead, read],by simp⟩
          rw [channelLast c tail]
          intro same
          cases final : tail.getLast? with
          | none =>
            rw [final, Option.none_or] at same
            exact digitLast c.toNat same
          | some d => exact last (by rw [final, Option.some_or] at same; rw [final, same])

theorem channelsWhole (channels : List UInt8) :
    (words isWhitespace (channelText channels)).mapM (numberOf 'C') = some channels := by
  induction channels with
  | nil => simp [channelText]
  | cons c channels ih =>
    rw [channelTextCons, numberFirst plainC c (channelApart (List.prefix_refl _))]
    simp [numberRead, ih]

theorem proposalDecoded {token : List Char} (valid : validToken token = some token) {channels : List UInt8} {q : List Char}
    (begins : q <+: channelText channels) :
    RendezvousMsg.decode (opening proposeKind token ++ q) =
      ((words isWhitespace q).mapM (numberOf 'C')).bind fun cs => if cs.isEmpty then none else some (.propose token cs) := by
  rw [decodeOpening (by decide) (everyChar (by decide)) valid (channelApart begins), decodeFields, if_pos rfl]
  simp only [valid]
  rfl

theorem decodeEncode {msg : RendezvousMsg} (valid : validToken msg.token = some msg.token) :
    RendezvousMsg.decode msg.encode = if msg = .propose msg.token [] then none else some msg := by
  cases msg with
  | propose token channels =>
    have valid : validToken token = some token := valid
    rw [RendezvousMsg.encode, ← channelText, proposalDecoded valid (List.prefix_refl _), channelsWhole]
    cases channels <;> simp [RendezvousMsg.token]
  | accept token channel slots =>
    have valid : validToken token = some token := valid
    have last : words isWhitespace (number 'S' slots) = ['S' :: Nat.toDigits 10 slots.toNat] := by
      have one := @numberFirst 'S' plainS slots [] nofun
      rwa [List.append_nil, wordsNil] at one
    have both : words isWhitespace (number 'C' channel ++ number 'S' slots) =
        ['C' :: Nat.toDigits 10 channel.toNat,'S' :: Nat.toDigits 10 slots.toNat] := by
      rw [← last]
      exact numberFirst plainC channel (blankApart _)
    have apart : Apart isWhitespace (number 'C' channel ++ number 'S' slots) := blankApart _
    rw [RendezvousMsg.encode, decodeOpening (by decide) (everyChar (by decide)) valid apart, both, decodeFields,
      if_neg (by decide), if_pos rfl]
    simp [valid, numberRead]
  | reject token reason =>
    have valid : validToken token = some token := valid
    have letter : words isWhitespace [' ',reason.code] = [[reason.code]] := by
      cases reason <;> decide
    have back : RejectReason.fromCode reason.code = reason := by
      cases reason <;> decide
    rw [RendezvousMsg.encode, decodeOpening (by decide) (everyChar (by decide)) valid (blankApart _), letter, decodeFields,
      if_neg (by decide), if_neg (by decide), if_pos rfl]
    simp [valid, back]

end OpenPulse.Rendezvous
