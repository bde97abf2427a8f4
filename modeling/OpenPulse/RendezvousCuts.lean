import OpenPulse.Rendezvous

/-! Where the frames of an over cut a rendezvous message, and which of the texts
heard on the way are messages themselves. -/
namespace OpenPulse.Rendezvous
open Words Js8
open B2f (isWhitespace)

theorem plainCoded {c : Char} (plain : Plain c) : Coded c := (plainFacts plain).2.1

theorem codedOpening {kind token : List Char} (kindCoded : ∀ c ∈ kind, Coded c) (valid : validToken token = some token) :
    ∀ c ∈ opening kind token, Coded c := by
  obtain ⟨a,b,rfl,plainA,plainB⟩ := validTokenForm valid
  have wire : ∀ c ∈ wireToken, Coded c := everyChar (by decide)
  have blank : Coded ' ' := by decide
  intro c member
  simp only [opening, List.mem_append, List.mem_cons, List.not_mem_nil, or_false] at member
  rcases member with inWire | rfl | inKind | rfl | rfl | rfl
  · exact wire c inWire
  · exact blank
  · exact kindCoded c inKind
  · exact blank
  · exact plainCoded plainA
  · exact plainCoded plainB

theorem codedNumber {letter : Char} (plain : Plain letter) (n : UInt8) : ∀ c ∈ number letter n, Coded c := by
  intro c member
  rcases List.mem_cons.mp member with rfl | inside
  · decide
  · exact plainCoded (letterPlain plain (List.prefix_refl _) c inside)

theorem codedEncode {msg : RendezvousMsg} (valid : validToken msg.token = some msg.token) : ∀ c ∈ msg.encode, Coded c := by
  intro c member
  cases msg with
  | propose token channels =>
    rcases List.mem_append.mp member with inOpening | inChannels
    · exact codedOpening (everyChar (by decide)) valid c inOpening
    · obtain ⟨n,-,inside⟩ := List.mem_flatMap.mp inChannels
      exact codedNumber plainC n c inside
  | accept token channel slots =>
    rcases List.mem_append.mp member with inOpening | inNumbers
    · exact codedOpening (everyChar (by decide)) valid c inOpening
    · rcases List.mem_append.mp inNumbers with first | second
      · exact codedNumber plainC channel c first
      · exact codedNumber plainS slots c second
  | reject token reason =>
    rcases List.mem_append.mp member with inOpening | inReason
    · exact codedOpening (everyChar (by decide)) valid c inOpening
    · have letters : ∀ c ∈ [' ',reason.code], Coded c := everyChar (by cases reason <;> decide)
      exact letters c inReason

theorem plainWeight {c : Char} (plain : Plain c) : 3 ≤ (code c).length ∧ (code c).length ≤ 8 :=
  ⟨(plainFacts plain).2.2.1,codeShort (plainCoded plain)⟩

theorem plainTextWeight {text : List Char} (plain : ∀ c ∈ text, Plain c) : weight text ≤ 8 * text.length := by
  induction text with
  | nil => exact Nat.le_refl _
  | cons c text ih =>
    have first := plainWeight (plain c List.mem_cons_self)
    have others := ih fun c member => plain c (List.mem_cons_of_mem _ member)
    rw [weightCons, List.length_cons]
    omega

theorem digitsWeight (n : UInt8) : weight (Nat.toDigits 10 n.toNat) ≤ 24 := by
  have bound : n.toNat < 10 ^ 3 := Nat.lt_trans n.toNat_lt (by decide)
  have three := (Nat.length_toDigits_le_iff (by decide) (by decide)).mpr bound
  have all := plainTextWeight (digitsPlain n.toNat)
  omega

theorem onePiece {text : List Char} (coded : ∀ c ∈ text, Coded c) (some' : text ≠ []) (light : weight text < 70) :
    textPieces text = [text] := by
  have whole : cut text = text.length := by
    apply Nat.le_antisymm (cutFills coded).inside
    exact (cutFills coded).reaches (Nat.le_refl _) (by rwa [List.take_length])
  rw [textPiecesCons coded some', whole, List.take_length, List.drop_length, textPiecesNil]

theorem weightDrop {j k : Nat} (le : j ≤ k) (text : List Char) : weight (text.drop k) ≤ weight (text.drop j) := by
  have behind : text.drop k = (text.drop j).drop (k - j) := by
    rw [List.drop_drop, Nat.add_sub_cancel' le]
  rw [behind, ← Nat.add_le_add_iff_left, ← weightAppend, List.take_append_drop]
  exact Nat.le_add_left _ _

def front (kind : List Char) : List Char := wireToken ++ ' ' :: (kind ++ [' '])

theorem openingFront (kind token : List Char) : opening kind token = front kind ++ token := by
  simp [opening, front]

theorem frontPropose : (front proposeKind).length = 11 ∧ weight (front proposeKind) = 59 := by decide

theorem frontAccept : (front acceptKind).length = 10 ∧ weight (front acceptKind) = 52 := by decide

theorem frontReject : (front rejectKind).length = 9 ∧ weight (front rejectKind) = 44 := by decide

theorem weightBlank : (code ' ').length = 2 := by decide

theorem weightC : (code 'C').length = 6 := by decide

theorem weightS : (code 'S').length = 5 := by decide

theorem takeBehind {front : List Char} {n : Nat} (size : front.length = n) (tail : List Char) (k : Nat) :
    (front ++ tail).take (n + k) = front ++ tail.take k := by
  rw [← size, List.take_length_add_append]

theorem cutWithin {front body text : List Char} {n : Nat} (low high : Nat) (split : text = front ++ body)
    (size : front.length = n) (coded : ∀ c ∈ text, Coded c) (long : low ≤ body.length)
    (fits : weight front + weight (body.take low) < 70) (full : 70 ≤ weight front + weight (body.take high)) :
    n + low ≤ cut text ∧ cut text < n + high := by
  have taken : ∀ k, weight (text.take (n + k)) = weight front + weight (body.take k) := by
    intro k
    rw [split, takeBehind size, weightAppend]
  constructor
  · refine (cutFills coded).reaches ?_ (by rwa [taken])
    rw [split, List.length_append]
    omega
  · exact (cutFills coded).stops (by rwa [taken])

theorem rejectPiece {token : List Char} (valid : validToken token = some token) (reason : RejectReason) :
    textPieces (RendezvousMsg.reject token reason).encode = [(RendezvousMsg.reject token reason).encode] := by
  have coded := @codedEncode (.reject token reason) valid
  obtain ⟨a,b,rfl,plainA,plainB⟩ := validTokenForm valid
  have wa := plainWeight plainA
  have wb := plainWeight plainB
  have letter : (code reason.code).length ≤ 7 := by cases reason <;> decide
  refine onePiece coded (by simp [RendezvousMsg.encode, opening]) ?_
  rw [RendezvousMsg.encode, openingFront, weightAppend, weightAppend, frontReject.2]
  simp only [weightCons, weightNil, weightBlank]
  omega

theorem acceptShort {token tail : List Char} (valid : validToken token = some token) (apart : Apart isWhitespace tail)
    (few : (words isWhitespace tail).length < 2) : RendezvousMsg.decode (opening acceptKind token ++ tail) = none := by
  rw [decodeOpening (by decide) (everyChar (by decide)) valid apart, decodeFields, if_neg (by decide), if_pos rfl]
  generalize words isWhitespace tail = fields at few
  rcases fields with _ | ⟨w,_ | ⟨v,ws⟩⟩
  · rfl
  · rfl
  · rw [List.length_cons, List.length_cons] at few
    omega

theorem acceptPieces {token : List Char} (valid : validToken token = some token) (channel slots : UInt8) :
    ∃ first rest, textPieces (RendezvousMsg.accept token channel slots).encode = [first,rest] ∧
      RendezvousMsg.decode first = none := by
  have coded := @codedEncode (.accept token channel slots) valid
  obtain ⟨a,b,rfl,plainA,plainB⟩ := validTokenForm valid
  have wa := plainWeight plainA
  have wb := plainWeight plainB
  obtain ⟨d,ds,digits⟩ := List.exists_cons_of_ne_nil (@Nat.toDigits_ne_nil channel.toNat 10)
  have heavy : 7 ≤ (code d).length := digitHeavy (@digitsDecimal channel.toNat d (by simp [digits]))
  have channelWeight := digits ▸ digitsWeight channel
  have slotsWeight := digitsWeight slots
  have text : (RendezvousMsg.accept [a,b] channel slots).encode =
      front acceptKind ++ a::b :: ' ' :: 'C'::d::(ds ++ number 'S' slots) := by
    simp [RendezvousMsg.encode, openingFront, number, digits]
  generalize (RendezvousMsg.accept [a,b] channel slots).encode = t at coded text ⊢
  have taken : ∀ k, t.take (10 + k) = front acceptKind ++ (a::b :: ' ' :: 'C'::d::(ds ++ number 'S' slots)).take k := by
    intro k
    rw [text, takeBehind frontAccept.1]
  have long : 15 ≤ t.length := by
    rw [text, List.length_append, frontAccept.1]
    simp only [List.length_cons]
    omega
  obtain ⟨low,high⟩ : 12 ≤ cut t ∧ cut t < 15 := by
    apply cutWithin 2 5 text frontAccept.1 coded (by simp)
    all_goals
      rw [frontAccept.2]
      simp only [List.take_succ_cons, List.take_zero, weightCons, weightNil, weightBlank, weightC]
      omega
  have light : weight (t.drop (cut t)) < 70 := by
    refine Nat.lt_of_le_of_lt (weightDrop low t) ?_
    have behind : t.drop 12 = ' ' :: 'C'::d::(ds ++ number 'S' slots) := by
      rw [text, List.drop_append, frontAccept.1, List.drop_eq_nil_of_le (by rw [frontAccept.1]; omega)]
      rfl
    rw [weightCons] at channelWeight
    rw [behind]
    simp only [number, weightCons, weightAppend, weightBlank, weightC, weightS]
    omega
  have more : t.drop (cut t) ≠ [] := by
    rw [Ne, List.drop_eq_nil_iff]
    omega
  refine ⟨_,_,by rw [textPiecesCons coded (by rintro rfl; cases long), onePiece (codedDrop coded _) more light],?_⟩
  have opened : ∀ tail, front acceptKind ++ a::b::tail = opening acceptKind [a,b] ++ tail := by simp [openingFront]
  obtain at12 | at13 | at14 : cut t = 10 + 2 ∨ cut t = 10 + 3 ∨ cut t = 10 + 4 := by omega
  · rw [at12, taken]
    simp only [List.take_succ_cons, List.take_zero, opened]
    exact acceptShort valid (fun s rest begins => by cases begins) (by decide)
  · rw [at13, taken]
    simp only [List.take_succ_cons, List.take_zero, opened]
    exact acceptShort valid (blankApart _) (by decide)
  · rw [at14, taken]
    simp only [List.take_succ_cons, List.take_zero, opened]
    exact acceptShort valid (blankApart _) (by decide)

theorem proposeShort {a : Char} (plain : Plain a) : RendezvousMsg.decode (front proposeKind ++ [a]) = none := by
  refine decodeFew (Nat.lt_of_le_of_lt (wordsCount _) ?_)
  have blanks : (front proposeKind).countP isWhitespace = 2 := by decide
  simp [List.countP_append, blanks, (plainFacts plain).1]

theorem proposePieces {token : List Char} (valid : validToken token = some token) {channels : List UInt8}
    (some' : channels ≠ []) : ∃ first second others,
      textPieces (RendezvousMsg.propose token channels).encode = first::second::others ∧
      RendezvousMsg.decode first = none ∧ 16 ≤ first.length + second.length := by
  have coded := @codedEncode (.propose token channels) valid
  obtain ⟨a,b,rfl,plainA,plainB⟩ := validTokenForm valid
  obtain ⟨c,cs,rfl⟩ := List.exists_cons_of_ne_nil some'
  have wa := plainWeight plainA
  have wb := plainWeight plainB
  obtain ⟨d,ds,digits⟩ := List.exists_cons_of_ne_nil (@Nat.toDigits_ne_nil c.toNat 10)
  have wd := plainWeight (digitPlain (@digitsDecimal c.toNat d (by simp [digits])))
  have text : (RendezvousMsg.propose [a,b] (c::cs)).encode =
      front proposeKind ++ a::b :: ' ' :: 'C'::d::(ds ++ channelText cs) := by
    simp [RendezvousMsg.encode, openingFront, number, digits, channelText]
  generalize (RendezvousMsg.propose [a,b] (c::cs)).encode = t at coded text ⊢
  have taken : ∀ k, t.take (11 + k) = front proposeKind ++ (a::b :: ' ' :: 'C'::d::(ds ++ channelText cs)).take k := by
    intro k
    rw [text, takeBehind frontPropose.1]
  have long : 16 ≤ t.length := by
    rw [text, List.length_append, frontPropose.1]
    simp only [List.length_cons]
    omega
  obtain ⟨low,high⟩ : 12 ≤ cut t ∧ cut t < 15 := by
    apply cutWithin 1 4 text frontPropose.1 coded (by simp)
    all_goals
      rw [frontPropose.2]
      simp only [List.take_succ_cons, List.take_zero, weightCons, weightNil, weightBlank, weightC]
      omega
  have more : t.drop (cut t) ≠ [] := by
    rw [Ne, List.drop_eq_nil_iff]
    omega
  have second : 16 - cut t ≤ cut (t.drop (cut t)) := by
    refine (cutFills (codedDrop coded _)).reaches (by rw [List.length_drop]; omega) ?_
    have upTo : cut t + (16 - cut t) = 11 + 5 := by omega
    rw [List.take_drop, upTo, taken]
    refine Nat.lt_of_le_of_lt (weightDrop low _) ?_
    rw [List.drop_append, frontPropose.1, List.drop_eq_nil_of_le (by rw [frontPropose.1]; omega)]
    simp only [List.take_succ_cons, List.take_zero, List.nil_append, Nat.reduceSub, List.drop_succ_cons, List.drop_zero,
      weightCons, weightNil, weightBlank, weightC]
    omega
  refine ⟨_,_,_,by rw [textPiecesCons coded (by rintro rfl; cases long), textPiecesCons (codedDrop coded _) more],?_,?_⟩
  · have opened : ∀ tail, front proposeKind ++ a::b::tail = opening proposeKind [a,b] ++ tail := by simp [openingFront]
    obtain at12 | at13 | at14 : cut t = 11 + 1 ∨ cut t = 11 + 2 ∨ cut t = 11 + 3 := by omega
    · rw [at12, taken]
      exact proposeShort plainA
    · rw [at13, taken]
      simp only [List.take_succ_cons, List.take_zero, opened]
      rw [@proposalDecoded _ valid [] [] (by simp)]
      simp
    · rw [at14, taken]
      simp only [List.take_succ_cons, List.take_zero, opened]
      rw [@proposalDecoded _ valid (c::cs) [' '] ⟨_,(channelTextCons c cs).symm⟩, wordsAfter blankBreaks]
      simp
  · rw [List.length_take, List.length_take, List.length_drop]
    omega

theorem proposalBegun {token : List Char} (valid : validToken token = some token) {channels : List UInt8} {q : List Char}
    (begins : q <+: channelText channels) (digit : 2 < q.length) :
    RendezvousMsg.decode (opening proposeKind token ++ q) = none ↔ (opening proposeKind token ++ q).getLast? = some 'C' := by
  have last : (opening proposeKind token ++ q).getLast? = q.getLast? := by
    rw [List.getLast?_append]
    cases q with
    | nil => cases digit
    | cons c q => rw [List.getLast?_cons, Option.some_or]
  rw [proposalDecoded valid begins, last]
  rcases channelsBegun begins with ⟨letter,unread⟩ | ⟨other,cs,read,full⟩
  · simp [letter, unread]
  · simp [read, full digit, other]

theorem openingLength {token : List Char} (valid : validToken token = some token) :
    (opening proposeKind token).length = 13 := by
  obtain ⟨a,b,rfl,-,-⟩ := validTokenForm valid
  rw [openingFront, List.length_append, frontPropose.1]
  rfl

theorem proposalText {token : List Char} (valid : validToken token = some token) {rest text : List Char}
    (inside : text <+: opening proposeKind token ++ rest) (long : 13 ≤ text.length) :
    ∃ q, text = opening proposeKind token ++ q ∧ q <+: rest := by
  have shorter := List.prefix_of_prefix_length_le (List.prefix_append _ rest) inside (by rw [openingLength valid]; exact long)
  obtain ⟨q,rfl⟩ := shorter
  exact ⟨q,rfl,(List.prefix_append_right_inj _).mp inside⟩

/-- No text heard before the last frame is a message. -/
def Quiet (text : List Char) : Prop :=
  ∀ heard later, textPieces text = heard ++ later → heard ≠ [] → later ≠ [] → RendezvousMsg.decode heard.flatten = none

/- Every data frame of a proposal between the first and the last ends right behind
the letter of a channel. -/
def CutAtLetters (text : List Char) : Prop := ∀ piece ∈ (textPieces text).tail.dropLast, piece.getLast? = some 'C'

instance (text : List Char) : Decidable (CutAtLetters text) := by unfold CutAtLetters; infer_instance

theorem memDropLast {α : Type} {x : α} {xs : List α} (member : x ∈ xs.dropLast) :
    ∃ before after, xs = before ++ x::after ∧ after ≠ [] := by
  obtain ⟨before,after,split⟩ := List.append_of_mem member
  have some' : xs ≠ [] := by
    rintro rfl
    cases member
  refine ⟨before,after ++ [xs.getLast some'],?_,by simp⟩
  conv_lhs => rw [← List.dropLast_append_getLast some', split]
  simp

theorem proposeQuiet {token : List Char} (valid : validToken token = some token) {channels : List UInt8}
    (some' : channels ≠ []) :
    Quiet (RendezvousMsg.propose token channels).encode ↔ CutAtLetters (RendezvousMsg.propose token channels).encode := by
  have coded := @codedEncode (.propose token channels) valid
  have begun := textPiecesBegun coded
  have whole := textPiecesFlatten coded
  obtain ⟨first,second,others,split,unread,reach⟩ := proposePieces valid some'
  -- what is heard from the second frame on
  have heardIff : ∀ before piece after, second::others = before ++ piece::after →
      (RendezvousMsg.decode (first::(before ++ [piece])).flatten = none ↔ piece.getLast? = some 'C') := by
    intro before piece after parts
    have pieceBegun : piece ≠ [] := begun piece (by rw [split, parts]; simp)
    have long : 16 ≤ (first::(before ++ [piece])).flatten.length := by
      cases before with
      | nil =>
        obtain ⟨rfl,-⟩ := List.cons.inj parts
        simpa using reach
      | cons p before =>
        obtain ⟨rfl,-⟩ := List.cons.inj parts
        simp only [List.flatten_cons, List.cons_append, List.length_append] at reach ⊢
        omega
    have inside : (first::(before ++ [piece])).flatten <+: opening proposeKind token ++ channelText channels := by
      refine ⟨after.flatten,?_⟩
      change _ = (RendezvousMsg.propose token channels).encode
      rw [← whole, split, parts]
      simp
    have last : (first::(before ++ [piece])).flatten.getLast? = piece.getLast? := by
      have some' : piece.getLast? ≠ none := by simpa using pieceBegun
      rw [List.flatten_cons, List.flatten_append, List.flatten_singleton, ← List.append_assoc, List.getLast?_append,
        Option.or_eq_left_of_isSome (Option.isSome_iff_ne_none.mpr some')]
    obtain ⟨q,text,begins⟩ := proposalText valid inside (by omega)
    rw [← last, text]
    apply proposalBegun valid begins
    rw [text, List.length_append, openingLength valid] at long
    omega
  constructor
  · intro quiet piece member
    rw [split, List.tail_cons] at member
    obtain ⟨before,after,parts,rest⟩ := memDropLast member
    exact (heardIff before piece after parts).mp
      (quiet (first::(before ++ [piece])) after (by rw [split, parts]; simp) (by simp) rest)
  · intro letters heard later parts nonempty rest
    obtain ⟨p,heard,rfl⟩ := List.exists_cons_of_ne_nil nonempty
    obtain ⟨rfl,tails⟩ := List.cons.inj (split.symm.trans parts)
    rcases List.eq_nil_or_concat' heard with rfl | ⟨before,piece,rfl⟩
    · simpa using unread
    · have order : second::others = before ++ piece::later := by simpa using tails
      refine (heardIff before piece later order).mpr (letters piece ?_)
      rw [split, List.tail_cons, order, List.dropLast_append_of_ne_nil (by simp), List.dropLast_cons_of_ne_nil rest]
      simp

/- The messages that only their last frame completes. -/
def RendezvousMsg.Settled : RendezvousMsg → Prop
  | .propose token channels => channels ≠ [] ∧ CutAtLetters (RendezvousMsg.propose token channels).encode
  | _ => True

theorem settledIff {msg : RendezvousMsg} (valid : validToken msg.token = some msg.token) :
    Quiet msg.encode ∧ RendezvousMsg.decode msg.encode = some msg ↔ msg.Settled := by
  rw [decodeEncode valid]
  cases msg with
  | propose token channels =>
    cases channels with
    | nil => simp [RendezvousMsg.token, RendezvousMsg.Settled]
    | cons c cs => simp [RendezvousMsg.token, RendezvousMsg.Settled, @proposeQuiet token valid (c::cs)]
  | accept token channel slots =>
    obtain ⟨first,rest,split,unread⟩ := @acceptPieces token valid channel slots
    have quiet : Quiet (RendezvousMsg.accept token channel slots).encode := by
      intro heard later parts some' more
      rw [split] at parts
      rcases heard with _ | ⟨h,_ | ⟨h',heard⟩⟩
      · exact absurd rfl some'
      · obtain ⟨rfl,-⟩ := List.cons.inj parts
        simpa using unread
      · cases later with
        | nil => exact absurd rfl more
        | cons l later => simp at parts
    simp [RendezvousMsg.Settled, quiet]
  | reject token reason =>
    have quiet : Quiet (RendezvousMsg.reject token reason).encode := by
      intro heard later parts some' more
      rw [@rejectPiece token valid reason] at parts
      cases heard with
      | nil => exact absurd rfl some'
      | cons h heard =>
        cases later with
        | nil => exact absurd rfl more
        | cons l later => simp at parts
    simp [RendezvousMsg.Settled, quiet]

end OpenPulse.Rendezvous
