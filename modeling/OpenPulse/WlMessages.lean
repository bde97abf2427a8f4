import OpenPulse.B2fFrames
import OpenPulse.Downloads
import OpenPulse.FxCodec

/-! A Winlink message taken apart again: the header block of `openpulse-b2f/src/header.rs`
read line by line, and the blank line that `split_message` of `openpulse-b2f-driver`
finds between header and body. -/
namespace OpenPulse.B2f
open ByteCodec Lines Utf8Cuts
open Downloads (isControl)

/-- `B2fError::InvalidHeader`, the one error of a header. -/
structure InvalidHeader where
  text : String
  deriving DecidableEq, Repr

def maxTo : Nat := 64
def maxAttachments : Nat := 128

/-- Lower case, as far as the keys of a header can tell. -/
def toLowercase (cs : List Char) : List Char := cs.map Char.toLower

def WlHeader.blank : WlHeader := ⟨"","","",[],"",0,0,[]⟩

def fileField (h : WlHeader) (val : List Char) : Except InvalidHeader WlHeader :=
  let parts := splitN ' ' 2 val
  match parseU32 (parts.getD 0 []) with
  | none => .error ⟨"bad file size"⟩
  | some s =>
    if parts.length = 2 then
      if maxAttachments ≤ h.attachments.length then .error ⟨s!"more than {maxAttachments} File: entries"⟩
      else .ok { h with attachments := h.attachments ++ [⟨String.ofList (parts.getD 1 []),s⟩] }
    else .ok { h with size := s }

def field (h : WlHeader) (key : String) (val : List Char) : Except InvalidHeader WlHeader :=
  if key = "mid" then .ok { h with mid := String.ofList val }
  else if key = "date" then .ok { h with date := String.ofList val }
  else if key = "from" then .ok { h with sender := String.ofList val }
  else if key = "to" then
    if maxTo ≤ h.recipients.length then .error ⟨s!"more than {maxTo} To: recipients"⟩
    else .ok { h with recipients := h.recipients ++ [String.ofList val] }
  else if key = "subject" then .ok { h with subject := String.ofList val }
  else if key = "body" then
    match parseU32 val with
    | some n => .ok { h with body := n }
    | none => .error ⟨"bad body"⟩
  else if key = "file" then fileField h val
  else .ok h

def readLines (h : WlHeader) : List (List Char) → Except InvalidHeader WlHeader
  | [] => .ok h
  | line::rest =>
    if (trim line).isEmpty then .ok h
    else
      match splitOnce ':' line with
      | none => readLines h rest
      | some (key,val) => (field h (String.ofList (toLowercase (trim key))) (trim val)).bind (readLines · rest)

def require (name value : String) : Except InvalidHeader Unit :=
  if value.isEmpty then .error ⟨"missing " ++ name⟩ else .ok ()

def WlHeader.decode (data : Bytes) : Except InvalidHeader WlHeader :=
  match fromUtf8 data with
  | none => .error ⟨"non-UTF8"⟩
  | some text => do
    let h ← readLines .blank (lines text.toList)
    require "Mid" h.mid
    require "From" h.sender
    if h.recipients.isEmpty then throw ⟨"missing To"⟩
    return h

def sep : Bytes := [13,10,13,10]

def splitMessage (data : Bytes) : Except InvalidHeader (WlHeader × Bytes) :=
  let bodyStart := ((position sep data).map (· + sep.length)).getD data.length
  (WlHeader.decode (data.take bodyStart)).map fun header => (header,data.drop bodyStart)

def Bare (cs : List Char) : Prop := (∀ c ∈ cs.head?, isWhitespace c = false) ∧ ∀ c ∈ cs.getLast?, isWhitespace c = false

structure Printed (cs : List Char) : Prop where
  calm : ∀ c ∈ cs, isControl c = false
  bare : Bare cs

def isPrinted (cs : List Char) : Bool :=
  cs.all (fun c => !isControl c) && cs.head?.all (fun c => !isWhitespace c) && cs.getLast?.all fun c => !isWhitespace c

theorem printedOf {cs : List Char} (printed : isPrinted cs = true) : Printed cs := by
  rw [isPrinted, Bool.and_eq_true, Bool.and_eq_true, List.all_eq_true, Option.all_eq_true, Option.all_eq_true] at printed
  obtain ⟨⟨calm,front⟩,back⟩ := printed
  have off : ∀ {p : Char → Bool} {c : Char}, (!p c) = true → p c = false := fun holds => by simpa using holds
  exact ⟨fun c member => off (calm c member),fun c first => off (front c first),fun c last => off (back c last)⟩

structure WlHeader.Fits (h : WlHeader) : Prop where
  mid : Printed h.mid.toList
  midSome : h.mid ≠ ""
  date : Printed h.date.toList
  sender : Printed h.sender.toList
  senderSome : h.sender ≠ ""
  recipients : ∀ addr ∈ h.recipients, Printed addr.toList
  recipientsSome : h.recipients ≠ []
  recipientsFew : h.recipients.length ≤ maxTo
  subject : Printed h.subject.toList
  attachments : ∀ att ∈ h.attachments, Printed att.name.toList ∧ att.name ≠ ""
  attachmentsFew : h.attachments.length ≤ maxAttachments

theorem trimBare {cs : List Char} (bare : Bare cs) : trim cs = cs := by
  have front : cs.dropWhile isWhitespace = cs := by
    cases cs with
    | nil => rfl
    | cons c cs => exact List.dropWhile_cons_of_neg (by rw [bare.1 c rfl]; exact Bool.false_ne_true)
  rw [trim, front]
  rcases List.eq_nil_or_concat cs with rfl | ⟨begin',last,rfl⟩
  · rfl
  · have kept : isWhitespace last = false := bare.2 last (by simp)
    rw [List.concat_eq_append]
    exact trimEndAfter kept begin' []

theorem trimBlank {cs : List Char} (bare : Bare cs) : trim (' '::cs) = cs := by
  have blank : (' '::cs).dropWhile isWhitespace = cs.dropWhile isWhitespace := List.dropWhile_cons_of_pos rfl
  rw [trim, blank]
  exact trimBare bare

theorem digitPlain {c : Char} (digit : c.isDigit = true) : isWhitespace c = false ∧ isControl c = false := by
  obtain ⟨low,high⟩ : 48 ≤ c.toNat ∧ c.toNat ≤ 57 := by
    simpa [Char.isDigit, UInt32.le_iff_toNat_le] using digit
  constructor
  · simp only [isWhitespace, Bool.or_eq_false_iff, Bool.and_eq_false_iff, decide_eq_false_iff_not, beq_eq_false_iff_ne]
    omega
  · simp only [isControl, Bool.or_eq_false_iff, Bool.and_eq_false_iff, decide_eq_false_iff_not]
    omega

theorem numberPrinted (n : Nat) : Printed (toString n).toList where
  calm _ member := (digitPlain (digitOf member)).2
  bare := ⟨fun _ first => (digitPlain (digitOf (List.mem_of_head? first))).1,
    fun _ last => (digitPlain (digitOf (List.mem_of_getLast? last))).1⟩

theorem numberWord (n : Nat) : ' ' ∉ (toString n).toList := fun member => absurd (digitOf member) (by decide)

theorem wordsPrinted {v w : List Char} (left : Printed v) (right : Printed w) (leftSome : v ≠ []) (rightSome : w ≠ []) :
    Printed (v ++ ' '::w) where
  calm c member := by
    rcases List.mem_append.mp member with here | later
    · exact left.calm c here
    · rcases List.mem_cons.mp later with rfl | there
      · rfl
      · exact right.calm c there
  bare := by
    constructor
    · rw [List.head?_append_of_ne_nil v leftSome]
      exact left.bare.1
    · rw [List.getLast?_append_of_ne_nil v (List.cons_ne_nil ' ' w), List.getLast?_cons_of_ne_nil rightSome]
      exact right.bare.2

def headed (key : String) (val : List Char) : List Char := key.toList ++ ':'::(' '::val)

def fileLine (att : AttachmentInfo) : List Char := headed "File" ((toString att.size.toNat).toList ++ ' '::att.name.toList)

def WlHeader.headerLines (h : WlHeader) : List (List Char) :=
  [headed "Mid" h.mid.toList,headed "Date" h.date.toList,headed "From" h.sender.toList] ++
    h.recipients.map (fun addr => headed "To" addr.toList) ++
    [headed "Subject" h.subject.toList,headed "Mbo" "OPNPLS".toList,headed "Body" (toString h.body.toNat).toList,
      headed "File" (toString h.size.toNat).toList] ++
    h.attachments.map fileLine

theorem encodeLines (h : WlHeader) : h.encode = utf8 (String.ofList ((h.headerLines ++ [[]]).flatMap ended)) := by
  refine congrArg utf8 (String.toList_inj.mp ?_)
  simp only [String.toList_ofList, String.toList_append, String.toList_join, WlHeader.headerLines, List.flatMap_append,
    List.flatMap_cons, List.flatMap_nil, List.flatMap_map, headed, fileLine, ended]
  simp [List.flatMap_def]

def Key (key : String) : Prop := key.toList ≠ [] ∧ Printed key.toList ∧ ':' ∉ key.toList

theorem keyOf {key : String} (some' : key.toList ≠ []) (printed : isPrinted key.toList = true) (word : ':' ∉ key.toList) : Key key :=
  ⟨some',printedOf printed,word⟩

theorem keyMid : Key "Mid" := keyOf (by decide) (by decide) (by decide)
theorem keyDate : Key "Date" := keyOf (by decide) (by decide) (by decide)
theorem keyFrom : Key "From" := keyOf (by decide) (by decide) (by decide)
theorem keyTo : Key "To" := keyOf (by decide) (by decide) (by decide)
theorem keySubject : Key "Subject" := keyOf (by decide) (by decide) (by decide)
theorem keyMbo : Key "Mbo" := keyOf (by decide) (by decide) (by decide)
theorem keyBody : Key "Body" := keyOf (by decide) (by decide) (by decide)
theorem keyFile : Key "File" := keyOf (by decide) (by decide) (by decide)

theorem headedCalm {key : String} (name : Key key) {val : List Char} (calm : ∀ c ∈ val, isControl c = false) :
    ∀ c ∈ headed key val, isControl c = false := by
  intro c member
  rcases List.mem_append.mp member with here | later
  · exact name.2.1.calm c here
  · rcases List.mem_cons.mp later with rfl | later
    · rfl
    · rcases List.mem_cons.mp later with rfl | there
      · rfl
      · exact calm c there

theorem headedRead {key : String} (name : Key key) {val : List Char} (bare : Bare val) (h : WlHeader) (rest : List (List Char)) :
    readLines h (headed key val :: rest) = (field h (String.ofList (toLowercase key.toList)) val).bind (readLines · rest) := by
  obtain ⟨some',printed,word⟩ := name
  have written : (trim (headed key val)).isEmpty = false := by
    obtain ⟨c,cs,whole⟩ := List.exists_cons_of_ne_nil some'
    have kept : isWhitespace c = false := printed.bare.1 c (by rw [whole]; rfl)
    have front : (c::(cs ++ ':'::(' '::val))).dropWhile isWhitespace = c::(cs ++ ':'::(' '::val)) :=
      List.dropWhile_cons_of_neg (by rw [kept]; exact Bool.false_ne_true)
    rw [headed, whole, List.cons_append, trim, front]
    exact congrArg List.isEmpty (trimEndAfter kept [] _)
  rw [readLines, if_neg (by rw [written]; exact Bool.false_ne_true), headed, splitOnceAt word]
  simp only [trimBare printed.bare, trimBlank bare]

theorem readOn {key : String} (name : Key key) {val : List Char} (bare : Bare val) {h h' : WlHeader}
    (read : field h (String.ofList (toLowercase key.toList)) val = .ok h') (rest : List (List Char)) :
    readLines h (headed key val :: rest) = readLines h' rest := by
  rw [headedRead name bare, read]
  rfl

theorem recipientsRead {names : List String} (bare : ∀ addr ∈ names, Bare addr.toList) (h : WlHeader)
    (few : h.recipients.length + names.length ≤ maxTo) (rest : List (List Char)) :
    readLines h (names.map (fun addr => headed "To" addr.toList) ++ rest) =
      readLines { h with recipients := h.recipients ++ names } rest := by
  induction names generalizing h with
  | nil => rw [List.append_nil]; rfl
  | cons addr names ih =>
    obtain ⟨first,later⟩ := List.forall_mem_cons.mp bare
    rw [List.length_cons] at few
    have room : ¬ maxTo ≤ h.recipients.length := by omega
    have read : field h (String.ofList (toLowercase "To".toList)) addr.toList =
        .ok { h with recipients := h.recipients ++ [addr] } := by
      have name : String.ofList (toLowercase "To".toList) = "to" := by decide
      rw [name, field, if_neg (by decide), if_neg (by decide), if_neg (by decide), if_pos rfl, if_neg room, String.ofList_toList]
    have fewer : (h.recipients ++ [addr]).length + names.length ≤ maxTo := by
      rw [List.length_append, List.length_singleton]
      omega
    rw [List.map_cons, List.cons_append, readOn keyTo first read]
    refine (ih later _ fewer).trans ?_
    rw [List.append_assoc, List.singleton_append]

theorem fileRead {att : AttachmentInfo} (printed : Printed att.name.toList) (some' : att.name ≠ "") (h : WlHeader)
    (few : h.attachments.length < maxAttachments) (rest : List (List Char)) :
    readLines h (fileLine att :: rest) = readLines { h with attachments := h.attachments ++ [att] } rest := by
  have letters : att.name.toList ≠ [] := fun none => some' (String.toList_eq_nil_iff.mp none)
  have digits : (toString att.size.toNat).toList ≠ [] := by simp
  have whole := wordsPrinted (numberPrinted att.size.toNat) printed digits letters
  have read : field h (String.ofList (toLowercase "File".toList)) ((toString att.size.toNat).toList ++ ' '::att.name.toList) =
      .ok { h with attachments := h.attachments ++ [att] } := by
    have name : String.ofList (toLowercase "File".toList) = "file" := by decide
    rw [name, field, if_neg (by decide), if_neg (by decide), if_neg (by decide), if_neg (by decide), if_neg (by decide),
      if_neg (by decide), if_pos rfl, fileField, splitNCons (numberWord _)]
    simp only [splitN, List.getD_cons_zero, List.getD_cons_succ, parseSize, List.length_cons, List.length_nil]
    rw [if_pos trivial, if_neg (by omega), String.ofList_toList]
  exact readOn keyFile whole.bare read rest

theorem filesRead {files : List AttachmentInfo} (printed : ∀ att ∈ files, Printed att.name.toList ∧ att.name ≠ "")
    (h : WlHeader) (few : h.attachments.length + files.length ≤ maxAttachments) (rest : List (List Char)) :
    readLines h (files.map fileLine ++ rest) = readLines { h with attachments := h.attachments ++ files } rest := by
  induction files generalizing h with
  | nil => rw [List.append_nil]; rfl
  | cons att files ih =>
    obtain ⟨first,later⟩ := List.forall_mem_cons.mp printed
    rw [List.length_cons] at few
    have fewer : (h.attachments ++ [att]).length + files.length ≤ maxAttachments := by
      rw [List.length_append, List.length_singleton]
      omega
    rw [List.map_cons, List.cons_append, fileRead first.1 first.2 h (by omega)]
    refine (ih later _ fewer).trans ?_
    rw [List.append_assoc, List.singleton_append]

theorem midField (h : WlHeader) (val : String) :
    field h (String.ofList (toLowercase "Mid".toList)) val.toList = .ok { h with mid := val } := by
  have name : String.ofList (toLowercase "Mid".toList) = "mid" := by decide
  rw [name, field, if_pos rfl, String.ofList_toList]

theorem dateField (h : WlHeader) (val : String) :
    field h (String.ofList (toLowercase "Date".toList)) val.toList = .ok { h with date := val } := by
  have name : String.ofList (toLowercase "Date".toList) = "date" := by decide
  rw [name, field, if_neg (by decide), if_pos rfl, String.ofList_toList]

theorem fromField (h : WlHeader) (val : String) :
    field h (String.ofList (toLowercase "From".toList)) val.toList = .ok { h with sender := val } := by
  have name : String.ofList (toLowercase "From".toList) = "from" := by decide
  rw [name, field, if_neg (by decide), if_neg (by decide), if_pos rfl, String.ofList_toList]

theorem subjectField (h : WlHeader) (val : String) :
    field h (String.ofList (toLowercase "Subject".toList)) val.toList = .ok { h with subject := val } := by
  have name : String.ofList (toLowercase "Subject".toList) = "subject" := by decide
  rw [name, field, if_neg (by decide), if_neg (by decide), if_neg (by decide), if_neg (by decide), if_pos rfl,
    String.ofList_toList]

theorem mboField (h : WlHeader) (val : List Char) : field h (String.ofList (toLowercase "Mbo".toList)) val = .ok h := by
  have name : String.ofList (toLowercase "Mbo".toList) = "mbo" := by decide
  rw [name, field, if_neg (by decide), if_neg (by decide), if_neg (by decide), if_neg (by decide), if_neg (by decide),
    if_neg (by decide), if_neg (by decide)]

theorem sizeRead (h : WlHeader) (size : UInt32) (rest : List (List Char)) :
    readLines h (headed "File" (toString size.toNat).toList :: rest) = readLines { h with size := size } rest := by
  refine readOn keyFile (numberPrinted size.toNat).bare ?_ rest
  have name : String.ofList (toLowercase "File".toList) = "file" := by decide
  rw [name, field, if_neg (by decide), if_neg (by decide), if_neg (by decide), if_neg (by decide), if_neg (by decide),
    if_neg (by decide), if_pos rfl, fileField, splitNWord (numberWord _)]
  simp only [List.getD_cons_zero, parseSize, List.length_cons, List.length_nil]
  rw [if_neg (by decide)]

theorem bodyRead (h : WlHeader) (size : UInt32) (rest : List (List Char)) :
    readLines h (headed "Body" (toString size.toNat).toList :: rest) = readLines { h with body := size } rest := by
  refine readOn keyBody (numberPrinted size.toNat).bare ?_ rest
  have name : String.ofList (toLowercase "Body".toList) = "body" := by decide
  rw [name, field, if_neg (by decide), if_neg (by decide), if_neg (by decide), if_neg (by decide), if_neg (by decide),
    if_pos rfl, parseSize]

theorem emptyEnds (h : WlHeader) (rest : List (List Char)) : readLines h ([] :: rest) = .ok h := by
  rw [readLines, if_pos (by rfl)]

theorem linesRead {h : WlHeader} (fits : h.Fits) : readLines .blank (h.headerLines ++ [[]]) = .ok h := by
  have names : ∀ addr ∈ h.recipients, Bare addr.toList := fun addr member => (fits.recipients addr member).bare
  have mbo : Bare "OPNPLS".toList := (printedOf (by decide)).bare
  simp only [WlHeader.headerLines, List.append_assoc, List.cons_append, List.nil_append]
  rw [readOn keyMid fits.mid.bare (midField _ _), readOn keyDate fits.date.bare (dateField _ _),
    readOn keyFrom fits.sender.bare (fromField _ _), recipientsRead names _ (by simpa [WlHeader.blank] using fits.recipientsFew),
    readOn keySubject fits.subject.bare (subjectField _ _), readOn keyMbo mbo (mboField _ _), bodyRead, sizeRead,
    filesRead fits.attachments _ (by simpa [WlHeader.blank] using fits.attachmentsFew), emptyEnds]
  rfl

theorem asciiByte {c : Char} {b : UInt8} (member : b ∈ String.utf8EncodeChar c) (low : b.toNat < 128) : c.toNat = b.toNat := by
  have small : ∀ n, n < 256 → (UInt8.ofNat n).toNat = n := fun n fits => by
    rw [UInt8.toNat_ofNat', Nat.mod_eq_of_lt (by omega)]
  have size : c.toNat < 2 ^ 21 := by
    rcases c.valid with first | last
    · exact Nat.lt_of_lt_of_le first (by decide)
    · exact Nat.lt_trans last.2 (by decide)
  have value : c.val.toNat = c.toNat := rfl
  unfold String.utf8EncodeChar at member
  dsimp only at member
  split_ifs at member with one two three <;> simp only [List.mem_cons, List.not_mem_nil, or_false] at member
  · rw [member, small _ (by omega)]
    exact value.symm
  · rcases member with rfl | rfl <;> rw [small _ (by omega)] at low <;> omega
  · rcases member with rfl | rfl | rfl <;> rw [small _ (by omega)] at low <;> omega
  · rcases member with rfl | rfl | rfl | rfl <;> rw [small _ (by omega)] at low <;> omega

theorem calmBytes {line : List Char} (calm : ∀ c ∈ line, isControl c = false) : 13 ∉ encoded line := by
  intro member
  obtain ⟨c,there,byte⟩ := List.mem_flatMap.mp member
  have code : c.toNat = 13 := asciiByte byte (by decide)
  have quiet := calm c there
  rw [isControl, code] at quiet
  cases quiet

theorem encodedSome {line : List Char} (some' : line ≠ []) : encoded line ≠ [] := by
  obtain ⟨c,cs,rfl⟩ := List.exists_cons_of_ne_nil some'
  obtain ⟨b,rest,bytes,-,-⟩ := charBytes c
  rw [encodedCons, bytes]
  exact List.cons_ne_nil _ _

theorem encodedEnded (line : List Char) : encoded (ended line) = encoded line ++ [13,10] := by
  rw [ended, encodedAppend]
  rfl

theorem quietBytes {w : Bytes} (word : 13 ∉ w) (rest : Bytes) : position sep (w ++ rest) = (position sep rest).map (· + w.length) :=
  positionPast word rest

theorem missed {b : UInt8} (other : b ≠ 13) (rest : Bytes) :
    position sep (13::10::b::rest) = (position sep (b::rest)).map (· + 2) := by
  have here : sep.isPrefixOf (13::10::b::rest) = false := by
    simp only [sep, List.isPrefixOf_cons_cons, beq_false_of_ne (Ne.symm other), Bool.false_and, Bool.and_false]
  have next : position sep ([10] ++ b::rest) = (position sep (b::rest)).map (· + 1) := quietBytes (by decide) (b::rest)
  rw [List.singleton_append] at next
  rw [position, if_neg (by rw [here]; exact Bool.false_ne_true), next, Option.map_map]
  rfl

theorem separatorBehind {line : Bytes} {others : List Bytes} (plain : ∀ l ∈ line::others, 13 ∉ l ∧ l ≠ []) (rest : Bytes) :
    (position sep ((line::others).flatMap (· ++ [13,10]) ++ 13::10::rest)).map (· + sep.length) =
      some (((line::others).flatMap (· ++ [13,10])).length + 2) := by
  induction others generalizing line with
  | nil =>
    obtain ⟨word,-⟩ := plain line List.mem_cons_self
    have split : [line].flatMap (· ++ [13,10]) ++ 13::10::rest = line ++ (sep ++ rest) := by simp [sep]
    rw [split, quietBytes word, positionHere (by decide)]
    simp [sep]
  | cons next others ih =>
    obtain ⟨⟨word,-⟩,later⟩ := List.forall_mem_cons.mp plain
    obtain ⟨quiet,some'⟩ := later next List.mem_cons_self
    obtain ⟨b,bs,whole⟩ := List.exists_cons_of_ne_nil some'
    have other : b ≠ 13 := fun same => quiet (by rw [whole, same]; exact List.mem_cons_self)
    have begins : (next::others).flatMap (· ++ [13,10]) ++ 13::10::rest =
        b :: (bs ++ [13,10] ++ others.flatMap (· ++ [13,10]) ++ 13::10::rest) := by
      rw [List.flatMap_cons, whole]
      simp
    have split : (line::next::others).flatMap (· ++ [13,10]) ++ 13::10::rest =
        line ++ 13::10::b::(bs ++ [13,10] ++ others.flatMap (· ++ [13,10]) ++ 13::10::rest) := by
      rw [← begins]
      simp
    have behind := ih later
    rw [begins] at behind
    obtain ⟨i,found,place⟩ := Option.map_eq_some_iff.mp behind
    rw [split, quietBytes word, missed other, found, List.flatMap_cons, List.length_append, List.length_append]
    refine congrArg some ?_
    simp only [List.length_cons, List.length_nil]
    omega

theorem headerFirst (h : WlHeader) : ∃ first others, h.headerLines = first::others := ⟨_,_,rfl⟩

theorem headedSome (key : String) (val : List Char) : headed key val ≠ [] := by
  rw [headed]
  exact List.append_ne_nil_of_right_ne_nil _ (List.cons_ne_nil _ _)

theorem WlHeader.Fits.lineCalm {h : WlHeader} (fits : h.Fits) {line : List Char} (member : line ∈ h.headerLines) :
    (∀ c ∈ line, isControl c = false) ∧ line ≠ [] := by
  simp only [WlHeader.headerLines, List.mem_append, List.mem_cons, List.not_mem_nil, or_false, List.mem_map] at member
  have number := fun n => (numberPrinted n).calm
  rcases member with (((rfl | rfl | rfl) | ⟨addr,there,rfl⟩) | rfl | rfl | rfl | rfl) | ⟨att,there,rfl⟩
  · exact ⟨headedCalm keyMid fits.mid.calm,headedSome _ _⟩
  · exact ⟨headedCalm keyDate fits.date.calm,headedSome _ _⟩
  · exact ⟨headedCalm keyFrom fits.sender.calm,headedSome _ _⟩
  · exact ⟨headedCalm keyTo (fits.recipients addr there).calm,headedSome _ _⟩
  · exact ⟨headedCalm keySubject fits.subject.calm,headedSome _ _⟩
  · exact ⟨headedCalm keyMbo (printedOf (by decide)).calm,headedSome _ _⟩
  · exact ⟨headedCalm keyBody (number _),headedSome _ _⟩
  · exact ⟨headedCalm keyFile (number _),headedSome _ _⟩
  · obtain ⟨printed,some'⟩ := fits.attachments att there
    have letters : att.name.toList ≠ [] := fun none => some' (String.toList_eq_nil_iff.mp none)
    have whole := wordsPrinted (numberPrinted att.size.toNat) printed (by simp) letters
    exact ⟨headedCalm keyFile whole.calm,headedSome _ _⟩

theorem decodeEncode {h : WlHeader} (fits : h.Fits) : WlHeader.decode h.encode = .ok h := by
  have plain : ∀ l ∈ h.headerLines ++ [[]], '\n' ∉ l := by
    intro l member feed
    rcases List.mem_append.mp member with line | blank
    · have quiet := (fits.lineCalm line).1 '\n' feed
      cases quiet
    · rw [List.mem_singleton.mp blank] at feed
      cases feed
  have mid : require "Mid" h.mid = .ok () := if_neg (by simpa using fits.midSome)
  have sender : require "From" h.sender = .ok () := if_neg (by simpa using fits.senderSome)
  have recipients : h.recipients.isEmpty = false := by simpa using fits.recipientsSome
  rw [encodeLines, WlHeader.decode, fromUtf8Utf8]
  simp only [String.toList_ofList, linesEnded plain, linesRead fits]
  change (require "Mid" h.mid).bind _ = _
  rw [mid]
  change (require "From" h.sender).bind _ = _
  rw [sender]
  change (if h.recipients.isEmpty then _ else _) = _
  rw [recipients]
  rfl

theorem encodeBytes (h : WlHeader) : h.encode = (h.headerLines.map encoded).flatMap (· ++ [13,10]) ++ [13,10] := by
  have pieces : ∀ ls : List (List Char), encoded (ls.flatMap ended) = (ls.map encoded).flatMap (· ++ [13,10]) := by
    intro ls
    induction ls with
    | nil => rfl
    | cons l ls ih => rw [List.flatMap_cons, encodedAppend, encodedEnded, ih, List.map_cons, List.flatMap_cons]
  rw [encodeLines, FxWire.utf8Encoded, String.toList_ofList, pieces, List.map_append, List.flatMap_append]
  rfl

theorem bodyStart {h : WlHeader} (fits : h.Fits) (body : Bytes) :
    (position sep (h.encode ++ body)).map (· + sep.length) = some h.encode.length := by
  obtain ⟨first,others,whole⟩ := headerFirst h
  have plain : ∀ l ∈ encoded first :: others.map encoded, 13 ∉ l ∧ l ≠ [] := by
    rw [← List.map_cons, ← whole, List.forall_mem_map]
    intro line member
    obtain ⟨calm,some'⟩ := fits.lineCalm member
    exact ⟨calmBytes calm,encodedSome some'⟩
  have found := separatorBehind plain body
  rw [← List.map_cons, ← whole] at found
  rw [encodeBytes, List.append_assoc]
  refine Eq.trans found ?_
  rw [List.length_append]
  rfl

theorem splitMessageEncode {h : WlHeader} (fits : h.Fits) (body : Bytes) : splitMessage (h.encode ++ body) = .ok (h,body) := by
  rw [splitMessage, bodyStart fits]
  simp only [Option.getD_some, List.take_left', List.drop_left', decodeEncode fits]
  rfl

/-- A message is taken apart into what was put together, and no two messages make one blob. -/
theorem messageSplit {h : WlHeader} (fits : h.Fits) (body : Bytes) :
    splitMessage (h.encode ++ body) = .ok (h,body) ∧
    (∀ (h' : WlHeader) (body' : Bytes), h'.Fits → h.encode ++ body = h'.encode ++ body' → h = h' ∧ body = body') ∧
    ∀ (gz : Gzip) (s s' : B2fSession), s.queueMessage gz h body = .ok s' →
      ∃ p, s'.proposals = s.proposals ++ [p] ∧ gz.compress (h.encode ++ body) = .ok p.compressedData := by
  refine ⟨splitMessageEncode fits body,?_,?_⟩
  · intro h' body' fits' same
    have one := splitMessageEncode fits body
    rw [same, splitMessageEncode fits' body'] at one
    obtain ⟨header,rest⟩ := Prod.mk.inj (Except.ok.inj one)
    exact ⟨header.symm,rest.symm⟩
  · intro gz s s' queued
    unfold B2fSession.queueMessage compressGzip at queued
    cases packed : gz.compress (h.encode ++ body) with
    | error e =>
      rw [packed] at queued
      cases queued
    | ok blob =>
      rw [packed] at queued
      cases queued
      exact ⟨_,rfl,rfl⟩

def reportHeader : WlHeader :=
  ⟨"MID1","","W1AW",["N0CALL",""],"two words",120,9,[⟨"a b.txt",7⟩]⟩

theorem messageSplitReport : splitMessage (reportHeader.encode ++ utf8 "Mid: X\r\n\r\nTo:") = .ok (reportHeader,utf8 "Mid: X\r\n\r\nTo:") :=
  (messageSplit (h := reportHeader) {
    mid := printedOf (by decide)
    midSome := by decide
    date := printedOf (by decide)
    sender := printedOf (by decide)
    senderSome := by decide
    recipients := by
      intro addr member
      rcases List.mem_cons.mp member with rfl | later
      · exact printedOf (by decide)
      · obtain rfl := List.mem_singleton.mp later
        exact printedOf (by decide)
    recipientsSome := by decide
    recipientsFew := by decide
    subject := printedOf (by decide)
    attachments := by
      intro att member
      obtain rfl := List.mem_singleton.mp member
      exact ⟨printedOf (by decide),by decide⟩
    attachmentsFew := by decide } _).1

end OpenPulse.B2f
