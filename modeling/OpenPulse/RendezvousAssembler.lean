import OpenPulse.RendezvousCuts

/-! Assembly of an inbound rendezvous over: `openpulse-discovery/src/rendezvous_assembler.rs`.
Frames are bucketed by audio offset. The comparison of two offsets and the word
dictionary of compressed data frames are parameters. -/
namespace OpenPulse.Rendezvous
open Js8
open Words (everyChar)
open B2f (isWhitespace trim)

/-- What the assembler uses of floating point and of the dictionary coder. -/
structure Radio (F : Type) where
  freqMatch : F → F → F → Bool
  jscDecompress : List Bool → List Char

variable {F : Type}

structure RecognizedRendezvous (F : Type) where
  sender : List Char
  grid : Option (List Char)
  msg : RendezvousMsg
  baseFreqHz : F
  deriving DecidableEq

structure PartialOver (F : Type) where
  baseFreqHz : F
  lastSlot : Nat
  sender : Option (List Char × Option (List Char))
  target : Option (List Char)
  text : List Char

def PartialOver.new (baseFreqHz : F) (nowSlot : Nat) : PartialOver F := ⟨baseFreqHz,nowSlot,none,none,[]⟩

structure RendezvousAssembler (F : Type) where
  myCallsign : List Char
  freqTolHz : F
  maxOverSlots : Nat
  partials : List (PartialOver F)

def i3First : UInt8 := 1

def maxTextLen : Nat := 256

def byteLen (text : List Char) : Nat := text.foldr (fun c n => c.utf8Size + n) 0

def toUpper (text : List Char) : List Char := text.map Char.toUpper

/- An empty grid is no grid. -/
def PartialOver.applyFrame (radio : Radio F) (p : PartialOver F) (payload9 : Payload) : PartialOver F :=
  match unpackCompoundFrame payload9 with
  | some cf =>
    match cf.frameType with
    | .compound =>
      if cf.callsign.head? = some '@' then p
      else
        let g := unpackGrid (cf.num &&& 0x7fff).toNat
        { p with sender := some (cf.callsign,if g.isEmpty then none else some g) }
    | .compoundDirected => { p with target := some cf.callsign }
    | _ => p
  | none =>
    match unpackDataMessage radio.jscDecompress payload9 with
    | some t => if byteLen p.text + byteLen t ≤ maxTextLen then { p with text := p.text ++ t } else p
    | none => p

namespace RendezvousAssembler

def new (myCallsign : List Char) (freqTolHz : F) (maxOverSlots : Nat) : RendezvousAssembler F :=
  ⟨toUpper (trim myCallsign),freqTolHz,maxOverSlots,[]⟩

def sweep (a : RendezvousAssembler F) (nowSlot : Nat) : RendezvousAssembler F :=
  { a with partials := a.partials.filter fun p => nowSlot - p.lastSlot ≤ a.maxOverSlots }

def restart (radio : Radio F) (a : RendezvousAssembler F) (i3bit : UInt8) (baseFreqHz : F) : RendezvousAssembler F :=
  if i3bit = i3First then
    { a with partials := a.partials.filter fun p => !radio.freqMatch p.baseFreqHz baseFreqHz a.freqTolHz }
  else a

def tryRecognize (a : RendezvousAssembler F) (p : PartialOver F) : Option (RecognizedRendezvous F) :=
  match p.sender, p.target with
  | some (sender,grid), some target =>
    if toUpper target ≠ toUpper a.myCallsign then none
    else (RendezvousMsg.decode (trim p.text)).map fun msg => ⟨sender,grid,msg,p.baseFreqHz⟩
  | _, _ => none

/- The over at this offset, a new one at the end of the list if there is none. -/
def bucket (radio : Radio F) (a : RendezvousAssembler F) (baseFreqHz : F) (nowSlot : Nat) : Nat × List (PartialOver F) :=
  match a.partials.findIdx? fun p => radio.freqMatch p.baseFreqHz baseFreqHz a.freqTolHz with
  | some i => (i,a.partials)
  | none => (a.partials.length,a.partials ++ [.new baseFreqHz nowSlot])

def ingest (radio : Radio F) (a : RendezvousAssembler F) (payload9 : Payload) (i3bit : UInt8) (baseFreqHz : F) (nowSlot : Nat) :
    Option (RecognizedRendezvous F) × RendezvousAssembler F :=
  let a := (a.sweep nowSlot).restart radio i3bit baseFreqHz
  let (idx,partials) := a.bucket radio baseFreqHz nowSlot
  let p := partials.getD idx (.new baseFreqHz nowSlot)
  let p := { p with lastSlot := nowSlot }.applyFrame radio payload9
  match a.tryRecognize p with
  | some r => (some r,{ a with partials := partials.eraseIdx idx })
  | none => (none,{ a with partials := partials.set idx p })

def feed (radio : Radio F) (baseFreqHz : F) : RendezvousAssembler F → Nat → List BeaconFrame →
    List (Option (RecognizedRendezvous F))
  | _, _, [] => []
  | a, slot, f::fs =>
    let heard := a.ingest radio f.payload f.i3bit baseFreqHz slot
    heard.1 :: feed radio baseFreqHz heard.2 (slot + 1) fs

end RendezvousAssembler

theorem trimPlain {cs : List Char} (plain : ∀ c ∈ cs, isWhitespace c = false) : trim cs = cs := by
  have kept : ∀ {l : List Char}, (∀ c ∈ l, isWhitespace c = false) → l.dropWhile isWhitespace = l := by
    intro l plain
    cases l with
    | nil => rfl
    | cons c l => exact List.dropWhile_cons_of_neg (by simp [plain c (by simp)])
  have back : ∀ c ∈ cs.reverse, isWhitespace c = false := fun c member => plain c (List.mem_reverse.mp member)
  rw [trim, kept plain, B2f.trimEnd, kept back, List.reverse_reverse]

theorem representableSame {callsign : List Char} (representable : Representable callsign) :
    trim callsign = callsign ∧ toUpper callsign = callsign := by
  have every : ∀ c ∈ alphanumeric, c ≠ ' ' → isWhitespace c = false ∧ c.toUpper = c :=
    everyChar (by decide)
  have here := fun c member => every c (representable.chars member).1 (representable.chars member).2
  refine ⟨trimPlain fun c member => (here c member).1,?_⟩
  rw [toUpper, List.map_eq_iff]
  intro i
  cases found : callsign[i]? with
  | none => rfl
  | some c => simp [(here c (List.mem_of_getElem? found)).2]

theorem decodeTrim (text : List Char) : RendezvousMsg.decode (trim text) = RendezvousMsg.decode text := by
  rw [RendezvousMsg.decode, RendezvousMsg.decode, trim, B2f.trimEnd, Words.wordsTrimEnd, Words.wordsDropWhile]

theorem byteLenAppend (left right : List Char) : byteLen (left ++ right) = byteLen left + byteLen right := by
  induction left with
  | nil => simp [byteLen]
  | cons c left ih =>
    have step : ∀ cs, byteLen (c::cs) = c.utf8Size + byteLen cs := fun _ => rfl
    rw [List.cons_append, step, step, ih, Nat.add_assoc]

section Frames

variable {radio : Radio F} {p : PartialOver F} {payload : Payload}

theorem applyPerson {callsign : List Char} {num : UInt16}
    (frame : unpackCompoundFrame payload = some ⟨.compound,callsign,num⟩) (person : callsign.head? ≠ some '@') :
    p.applyFrame radio payload = { p with sender := some (callsign,
      if (unpackGrid (num &&& 0x7fff).toNat).isEmpty then none else some (unpackGrid (num &&& 0x7fff).toNat)) } := by
  simp only [PartialOver.applyFrame, frame, if_neg person]

theorem applySender {callsign : List Char} {num : UInt16}
    (frame : unpackCompoundFrame payload = some ⟨.compound,callsign,num⟩) (person : callsign.head? ≠ some '@') :
    ∃ grid, p.applyFrame radio payload = { p with sender := some (callsign,grid) } := ⟨_,applyPerson frame person⟩

theorem applyGroup {callsign : List Char} {num : UInt16}
    (frame : unpackCompoundFrame payload = some ⟨.compound,callsign,num⟩) (group : callsign.head? = some '@') :
    p.applyFrame radio payload = p := by
  simp only [PartialOver.applyFrame, frame, if_pos group]

theorem applyTarget {callsign : List Char} {num : UInt16}
    (frame : unpackCompoundFrame payload = some ⟨.compoundDirected,callsign,num⟩) :
    p.applyFrame radio payload = { p with target := some callsign } := by
  simp only [PartialOver.applyFrame, frame]

theorem applyData {piece : List Char} (data : Carries radio.jscDecompress payload piece)
    (room : byteLen (p.text ++ piece) ≤ maxTextLen) : p.applyFrame radio payload = { p with text := p.text ++ piece } := by
  rw [byteLenAppend] at room
  simp only [PartialOver.applyFrame, data.1, data.2, if_pos room]

theorem applySlot (slot : Nat) :
    { p with lastSlot := slot }.applyFrame radio payload = { p.applyFrame radio payload with lastSlot := slot } := by
  unfold PartialOver.applyFrame
  repeat' split
  all_goals rfl

theorem freshHalf (f : F) (slot : Nat) : ((PartialOver.new f slot).applyFrame radio payload).sender = none ∨
    ((PartialOver.new f slot).applyFrame radio payload).target = none := by
  unfold PartialOver.applyFrame
  repeat' split
  all_goals first | exact .inl rfl | exact .inr rfl

theorem freshUnrecognized (a : RendezvousAssembler F) (f : F) (slot : Nat) :
    a.tryRecognize ((PartialOver.new f slot).applyFrame radio payload) = none := by
  unfold RendezvousAssembler.tryRecognize
  rcases @freshHalf F radio payload f slot with none' | none'
  · rw [none']
  · rw [none']
    split
    · rename_i known
      cases known
    · rfl

end Frames

section Feeding

variable {radio : Radio F} {f : F} {a : RendezvousAssembler F}

def RendezvousAssembler.settle (a : RendezvousAssembler F) (p : PartialOver F) (others : List (PartialOver F)) :
    Option (RecognizedRendezvous F) × RendezvousAssembler F :=
  match a.tryRecognize p with
  | some r => (some r,{ a with partials := others })
  | none => (none,{ a with partials := others ++ [p] })

theorem settleQuiet {p : PartialOver F} (unrecognized : a.tryRecognize p = none) (others : List (PartialOver F)) :
    a.settle p others = (none,{ a with partials := others ++ [p] }) := by
  rw [RendezvousAssembler.settle, unrecognized]

theorem ingestFirst (empty : a.partials = []) (payload : Payload) (slot : Nat) :
    a.ingest radio payload i3First f slot = a.settle ((PartialOver.new f slot).applyFrame radio payload) [] := by
  cases a with
  | mk me tol max partials =>
    simp only at empty
    subst empty
    rfl

theorem ingestNext {p : PartialOver F} (one : a.partials = [p]) (here : radio.freqMatch p.baseFreqHz f a.freqTolHz = true)
    (payload : Payload) {i3bit : UInt8} (later : i3bit ≠ i3First) {slot : Nat} (recent : slot - p.lastSlot ≤ a.maxOverSlots) :
    a.ingest radio payload i3bit f slot = a.settle ({ p with lastSlot := slot }.applyFrame radio payload) [] := by
  cases a with
  | mk me tol max partials =>
    simp only at one here recent
    subst one
    have swept : (RendezvousAssembler.sweep ⟨me,tol,max,[p]⟩ slot).restart radio i3bit f = ⟨me,tol,max,[p]⟩ := by
      rw [RendezvousAssembler.restart, if_neg later, RendezvousAssembler.sweep, List.filter_cons_of_pos (by simpa using recent),
        List.filter_nil]
    have found : RendezvousAssembler.bucket radio ⟨me,tol,max,[p]⟩ f slot = (0,[p]) := by
      simp [RendezvousAssembler.bucket, here]
    rw [RendezvousAssembler.ingest, swept]
    simp only [found]
    rfl

theorem applyKeeps (p : PartialOver F) (payload : Payload) : (p.applyFrame radio payload).baseFreqHz = p.baseFreqHz ∧
    (p.applyFrame radio payload).lastSlot = p.lastSlot := by
  unfold PartialOver.applyFrame
  repeat' split
  all_goals exact ⟨rfl,rfl⟩

theorem ingestUnmatched {slot : Nat} {i3bit : UInt8}
    (unmatched : ∀ p ∈ ((a.sweep slot).restart radio i3bit f).partials, radio.freqMatch p.baseFreqHz f a.freqTolHz = false)
    (payload : Payload) : a.ingest radio payload i3bit f slot = (none,{ (a.sweep slot).restart radio i3bit f with
      partials := ((a.sweep slot).restart radio i3bit f).partials ++ [(PartialOver.new f slot).applyFrame radio payload] }) := by
  have tolerance : ((a.sweep slot).restart radio i3bit f).freqTolHz = a.freqTolHz := by
    unfold RendezvousAssembler.restart
    split <;> rfl
  rw [RendezvousAssembler.ingest]
  generalize (a.sweep slot).restart radio i3bit f = swept at unmatched tolerance ⊢
  have fresh : swept.bucket radio f slot = (swept.partials.length,swept.partials ++ [.new f slot]) := by
    have none' : (swept.partials.findIdx? fun p => radio.freqMatch p.baseFreqHz f swept.freqTolHz) = none := by
      rw [List.findIdx?_eq_none_iff, tolerance]
      exact unmatched
    rw [RendezvousAssembler.bucket, none']
  have own : (swept.partials ++ [PartialOver.new f slot]).getD swept.partials.length (.new f slot) = .new f slot := by
    simp
  simp only [fresh, own]
  have unrecognized := @freshUnrecognized F radio payload swept f slot
  change (match swept.tryRecognize ((PartialOver.new f slot).applyFrame radio payload) with
    | some r => _
    | none => _) = _
  rw [unrecognized]
  simp
  rfl

def Behind (f : F) (slot : Nat) (a : RendezvousAssembler F) : Prop :=
  ∀ p ∈ a.partials, p.baseFreqHz = f ∧ p.lastSlot < slot

theorem ingestLost {slot : Nat} (bad : radio.freqMatch f f a.freqTolHz = false ∨ a.maxOverSlots = 0)
    (behind : Behind f slot a) (payload : Payload) (i3bit : UInt8) :
    (a.ingest radio payload i3bit f slot).1 = none ∧ (a.ingest radio payload i3bit f slot).2.freqTolHz = a.freqTolHz ∧
      (a.ingest radio payload i3bit f slot).2.maxOverSlots = a.maxOverSlots ∧
      Behind f (slot + 1) (a.ingest radio payload i3bit f slot).2 := by
  have part : ∀ p ∈ ((a.sweep slot).restart radio i3bit f).partials, p ∈ (a.sweep slot).partials := by
    unfold RendezvousAssembler.restart
    intro p member
    split at member
    · exact List.mem_of_mem_filter member
    · exact member
  have unmatched : ∀ p ∈ ((a.sweep slot).restart radio i3bit f).partials,
      radio.freqMatch p.baseFreqHz f a.freqTolHz = false := by
    intro p member
    obtain ⟨known,recent⟩ := List.mem_filter.mp (part p member)
    obtain ⟨same,old⟩ := behind p known
    rcases bad with apart | zero
    · rw [same]
      exact apart
    · rw [zero, decide_eq_true_eq] at recent
      omega
  rw [ingestUnmatched unmatched]
  refine ⟨rfl,?_,?_,?_⟩
  · show ((a.sweep slot).restart radio i3bit f).freqTolHz = _
    unfold RendezvousAssembler.restart
    split <;> rfl
  · show ((a.sweep slot).restart radio i3bit f).maxOverSlots = _
    unfold RendezvousAssembler.restart
    split <;> rfl
  · intro p member
    rcases List.mem_append.mp member with old | new
    · obtain ⟨same,before⟩ := behind p (List.mem_filter.mp (part p old)).1
      exact ⟨same,by omega⟩
    · obtain ⟨base,slotSame⟩ := @applyKeeps F radio (PartialOver.new f slot) payload
      rw [List.mem_singleton.mp new, base, slotSame]
      exact ⟨rfl,Nat.lt_succ_self slot⟩

theorem feedLost {slot : Nat} (bad : radio.freqMatch f f a.freqTolHz = false ∨ a.maxOverSlots = 0)
    (behind : Behind f slot a) (frames : List BeaconFrame) : ∀ o ∈ a.feed radio f slot frames, o = none := by
  induction frames generalizing a slot with
  | nil => simp [RendezvousAssembler.feed]
  | cons frame frames ih =>
    obtain ⟨unheard,tolerance,slots,after⟩ := ingestLost bad behind frame.payload frame.i3bit
    intro o member
    rcases List.mem_cons.mp member with rfl | later
    · exact unheard
    · exact ih (by rw [tolerance, slots]; exact bad) after o later

/-- Exactly one recognition, at the last frame. -/
def LastOnly (sender : List Char) (msg : RendezvousMsg) (outs : List (Option (RecognizedRendezvous F))) : Prop :=
  ∃ before r, outs = before ++ [some r] ∧ (∀ o ∈ before, o = none) ∧ r.sender = sender ∧ r.msg = msg

variable {sender : List Char} {msg : RendezvousMsg}

theorem lastOnlyHeard {outs : List (Option (RecognizedRendezvous F))} (last : LastOnly sender msg outs) :
    ¬ ∀ o ∈ outs, o = none := by
  obtain ⟨before,r,rfl,-,-,-⟩ := last
  intro none'
  cases none' (some r) (by simp)

theorem lastOnlyOne {o : Option (RecognizedRendezvous F)} :
    LastOnly sender msg [o] ↔ ∃ r, o = some r ∧ r.sender = sender ∧ r.msg = msg := by
  constructor
  · rintro ⟨before,r,outs,-,who,what⟩
    have alone : before = [] := by
      cases before with
      | nil => rfl
      | cons _ _ => simp at outs
    subst alone
    exact ⟨r,by simpa using outs,who,what⟩
  · rintro ⟨r,rfl,who,what⟩
    exact ⟨[],r,rfl,by simp,who,what⟩

theorem lastOnlyCons {o : Option (RecognizedRendezvous F)} {outs : List (Option (RecognizedRendezvous F))} (some' : outs ≠ []) :
    LastOnly sender msg (o::outs) ↔ o = none ∧ LastOnly sender msg outs := by
  constructor
  · rintro ⟨before,r,whole,quiet,rest⟩
    cases before with
    | nil => exact absurd (List.cons.inj whole).2 some'
    | cons p before =>
      obtain ⟨rfl,tails⟩ := List.cons.inj whole
      exact ⟨quiet o (by simp),before,r,tails,fun p member => quiet p (List.mem_cons_of_mem o member),rest⟩
  · rintro ⟨rfl,before,r,rfl,quiet,rest⟩
    refine ⟨none::before,r,rfl,?_,rest⟩
    intro o member
    rcases List.mem_cons.mp member with rfl | later
    · rfl
    · exact quiet o later

theorem feedNonempty (a : RendezvousAssembler F) (slot : Nat) {frames : List BeaconFrame} (some' : frames ≠ []) :
    a.feed radio f slot frames ≠ [] := by
  cases frames with
  | nil => exact absurd rfl some'
  | cons _ _ => simp [RendezvousAssembler.feed]

structure Listening (radio : Radio F) (f : F) (sender me : List Char) (a : RendezvousAssembler F) (p : PartialOver F)
    (slot : Nat) : Prop where
  one : a.partials = [p]
  base : p.baseFreqHz = f
  here : radio.freqMatch f f a.freqTolHz = true
  slots : 1 ≤ a.maxOverSlots
  recent : p.lastSlot + 1 = slot
  ours : toUpper me = toUpper a.myCallsign
  target : p.target = some me
  known : ∃ grid, p.sender = some (sender,grid)

theorem Listening.recognizes {me : List Char} {p : PartialOver F} {slot : Nat} (listening : Listening radio f sender me a p slot) :
    (∃ r, a.tryRecognize p = some r ∧ r.sender = sender ∧ RendezvousMsg.decode p.text = some r.msg) ∨
      (a.tryRecognize p = none ∧ RendezvousMsg.decode p.text = none) := by
  obtain ⟨grid,known⟩ := listening.known
  unfold RendezvousAssembler.tryRecognize
  rw [known, listening.target]
  simp only [listening.ours, ne_eq, not_true_eq_false, if_false, decodeTrim]
  cases RendezvousMsg.decode p.text with
  | none => exact .inr ⟨rfl,rfl⟩
  | some m => exact .inl ⟨_,rfl,rfl,rfl⟩

def PartialOver.grown (p : PartialOver F) (slot : Nat) (piece : List Char) : PartialOver F :=
  { p with lastSlot := slot, text := p.text ++ piece }

theorem Listening.grows {me : List Char} {p : PartialOver F} {slot : Nat} (listening : Listening radio f sender me a p slot)
    (piece : List Char) :
    Listening radio f sender me { a with partials := [p.grown slot piece] } (p.grown slot piece) (slot + 1) where
  one := rfl
  base := listening.base
  here := listening.here
  slots := listening.slots
  recent := rfl
  ours := listening.ours
  target := listening.target
  known := listening.known

theorem Listening.hears {me : List Char} {p : PartialOver F} {slot : Nat} (listening : Listening radio f sender me a p slot)
    {frame : BeaconFrame} (later : frame.i3bit ≠ i3First) {piece : List Char}
    (data : Carries radio.jscDecompress frame.payload piece) (room : byteLen (p.text ++ piece) ≤ maxTextLen) :
    (∃ r b, a.ingest radio frame.payload frame.i3bit f slot = (some r,b) ∧ r.sender = sender ∧
      RendezvousMsg.decode (p.text ++ piece) = some r.msg) ∨
    (a.ingest radio frame.payload frame.i3bit f slot = (none,{ a with partials := [p.grown slot piece] }) ∧
      RendezvousMsg.decode (p.text ++ piece) = none) := by
  have slots := listening.slots
  have recent := listening.recent
  have grown : { p with lastSlot := slot }.applyFrame radio frame.payload = p.grown slot piece :=
    @applyData F radio { p with lastSlot := slot } frame.payload piece data room
  rw [ingestNext listening.one (listening.base ▸ listening.here) frame.payload later (by omega), grown]
  rcases (listening.grows piece).recognizes with ⟨r,recognized,who,read⟩ | ⟨unrecognized,read⟩
  · have recognized : a.tryRecognize (p.grown slot piece) = some r := recognized
    rw [RendezvousAssembler.settle, recognized]
    exact .inl ⟨r,_,rfl,who,read⟩
  · exact .inr ⟨settleQuiet unrecognized [],read⟩

theorem feedData {me : List Char} {p : PartialOver F} {slot : Nat} (listening : Listening radio f sender me a p slot)
    {frames : List BeaconFrame} {pieces : List (List Char)}
    (carry : List.Forall₂ (Carries radio.jscDecompress) (frames.map BeaconFrame.payload) pieces)
    (later : ∀ frame ∈ frames, frame.i3bit ≠ i3First) (room : byteLen (p.text ++ pieces.flatten) ≤ maxTextLen)
    (some' : pieces ≠ []) :
    LastOnly sender msg (a.feed radio f slot frames) ↔
      (∀ heard rest, pieces = heard ++ rest → heard ≠ [] → rest ≠ [] → RendezvousMsg.decode (p.text ++ heard.flatten) = none) ∧
        RendezvousMsg.decode (p.text ++ pieces.flatten) = some msg := by
  induction pieces generalizing frames a p slot with
  | nil => exact absurd rfl some'
  | cons piece pieces ih =>
    cases frames with
    | nil => cases carry
    | cons frame frames =>
      obtain ⟨data,rest⟩ := List.forall₂_cons.mp carry
      have space : byteLen (p.text ++ piece) ≤ maxTextLen := by
        rw [List.flatten_cons, ← List.append_assoc, byteLenAppend] at room
        omega
      have heard := listening.hears (later frame (by simp)) data space
      rw [RendezvousAssembler.feed]
      cases pieces with
      | nil =>
        -- the last frame
        have frameless : frames = [] := by simpa using rest
        have vacuous : ∀ heard rest, [piece] = heard ++ rest → heard ≠ [] → rest ≠ [] →
            RendezvousMsg.decode (p.text ++ heard.flatten) = none := by
          intro heard rest split some' more
          match heard, rest, split, some', more with
          | _::heard, _::rest, split, _, _ => simp at split
        rw [frameless, iff_true_intro vacuous, true_and, List.flatten_singleton]
        rcases heard with ⟨r,b,call,who,read⟩ | ⟨call,read⟩
        · simp [call, read, RendezvousAssembler.feed, lastOnlyOne, who]
        · simp [call, read, RendezvousAssembler.feed, lastOnlyOne]
      | cons next pieces =>
        have more : frames ≠ [] := by
          rintro rfl
          cases rest
        rw [lastOnlyCons (feedNonempty _ _ more)]
        rcases heard with ⟨r,b,call,who,read⟩ | ⟨call,read⟩
        · simp only [call, reduceCtorEq, false_and, false_iff, not_and]
          intro quiet
          have unread := quiet [piece] (next::pieces) rfl (by simp) (by simp)
          rw [List.flatten_singleton, read] at unread
          cases unread
        · have tail := @ih _ (p.grown slot piece) (slot + 1) (listening.grows piece) frames rest
            (fun g member => later g (List.mem_cons_of_mem _ member))
            (by rw [PartialOver.grown, List.append_assoc]; exact room) (by simp)
          simp only [call, true_and]
          rw [tail, PartialOver.grown]
          simp only [List.append_assoc, List.flatten_cons]
          refine and_congr_left' ⟨?_,?_⟩
          · intro quiet heard rest split some' more
            obtain ⟨_,heard,rfl⟩ := List.exists_cons_of_ne_nil some'
            obtain ⟨rfl,tails⟩ := List.cons.inj split
            cases heard with
            | nil => simpa using read
            | cons h heard => exact quiet (h::heard) rest tails (by simp) more
          · intro quiet heard rest split some' more
            exact quiet (piece::heard) rest (by rw [split]; rfl) (by simp) more

theorem feedQuiet {me : List Char} {p : PartialOver F} {slot : Nat} (listening : Listening radio f sender me a p slot)
    {frames : List BeaconFrame} {pieces : List (List Char)}
    (carry : List.Forall₂ (Carries radio.jscDecompress) (frames.map BeaconFrame.payload) pieces)
    (later : ∀ frame ∈ frames, frame.i3bit ≠ i3First) (room : byteLen (p.text ++ pieces.flatten) ≤ maxTextLen)
    (quiet : ∀ text, text <+: p.text ++ pieces.flatten → RendezvousMsg.decode text = none) :
    ∀ o ∈ a.feed radio f slot frames, o = none := by
  induction pieces generalizing frames a p slot with
  | nil =>
    have frameless : frames = [] := by simpa using carry
    simp [frameless, RendezvousAssembler.feed]
  | cons piece pieces ih =>
    cases frames with
    | nil => cases carry
    | cons frame frames =>
      obtain ⟨data,rest⟩ := List.forall₂_cons.mp carry
      rw [List.flatten_cons, ← List.append_assoc] at room quiet
      have space : byteLen (p.text ++ piece) ≤ maxTextLen := by
        rw [byteLenAppend] at room
        omega
      rcases listening.hears (later frame (by simp)) data space with ⟨r,b,call,who,read⟩ | ⟨call,read⟩
      · rw [quiet _ (List.prefix_append _ _)] at read
        cases read
      · have tail := ih (listening.grows piece) rest (fun g member => later g (List.mem_cons_of_mem _ member)) room quiet
        rw [RendezvousAssembler.feed, call]
        intro o member
        rcases List.mem_cons.mp member with rfl | inside
        · rfl
        · exact tail o inside

end Feeding

end OpenPulse.Rendezvous
