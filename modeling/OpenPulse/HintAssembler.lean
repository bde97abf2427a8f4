import Mathlib.Data.List.ReduceOption
import OpenPulse.Buckets
import OpenPulse.Hint

/-! Assembly of an inbound capability hint: `openpulse-discovery/src/hint_assembler.rs`.
An over in progress is kept as in the rendezvous assembler, with the group it is meant
for as its target. Frames of other stations may come in between. -/
namespace OpenPulse.Hint
open Js8 Buckets
open Rendezvous

variable {F : Type}

structure RecognizedHint (F : Type) where
  callsign : List Char
  grid : Option (List Char)
  hint : HintPayload
  baseFreqHz : F
  deriving DecidableEq

structure HintAssembler (F : Type) where
  freqTolHz : F
  maxOverSlots : Nat
  partials : List (PartialOver F)

def groupName (target : List Char) : List Char := if target.head? = some '@' then target.tail else target

def tryRecognize (p : PartialOver F) : Option (RecognizedHint F) :=
  match p.sender, p.target with
  | some (callsign,grid), some target =>
    if toUpper (groupName target) ≠ toUpper opulseGroup then none
    else (decodeHint p.text callsign).map fun hint => ⟨callsign,grid,hint,p.baseFreqHz⟩
  | _, _ => none

structure Heard (F : Type) where
  frame : BeaconFrame
  baseFreqHz : F
  slot : Nat

def near (radio : Radio F) (tol f : F) (p : PartialOver F) : Bool := radio.freqMatch p.baseFreqHz f tol

namespace HintAssembler

def new (freqTolHz : F) (maxOverSlots : Nat) : HintAssembler F := ⟨freqTolHz,maxOverSlots,[]⟩

def sweep (a : HintAssembler F) (nowSlot : Nat) : HintAssembler F :=
  { a with partials := a.partials.filter fun p => nowSlot - p.lastSlot ≤ a.maxOverSlots }

/- The first frame of an over drops what is left at its offset. -/
def restart (radio : Radio F) (a : HintAssembler F) (i3bit : UInt8) (baseFreqHz : F) : HintAssembler F :=
  if i3bit = i3First then
    { a with partials := a.partials.filter fun p => !near radio a.freqTolHz baseFreqHz p }
  else a

def ingest (radio : Radio F) (a : HintAssembler F) (payload9 : Payload) (i3bit : UInt8) (baseFreqHz : F) (nowSlot : Nat) :
    Option (RecognizedHint F) × HintAssembler F :=
  let a := (a.sweep nowSlot).restart radio i3bit baseFreqHz
  let (idx,partials) := bucket (near radio a.freqTolHz baseFreqHz) (.new baseFreqHz nowSlot) a.partials
  let p := partials.getD idx (.new baseFreqHz nowSlot)
  let p := { p with lastSlot := nowSlot }.applyFrame radio payload9
  match tryRecognize p with
  | some r => (some r,{ a with partials := partials.eraseIdx idx })
  | none => (none,{ a with partials := partials.set idx p })

def hear (radio : Radio F) (a : HintAssembler F) (h : Heard F) : Option (RecognizedHint F) × HintAssembler F :=
  a.ingest radio h.frame.payload h.frame.i3bit h.baseFreqHz h.slot

def feed (radio : Radio F) : HintAssembler F → List (Heard F) → List (Option (RecognizedHint F))
  | _, [] => []
  | a, h::heard => (a.hear radio h).1 :: feed radio (a.hear radio h).2 heard

def atOffset (radio : Radio F) (f : F) (a : HintAssembler F) : List (PartialOver F) :=
  a.partials.filter (near radio a.freqTolHz f)

def recent (a : HintAssembler F) (slot : Nat) (p : PartialOver F) : Bool := slot - p.lastSlot ≤ a.maxOverSlots

end HintAssembler

section Step

variable {radio : Radio F} {f : F} {a : HintAssembler F}

def followed (radio : Radio F) (h : Heard F) (p : PartialOver F) : PartialOver F :=
  { p with lastSlot := h.slot }.applyFrame radio h.frame.payload

def remains (p : PartialOver F) : List (PartialOver F) := if (tryRecognize p).isSome then [] else [p]

theorem followedBase (h : Heard F) (p : PartialOver F) : (followed radio h p).baseFreqHz = p.baseFreqHz :=
  applyKeeps _ _ |>.1

theorem recognizedBase {p : PartialOver F} {r : RecognizedHint F} (recognized : tryRecognize p = some r) :
    r.baseFreqHz = p.baseFreqHz := by
  unfold tryRecognize at recognized
  split at recognized
  · split at recognized
    · cases recognized
    · obtain ⟨hint,-,rfl⟩ := Option.map_eq_some_iff.mp recognized
      rfl
  · cases recognized

theorem senderlessUntold {p : PartialOver F} (senderless : p.sender = none) : tryRecognize p = none := by
  unfold tryRecognize
  rw [senderless]

theorem targetlessUntold {p : PartialOver F} (targetless : p.target = none) : tryRecognize p = none := by
  unfold tryRecognize
  rw [targetless]
  split
  · rename_i known
    cases known
  · rfl

theorem restartFields (i3bit : UInt8) (g : F) : (a.restart radio i3bit g).freqTolHz = a.freqTolHz ∧
    (a.restart radio i3bit g).maxOverSlots = a.maxOverSlots := by
  unfold HintAssembler.restart
  split <;> exact ⟨rfl,rfl⟩

theorem hearChosen (radio : Radio F) (a : HintAssembler F) (h : Heard F) : ∃ before p after,
    Chosen (near radio a.freqTolHz h.baseFreqHz) (.new h.baseFreqHz h.slot)
      ((a.sweep h.slot).restart radio h.frame.i3bit h.baseFreqHz).partials before p after ∧
    a.hear radio h = (tryRecognize (followed radio h p),
      { a with partials := before ++ (remains (followed radio h p) ++ after) }) := by
  obtain ⟨tolerance,slots⟩ := @restartFields F radio (a.sweep h.slot) h.frame.i3bit h.baseFreqHz
  rw [HintAssembler.hear, HintAssembler.ingest]
  generalize (a.sweep h.slot).restart radio h.frame.i3bit h.baseFreqHz = b at tolerance slots ⊢
  obtain ⟨before,p,after,found,chosen⟩ := bucketChosen
    (near radio a.freqTolHz h.baseFreqHz) (.new h.baseFreqHz h.slot) b.partials
  refine ⟨before,p,after,chosen,?_⟩
  have tolerance : b.freqTolHz = a.freqTolHz := tolerance
  have slots : b.maxOverSlots = a.maxOverSlots := slots
  have mid : (before ++ p::after).getD before.length (.new h.baseFreqHz h.slot) = p := by simp
  have erased : (before ++ p::after).eraseIdx before.length = before ++ after := by
    rw [List.eraseIdx_append_of_length_le (Nat.le_refl _), Nat.sub_self, List.eraseIdx_cons_zero]
  have put : ∀ q, (before ++ p::after).set before.length q = before ++ q::after := by
    intro q
    rw [List.set_append_right _ _ (Nat.le_refl _), Nat.sub_self, List.set_cons_zero]
  simp only [tolerance, slots, found, mid, erased, put, remains]
  rw [← followed]
  cases recognized : tryRecognize (followed radio h p) with
  | none => rfl
  | some r => rfl

theorem hearKeeps (radio : Radio F) (a : HintAssembler F) (h : Heard F) :
    (a.hear radio h).2.freqTolHz = a.freqTolHz ∧ (a.hear radio h).2.maxOverSlots = a.maxOverSlots := by
  obtain ⟨_,_,_,-,heard⟩ := hearChosen radio a h
  rw [heard]
  exact ⟨rfl,rfl⟩

def found (radio : Radio F) (a : HintAssembler F) (f : F) (h : Heard F) : List (PartialOver F) :=
  if h.frame.i3bit = i3First then [] else (a.atOffset radio f).filter (a.recent h.slot)

theorem sweptOne (a : HintAssembler F) (slot : Nat) (p : PartialOver F) :
    [p].filter (a.recent slot) = if slot - p.lastSlot ≤ a.maxOverSlots then [p] else [] := by
  rw [List.filter_cons, List.filter_nil]
  simp only [HintAssembler.recent, decide_eq_true_eq]

theorem restartOwn (radio : Radio F) (a : HintAssembler F) (h : Heard F) :
    ((a.sweep h.slot).restart radio h.frame.i3bit h.baseFreqHz).partials.filter
      (near radio a.freqTolHz h.baseFreqHz) = found radio a h.baseFreqHz h := by
  unfold HintAssembler.restart found
  split
  · rw [List.filter_filter, List.filter_eq_nil_iff]
    intro p _
    have same : near radio (a.sweep h.slot).freqTolHz h.baseFreqHz p = near radio a.freqTolHz h.baseFreqHz p := rfl
    simp [same]
  · rw [HintAssembler.sweep, HintAssembler.atOffset, List.filter_filter, List.filter_filter]
    refine List.filter_congr fun p _ => ?_
    rw [Bool.and_comm]
    rfl

theorem restartForeign {h : Heard F} (apart : radio.freqMatch f h.baseFreqHz a.freqTolHz = false)
    (own : ∀ p ∈ a.atOffset radio f, p.baseFreqHz = f) :
    ((a.sweep h.slot).restart radio h.frame.i3bit h.baseFreqHz).partials.filter
      (near radio a.freqTolHz f) = (a.atOffset radio f).filter (a.recent h.slot) := by
  have swept : (a.sweep h.slot).partials.filter (near radio a.freqTolHz f) =
      (a.atOffset radio f).filter (a.recent h.slot) := by
    rw [HintAssembler.sweep, HintAssembler.atOffset, List.filter_filter, List.filter_filter]
    refine List.filter_congr fun p _ => ?_
    rw [Bool.and_comm]
    rfl
  unfold HintAssembler.restart
  split
  · rw [← swept, List.filter_filter]
    refine List.filter_congr fun p member => ?_
    cases here : near radio a.freqTolHz f p with
    | false => rfl
    | true =>
      have base : p.baseFreqHz = f := own p (List.mem_filter.mpr ⟨List.mem_of_mem_filter member,here⟩)
      have away : near radio (a.sweep h.slot).freqTolHz h.baseFreqHz p = false := by
        rw [near, base]
        exact apart
      rw [away]
      rfl
  · exact swept

theorem hearOwn {h : Heard F} (same : radio.freqMatch h.baseFreqHz h.baseFreqHz a.freqTolHz = true) :
    let p := followed radio h (((found radio a h.baseFreqHz h).head?).getD (.new h.baseFreqHz h.slot))
    (a.hear radio h).1 = tryRecognize p ∧
      (a.hear radio h).2.atOffset radio h.baseFreqHz = remains p ++ (found radio a h.baseFreqHz h).tail := by
  obtain ⟨before,p,after,chosen,heard⟩ := hearChosen radio a h
  obtain ⟨passed,first,behind⟩ := chosen.own
  rw [restartOwn] at first behind
  have here : near radio a.freqTolHz h.baseFreqHz (followed radio h p) = true := by
    rw [near, followedBase]
    rcases chosen.choice with ⟨-,match'⟩ | new
    · exact match'
    · rw [new]
      exact same
  have stays : (remains (followed radio h p)).filter (near radio a.freqTolHz h.baseFreqHz) =
      remains (followed radio h p) := by
    unfold remains
    split
    · rfl
    · rw [List.filter_cons_of_pos here, List.filter_nil]
  rw [← first, heard]
  refine ⟨rfl,?_⟩
  rw [HintAssembler.atOffset, List.filter_append, List.filter_append, passed, stays, behind, List.nil_append]

def Mute (f : F) (p : PartialOver F) : Prop := p.baseFreqHz = f ∧ p.sender = none

theorem hearMute {h : Heard F} (same : radio.freqMatch h.baseFreqHz h.baseFreqHz a.freqTolHz = true)
    (unsent : Unsent radio h.frame.payload) (mute : ∀ p ∈ found radio a h.baseFreqHz h, Mute h.baseFreqHz p) :
    (a.hear radio h).1 = none ∧ ∀ p ∈ (a.hear radio h).2.atOffset radio h.baseFreqHz, Mute h.baseFreqHz p := by
  obtain ⟨out,left⟩ := hearOwn same
  generalize chosen : ((found radio a h.baseFreqHz h).head?).getD (.new h.baseFreqHz h.slot) = p at out left
  have before : Mute h.baseFreqHz p := by
    cases first : (found radio a h.baseFreqHz h).head? with
    | none =>
      rw [first, Option.getD_none] at chosen
      rw [← chosen]
      exact ⟨rfl,rfl⟩
    | some q =>
      rw [first, Option.getD_some] at chosen
      exact chosen ▸ mute q (List.mem_of_mem_head? first)
  have after : Mute h.baseFreqHz (followed radio h p) := ⟨(followedBase h p).trans before.1,(unsent _).trans before.2⟩
  have unrecognized := senderlessUntold after.2
  refine ⟨out.trans unrecognized,fun q member => ?_⟩
  rw [left, remains, unrecognized] at member
  rcases List.mem_cons.mp member with rfl | rest
  · exact after
  · exact mute q (List.mem_of_mem_tail rest)

theorem foundPart (radio : Radio F) (a : HintAssembler F) (f : F) (h : Heard F) :
    ∀ p ∈ found radio a f h, p ∈ a.atOffset radio f := by
  unfold found
  intro p member
  split at member
  · cases member
  · exact List.mem_of_mem_filter member

theorem hearForeign {h : Heard F} (away : radio.freqMatch h.baseFreqHz f a.freqTolHz = false)
    (apart : radio.freqMatch f h.baseFreqHz a.freqTolHz = false) (own : ∀ p ∈ a.atOffset radio f, p.baseFreqHz = f) :
    (a.hear radio h).2.atOffset radio f = (a.atOffset radio f).filter (a.recent h.slot) := by
  obtain ⟨before,p,after,chosen,heard⟩ := hearChosen radio a h
  have elsewhere : near radio a.freqTolHz f p = false := by
    rcases chosen.choice with ⟨member,match'⟩ | new
    · rw [Bool.eq_false_iff]
      intro here
      have kept := List.mem_filter.mpr ⟨member,here⟩
      rw [restartForeign apart own] at kept
      rw [near, own p (List.mem_of_mem_filter kept), apart] at match'
      cases match'
    · rw [new]
      exact away
  have none' : (remains (followed radio h p)).filter (near radio a.freqTolHz f) = [] := by
    unfold remains
    split
    · rfl
    · rw [List.filter_cons_of_neg (by rw [near, followedBase, ← near, elsewhere]; simp), List.filter_nil]
  rw [heard, HintAssembler.atOffset, List.filter_append, List.filter_append, none', List.nil_append, ← restartForeign apart own]
  exact chosen.foreign elsewhere

theorem foreignRecognized {h : Heard F} (away : h.baseFreqHz ≠ f) (apart : radio.freqMatch f h.baseFreqHz a.freqTolHz = false)
    {r : RecognizedHint F} (recognized : (a.hear radio h).1 = some r) : r.baseFreqHz ≠ f := by
  obtain ⟨before,p,after,chosen,heard⟩ := hearChosen radio a h
  rw [heard] at recognized
  rw [recognizedBase recognized, followedBase]
  rcases chosen.choice with ⟨-,match'⟩ | new
  · rintro rfl
    rw [near, apart] at match'
    cases match'
  · rw [new]
    exact away

theorem freshUntold (h : Heard F) (f : F) : tryRecognize (followed radio h (.new f h.slot)) = none := by
  rcases @freshHalf F radio h.frame.payload f h.slot with none' | none'
  · exact senderlessUntold none'
  · exact targetlessUntold none'

end Step

section Over

variable {radio : Radio F}

def told (radio : Radio F) (p : PartialOver F) (frames : List BeaconFrame) : PartialOver F :=
  frames.foldl (fun p frame => p.applyFrame radio frame.payload) p

theorem toldSlot (p : PartialOver F) (slot : Nat) (frames : List BeaconFrame) :
    told radio { p with lastSlot := slot } frames = { told radio p frames with lastSlot := slot } := by
  induction frames generalizing p with
  | nil => rfl
  | cons frame frames ih =>
    show told radio ({ p with lastSlot := slot }.applyFrame radio frame.payload) frames = _
    rw [applySlot, ih]
    rfl

structure Awaits (radio : Radio F) (p : PartialOver F) (frames : List BeaconFrame) (r : RecognizedHint F) : Prop where
  some' : frames ≠ []
  later : ∀ frame ∈ frames, frame.i3bit ≠ i3First
  unsent : ∀ frame ∈ frames, Unsent radio frame.payload
  quiet : ∀ before after, frames = before ++ after → before ≠ [] → after ≠ [] → tryRecognize (told radio p before) = none
  whole : tryRecognize (told radio p frames) = some r

theorem Awaits.next {p : PartialOver F} {h : Heard F} {frame : BeaconFrame} {rest : List BeaconFrame} {r : RecognizedHint F}
    (awaits : Awaits radio p (h.frame::frame::rest) r) : tryRecognize (followed radio h p) = none ∧
      Awaits radio (followed radio h p) (frame::rest) r := by
  have same : ∀ frames, tryRecognize (told radio (followed radio h p) frames) = tryRecognize (told radio p (h.frame::frames)) := by
    intro frames
    rw [followed, applySlot, toldSlot]
    rfl
  refine ⟨?_,by simp,fun g member => awaits.later g (List.mem_cons_of_mem _ member),
    fun g member => awaits.unsent g (List.mem_cons_of_mem _ member),?_,?_⟩
  · rw [← awaits.quiet [h.frame] (frame::rest) rfl (by simp) (by simp), ← same []]
    rfl
  · intro before after split some' more
    rw [same]
    exact awaits.quiet (h.frame::before) after (by rw [split]; rfl) (by simp) more
  · rw [same]
    exact awaits.whole

end Over

end OpenPulse.Hint
