import OpenPulse.HintAssembler

/-! The capability hint from the sender's frames to the recognition at the other end:
`plugins/js8/src/beacon.rs` into `openpulse-discovery/src/hint_assembler.rs`, with the
frames of other stations in between. -/
namespace OpenPulse.Hint
open ByteCodec Js8
open Rendezvous
open B2f (isWhitespace trim)

def gridLetter (c : Char) : Bool := 'A' ≤ c && c ≤ 'R'

def validGrid : List Char → Bool
  | [lon,lat,east,north] => gridLetter lon && gridLetter lat && east.isDigit && north.isDigit
  | _ => false

theorem gridLetterPlace {c : Char} (letter : gridLetter c = true) : Plain c ∧ ∃ k < 18, c.toNat = 65 + k := by
  have bounds : ('A' ≤ c) ∧ c ≤ 'R' := by simpa [gridLetter] using letter
  have low : 65 ≤ c.toNat := UInt32.le_iff_toNat_le.mp bounds.1
  have high : c.toNat ≤ 82 := UInt32.le_iff_toNat_le.mp bounds.2
  have upper : c.isUpper = true := by
    have top : c.val ≤ 90 := UInt32.le_iff_toNat_le.mpr (Nat.le_trans high (by decide))
    exact decide_eq_true ⟨bounds.1,top⟩
  exact ⟨by simp [Plain, upper],c.toNat - 65,by omega,by omega⟩

theorem digitPlace {c : Char} (digit : c.isDigit = true) : ∃ k < 10, c.toNat = 48 + k := by
  have bounds := Bool.and_eq_true_iff.mp digit
  have low : 48 ≤ c.toNat := UInt32.le_iff_toNat_le.mp (of_decide_eq_true bounds.1)
  have high : c.toNat ≤ 57 := UInt32.le_iff_toNat_le.mp (of_decide_eq_true bounds.2)
  exact ⟨c.toNat - 48,by omega,by omega⟩

theorem plainUtf8 {cs : List Char} (plain : ∀ c ∈ cs, Plain c) :
    utf8 (String.ofList cs) = cs.map Char.toUInt8 := by
  rw [utf8, String.toUTF8_eq_toByteArray, String.toByteArray_ofList]
  induction cs with
  | nil => rfl
  | cons c cs ih =>
    have size := plainByte (plain c (by simp))
    have rest := ih fun d member => plain d (List.mem_cons_of_mem c member)
    rw [List.utf8Encode_cons, ByteArray.data_append, Array.toList_append, rest, List.utf8Encode_singleton,
      String.utf8EncodeChar_eq_singleton size]
    rfl

theorem plainHead {cs : List Char} (plain : ∀ c ∈ cs, Plain c) : byteHead cs.length cs = some cs := by
  induction cs with
  | nil => rfl
  | cons c cs ih =>
    have size := plainByte (plain c (by simp))
    have rest := ih fun d member => plain d (List.mem_cons_of_mem c member)
    rw [List.length_cons, byteHead, size, if_pos (by omega), Nat.add_sub_cancel, rest]
    rfl

theorem columnPacked {a c : Nat} (letter : a < 18) (digit : c < 10) :
    ((24 * (180 - 20 * (((65 + a : Nat) : Int) - 65) - 2 * (((48 + c : Nat) : Int) - 48)) - 25).tdiv 24 + 180).tdiv 2 =
      ((179 - 10 * a - c : Nat) : Int) := by
  have sign24 : Int.sign 24 = 1 := rfl
  have sign2 : Int.sign 2 = 1 := rfl
  simp only [Int.tdiv_eq_ediv, sign24, sign2]
  split_ifs <;> omega

theorem rowPacked {b d : Nat} : (48 * (-90 + 10 * (((65 + b : Nat) : Int) - 65) + (((48 + d : Nat) : Int) - 48) + 90) + 25).tdiv 48 =
    ((10 * b + d : Nat) : Int) := by
  rw [Int.tdiv_eq_ediv_of_nonneg (by omega)]
  omega

theorem gridPacked {a b c d : Nat} {lon lat east north : Char} (letters : Plain lon ∧ Plain lat) (digits : Plain east ∧ Plain north)
    (lonPlace : lon.toNat = 65 + a) (latPlace : lat.toNat = 65 + b) (eastPlace : east.toNat = 48 + c)
    (northPlace : north.toNat = 48 + d) (small : a < 18 ∧ b < 18 ∧ c < 10 ∧ d < 10) :
    packGrid [lon,lat,east,north] = some (UInt16.ofNat ((179 - 10 * a - c) * 180 + (10 * b + d))) := by
  have plain : ∀ x ∈ [lon,lat,east,north], Plain x := by simp [letters, digits]
  have bare : trim [lon,lat,east,north] = [lon,lat,east,north] := trimPlain fun x member => (plainFacts (plain x member)).1
  have upper : [lon,lat,east,north].map Char.toUpper = [lon,lat,east,north] := by
    simp [(plainFacts letters.1).2.2.2, (plainFacts letters.2).2.2.2, (plainFacts digits.1).2.2.2, (plainFacts digits.2).2.2.2]
  have head : byteHead 4 ([lon,lat,east,north].take 4) = some [lon,lat,east,north] := plainHead plain
  rw [packGrid]
  have byte : ∀ x : Char, Plain x → x.toUInt8.toNat = x.toNat := by
    intro x plain
    have small := plainBelow plain
    show x.val.toUInt8.toNat = _
    rw [UInt32.toNat_toUInt8]
    exact Nat.mod_eq_of_lt (Nat.lt_trans small (by decide))
  simp only [bare, head, Option.map_some, upper, plainUtf8 plain, List.map_cons, List.map_nil, List.getD_cons_zero,
    List.getD_cons_succ, byte _ letters.1, byte _ letters.2, byte _ digits.1, byte _ digits.2, lonPlace, latPlace, eastPlace, northPlace]
  rw [columnPacked small.1 small.2.2.1, rowPacked, if_neg (by simp)]
  congr 2
  omega

theorem gridUnpacked {a b c d : Nat} (small : a < 18 ∧ b < 18 ∧ c < 10 ∧ d < 10) :
    unpackGrid ((179 - 10 * a - c) * 180 + (10 * b + d)) =
      [Char.ofNat (65 + a),Char.ofNat (65 + b),Char.ofNat (48 + c),Char.ofNat (48 + d)] := by
  obtain ⟨ha,hb,hc,hd⟩ := small
  have row : ((179 - 10 * a - c) * 180 + (10 * b + d)) % 180 = 10 * b + d := by omega
  have column : ((179 - 10 * a - c) * 180 + (10 * b + d)) / 180 = 179 - 10 * a - c := by omega
  rw [unpackGrid, if_neg (by rw [nbaseGrid]; omega)]
  simp only [row, column]
  rw [if_neg (by omega)]
  have nlong : (12 * (180 - (((179 - 10 * a - c : Nat) : Int) * 2 - 180 + 2))).toNat = 240 * a + 24 * c := by omega
  have nlat : (24 * (((10 * b + d : Nat) : Int) - 90 + 90)).toNat = 240 * b + 24 * d := by omega
  have field : ∀ m n : Nat, n < 10 → (240 * m + 24 * n) / 240 = m := fun m n below => by omega
  have square : ∀ m n : Nat, n < 10 → (240 * m + 24 * n) % 240 / 24 = n := fun m n below => by omega
  rw [nlong, nlat, field a c hc, field b d hd, square a c hc, square b d hd]

theorem gridBack {grid : List Char} (valid : validGrid grid = true) :
    ∃ num, packGrid grid = some num ∧ unpackGrid (num &&& 0x7fff).toNat = grid := by
  match grid, valid with
  | [lon,lat,east,north], valid =>
    simp only [validGrid, Bool.and_eq_true] at valid
    obtain ⟨⟨⟨lonLetter,latLetter⟩,eastDigit⟩,northDigit⟩ := valid
    obtain ⟨plainLon,a,ha,lonPlace⟩ := gridLetterPlace lonLetter
    obtain ⟨plainLat,b,hb,latPlace⟩ := gridLetterPlace latLetter
    obtain ⟨c,hc,eastPlace⟩ := digitPlace eastDigit
    obtain ⟨d,hd,northPlace⟩ := digitPlace northDigit
    have small : a < 18 ∧ b < 18 ∧ c < 10 ∧ d < 10 := ⟨ha,hb,hc,hd⟩
    refine ⟨_,gridPacked ⟨plainLon,plainLat⟩ ⟨digitPlain eastDigit,digitPlain northDigit⟩ lonPlace latPlace eastPlace northPlace small,?_⟩
    have number : (UInt16.ofNat ((179 - 10 * a - c) * 180 + (10 * b + d)) &&& 0x7fff).toNat =
        (179 - 10 * a - c) * 180 + (10 * b + d) := by
      rw [UInt16.toNat_and, UInt16.toNat_ofNat']
      show _ &&& 2 ^ 15 - 1 = _
      rw [Nat.and_two_pow_sub_one_eq_mod]
      omega
    rw [number, gridUnpacked small, ← lonPlace, ← latPlace, ← eastPlace, ← northPlace]
    simp only [Char.ofNat_toNat]

section Offset

variable {F : Type} [DecidableEq F] {radio : Radio F} {f : F} {a : HintAssembler F} {frames : List BeaconFrame}
  {heard : List (Heard F)}

def recognizedAt (f : F) (outs : List (Option (RecognizedHint F))) : List (RecognizedHint F) :=
  outs.reduceOption.filter fun r => r.baseFreqHz = f

/- The frames heard at `f` are those of the over, any others are outside its tolerance. -/
structure Interleaved (radio : Radio F) (tol f : F) (frames : List BeaconFrame) (heard : List (Heard F)) : Prop where
  own : (heard.filter fun h => h.baseFreqHz = f).map Heard.frame = frames
  others : ∀ h ∈ heard, h.baseFreqHz ≠ f → radio.freqMatch h.baseFreqHz f tol = false ∧ radio.freqMatch f h.baseFreqHz tol = false

/- No frame heard before the over's last one comes more than `max` slots behind the over's latest. -/
def timely (f : F) (max : Nat) : Nat → List (Heard F) → Bool
  | _, [] => true
  | last, h::heard =>
    if h.baseFreqHz = f then h.slot - last ≤ max && timely f max h.slot heard
    else (h.slot - last ≤ max || heard.all fun g => g.baseFreqHz ≠ f) && timely f max last heard

def inTime (f : F) (max : Nat) : List (Heard F) → Bool
  | [] => true
  | h::heard => if h.baseFreqHz = f then timely f max h.slot heard else inTime f max heard

theorem recognizedNone (outs : List (Option (RecognizedHint F))) : recognizedAt f (none::outs) = recognizedAt f outs := by
  rw [recognizedAt, List.reduceOption_cons_of_none, recognizedAt]

theorem recognizedHere {r : RecognizedHint F} (here : r.baseFreqHz = f) (outs : List (Option (RecognizedHint F))) :
    recognizedAt f (some r::outs) = r :: recognizedAt f outs := by
  rw [recognizedAt, List.reduceOption_cons_of_some, List.filter_cons_of_pos (by simpa using here), recognizedAt]

theorem recognizedElsewhere {o : Option (RecognizedHint F)} (away : ∀ r, o = some r → r.baseFreqHz ≠ f)
    (outs : List (Option (RecognizedHint F))) : recognizedAt f (o::outs) = recognizedAt f outs := by
  cases o with
  | none => exact recognizedNone outs
  | some r =>
    rw [recognizedAt, List.reduceOption_cons_of_some, List.filter_cons_of_neg (by simpa using away r rfl), recognizedAt]

theorem Interleaved.away {h : Heard F} (inter : Interleaved radio a.freqTolHz f frames (h::heard)) (away : h.baseFreqHz ≠ f) :
    Interleaved radio a.freqTolHz f frames heard where
  own := by rw [← inter.own, List.filter_cons_of_neg (by simpa using away)]
  others := fun g member => inter.others g (List.mem_cons_of_mem h member)

theorem Interleaved.here {h : Heard F} (inter : Interleaved radio a.freqTolHz f frames (h::heard)) (here : h.baseFreqHz = f) :
    ∃ rest, frames = h.frame::rest ∧ Interleaved radio a.freqTolHz f rest heard := by
  refine ⟨_,?_,rfl,fun g member => inter.others g (List.mem_cons_of_mem h member)⟩
  rw [← inter.own, List.filter_cons_of_pos (by simpa using here), List.map_cons]

theorem senderlessQuiet (inter : Interleaved radio a.freqTolHz f frames heard) (same : radio.freqMatch f f a.freqTolHz = true)
    (unsent : ∀ frame ∈ frames, Unsent radio frame.payload) (mute : ∀ p ∈ a.atOffset radio f, Mute f p) :
    recognizedAt f (a.feed radio heard) = [] := by
  induction heard generalizing a frames with
  | nil => rfl
  | cons h heard ih =>
    have kept := (hearKeeps radio a h).1
    rw [HintAssembler.feed]
    by_cases here : h.baseFreqHz = f
    · obtain ⟨rest,rfl,later⟩ := inter.here here
      subst here
      obtain ⟨out,still⟩ := hearMute same (unsent h.frame (by simp)) fun p member => mute p (foundPart radio a _ h p member)
      rw [out, recognizedNone]
      exact ih (kept ▸ later) (kept ▸ same) (fun frame member => unsent frame (List.mem_cons_of_mem _ member)) still
    · obtain ⟨away,apart⟩ := inter.others h (by simp) here
      rw [recognizedElsewhere fun r recognized => foreignRecognized here apart recognized]
      refine ih (kept ▸ inter.away here) (kept ▸ same) unsent ?_
      intro q member
      rw [hearForeign away apart fun p inside => (mute p inside).1] at member
      exact mute q (List.mem_of_mem_filter member)

theorem timelyAlone {last max : Nat} (inter : Interleaved radio a.freqTolHz f [] heard) : timely f max last heard = true := by
  induction heard with
  | nil => rfl
  | cons h heard ih =>
    have away : h.baseFreqHz ≠ f := fun here => by
      obtain ⟨rest,split,-⟩ := inter.here here
      cases split
    have others : heard.all (fun g => g.baseFreqHz ≠ f) = true := by
      have none' := List.filter_eq_nil_iff.mp (List.map_eq_nil_iff.mp (inter.away away).own)
      rw [List.all_eq_true]
      intro g member
      simpa using none' g member
    rw [timely, if_neg away, others, Bool.or_true, Bool.true_and]
    exact ih (inter.away away)

theorem overContinues {p : PartialOver F} {r : RecognizedHint F} (inter : Interleaved radio a.freqTolHz f frames heard)
    (same : radio.freqMatch f f a.freqTolHz = true) (one : a.atOffset radio f = [p]) (base : p.baseFreqHz = f)
    (awaits : Awaits radio p frames r) :
    recognizedAt f (a.feed radio heard) = if timely f a.maxOverSlots p.lastSlot heard then [r] else [] := by
  induction heard generalizing a p frames with
  | nil => exact absurd inter.own.symm awaits.some'
  | cons h heard ih =>
    obtain ⟨tolerance,slots⟩ := hearKeeps radio a h
    rw [HintAssembler.feed, timely]
    by_cases here : h.baseFreqHz = f
    · obtain ⟨rest,rfl,later⟩ := inter.here here
      subst here
      have there : found radio a h.baseFreqHz h = if h.slot - p.lastSlot ≤ a.maxOverSlots then [p] else [] := by
        rw [found, if_neg (awaits.later h.frame (by simp)), one, sweptOne]
      rw [if_pos rfl]
      by_cases intime : h.slot - p.lastSlot ≤ a.maxOverSlots
      · obtain ⟨out,left⟩ := hearOwn same
        rw [there, if_pos intime] at out left
        simp only [List.head?_cons, Option.getD_some, List.tail_cons, List.append_nil] at out left
        rw [decide_eq_true intime, Bool.true_and, out]
        cases rest with
        | nil =>
          have whole : tryRecognize (followed radio h p) = some r := by
            rw [followed, applySlot]
            exact awaits.whole
          have done := senderlessQuiet (tolerance ▸ later) (tolerance ▸ same) (by simp) (by rw [left, remains, whole]; simp)
          rw [whole, recognizedHere ((recognizedBase whole).trans ((followedBase h p).trans base)), timelyAlone later,
            if_pos rfl, done]
        | cons frame rest =>
          obtain ⟨unrecognized,next⟩ := awaits.next
          have moved := ih (tolerance ▸ later) (tolerance ▸ same) (by rw [left, remains, unrecognized]; rfl)
            ((followedBase h p).trans base) next
          rw [unrecognized, recognizedNone, moved, slots, followed, (applyKeeps _ _).2]
      · -- the over is gone, and with it its sender
        obtain ⟨out,still⟩ := hearMute same (awaits.unsent h.frame (by simp)) (by rw [there, if_neg intime]; simp)
        rw [out, recognizedNone, decide_eq_false intime, Bool.false_and]
        exact senderlessQuiet (tolerance ▸ later) (tolerance ▸ same)
          (fun frame member => awaits.unsent frame (List.mem_cons_of_mem _ member)) still
    · obtain ⟨away,apart⟩ := inter.others h (by simp) here
      have left := hearForeign away apart (by simpa [one] using base)
      have more : heard.all (fun g => g.baseFreqHz ≠ f) = false := by
        rw [Bool.eq_false_iff]
        intro none'
        have empty : heard.filter (fun h => h.baseFreqHz = f) = [] := List.filter_eq_nil_iff.mpr fun g member => by
          simpa using List.all_eq_true.mp none' g member
        exact awaits.some' (by rw [← (inter.away here).own, empty]; rfl)
      rw [one, sweptOne] at left
      rw [recognizedElsewhere fun r recognized => foreignRecognized here apart recognized, if_neg here, more, Bool.or_false]
      by_cases there : h.slot - p.lastSlot ≤ a.maxOverSlots
      · rw [if_pos there] at left
        rw [ih (tolerance ▸ inter.away here) (tolerance ▸ same) left base awaits, slots, decide_eq_true there, Bool.true_and]
      · rw [if_neg there] at left
        rw [decide_eq_false there, Bool.false_and]
        refine senderlessQuiet (tolerance ▸ inter.away here) (tolerance ▸ same) awaits.unsent ?_
        rw [left]
        simp

theorem overBegins {first : BeaconFrame} {rest : List BeaconFrame} (inter : Interleaved radio a.freqTolHz f (first::rest) heard)
    (same : radio.freqMatch f f a.freqTolHz = true) (flag : first.i3bit = i3First) :
    ∃ (b : HintAssembler F) (h : Heard F) (later : List (Heard F)), h.frame = first ∧ b.freqTolHz = a.freqTolHz ∧
      b.maxOverSlots = a.maxOverSlots ∧ b.atOffset radio f = [followed radio h (.new f h.slot)] ∧
      Interleaved radio a.freqTolHz f rest later ∧ inTime f a.maxOverSlots heard = timely f a.maxOverSlots h.slot later ∧
      recognizedAt f (a.feed radio heard) = recognizedAt f (b.feed radio later) := by
  induction heard generalizing a with
  | nil => cases inter.own
  | cons h heard ih =>
    obtain ⟨tolerance,slots⟩ := hearKeeps radio a h
    rw [HintAssembler.feed, inTime]
    by_cases here : h.baseFreqHz = f
    · obtain ⟨_,split,later⟩ := inter.here here
      obtain ⟨rfl,rfl⟩ := List.cons.inj split
      subst here
      obtain ⟨out,left⟩ := hearOwn same
      rw [found, if_pos flag, List.head?_nil, Option.getD_none] at out left
      have unrecognized := @freshUntold F radio h h.baseFreqHz
      refine ⟨(a.hear radio h).2,h,heard,rfl,tolerance,slots,?_,later,by rw [if_pos rfl],?_⟩
      · rw [left, remains, unrecognized]
        rfl
      · rw [out, unrecognized, recognizedNone]
    · obtain ⟨-,apart⟩ := inter.others h (by simp) here
      obtain ⟨b,g,later,frame,tolerance',slots',one,more,timed,outs⟩ :=
        ih (a := (a.hear radio h).2) (tolerance ▸ inter.away here) (tolerance ▸ same)
      rw [tolerance] at tolerance' more
      rw [slots] at slots' timed
      rw [if_neg here, recognizedElsewhere fun r recognized => foreignRecognized here apart recognized]
      exact ⟨b,g,later,frame,tolerance',slots',one,more,timed,outs⟩

end Offset

variable {F : Type} {radio : Radio F}

theorem toldText {frames : List BeaconFrame} {pieces : List (List Char)} {p : PartialOver F}
    (carry : List.Forall₂ (Carries radio.jscDecompress) (frames.map BeaconFrame.payload) pieces)
    (room : byteLen (p.text ++ pieces.flatten) ≤ maxTextLen) :
    told radio p frames = { p with text := p.text ++ pieces.flatten } := by
  induction pieces generalizing frames p with
  | nil =>
    have frameless : frames = [] := by simpa using carry
    rw [frameless, List.flatten_nil, List.append_nil]
    rfl
  | cons piece pieces ih =>
    cases frames with
    | nil => cases carry
    | cons frame frames =>
      obtain ⟨data,rest⟩ := List.forall₂_cons.mp carry
      rw [List.flatten_cons, ← List.append_assoc] at room ⊢
      have space : byteLen (p.text ++ piece) ≤ maxTextLen := by
        rw [byteLenAppend] at room
        omega
      show told radio (p.applyFrame radio frame.payload) frames = _
      rw [applyData data space, ih rest room]

theorem hintTarget : Representable "@OPULSE".toList := by decide +kernel

theorem groupRecognizes (f : F) (slot : Nat) (callsign grid text : List Char) :
    tryRecognize ⟨f,slot,some (callsign,some grid),some "@OPULSE".toList,text⟩ =
      (decodeHint text callsign).map fun hint => ⟨callsign,some grid,hint,f⟩ := by
  have ours : toUpper (groupName "@OPULSE".toList) = toUpper opulseGroup := by decide
  simp only [tryRecognize, ours, ne_eq, not_true_eq_false, if_false]

theorem hintAwaits {callsign grid : List Char} {p : HintPayload} (fits : p.Fits) {second : Payload} {rest : List BeaconFrame}
    (targetRead : unpackCompoundFrame second = some ⟨.compoundDirected,"@OPULSE".toList,0⟩)
    (carry : List.Forall₂ (Carries radio.jscDecompress) (rest.map BeaconFrame.payload) (textPieces (encodeHint p callsign)))
    (later : ∀ frame ∈ rest, frame.i3bit ≠ i3First) (f : F) (slot : Nat) :
    Awaits radio ⟨f,slot,some (callsign,some grid),none,[]⟩ (⟨second,0⟩::rest) ⟨callsign,some grid,p,f⟩ := by
  have coded := hintCoded p callsign
  have flat := textPiecesFlatten coded
  have aimed : ∀ frames, told radio ⟨f,slot,some (callsign,some grid),none,[]⟩ (⟨second,0⟩::frames) =
      told radio ⟨f,slot,some (callsign,some grid),some "@OPULSE".toList,[]⟩ frames := by
    intro frames
    show told radio (PartialOver.applyFrame radio _ second) frames = _
    rw [applyTarget targetRead]
  have unsent := dataAllUnsent carry
  refine ⟨by simp,?_,?_,?_,?_⟩
  · intro frame member
    rcases List.mem_cons.mp member with rfl | data
    · exact (by decide : (0 : UInt8) ≠ 1)
    · exact later frame data
  · intro frame member
    rcases List.mem_cons.mp member with rfl | data
    · intro q
      rw [applyTarget targetRead]
    · exact unsent _ (List.mem_map.mpr ⟨frame,data,rfl⟩)
  · intro before after split some' more
    obtain ⟨frame,before,rfl⟩ := List.exists_cons_of_ne_nil some'
    obtain ⟨rfl,whole : rest = before ++ after⟩ := List.cons.inj split
    subst whole
    have taken := List.forall₂_take before.length carry
    rw [List.map_append, List.take_left' (List.length_map _)] at taken
    have fewer : before.length < (textPieces (encodeHint p callsign)).length := by
      have count := carry.length_eq
      have some' := List.length_pos_iff.mpr more
      simp only [List.map_append, List.length_append, List.length_map] at count
      omega
    obtain ⟨begins,short⟩ := textPiecesShort coded fewer
    have room : byteLen ((textPieces (encodeHint p callsign)).take before.length).flatten ≤ maxTextLen := by
      obtain ⟨more,whole⟩ := begins
      have total := hintRoom p callsign
      rw [← whole, byteLenAppend] at total
      omega
    rw [aimed, toldText taken (by rwa [List.nil_append]), groupRecognizes, List.nil_append, hintBegun begins short]
    rfl
  · have room := hintRoom p callsign
    rw [aimed, toldText carry (by rwa [List.nil_append, flat]), groupRecognizes, List.nil_append, flat, decodeEncodeHint fits]
    rfl

/- Exactly one recognition if who sends is a person and each frame finds the over of the
one before it, none otherwise. -/
theorem hintAssembled [DecidableEq F] (radio : Radio F) (a : HintAssembler F) (f : F) (callsign grid : List Char) (p : HintPayload)
    (from' : Representable callsign) (valid : validGrid grid = true) (fits : p.Fits)
    (same : radio.freqMatch f f a.freqTolHz = true) :
    ∃ frames, opulseHint callsign grid (encodeHint p callsign) = some frames ∧
      ∀ heard, Interleaved radio a.freqTolHz f frames heard → recognizedAt f (a.feed radio heard) =
        if callsign.head? ≠ some '@' ∧ inTime f a.maxOverSlots heard = true then [⟨callsign,some grid,p,f⟩] else [] := by
  obtain ⟨num,packed,gridRead⟩ := gridBack valid
  have coded := hintCoded p callsign
  have begun : encodeHint p callsign ≠ [] := by simp [encodeHint]
  obtain ⟨first,second,rest,built,senderRead,targetRead,carry,later⟩ :=
    builtOver radio.jscDecompress from' hintTarget coded begun packed
  refine ⟨_,built,?_⟩
  intro heard inter
  obtain ⟨b,h,tail,frame,tolerance,slots,one,more,timed,outs⟩ := overBegins inter same rfl
  have letters : ¬ (unpackGrid (num &&& 0x7fff).toNat).isEmpty = true := by
    rw [gridRead, List.isEmpty_iff]
    rintro rfl
    cases valid
  have payload : h.frame.payload = first := by rw [frame]
  rw [outs, timed]
  by_cases person : callsign.head? = some '@'
  · rw [if_neg fun conditions => conditions.1 person]
    refine senderlessQuiet (tolerance ▸ more) (tolerance ▸ same) ?_ ?_
    · intro g member
      rcases List.mem_cons.mp member with rfl | data
      · intro q
        rw [applyTarget targetRead]
      · exact dataAllUnsent carry _ (List.mem_map.mpr ⟨g,data,rfl⟩)
    · intro q member
      rw [one, followed, payload, applyGroup senderRead person] at member
      rw [List.mem_singleton.mp member]
      exact ⟨rfl,rfl⟩
  · have known : followed radio h (.new f h.slot) = ⟨f,h.slot,some (callsign,some grid),none,[]⟩ := by
      rw [followed, payload, applyPerson senderRead person, if_neg letters, gridRead]
      rfl
    rw [overContinues (tolerance ▸ more) (tolerance ▸ same) (known ▸ one) rfl (hintAwaits fits targetRead carry later f h.slot),
      slots]
    simp [person]

def em73 : List Char := "EM73".toList

def exampleHint : HintPayload := ⟨0xb105,42,1⟩

def senderFrame : BeaconFrame := ⟨⟨[0x26,0x94,0xfa,0x76,0x6e,0xa6,0x62,0xea,0x58],rfl⟩,1⟩

def targetFrame : BeaconFrame := ⟨⟨[0x53,0x1a,0x90,0xd5,0x63,0x9e,0xa0,0x00,0x00],rfl⟩,0⟩

def dataFrame0 : BeaconFrame := ⟨⟨[0xbf,0xec,0x64,0x91,0x48,0x92,0x75,0x02,0x9b],rfl⟩,0⟩

def dataFrame1 : BeaconFrame := ⟨⟨[0xb9,0xaf,0xff,0xff,0xff,0xff,0xff,0xff,0xff],rfl⟩,2⟩

def heartbeatFrame : BeaconFrame := ⟨⟨[0x0a,0x2f,0xb3,0xa3,0xee,0x2e,0xe2,0xea,0x58],rfl⟩,0⟩

def beacon : List BeaconFrame := [senderFrame,targetFrame,dataFrame0,dataFrame1]

theorem beaconSent : opulseHint dc0sk em73 (encodeHint exampleHint dc0sk) = some beacon := by decide +kernel

def busyChannel : List (Heard Int) := [⟨senderFrame,1500,0⟩,⟨heartbeatFrame,1000,0⟩,⟨targetFrame,1500,1⟩,
  ⟨heartbeatFrame,1000,1⟩,⟨dataFrame0,1500,2⟩,⟨dataFrame1,1500,3⟩]

theorem hintAssembledBusy : recognizedAt 1500 ((HintAssembler.new 3 6).feed wholeHertz busyChannel) =
    [⟨dc0sk,some em73,exampleHint,1500⟩] := by
  obtain ⟨frames,sent,each⟩ := hintAssembled wholeHertz (.new 3 6) 1500 dc0sk em73 exampleHint (by decide) (by decide)
    (by decide) (by decide)
  have own : frames = beacon := Option.some.inj (sent.symm.trans beaconSent)
  rw [each busyChannel ⟨by rw [own]; decide,by decide⟩]
  decide

def inTurn (frames : List BeaconFrame) : List (Heard Int) := frames.zipIdx.map fun entry => ⟨entry.1,1500,entry.2⟩

theorem inTurnInterleaved (tol : Int) (frames : List BeaconFrame) : Interleaved wholeHertz tol 1500 frames (inTurn frames) := by
  have here : ∀ h ∈ inTurn frames, h.baseFreqHz = 1500 := by
    intro h member
    obtain ⟨entry,-,rfl⟩ := List.mem_map.mp member
    rfl
  refine ⟨?_,fun h member away => absurd (here h member) away⟩
  rw [List.filter_eq_self.mpr fun h member => by simpa using here h member, inTurn, List.map_map]
  exact List.zipIdx_map_fst 0 frames

def lateChannel : List (Heard Int) := [⟨senderFrame,1500,0⟩,⟨targetFrame,1500,1⟩,⟨dataFrame0,1500,10⟩,⟨dataFrame1,1500,11⟩]

/- What is not recognized: the hint of a group, and an over that is dropped before it is whole. -/
theorem hintsMissed : Representable atAll ∧ Representable dc0sk ∧ validGrid em73 = true ∧ exampleHint.Fits ∧
    wholeHertz.freqMatch 1500 1500 3 = true ∧
    (∃ frames, opulseHint atAll em73 (encodeHint exampleHint atAll) = some frames ∧
      Interleaved wholeHertz 3 1500 frames (inTurn frames) ∧
      recognizedAt 1500 ((HintAssembler.new 3 6).feed wholeHertz (inTurn frames)) = []) ∧
    opulseHint dc0sk em73 (encodeHint exampleHint dc0sk) = some beacon ∧
    Interleaved wholeHertz 3 1500 beacon lateChannel ∧
    recognizedAt 1500 ((HintAssembler.new 3 2).feed wholeHertz lateChannel) = [] := by
  have group : ((opulseHint atAll em73 (encodeHint exampleHint atAll)).map fun frames =>
      recognizedAt 1500 ((HintAssembler.new 3 6).feed wholeHertz (inTurn frames))) = some [] := by decide +kernel
  obtain ⟨frames,sent,unheard⟩ := Option.map_eq_some_iff.mp group
  exact ⟨by decide,by decide,by decide,by decide,by decide,⟨frames,sent,inTurnInterleaved 3 frames,unheard⟩,beaconSent,
    ⟨by decide,by decide⟩,by decide +kernel⟩

end OpenPulse.Hint
