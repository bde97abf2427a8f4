import Mathlib.Algebra.Group.Nat.Defs
import OpenPulse.Grids
import OpenPulse.OtaSend

/-! The sender's wait for an acknowledgement, `receive_ota_ack_within` of
`openpulse-modem/src/engine.rs`: every chunk of the capture is tried alone, then the
capture so far is scanned for the fast waveform from where the last scan stopped, and at
last the slow waveform is tried. What a demodulator makes of samples is given from
outside, and so is the session an acknowledgement must belong to. `tried` and `scanned`
keep account of the offsets of the scan and of the buffers it saw. -/
namespace OpenPulse.AckScan
open Grids
open OtaSend (AckFrame ModemEngine)

section
variable {S A : Type}

structure Listener (S A : Type) where
  fsk4AckFrameLen : Option Nat
  step : Nat
  positive : 0 < step
  k3CopyLen : Nat
  k3FullSpan : Nat
  decodeFsk4Ack : List S → Option A
  fsk4AckAt : List S → Option A
  decodeMfsk16K3Ack : List S → Option A
  sessionOk : A → Bool

def ackScanSpan (lastTried : Option Nat) (len frameLen step : Nat) : Option (Nat × Nat) :=
  let step := max step 1
  if len < frameLen then none
  else
    let highest := (len - frameLen) / step * step
    let first := match lastTried with
      | none => some 0
      | some l => if l + step < 2 ^ 64 then some (l + step) else none
    first.bind fun first => if first ≤ highest then some (first,highest) else none

structure Scan (A : Type) where
  found : Option A
  last : Option Nat
  tried : List Nat

def window (samples : List S) (off len : Nat) : List S := (samples.drop off).take len

def decodeFsk4AckInStreamFrom (l : Listener S A) (samples : List S) (lastTried : Option Nat) : Scan A :=
  match l.fsk4AckFrameLen with
  | none => ⟨none,lastTried,[]⟩
  | some fsk4Len =>
    match ackScanSpan lastTried samples.length fsk4Len l.step with
    | none => ⟨none,lastTried,[]⟩
    | some (first,last) =>
      let trial := fun off => l.fsk4AckAt (window samples off fsk4Len)
      let tried := through (fun off => (trial off).isSome) (grid l.step first last)
      match (grid l.step first last).findSome? fun off => (trial off).map fun ack => (ack,off) with
      | some (ack,off) => ⟨some ack,some off,tried⟩
      | none => ⟨none,some last,tried⟩

def after : Option Nat → Option Nat → Bool
  | some a, some b => decide (b < a)
  | some _, none => true
  | none, _ => false

def rescan (l : Listener S A) (samples : List S) : Nat → Option Nat → Option (Option A × Option Nat × List Nat)
  | 0, _ => none
  | fuel + 1, scanFrom =>
    let scan := decodeFsk4AckInStreamFrom l samples scanFrom
    let advanced := after scan.last scanFrom
    let next := if scan.last.isSome then scan.last else scanFrom
    match scan.found with
    | some ack =>
      if l.sessionOk ack then some (some ack,next,scan.tried)
      else if advanced then (rescan l samples fuel next).map fun r => (r.1,r.2.1,scan.tried ++ r.2.2)
      else some (none,next,scan.tried)
    | none => some (none,next,scan.tried)

structure Listening (S : Type) where
  accum : List S
  nextFsk4At : Nat
  fsk4ScanFrom : Option Nat
  nextK3At : Nat
  tried : List Nat
  scanned : Option Nat

def Listener.start (l : Listener S A) : Listening S := ⟨[],l.fsk4AckFrameLen.getD 4160,none,l.k3FullSpan,[],none⟩

inductive Way where
  | chunk | stream | copies
  deriving DecidableEq, Repr

def scanStream (l : Listener S A) (fuel : Nat) (s : Listening S) : Option (Option A × Listening S) :=
  if s.nextFsk4At ≤ s.accum.length then
    (rescan l s.accum fuel s.fsk4ScanFrom).map fun r =>
      (r.1,{ s with nextFsk4At := s.accum.length + l.fsk4AckFrameLen.getD 4160, fsk4ScanFrom := r.2.1,
                    tried := s.tried ++ r.2.2, scanned := some s.accum.length })
  else some (none,s)

def tryCopies (l : Listener S A) (s : Listening S) : Option A × Listening S :=
  if s.nextK3At ≤ s.accum.length then
    ((l.decodeMfsk16K3Ack s.accum).filter l.sessionOk,{ s with nextK3At := s.accum.length + l.k3CopyLen })
  else (none,s)

def tick (l : Listener S A) (fuel : Nat) (chunk : Option (List S)) (s : Listening S) : Option (Option (Way × A) × Listening S) :=
  match chunk with
  | none => some (none,s)
  | some routed =>
    match (l.decodeFsk4Ack routed).filter l.sessionOk with
    | some ack => some (some (.chunk,ack),s)
    | none =>
      (scanStream l fuel { s with accum := s.accum ++ routed }).map fun r =>
        match r with
        | (some ack,s) => (some (.stream,ack),s)
        | (none,s) =>
          let (copies,s) := tryCopies l s
          (copies.map fun ack => (.copies,ack),s)

def receiveOtaAckWithin (l : Listener S A) (fuel : Nat) : List (Option (List S)) → Listening S → Option (Option (Way × A) × Listening S)
  | [], s => some (none,s)
  | chunk::chunks, s =>
    (tick l fuel chunk s).bind fun r =>
      match r.1 with
      | some heard => some (some heard,r.2)
      | none => receiveOtaAckWithin l fuel chunks r.2

variable {l : Listener S A} {samples : List S} {n : Nat}

def trial (l : Listener S A) (samples : List S) (n off : Nat) : Option A := l.fsk4AckAt (window samples off n)

def accepted (l : Listener S A) (samples : List S) (n off : Nat) : Option A := (trial l samples n off).filter l.sessionOk

def highest (l : Listener S A) (len n : Nat) : Nat := (len - n) / l.step * l.step

def resume (step : Nat) : Option Nat → Nat
  | none => 0
  | some last => last + step

def ahead (l : Listener S A) (len n : Nat) (scanFrom : Option Nat) : List Nat :=
  grid l.step (resume l.step scanFrom) (highest l len n)

theorem highestWithin (l : Listener S A) (len n : Nat) : highest l len n ≤ len - n := Nat.div_mul_le_self _ _

theorem aheadShort (l : Listener S A) (len n : Nat) (scanFrom : Option Nat) : (ahead l len n scanFrom).length ≤ len + 1 :=
  Nat.le_trans (gridShort _ _ _) (Nat.succ_le_succ (Nat.le_trans (highestWithin l len n) (Nat.sub_le len n)))

theorem spanOf {len : Nat} (whole : n ≤ len) (small : len < 2 ^ 64) (scanFrom : Option Nat) :
    ackScanSpan scanFrom len n l.step =
      if resume l.step scanFrom ≤ highest l len n then some (resume l.step scanFrom,highest l len n) else none := by
  have step : max l.step 1 = l.step := Nat.max_eq_left l.positive
  have within := highestWithin l len n
  unfold ackScanSpan
  dsimp only
  rw [step, if_neg (Nat.not_lt.mpr whole)]
  cases scanFrom with
  | none => rfl
  | some last =>
    -- a sum that leaves 64 bits is past the end of every buffer
    dsimp only
    by_cases fits : last + l.step < 2 ^ 64
    · rw [if_pos fits]
      rfl
    · rw [if_neg fits]
      exact (if_neg (show ¬ last + l.step ≤ highest l len n by omega)).symm

theorem scanMiss (frame : l.fsk4AckFrameLen = some n) (whole : n ≤ samples.length) (small : samples.length < 2 ^ 64)
    {scanFrom : Option Nat} (miss : ∀ off ∈ ahead l samples.length n scanFrom, trial l samples n off = none) :
    decodeFsk4AckInStreamFrom l samples scanFrom =
      ⟨none,if ahead l samples.length n scanFrom = [] then scanFrom else some (highest l samples.length n),
        ahead l samples.length n scanFrom⟩ := by
  unfold decodeFsk4AckInStreamFrom
  rw [frame]
  dsimp only
  rw [spanOf whole small]
  by_cases more : resume l.step scanFrom ≤ highest l samples.length n
  · have some' : ahead l samples.length n scanFrom ≠ [] := by
      rw [ahead, gridCons l.positive more]
      exact List.cons_ne_nil _ _
    have nothing : (ahead l samples.length n scanFrom).findSome? (fun off => (trial l samples n off).map fun ack => (ack,off)) = none :=
      List.findSome?_eq_none_iff.mpr fun off member => by rw [miss off member]; rfl
    have all : through (fun off => (trial l samples n off).isSome) (ahead l samples.length n scanFrom) = ahead l samples.length n scanFrom :=
      throughAll fun off member => by rw [miss off member]; rfl
    rw [if_pos more, if_neg some']
    dsimp only
    rw [show (grid l.step (resume l.step scanFrom) (highest l samples.length n)).findSome?
      (fun off => (l.fsk4AckAt (window samples off n)).map fun ack => (ack,off)) = none from nothing]
    exact congrArg (Scan.mk none _) all
  · have none' : ahead l samples.length n scanFrom = [] := gridNil (Nat.not_le.mp more)
    rw [if_neg more, none', if_pos rfl]

theorem scanHit (frame : l.fsk4AckFrameLen = some n) (whole : n ≤ samples.length) (small : samples.length < 2 ^ 64)
    {scanFrom : Option Nat} {before behind : List Nat} {off : Nat} {ack : A}
    (cut : ahead l samples.length n scanFrom = before ++ off::behind) (miss : ∀ o ∈ before, trial l samples n o = none)
    (hit : trial l samples n off = some ack) :
    decodeFsk4AckInStreamFrom l samples scanFrom = ⟨some ack,some off,before ++ [off]⟩ := by
  have more : resume l.step scanFrom ≤ highest l samples.length n := by
    by_contra none'
    rw [ahead, gridNil (Nat.not_le.mp none')] at cut
    exact List.ne_nil_of_mem (List.mem_append_right _ List.mem_cons_self) cut.symm
  have first : (ahead l samples.length n scanFrom).findSome? (fun off => (trial l samples n off).map fun ack => (ack,off)) = some (ack,off) :=
    List.findSome?_eq_some_iff.mpr ⟨before,off,behind,cut,by rw [hit]; rfl,fun o member => by rw [miss o member]; rfl⟩
  have upTo : through (fun off => (trial l samples n off).isSome) (ahead l samples.length n scanFrom) = before ++ [off] := by
    rw [cut]
    exact throughHit (fun o member => by rw [miss o member]; rfl) (by rw [hit]; rfl) behind
  unfold decodeFsk4AckInStreamFrom
  rw [frame]
  dsimp only
  rw [spanOf whole small, if_pos more]
  dsimp only
  rw [show (grid l.step (resume l.step scanFrom) (highest l samples.length n)).findSome?
    (fun off => (l.fsk4AckAt (window samples off n)).map fun ack => (ack,off)) = some (ack,off) from first]
  exact congrArg (Scan.mk (some ack) (some off)) upTo

theorem aheadDone {off : Nat} (onGrid : l.step ∣ off) {len : Nat} (low : off ≤ highest l len n) (done : ahead l len n (some off) = []) :
    off = highest l len n := by
  have last : highest l len n < off + l.step := by
    by_contra room
    have more : ahead l len n (some off) = (off + l.step)::_ := gridCons l.positive (Nat.not_lt.mp room)
    rw [done] at more
    cases more
  have multiple : l.step ∣ highest l len n := Nat.dvd_mul_left _ _
  have same : highest l len n - off = 0 := Nat.eq_zero_of_dvd_of_lt (Nat.dvd_sub multiple onGrid) (Nat.sub_lt_left_of_lt_add low last)
  exact Nat.le_antisymm low (Nat.sub_eq_zero_iff_le.mp same)

theorem acceptedNone {off : Nat} (miss : trial l samples n off = none) : accepted l samples n off = none := by
  rw [accepted, miss]
  rfl

structure Rescanned (l : Listener S A) (samples : List S) (n : Nat) (scanFrom : Option Nat) (r : Option A × Option Nat × List Nat) :
    Prop where
  answer : r.1 = (ahead l samples.length n scanFrom).findSome? (accepted l samples n)
  tried : r.2.2 = through (fun off => (accepted l samples n off).isSome) (ahead l samples.length n scanFrom)
  next : r.1 = none → l.step ∣ resume l.step scanFrom →
    r.2.1 = if ahead l samples.length n scanFrom = [] then scanFrom else some (highest l samples.length n)

theorem rescanned (frame : l.fsk4AckFrameLen = some n) (whole : n ≤ samples.length) (small : samples.length < 2 ^ 64)
    {fuel : Nat} {scanFrom : Option Nat} (enough : (ahead l samples.length n scanFrom).length < fuel) :
    ∃ r, rescan l samples fuel scanFrom = some r ∧ Rescanned l samples n scanFrom r := by
  induction fuel generalizing scanFrom with
  | zero => exact absurd enough (Nat.not_lt_zero _)
  | succ fuel ih =>
    cases first : (ahead l samples.length n scanFrom).findSome? (trial l samples n) with
    | none =>
      have miss := List.findSome?_eq_none_iff.mp first
      have foreign : ∀ off ∈ ahead l samples.length n scanFrom, accepted l samples n off = none :=
        fun off member => acceptedNone (miss off member)
      have all : through (fun off => (accepted l samples n off).isSome) (ahead l samples.length n scanFrom) = ahead l samples.length n scanFrom :=
        throughAll fun off member => by rw [foreign off member]; rfl
      refine ⟨(none,if ahead l samples.length n scanFrom = [] then scanFrom else some (highest l samples.length n),
        ahead l samples.length n scanFrom),?_,(List.findSome?_eq_none_iff.mpr foreign).symm,all.symm,fun _ _ => rfl⟩
      rw [rescan, scanMiss frame whole small miss]
      dsimp only
      split
      · cases scanFrom <;> rfl
      · rfl
    | some ack =>
      obtain ⟨before,off,behind,cut,hit,missed⟩ := List.findSome?_eq_some_iff.mp first
      have foreign : ∀ o ∈ before, accepted l samples n o = none := fun o member => acceptedNone (missed o member)
      have scan := scanHit frame whole small cut missed hit
      have inside : off ∈ ahead l samples.length n scanFrom := by
        rw [cut]
        exact List.mem_append_right _ List.mem_cons_self
      obtain ⟨low,high,apart⟩ := (memGrid l.positive).mp inside
      cases ok : l.sessionOk ack with
      | true =>
        have answer : accepted l samples n off = some ack := by
          rw [accepted, hit, Option.filter_some, if_pos ok]
        refine ⟨(some ack,some off,before ++ [off]),?_,?_,?_,fun none' => absurd none' (Option.some_ne_none ack)⟩
        · rw [rescan, scan]
          dsimp only
          rw [if_pos ok]
          rfl
        · exact (List.findSome?_eq_some_iff.mpr ⟨before,off,behind,cut,answer,foreign⟩).symm
        · rw [cut]
          exact (throughHit (fun o member => by rw [foreign o member]; rfl) (by rw [answer]; rfl) behind).symm
      | false =>
        have rejected : accepted l samples n off = none := by
          rw [accepted, hit, Option.filter_some, if_neg (by rw [ok]; exact Bool.false_ne_true)]
        have onward : ahead l samples.length n (some off) = behind := (gridBehind l.positive cut).symm
        have shorter : (ahead l samples.length n (some off)).length < fuel := by
          rw [cut, List.length_append, List.length_cons] at enough
          rw [onward]
          omega
        obtain ⟨r,more,later⟩ := ih shorter
        have advanced : after (some off) scanFrom = true := by
          cases scanFrom with
          | none => rfl
          | some last =>
            have forward := l.positive
            have low : last + l.step ≤ off := low
            exact decide_eq_true (by omega)
        have passed : ∀ o ∈ before ++ [off], accepted l samples n o = none := fun o member => by
          rcases List.mem_append.mp member with early | here
          · exact foreign o early
          · rw [List.mem_singleton.mp here]
            exact rejected
        have whole' : ahead l samples.length n scanFrom = (before ++ [off]) ++ behind := by
          rw [cut, List.append_assoc, List.singleton_append]
        refine ⟨(r.1,r.2.1,(before ++ [off]) ++ r.2.2),?_,?_,?_,?_⟩
        · rw [rescan, scan]
          dsimp only
          rw [if_neg (by rw [ok]; exact Bool.false_ne_true), if_pos advanced, Option.isSome_some, if_pos rfl, more]
          rfl
        · rw [whole', List.findSome?_append, List.findSome?_eq_none_iff.mpr passed, Option.none_or, ← onward]
          exact later.answer
        · rw [whole', throughAppend (fun o member => by rw [passed o member]; rfl), ← onward]
          exact congrArg _ later.tried
        · intro nothing onGrid
          have there : l.step ∣ off := by
            have sum := Nat.dvd_add onGrid apart
            rwa [Nat.add_sub_cancel' low] at sum
          rw [if_neg (List.ne_nil_of_mem inside), later.next nothing (Nat.dvd_add there (Nat.dvd_refl _))]
          split
          next done => rw [aheadDone there high done]
          next => rfl

def swept (l : Listener S A) (n : Nat) : Option Nat → List Nat
  | none => []
  | some len => if len < n then [] else grid l.step 0 (highest l len n)

theorem sweptShort {len : Nat} (short : len < n) : swept l n (some len) = [] := if_pos short

theorem sweptWhole {len : Nat} (whole : n ≤ len) : swept l n (some len) = grid l.step 0 (highest l len n) :=
  if_neg (Nat.not_lt.mpr whole)

theorem sweptRises (l : Listener S A) (n : Nat) (scanned : Option Nat) : (swept l n scanned).Pairwise (· < ·) := by
  cases scanned with
  | none => exact List.Pairwise.nil
  | some len =>
    rcases Nat.lt_or_ge len n with short | whole
    · rw [sweptShort short]
      exact List.Pairwise.nil
    · rw [sweptWhole whole]
      exact gridRises l.positive

theorem memSwept {scanned : Option Nat} {x : Nat} : x ∈ swept l n scanned ↔ ∃ len, scanned = some len ∧ l.step ∣ x ∧ x + n ≤ len := by
  cases scanned with
  | none => exact ⟨fun member => (List.not_mem_nil member).elim,fun ⟨len,none',_⟩ => by cases none'⟩
  | some len =>
    have rounded : grid l.step 0 (highest l len n) = grid l.step 0 (len - n) := gridRounded l.positive
    constructor
    · intro member
      rcases Nat.lt_or_ge len n with short | whole
      · rw [sweptShort short] at member
        cases member
      · rw [sweptWhole whole, rounded, memGrid l.positive, Nat.sub_zero] at member
        exact ⟨len,rfl,member.2.2,by omega⟩
    · rintro ⟨_,same,onGrid,room⟩
      cases same
      rw [sweptWhole (Nat.le_trans (Nat.le_add_left n x) room), rounded, memGrid l.positive, Nat.sub_zero]
      exact ⟨Nat.zero_le x,Nat.le_sub_of_add_le room,onGrid⟩

def sweptTo (l : Listener S A) (n : Nat) : Option Nat → Option Nat
  | none => none
  | some len => if len < n then none else some (highest l len n)

structure Swept (l : Listener S A) (n : Nat) (heard : Option A) (s : Listening S) : Prop where
  within : ∀ len, s.scanned = some len → len ≤ s.accum.length
  tried : s.tried = through (fun off => (accepted l s.accum n off).isSome) (swept l n s.scanned)
  found : heard = (swept l n s.scanned).findSome? (accepted l s.accum n)
  goesOn : heard = none → s.fsk4ScanFrom = sweptTo l n s.scanned

theorem sweptStart (l : Listener S A) (n : Nat) : Swept l n none l.start :=
  { within := fun _ none' => nomatch none'
    tried := rfl
    found := rfl
    goesOn := fun _ => rfl }

theorem acceptedGrown {more : List S} {off : Nat} (inside : off + n ≤ samples.length) :
    accepted l (samples ++ more) n off = accepted l samples n off := by
  rw [accepted, accepted, trial, trial, window, window, List.drop_append_of_le_length (by omega),
    List.take_append_of_le_length (by rw [List.length_drop]; omega)]

theorem Swept.missed {heard : Option A} {s : Listening S} (so : Swept l n heard s) (nothing : heard = none) :
    ∀ off ∈ swept l n s.scanned, accepted l s.accum n off = none :=
  List.findSome?_eq_none_iff.mp (so.found.symm.trans nothing)

theorem Swept.all {s : Listening S} (so : Swept l n none s) : s.tried = swept l n s.scanned := by
  rw [so.tried]
  exact throughAll fun off member => by rw [so.missed rfl off member]; rfl

theorem Swept.grown {s : Listening S} (so : Swept l n none s) (more : List S) :
    Swept l n none { s with accum := s.accum ++ more } := by
  have missed : ∀ off ∈ swept l n s.scanned, accepted l (s.accum ++ more) n off = none := fun off member => by
    obtain ⟨len,last,-,room⟩ := memSwept.mp member
    rw [acceptedGrown (Nat.le_trans room (so.within len last))]
    exact so.missed rfl off member
  refine ⟨fun len last => ?_,?_,(List.findSome?_eq_none_iff.mpr missed).symm,so.goesOn⟩
  · rw [List.length_append]
    exact Nat.le_add_right_of_le (so.within len last)
  · exact so.all.trans (throughAll fun off member => by rw [missed off member]; rfl).symm

theorem highestGrows {len len' : Nat} (grows : len ≤ len') : highest l len n ≤ highest l len' n :=
  Nat.mul_le_mul_right _ (Nat.div_le_div_right (Nat.sub_le_sub_right grows n))

theorem sweptAhead {scanned : Option Nat} {len : Nat} (grown : ∀ old, scanned = some old → old ≤ len) (whole : n ≤ len) :
    swept l n scanned ++ ahead l len n (sweptTo l n scanned) = swept l n (some len) := by
  rw [sweptWhole whole]
  cases scanned with
  | none => rfl
  | some old =>
    rcases Nat.lt_or_ge old n with short | whole'
    · rw [sweptShort short, sweptTo, if_pos short]
      rfl
    · have multiple : l.step ∣ highest l old n - 0 := Nat.dvd_mul_left _ _
      rw [sweptWhole whole', sweptTo, if_neg (Nat.not_lt.mpr whole')]
      exact (gridSplit l.positive (Nat.zero_le _) (highestGrows (grown old rfl)) multiple).symm

theorem rescanShort (frame : l.fsk4AckFrameLen = some n) (short : samples.length < n) (fuel : Nat) (scanFrom : Option Nat) :
    rescan l samples (fuel + 1) scanFrom = some (none,scanFrom,[]) := by
  have scan : decodeFsk4AckInStreamFrom l samples scanFrom = ⟨none,scanFrom,[]⟩ := by
    unfold decodeFsk4AckInStreamFrom ackScanSpan
    rw [frame]
    dsimp only
    rw [if_pos short]
  rw [rescan, scan]
  cases scanFrom <;> rfl

theorem sweptToMultiple (l : Listener S A) (n : Nat) (scanned : Option Nat) : l.step ∣ resume l.step (sweptTo l n scanned) := by
  cases scanned with
  | none => exact Nat.dvd_zero l.step
  | some len =>
    rw [sweptTo]
    split
    · exact Nat.dvd_zero l.step
    · exact Nat.dvd_add (Nat.dvd_mul_left _ _) (Nat.dvd_refl _)

theorem sweptToDone {scanned : Option Nat} {len : Nat} (grown : ∀ old, scanned = some old → old ≤ len)
    (done : ahead l len n (sweptTo l n scanned) = []) : sweptTo l n scanned = some (highest l len n) := by
  have start : ahead l len n none ≠ [] := by
    rw [ahead, gridCons l.positive (show resume l.step none ≤ _ from Nat.zero_le _)]
    exact List.cons_ne_nil _ _
  cases scanned with
  | none => exact absurd done start
  | some old =>
    rw [sweptTo] at done ⊢
    split at done
    · exact absurd done start
    next whole =>
      rw [if_neg whole]
      exact congrArg some (aheadDone (Nat.dvd_mul_left _ _) (highestGrows (grown old rfl)) done)

theorem scanSweeps (frame : l.fsk4AckFrameLen = some n) {s : Listening S} (small : s.accum.length < 2 ^ 64) {fuel : Nat}
    (enough : s.accum.length + 1 < fuel) (so : Swept l n none s) :
    ∃ found s', scanStream l fuel s = some (found,s') ∧ Swept l n found s' ∧ s'.accum = s.accum := by
  unfold scanStream
  split
  next due =>
    rcases Nat.lt_or_ge s.accum.length n with short | whole
    · have nothing : swept l n s.scanned = [] := List.eq_nil_iff_forall_not_mem.mpr fun off member => by
        obtain ⟨len,last,-,room⟩ := memSwept.mp member
        have within := so.within len last
        omega
      have start : sweptTo l n s.scanned = none := by
        cases last : s.scanned with
        | none => rfl
        | some len => exact if_pos (Nat.lt_of_le_of_lt (so.within len last) short)
      obtain ⟨fuel,rfl⟩ := Nat.exists_eq_succ_of_ne_zero (Nat.ne_of_gt (Nat.lt_of_le_of_lt (Nat.zero_le _) enough))
      rw [rescanShort frame short]
      refine ⟨_,_,rfl,?_,rfl⟩
      have empty : swept l n (some s.accum.length) = [] := sweptShort short
      refine { within := ?_, tried := ?_, found := ?_, goesOn := ?_ }
      · intro len same
        exact Nat.le_of_eq (Option.some.inj same).symm
      · dsimp only
        rw [so.all, nothing, empty]
        rfl
      · dsimp only
        rw [empty]
        rfl
      · intro _
        dsimp only
        rw [so.goesOn rfl, start, sweptTo, if_pos short]
    · have room := Nat.lt_of_le_of_lt (aheadShort l s.accum.length n s.fsk4ScanFrom) enough
      obtain ⟨r,ran,came⟩ := rescanned frame whole small room
      have from' := so.goesOn rfl
      have together := sweptAhead (l := l) so.within whole
      have missed := so.missed rfl
      rw [← from'] at together
      rw [ran]
      refine ⟨_,_,rfl,?_,rfl⟩
      refine { within := ?_, tried := ?_, found := ?_, goesOn := ?_ }
      · intro len same
        exact Nat.le_of_eq (Option.some.inj same).symm
      · dsimp only
        rw [so.all, came.tried, ← together, throughAppend fun off member => by rw [missed off member]; rfl]
      · dsimp only
        rw [← together, List.findSome?_append, List.findSome?_eq_none_iff.mpr missed, Option.none_or]
        exact came.answer
      · intro nothing
        have next := came.next nothing (by rw [from']; exact sweptToMultiple l n s.scanned)
        dsimp only
        rw [next, sweptTo, if_neg (Nat.not_lt.mpr whole)]
        split
        next done =>
          rw [from'] at done ⊢
          exact sweptToDone so.within done
        next => rfl
  next => exact ⟨none,s,rfl,so,rfl⟩

def streamed : Option (Way × A) → Option A
  | some (.stream,ack) => some ack
  | _ => none

theorem copiesKeep {s : Listening S} (so : Swept l n none s) :
    Swept l n none (tryCopies l s).2 ∧ (tryCopies l s).2.accum = s.accum := by
  unfold tryCopies
  split
  · exact ⟨{ within := so.within, tried := so.tried, found := so.found, goesOn := so.goesOn },rfl⟩
  · exact ⟨so,rfl⟩

theorem tickSweeps (frame : l.fsk4AckFrameLen = some n) {chunk : Option (List S)} {s : Listening S} {fuel : Nat}
    (small : s.accum.length + (chunk.getD []).length < 2 ^ 64) (enough : s.accum.length + (chunk.getD []).length + 1 < fuel)
    (so : Swept l n none s) :
    ∃ heard s', tick l fuel chunk s = some (heard,s') ∧ Swept l n (streamed heard) s' ∧
      s'.accum <+: s.accum ++ chunk.getD [] ∧ (heard = none → s'.accum = s.accum ++ chunk.getD []) := by
  cases chunk with
  | none => exact ⟨none,s,rfl,so,List.prefix_append _ _,fun _ => (List.append_nil _).symm⟩
  | some routed =>
    rw [tick]
    split
    next ack early => exact ⟨_,s,rfl,so,List.prefix_append _ _,fun nothing => absurd nothing (Option.some_ne_none _)⟩
    next late =>
      rw [Option.getD_some, ← List.length_append] at small enough
      obtain ⟨found,s',ran,so',same⟩ := scanSweeps frame small enough (so.grown routed)
      have all : s'.accum = s.accum ++ routed := same
      rw [ran]
      cases found with
      | some ack => exact ⟨_,s',rfl,so',all ▸ List.prefix_refl _,fun nothing => absurd nothing (Option.some_ne_none _)⟩
      | none =>
        have copies := copiesKeep so'
        have still : streamed ((tryCopies l s').1.map fun ack => (Way.copies,ack)) = none := by
          cases (tryCopies l s').1 <;> rfl
        have all' : (tryCopies l s').2.accum = s.accum ++ routed := copies.2.trans all
        refine ⟨(tryCopies l s').1.map fun ack => (.copies,ack),(tryCopies l s').2,rfl,?_,all' ▸ List.prefix_refl _,fun _ => all'⟩
        rw [still]
        exact copies.1

def captured (chunks : List (Option (List S))) : List S := (chunks.map fun chunk => chunk.getD []).flatten

theorem runSweeps (frame : l.fsk4AckFrameLen = some n) {chunks : List (Option (List S))} {s : Listening S} {fuel : Nat}
    (small : s.accum.length + (captured chunks).length < 2 ^ 64) (enough : s.accum.length + (captured chunks).length + 1 < fuel)
    (so : Swept l n none s) :
    ∃ heard s', receiveOtaAckWithin l fuel chunks s = some (heard,s') ∧ Swept l n (streamed heard) s' ∧
      s'.accum <+: s.accum ++ captured chunks := by
  induction chunks generalizing s with
  | nil => exact ⟨none,s,rfl,so,List.prefix_append _ _⟩
  | cons chunk chunks ih =>
    have whole : captured (chunk::chunks) = chunk.getD [] ++ captured chunks := rfl
    have sum : (captured (chunk::chunks)).length = (chunk.getD []).length + (captured chunks).length := by
      rw [whole, List.length_append]
    have small' : s.accum.length + (chunk.getD []).length < 2 ^ 64 := by omega
    have enough' : s.accum.length + (chunk.getD []).length + 1 < fuel := by omega
    obtain ⟨heard,s',ran,so',begun,grown⟩ := tickSweeps frame small' enough' so
    rw [receiveOtaAckWithin, ran, whole, ← List.append_assoc]
    cases heard with
    | some heard => exact ⟨some heard,s',rfl,so',begun.trans (List.prefix_append _ _)⟩
    | none =>
      have length := congrArg List.length (grown rfl)
      rw [List.length_append] at length
      rw [← grown rfl]
      exact ih (s := s') (by omega) (by omega) so'

def scanEach (l : Listener S A) (fuel : Nat) : List (List S) → Listening S → Option (Option A × Listening S)
  | [], s => some (none,s)
  | more::rest, s =>
    (scanStream l fuel { s with accum := s.accum ++ more, nextFsk4At := 0 }).bind fun r =>
      match r.1 with
      | some ack => some (some ack,r.2)
      | none => scanEach l fuel rest r.2

theorem eachSweeps (frame : l.fsk4AckFrameLen = some n) {growth : List (List S)} {s : Listening S} {fuel : Nat}
    (small : s.accum.length + growth.flatten.length < 2 ^ 64) (enough : s.accum.length + growth.flatten.length + 1 < fuel)
    (so : Swept l n none s) :
    ∃ found s', scanEach l fuel growth s = some (found,s') ∧ Swept l n found s' ∧ s'.accum <+: s.accum ++ growth.flatten := by
  induction growth generalizing s with
  | nil => exact ⟨none,s,rfl,so,List.prefix_append _ _⟩
  | cons more rest ih =>
    rw [List.flatten_cons, List.length_append] at small enough
    have grown := so.grown more
    have due : Swept l n none { s with accum := s.accum ++ more, nextFsk4At := 0 } :=
      { within := grown.within, tried := grown.tried, found := grown.found, goesOn := grown.goesOn }
    have length : (s.accum ++ more).length = s.accum.length + more.length := List.length_append
    have enough' : (s.accum ++ more).length + 1 < fuel := by omega
    obtain ⟨found,s',ran,so',same⟩ := scanSweeps frame (by dsimp only; omega) enough' due
    have all : s'.accum = s.accum ++ more := same
    rw [scanEach, ran, List.flatten_cons, ← List.append_assoc, ← all]
    cases found with
    | some ack => exact ⟨some ack,s',rfl,so',List.prefix_append _ _⟩
    | none =>
      rw [← all] at length
      exact ih (s := s') (by omega) (by omega) so'

variable (l n) in
/-- The offsets tried are the multiples of the step that the last buffer scanned had room for, up to
the first that was accepted, and what is there is what was found. -/
structure OneScan (found : Option A) (s : Listening S) : Prop where
  within : ∀ len, s.scanned = some len → len ≤ s.accum.length
  rises : s.tried.Pairwise (· < ·)
  exactly' : ∀ x, x ∈ s.tried ↔ ∃ len, s.scanned = some len ∧ l.step ∣ x ∧ x + n ≤ len ∧
    ∀ y < x, l.step ∣ y → accepted l s.accum n y = none
  first : ∀ ack, found = some ack ↔ ∃ len x, s.scanned = some len ∧ l.step ∣ x ∧ x + n ≤ len ∧
    accepted l s.accum n x = some ack ∧ ∀ y < x, l.step ∣ y → accepted l s.accum n y = none

theorem Swept.oneScan {found : Option A} {s : Listening S} (so : Swept l n found s) : OneScan l n found s := by
  have rises := sweptRises l n s.scanned
  -- below an offset with room every multiple of the step has room
  have below : ∀ {len x : Nat}, s.scanned = some len → x + n ≤ len →
      ((∀ y ∈ swept l n s.scanned, y < x → accepted l s.accum n y = none) ↔
        ∀ y < x, l.step ∣ y → accepted l s.accum n y = none) := by
    intro len x last room
    constructor
    · intro here y low onGrid
      exact here y (memSwept.mpr ⟨len,last,onGrid,by omega⟩) low
    · intro here y member low
      obtain ⟨-,-,onGrid,-⟩ := memSwept.mp member
      exact here y low onGrid
  have missing : ∀ y, (accepted l s.accum n y).isSome = false ↔ accepted l s.accum n y = none := fun y => by
    rw [Option.isSome_eq_false_iff, Option.isNone_iff_eq_none]
  refine { within := so.within, rises := ?_, exactly' := fun x => ?_, first := fun ack => ?_ }
  · rw [so.tried]
    exact rises.sublist (throughPrefix _ _).sublist
  · rw [so.tried, memThrough rises]
    constructor
    · rintro ⟨member,missed⟩
      obtain ⟨len,last,onGrid,room⟩ := memSwept.mp member
      exact ⟨len,last,onGrid,room,(below last room).mp fun y inside low => (missing y).mp (missed y inside low)⟩
    · rintro ⟨len,last,onGrid,room,missed⟩
      exact ⟨memSwept.mpr ⟨len,last,onGrid,room⟩,fun y inside low => (missing y).mpr ((below last room).mpr missed y inside low)⟩
  · rw [so.found, findRising rises]
    constructor
    · rintro ⟨x,member,hit,missed⟩
      obtain ⟨len,last,onGrid,room⟩ := memSwept.mp member
      exact ⟨len,x,last,onGrid,room,hit,(below last room).mp missed⟩
    · rintro ⟨len,x,last,onGrid,room,hit,missed⟩
      exact ⟨x,memSwept.mpr ⟨len,last,onGrid,room⟩,hit,(below last room).mpr missed⟩

theorem rescanEnds (frame : l.fsk4AckFrameLen = some n) (small : samples.length < 2 ^ 64) {fuel : Nat} (enough : samples.length + 1 < fuel)
    (scanFrom : Option Nat) : (rescan l samples fuel scanFrom).isSome := by
  rcases Nat.lt_or_ge samples.length n with short | whole
  · obtain ⟨fuel,rfl⟩ := Nat.exists_eq_succ_of_ne_zero (Nat.ne_of_gt (Nat.lt_of_le_of_lt (Nat.zero_le _) enough))
    rw [rescanShort frame short]
    rfl
  · have room := aheadShort l samples.length n scanFrom
    obtain ⟨r,ran,-⟩ := rescanned frame whole small (Nat.lt_of_le_of_lt room enough)
    rw [ran]
    rfl

/-- The resumed scan comes to an end and is one scan of the last buffer, in the wait itself and
however else the buffer grows. -/
theorem resumedScan (l : Listener S A) {n : Nat} (frame : l.fsk4AckFrameLen = some n) :
    (∀ (samples : List S) (scanFrom : Option Nat) (fuel : Nat), samples.length < 2 ^ 64 → samples.length + 1 < fuel →
      (rescan l samples fuel scanFrom).isSome) ∧
    (∀ (chunks : List (Option (List S))) (fuel : Nat), (captured chunks).length < 2 ^ 64 → (captured chunks).length + 1 < fuel →
      ∃ heard s, receiveOtaAckWithin l fuel chunks l.start = some (heard,s) ∧ s.accum <+: captured chunks ∧
        OneScan l n (streamed heard) s) ∧
    ∀ (growth : List (List S)) (fuel : Nat), growth.flatten.length < 2 ^ 64 → growth.flatten.length + 1 < fuel →
      ∃ found s, scanEach l fuel growth l.start = some (found,s) ∧ s.accum <+: growth.flatten ∧ OneScan l n found s := by
  have nothing : ∀ {k : Nat}, (l.start.accum : List S).length + k = k := Nat.zero_add _
  refine ⟨fun samples scanFrom fuel small enough => rescanEnds frame small enough scanFrom,?_,?_⟩
  · intro chunks fuel small enough
    obtain ⟨heard,s,ran,so,begun⟩ := runSweeps frame (by rwa [nothing]) (by rwa [nothing]) (sweptStart l n)
    exact ⟨heard,s,ran,begun,so.oneScan⟩
  · intro growth fuel small enough
    obtain ⟨found,s,ran,so,begun⟩ := eachSweeps frame (by rwa [nothing]) (by rwa [nothing]) (sweptStart l n)
    exact ⟨found,s,ran,begun,so.oneScan⟩

theorem rescanOwn {fuel : Nat} {scanFrom : Option Nat} {r : Option A × Option Nat × List Nat} {ack : A}
    (ran : rescan l samples fuel scanFrom = some r) (answer : r.1 = some ack) : l.sessionOk ack = true := by
  induction fuel generalizing scanFrom r with
  | zero => cases ran
  | succ fuel ih =>
    rw [rescan] at ran
    split at ran
    · split at ran
      next ok =>
        cases ran
        cases answer
        exact ok
      next =>
        split at ran
        · obtain ⟨r',more,rfl⟩ := Option.map_eq_some_iff.mp ran
          exact ih more answer
        · cases ran
          cases answer
    · cases ran
      cases answer

theorem streamOwn {fuel : Nat} {s next : Listening S} {ack : A} (ran : scanStream l fuel s = some (some ack,next)) :
    l.sessionOk ack = true := by
  rw [scanStream] at ran
  split at ran
  · obtain ⟨r,scanned,same⟩ := Option.map_eq_some_iff.mp ran
    exact rescanOwn scanned (Prod.mk.inj same).1
  · cases ran

theorem copiesOwn {s : Listening S} {ack : A} (heard : (tryCopies l s).1 = some ack) : l.sessionOk ack = true := by
  rw [tryCopies] at heard
  split at heard
  · exact (Option.filter_eq_some_iff.mp heard).2
  · cases heard

theorem tickOwn {fuel : Nat} {chunk : Option (List S)} {s s' : Listening S} {way : Way} {ack : A}
    (ran : tick l fuel chunk s = some (some (way,ack),s')) : l.sessionOk ack = true := by
  cases chunk with
  | none => cases ran
  | some routed =>
    rw [tick] at ran
    split at ran
    next heard early =>
      cases ran
      exact (Option.filter_eq_some_iff.mp early).2
    next =>
      obtain ⟨⟨found,next⟩,scanned,outcome⟩ := Option.map_eq_some_iff.mp ran
      cases found with
      | some heard =>
        cases outcome
        exact streamOwn scanned
      | none =>
        have copies : (tryCopies l next).1.map (fun ack => (Way.copies,ack)) = some (way,ack) := (Prod.mk.inj outcome).1
        obtain ⟨heard,own,same⟩ := Option.map_eq_some_iff.mp copies
        cases same
        exact copiesOwn own

theorem heardOwn {fuel : Nat} {chunks : List (Option (List S))} {s s' : Listening S} {way : Way} {ack : A}
    (ran : receiveOtaAckWithin l fuel chunks s = some (some (way,ack),s')) : l.sessionOk ack = true := by
  induction chunks generalizing s with
  | nil => cases ran
  | cons chunk chunks ih =>
    obtain ⟨⟨heard,next⟩,first,later⟩ := Option.bind_eq_some_iff.mp ran
    cases heard with
    | some heard =>
      cases later
      exact tickOwn first
    | none => exact ih later

theorem waitWindow {Snr : Type} (g : ModemEngine Snr) (expected : Option UInt16) {l : Listener S AckFrame}
    (own : l.sessionOk = g.sessionOk expected) {fuel : Nat} {chunks : List (Option (List S))} {s s' : Listening S}
    {heard : Option (Way × AckFrame)} (ran : receiveOtaAckWithin l fuel chunks s = some (heard,s')) :
    ∃ decoded, g.receiveOtaAckWithin decoded expected = heard.map Prod.snd := by
  cases heard with
  | none => exact ⟨[],rfl⟩
  | some t =>
    refine ⟨[t.2],?_⟩
    have ok : g.sessionOk expected t.2 = true := own ▸ heardOwn ran
    rw [ModemEngine.receiveOtaAckWithin, List.find?_cons, ok]
    rfl

end

/- Samples name what would be decoded at them: acknowledgements from 100 on, the own from 200 on. -/
def sampleListener : Listener Nat Nat where
  fsk4AckFrameLen := some 3
  step := 2
  positive := by decide
  k3CopyLen := 40
  k3FullSpan := 40
  decodeFsk4Ack := fun _ => none
  fsk4AckAt := fun window => window.head?.filter fun sample => decide (100 ≤ sample)
  decodeMfsk16K3Ack := fun _ => none
  sessionOk := fun ack => decide (200 ≤ ack)

def sampleChunks : List (Option (List Nat)) := [some [100,0,100,0,7],none,some [203,0],some [0,100,0,202,0,0]]

theorem resumedScanSample :
    (receiveOtaAckWithin sampleListener 20 sampleChunks sampleListener.start).map (fun r => (r.1,r.2.tried)) =
      some (some (.stream,202),[0,2,4,6,8,10]) ∧
    ∃ heard s, receiveOtaAckWithin sampleListener 20 sampleChunks sampleListener.start = some (heard,s) ∧
      s.accum <+: captured sampleChunks ∧ OneScan sampleListener 3 (streamed heard) s :=
  ⟨by decide,(resumedScan sampleListener rfl).2.1 sampleChunks 20 (by decide) (by decide)⟩

end OpenPulse.AckScan
