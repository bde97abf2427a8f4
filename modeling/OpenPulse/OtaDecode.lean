import OpenPulse.OtaRate
import OpenPulse.Runs

/-! Burst reception of `engine.rs` under an OTA session: gathering a burst while the
carrier is up, and the stages that try to decode it. What a demodulator, the carrier
acquisition or a decoder answers is an outcome given from outside, one for each attempt.
Corrections of the carrier frequency only choose among these outcomes and are left out. -/
namespace OpenPulse.OtaDecode
open OtaRate

def otaHarqMaxAttempts : Nat := 3

abbrev Candidate := SpeedLevel × String × FecMode

structure Plugins where
  frameScanGeometry : String → Nat × Nat × Nat × Nat
  supportsSoftDemod : String → Bool

/- The outcomes of the attempts on one burst, by candidate and by the sample they start
at or, for combining, by the number of retained vectors. -/
structure Attempts (Payload Llr Snr : Type) where
  standalone : Nat → Option Payload
  fallback : Option Payload
  scan : Nat → Nat → Option Payload
  acquires : Nat → Bool
  settle : Nat → Nat → Option Payload
  demodulates : Nat → Option Llr
  combined : Nat → Nat → Option Payload
  reading : String → Nat → Nat → Snr

structure Engine (Snr Llr Sample : Type) where
  plugins : Plugins
  ota : Option (OtaRateController Snr)
  rxSnrEstimate : Option Snr
  otaRetainedLlrs : String → List Llr
  otaRetainedSession : Option String
  rxBurst : List Sample
  rxCapturing : Bool
  lastFlushCapped : Bool

structure AckFrame where
  ackType : AckType
  sessionId : String
  recommendedLevel : SpeedLevel
  deriving DecidableEq, Repr

structure OtaRxResult (Payload Snr : Type) where
  payload : Option (Payload × String)
  ack : Option AckFrame
  onRxFrame : List (RxOutcome × Option Snr)

/- A block of audio as the front end leaves it. `routed` is `none` when routing fails. -/
structure Heard (Sample : Type) where
  routed : Option (List Sample)
  energyAboveThreshold : Bool
  floorKnownBefore : Bool
  floorKnownAfter : Bool
  burstCap : Nat

structure Decoded (Payload : Type) where
  candidate : Candidate
  payload : Payload
  span : Nat × Nat

section Search
variable {Payload Llr Snr : Type} (plugins : Plugins) (o : Attempts Payload Llr Snr) (n : Nat)

def burstOnsetScanBounds (mode : String) : Nat × Nat × Nat :=
  let (step, acqSamples, minFrameSamples, maxFrameSamples) := plugins.frameScanGeometry mode
  (max step 1, min (n - minFrameSamples) (acqSamples * 4), maxFrameSamples)

def tryStandalone (candidates : List Candidate) : Option (Decoded Payload) :=
  candidates.zipIdx.findSome? (fun (candidate, i) => (o.standalone i).map (fun payload => ⟨candidate,payload,0,n⟩))

/- Both scans advance by at least one sample, so `scanEnd + 2` rounds are enough. -/
def scanOnsets (attempt : Nat → Option Payload) (step scanEnd maxFrameSamples : Nat) : Nat → Nat → Option (Payload × Nat × Nat)
  | 0, _ => none
  | fuel + 1, start =>
    let stop := min (start + maxFrameSamples) n
    if stop ≤ start then none
    else match attempt start with
      | some payload => some (payload, start, stop)
      | none => if scanEnd ≤ start then none else scanOnsets attempt step scanEnd maxFrameSamples fuel (min (start + step) scanEnd)

def settleOnsets (attempt : Nat → Option Payload) (step scanEnd maxFrameSamples : Nat) : Nat → Nat → Option (Payload × Nat × Nat)
  | 0, _ => none
  | fuel + 1, start =>
    let stop := min (start + maxFrameSamples) n
    match (if start < stop then attempt start else none) with
    | some payload => some (payload, start, stop)
    | none => if scanEnd ≤ start then none else settleOnsets attempt step scanEnd maxFrameSamples fuel (min (start + step) scanEnd)

def tryScan (candidates : List Candidate) : Option (Decoded Payload) :=
  candidates.zipIdx.findSome? (fun (candidate, i) =>
    let (step, scanEnd, maxFrameSamples) := burstOnsetScanBounds plugins n candidate.2.1
    if scanEnd = 0 then none
    else (scanOnsets n (o.scan i) step scanEnd maxFrameSamples (scanEnd + 2) step).map (fun (payload, span) => ⟨candidate,payload,span⟩))

/- The fallback mode rides along in the second phase, unless a rung already is that mode uncoded. -/
def phase2 (candidates : List Candidate) (fallbackMode : Option String) : List Candidate :=
  match fallbackMode with
  | some m => if candidates.any (fun (_, cm, cf) => cm = m ∧ cf = .none) then candidates else candidates ++ [(.sl1, m, .none)]
  | none => candidates

def trySettle (candidates : List Candidate) : Option (Decoded Payload) :=
  candidates.zipIdx.findSome? (fun (candidate, i) =>
    let (step, scanEnd, maxFrameSamples) := burstOnsetScanBounds plugins n candidate.2.1
    if o.acquires i then
      (settleOnsets n (o.settle i) step scanEnd maxFrameSamples (scanEnd + 2) 0).map (fun (payload, span) => ⟨candidate,payload,span⟩)
    else none)

def soft (candidate : Candidate) : Bool :=
  plugins.supportsSoftDemod candidate.2.1 &&
    decide (candidate.2.2 ∈ [FecMode.softConcatenated, .ldpc, .ldpcHighRate, .rs])

def tryCombined (combined : Nat → Option Payload) : Nat → Option Payload
  | 0 => none
  | take + 1 => (combined (take + 1)).or (tryCombined combined take)

def retain (llrs : List Llr) (new : Llr) : List Llr :=
  let buf := llrs ++ [new]
  if otaHarqMaxAttempts < buf.length then buf.drop (buf.length - otaHarqMaxAttempts) else buf

def harq : List (Candidate × Nat) → (String → List Llr) → Option (Decoded Payload) × (String → List Llr)
  | [], retained => (none, retained)
  | (candidate, i)::rest, retained =>
    if soft plugins candidate then
      match o.demodulates i with
      | none => harq rest retained
      | some llrs =>
        match tryCombined (o.combined i) (retained candidate.2.1).length with
        | some payload => (some ⟨candidate,payload,0,n⟩, retained)
        | none => harq rest (Function.update retained candidate.2.1 (retain (retained candidate.2.1) llrs))
    else harq rest retained

end Search

inductive Found (Payload Llr : Type) where
  | fallback (payload : Payload) (mode : String)
  | judged (decoded : Option (Decoded Payload)) (retained : String → List Llr) (session : Option String)

namespace Engine
variable {Snr Llr Sample Payload : Type} (e : Engine Snr Llr Sample)

def accumulateRouted (h : Heard Sample) : Except String (Option (List Sample)) × Engine Snr Llr Sample :=
  match h.routed with
  | none => (.error "routing failed", e)
  | some samples =>
    if samples ≠ [] ∧ h.energyAboveThreshold = true then
      let burst := e.rxBurst ++ samples
      if h.burstCap ≤ burst.length then
        (.ok (some burst), { e with rxBurst := [], rxCapturing := false, lastFlushCapped := true })
      else (.ok none, { e with rxBurst := burst, rxCapturing := true })
    else if e.rxCapturing = true ∧ e.rxBurst ≠ [] then
      if h.floorKnownBefore = false ∧ h.floorKnownAfter = true then (.ok none, { e with rxBurst := [], rxCapturing := false })
      else (.ok (some e.rxBurst), { e with rxBurst := [], rxCapturing := false, lastFlushCapped := false })
    else (.ok none, e)

def search (candidates : List Candidate) (n : Nat) (sessionId : String) (fallbackMode : Option String) (o : Attempts Payload Llr Snr) :
    Found Payload Llr :=
  match tryStandalone o n candidates with
  | some decoded => .judged (some decoded) e.otaRetainedLlrs e.otaRetainedSession
  | none =>
    match fallbackMode.bind (fun mode => o.fallback.map (fun payload => (payload, mode))) with
    | some (payload, mode) => .fallback payload mode
    | none =>
      match (tryScan e.plugins o n candidates).or (trySettle e.plugins o n (phase2 candidates fallbackMode)) with
      | some decoded => .judged (some decoded) e.otaRetainedLlrs e.otaRetainedSession
      | none =>
        let retained := if e.otaRetainedSession = some sessionId then e.otaRetainedLlrs else fun _ => []
        let (decoded, retained) := harq e.plugins o n candidates.zipIdx retained
        .judged decoded retained (some sessionId)

def otaDecodeAndAckInner (n : Nat) (sessionId : String) (fallbackMode : Option String) (o : Attempts Payload Llr Snr)
    [LE Snr] [DecidableLE Snr] : Except String (OtaRxResult Payload Snr) × Engine Snr Llr Sample :=
  match e.ota with
  | none => (.error "no OTA session active", e)
  | some ota =>
    match e.search ota.rxCandidates n sessionId fallbackMode o with
    | .fallback payload mode => (.ok ⟨some (payload, mode),none,[]⟩, e)
    | .judged decoded retained session =>
      let settled := { e with otaRetainedLlrs := if decoded.isSome then fun _ => [] else retained, otaRetainedSession := session }
      let snr := e.rxSnrEstimate.or (decoded.map (fun d => o.reading d.candidate.2.1 d.span.1 d.span.2))
      if decoded.isNone ∧ e.lastFlushCapped = true then (.ok ⟨none,none,[]⟩, { settled with lastFlushCapped := false })
      else
        let outcome : RxOutcome := decoded.elim .failed (fun d => .decoded d.candidate.1)
        let (rxAck, ota) := ota.onRxFrame outcome snr
        (.ok ⟨decoded.map (fun d => (d.payload, d.candidate.2.1)),some ⟨rxAck.ackType,sessionId,rxAck.recommendedLevel⟩,[(outcome, snr)]⟩,
          { settled with ota := some ota, lastFlushCapped := false })

def otaDecodeBurst (burst : List Sample) (sessionId : String) (fallbackMode : Option String) (o : Attempts Payload Llr Snr)
    [LE Snr] [DecidableLE Snr] : Except String (OtaRxResult Payload Snr) × Engine Snr Llr Sample :=
  e.otaDecodeAndAckInner burst.length sessionId fallbackMode o

end Engine

section Stages
variable {Payload Llr Snr : Type} {plugins : Plugins} {o : Attempts Payload Llr Snr} {n : Nat} {candidates : List Candidate}
  {d : Decoded Payload}

theorem foundAmong {f : Candidate × Nat → Option (Decoded Payload)} (own : ∀ entry x, f entry = some x → x.candidate = entry.1)
    (found : candidates.zipIdx.findSome? f = some d) : d.candidate ∈ candidates := by
  obtain ⟨entry,member,hit⟩ := List.exists_of_findSome?_eq_some found
  rw [own entry d hit]
  exact List.fst_mem_of_mem_zipIdx member

theorem standaloneAmong (found : tryStandalone o n candidates = some d) : d.candidate ∈ candidates := by
  refine foundAmong ?_ found
  intro entry x hit
  obtain ⟨payload,-,rfl⟩ := Option.map_eq_some_iff.mp hit
  rfl

theorem scanAmong (found : tryScan plugins o n candidates = some d) : d.candidate ∈ candidates := by
  refine foundAmong ?_ found
  intro entry x hit
  simp only at hit
  split at hit
  · cases hit
  · obtain ⟨answer,-,rfl⟩ := Option.map_eq_some_iff.mp hit
    rfl

theorem settleAmong (found : trySettle plugins o n candidates = some d) : d.candidate ∈ candidates := by
  refine foundAmong ?_ found
  intro entry x hit
  simp only at hit
  split at hit
  · obtain ⟨answer,-,rfl⟩ := Option.map_eq_some_iff.mp hit
    rfl
  · cases hit

def RideAlong (candidates : List Candidate) (fallbackMode : Option String) (candidate : Candidate) : Prop :=
  ∃ m, fallbackMode = some m ∧ candidate = (.sl1, m, .none) ∧ ∀ x ∈ candidates, ¬ (x.2.1 = m ∧ x.2.2 = .none)

theorem phase2Among {fallbackMode : Option String} {candidate : Candidate} (member : candidate ∈ phase2 candidates fallbackMode) :
    candidate ∈ candidates ∨ RideAlong candidates fallbackMode candidate := by
  cases fallbackMode with
  | none => exact .inl member
  | some m =>
    simp only [phase2] at member
    split at member
    · exact .inl member
    · rename_i absent
      rcases List.mem_append.mp member with rung | extra
      · exact .inl rung
      · refine .inr ⟨m,rfl,List.mem_singleton.mp extra,fun x inside same => absent ?_⟩
        exact List.any_eq_true.mpr ⟨x,inside,by simp [same]⟩

theorem harqAmong {entries : List (Candidate × Nat)} {retained : String → List Llr}
    (found : (harq plugins o n entries retained).1 = some d) : d.candidate ∈ entries.map (·.1) := by
  induction entries generalizing retained with
  | nil => cases found
  | cons entry rest ih =>
    have later : ∀ {kept}, (harq plugins o n rest kept).1 = some d → d.candidate ∈ (entry::rest).map (·.1) :=
      fun found => List.mem_cons_of_mem _ (ih found)
    simp only [harq] at found
    split at found
    · split at found
      · exact later found
      · split at found
        · cases found
          exact List.mem_cons_self
        · exact later found
    · exact later found

theorem retainBounded (llrs : List Llr) (new : Llr) : (retain llrs new).length ≤ otaHarqMaxAttempts := by
  simp only [retain]
  split
  · rw [List.length_drop]
    omega
  · omega

theorem harqBounded {entries : List (Candidate × Nat)} {retained : String → List Llr}
    (bounded : ∀ m, (retained m).length ≤ otaHarqMaxAttempts) :
    ∀ m, ((harq plugins o n entries retained).2 m).length ≤ otaHarqMaxAttempts := by
  induction entries generalizing retained with
  | nil => exact bounded
  | cons entry rest ih =>
    simp only [harq]
    split
    · split
      · exact ih bounded
      · split
        · exact bounded
        · refine ih fun m => ?_
          by_cases own : m = entry.1.2.1
          · rw [own, Function.update_self]
            exact retainBounded _ _
          · rw [Function.update_of_ne own]
            exact bounded m
    · exact ih bounded

end Stages

section Fuel
variable {Payload : Type} {attempt : Nat → Option Payload} {n step scanEnd maxFrameSamples fuel start : Nat}

theorem scanRound (fuel start : Nat) : scanOnsets n attempt step scanEnd maxFrameSamples (fuel + 1) start =
    if min (start + maxFrameSamples) n ≤ start then none
    else (attempt start).elim
      (if scanEnd ≤ start then none else scanOnsets n attempt step scanEnd maxFrameSamples fuel (min (start + step) scanEnd))
      (fun payload => some (payload, start, min (start + maxFrameSamples) n)) := by
  simp only [scanOnsets]
  cases attempt start <;> rfl

theorem settleRound (fuel start : Nat) : settleOnsets n attempt step scanEnd maxFrameSamples (fuel + 1) start =
    (if start < min (start + maxFrameSamples) n then attempt start else none).elim
      (if scanEnd ≤ start then none else settleOnsets n attempt step scanEnd maxFrameSamples fuel (min (start + step) scanEnd))
      (fun payload => some (payload, start, min (start + maxFrameSamples) n)) := by
  simp only [settleOnsets]
  cases (if start < min (start + maxFrameSamples) n then attempt start else none) <;> rfl

theorem scanFuel (advances : 0 < step) (some' : 0 < fuel) (enough : scanEnd < fuel + start) :
    scanOnsets n attempt step scanEnd maxFrameSamples (fuel + 1) start = scanOnsets n attempt step scanEnd maxFrameSamples fuel start := by
  induction fuel generalizing start with
  | zero => omega
  | succ fuel ih =>
    rw [scanRound (fuel + 1) start, scanRound fuel start]
    by_cases last : scanEnd ≤ start
    · simp only [last, if_true]
    · rw [ih (by omega) (by omega)]

theorem settleFuel (advances : 0 < step) (some' : 0 < fuel) (enough : scanEnd < fuel + start) :
    settleOnsets n attempt step scanEnd maxFrameSamples (fuel + 1) start = settleOnsets n attempt step scanEnd maxFrameSamples fuel start := by
  induction fuel generalizing start with
  | zero => omega
  | succ fuel ih =>
    rw [settleRound (fuel + 1) start, settleRound fuel start]
    by_cases last : scanEnd ≤ start
    · simp only [last, if_true]
    · rw [ih (by omega) (by omega)]

theorem boundsAdvance (plugins : Plugins) (n : Nat) (mode : String) : 0 < (burstOnsetScanBounds plugins n mode).1 := by
  simp only [burstOnsetScanBounds]
  omega

theorem scanEnough (advances : 0 < step) (more : Nat) : scanOnsets n attempt step scanEnd maxFrameSamples (scanEnd + 2 + more) start =
    scanOnsets n attempt step scanEnd maxFrameSamples (scanEnd + 2) start := by
  induction more with
  | zero => rfl
  | succ more ih => rw [← ih, ← Nat.add_assoc, scanFuel advances (by omega) (by omega)]

theorem settleEnough (advances : 0 < step) (more : Nat) : settleOnsets n attempt step scanEnd maxFrameSamples (scanEnd + 2 + more) start =
    settleOnsets n attempt step scanEnd maxFrameSamples (scanEnd + 2) start := by
  induction more with
  | zero => rfl
  | succ more ih => rw [← ih, ← Nat.add_assoc, settleFuel advances (by omega) (by omega)]

end Fuel

end OpenPulse.OtaDecode
