import Mathlib.Algebra.Ring.Int.Defs
import OpenPulse.Engine
import OpenPulse.OtaDecode

/-! The carrier correction while a burst is decoded: `decode_burst` and `ota_decode_burst` of
`openpulse-modem/src/engine.rs`. A correction is any value; what an attempt answers, and what it
makes of the engine and of the correction in it, is given from outside. -/
namespace OpenPulse.BurstAfc
open OtaRate
open OtaDecode (Plugins Candidate AckFrame burstOnsetScanBounds phase2 soft retain)
open OpenPulse.Engine (ModemError)

/- `rest` is all of the engine that the stages below neither read nor write. -/
structure Engine (A R W : Type) where
  afcCorrectionHz : A
  inputPrerouted : Bool
  suppressAfcEvents : Bool
  otaRetainedLlrs : String → List (List R)
  otaRetainedSession : Option String
  rest : W

structure AfcSettleOutcome where
  converged : Bool
  isPlausible : Bool
  worthRetrying : Bool

structure Decoded (Payload : Type) where
  payload : Payload
  candidate : Candidate
  span : Nat × Nat

structure Attempts (A R W Payload : Type) where
  decodeAttempt : String → Nat × Nat → FecMode → Engine A R W → Except ModemError Payload × Engine A R W
  updateAfcEstimate : String → Nat × Nat → Engine A R W → Engine A R W
  afcMiniSettle : String → Nat × Nat → Engine A R W → AfcSettleOutcome × Engine A R W
  vetoAccepts : String → Nat × Nat → Engine A R W → Bool × Engine A R W
  otaDemodulateSoft : String → Engine A R W → Except ModemError (List R) × Engine A R W
  decodeCombinedLlrs : String → List (List R) → FecMode → Engine A R W → Except ModemError Payload × Engine A R W
  /-- The verdict of the rate controller, which reads the correction and changes only the rest. -/
  judge : Option (Decoded Payload) → Engine A R W → Option AckFrame × W
  /-- The order of corrections. -/
  atMost : A → A → Bool

structure OtaRxResult (Payload : Type) where
  payload : Option (Payload × String)
  ack : Option AckFrame

def phase2StepMultiplier : Nat := 4

def onsets (step scanEnd start : Nat) : List Nat :=
  if scanEnd ≤ start then [start] else start :: onsets step scanEnd (min (start + max step 1) scanEnd)
termination_by scanEnd - start
decreasing_by omega

section
variable {A R W Payload : Type} (plugins : Plugins) (o : Attempts A R W Payload) (mode : String) (n : Nat)

def Engine.withAfc (e : Engine A R W) (afc : A) : Engine A R W := { e with afcCorrectionHz := afc }

def afcWindow : Nat := max (plugins.frameScanGeometry mode).2.1 (plugins.frameScanGeometry mode).2.2.1

def acquireAtOnset (start : Nat) (e : Engine A R W) : Bool × Engine A R W :=
  let settleEnd := min (start + afcWindow plugins mode) n
  if settleEnd - start < afcWindow plugins mode then (false,e)
  else
    let (outcome,e) := o.afcMiniSettle mode (start,settleEnd) e
    if outcome.converged && outcome.isPlausible && outcome.worthRetrying then o.vetoAccepts mode (start,settleEnd) e else (false,e)

def corrections (entry : A) : List Nat → Engine A R W → List A × Engine A R W
  | [], e => ([],e)
  | start::starts, e =>
    let (accepted,tried) := acquireAtOnset plugins o mode n start e
    let (found,e) := corrections entry starts (tried.withAfc entry)
    (if accepted then tried.afcCorrectionHz :: found else found,e)

def acquireBurstCorrection (step scanEnd : Nat) (e : Engine A R W) : Option A × Engine A R W :=
  let coarse := max (step * phase2StepMultiplier) 1
  let (found,e) := corrections plugins o mode n e.afcCorrectionHz (onsets coarse scanEnd 0) e
  ((found.mergeSort o.atMost)[found.length / 2]?,e)

def receiveFromSamples (e : Engine A R W) : Except ModemError Payload × Engine A R W := o.decodeAttempt mode (0,n) .none e

def scanFrom (maxFrameSamples : Nat) (settle : Bool) : List Nat → ModemError → Engine A R W → Except ModemError Payload × Engine A R W
  | [], lastErr, e => (.error lastErr,e)
  | start::starts, lastErr, e =>
    let stop := min (start + maxFrameSamples) n
    let afcBefore := e.afcCorrectionHz
    let (accepted,e) := if settle then acquireAtOnset plugins o mode n start e else (true,e)
    if accepted then
      match o.decodeAttempt mode (start,stop) .none e with
      | (.ok payload,e) => (.ok payload,o.updateAfcEstimate mode (start,stop) e)
      | (.error err,e) => scanFrom maxFrameSamples settle starts err (e.withAfc afcBefore)
    else scanFrom maxFrameSamples settle starts lastErr (e.withAfc afcBefore)

def scanBurstOnsets (step scanEnd maxFrameSamples : Nat) (settle : Bool) (e : Engine A R W) :
    Except ModemError Payload × Engine A R W :=
  scanFrom plugins o mode n maxFrameSamples settle (onsets step scanEnd 0) (.demodulation "no onset attempted") e

def decodeBurstPhase1 (e : Engine A R W) : Except ModemError Payload × Engine A R W :=
  let quiet := { e with inputPrerouted := true, suppressAfcEvents := true }
  let (result,after) :=
    if n < (plugins.frameScanGeometry mode).2.2.1 then receiveFromSamples o mode n quiet
    else
      let (step,scanEnd,maxFrameSamples) := burstOnsetScanBounds plugins n mode
      scanBurstOnsets plugins o mode n step scanEnd maxFrameSamples false quiet
  (result,{ after with inputPrerouted := e.inputPrerouted, suppressAfcEvents := e.suppressAfcEvents })

/- A failure of the second phase resets the correction to zero. -/
def decodeBurstInner [Zero A] (e : Engine A R W) : Except ModemError Payload × Engine A R W :=
  if n < (plugins.frameScanGeometry mode).2.2.1 then receiveFromSamples o mode n e
  else
    let (step,scanEnd,maxFrameSamples) := burstOnsetScanBounds plugins n mode
    match scanBurstOnsets plugins o mode n step scanEnd maxFrameSamples false e with
    | (.ok payload,e) => (.ok payload,e)
    | (.error phase1Err,e) =>
      match acquireBurstCorrection plugins o mode n step scanEnd e with
      | (some correction,e) =>
        match scanBurstOnsets plugins o mode n step scanEnd maxFrameSamples false (e.withAfc correction) with
        | (.ok payload,e) => (.ok payload,e)
        | (.error _,e) => (.error phase1Err,e.withAfc 0)
      | (none,e) => (.error phase1Err,e)

def decodeBurst [Zero A] (e : Engine A R W) : Except ModemError Payload × Engine A R W :=
  let (result,after) := decodeBurstInner plugins o mode n { e with inputPrerouted := true, suppressAfcEvents := true }
  (result,{ after with inputPrerouted := e.inputPrerouted, suppressAfcEvents := e.suppressAfcEvents })

variable (afcBefore : A)

def standalone : List Candidate → Engine A R W → Option (Decoded Payload) × Engine A R W
  | [], e => (none,e)
  | c::cs, e =>
    match o.decodeAttempt c.2.1 (0,n) c.2.2 (e.withAfc afcBefore) with
    | (.ok payload,e) => (some ⟨payload,c,0,n⟩,e)
    | (.error _,e) => standalone cs e

def fallback (fallbackMode : Option String) (e : Engine A R W) : Option (Payload × String) × Engine A R W :=
  match fallbackMode with
  | none => (none,e)
  | some mode =>
    match decodeBurstPhase1 plugins o mode n (e.withAfc afcBefore) with
    | (.ok payload,e) => (some (payload,mode),e)
    | (.error _,e) => (none,e.withAfc afcBefore)

def scanCandidate (c : Candidate) (maxFrameSamples : Nat) : List Nat → Engine A R W → Option (Decoded Payload) × Engine A R W
  | [], e => (none,e)
  | start::starts, e =>
    let stop := min (start + maxFrameSamples) n
    let e := e.withAfc afcBefore
    if stop ≤ start then (none,e)
    else
      match o.decodeAttempt c.2.1 (start,stop) c.2.2 e with
      | (.ok payload,e) => (some ⟨payload,c,start,stop⟩,o.updateAfcEstimate c.2.1 (start,stop) e)
      | (.error _,e) => scanCandidate c maxFrameSamples starts e

def tryScan : List Candidate → Engine A R W → Option (Decoded Payload) × Engine A R W
  | [], e => (none,e)
  | c::cs, e =>
    let (step,scanEnd,maxFrameSamples) := burstOnsetScanBounds plugins n c.2.1
    if scanEnd = 0 then tryScan cs e
    else
      match scanCandidate o n afcBefore c maxFrameSamples (onsets step scanEnd step) e with
      | (some d,e) => (some d,e)
      | (none,e) => tryScan cs e

def settleCandidate (correction : A) (c : Candidate) (maxFrameSamples : Nat) :
    List Nat → Engine A R W → Option (Decoded Payload) × Engine A R W
  | [], e => (none,e)
  | start::starts, e =>
    let stop := min (start + maxFrameSamples) n
    let e := e.withAfc correction
    if start < stop then
      match o.decodeAttempt c.2.1 (start,stop) c.2.2 e with
      | (.ok payload,e) => (some ⟨payload,c,start,stop⟩,o.updateAfcEstimate c.2.1 (start,stop) e)
      | (.error _,e) => settleCandidate correction c maxFrameSamples starts e
    else settleCandidate correction c maxFrameSamples starts e

def trySettle : List Candidate → Engine A R W → Option (Decoded Payload) × Engine A R W
  | [], e => (none,e)
  | c::cs, e =>
    let (step,scanEnd,maxFrameSamples) := burstOnsetScanBounds plugins n c.2.1
    match acquireBurstCorrection plugins o c.2.1 n step scanEnd (e.withAfc afcBefore) with
    | (none,e) => trySettle cs e
    | (some correction,e) =>
      match settleCandidate o n correction c maxFrameSamples (onsets step scanEnd 0) e with
      | (some d,e) => (some d,e)
      | (none,e) => trySettle cs e

def committed (found : Option (Decoded Payload) × Engine A R W) : Option (Decoded Payload) × Engine A R W :=
  if found.1.isSome then found else (found.1,found.2.withAfc afcBefore)

variable [Zero R]

def aligned (length : Nat) (llrs : List R) : List R := llrs.take length ++ List.replicate (length - llrs.length) 0

def tryCombined (c : Candidate) (retained : List (List R)) (llrs : List R) : Nat → Engine A R W → Option Payload × Engine A R W
  | 0, e => (none,e)
  | take + 1, e =>
    match o.decodeCombinedLlrs c.2.1 (retained.drop (retained.length - (take + 1)) ++ [llrs]) c.2.2 e with
    | (.ok payload,e) => (some payload,e)
    | (.error _,e) => tryCombined c retained llrs take e

def harq : List Candidate → Engine A R W → Option (Decoded Payload) × Engine A R W
  | [], e => (none,e)
  | c::cs, e =>
    if soft plugins c then
      match o.otaDemodulateSoft c.2.1 (e.withAfc afcBefore) with
      | (.error _,e) => harq cs e
      | (.ok llrs,e) =>
        let retained := (e.otaRetainedLlrs c.2.1).map (aligned llrs.length)
        match tryCombined o c retained llrs retained.length e with
        | (some payload,e) => (some ⟨payload,c,0,n⟩,e)
        | (none,e) =>
          harq cs { e with otaRetainedLlrs := Function.update e.otaRetainedLlrs c.2.1 (retain (e.otaRetainedLlrs c.2.1) llrs) }
    else harq cs e

def forSession (sessionId : String) (e : Engine A R W) : Engine A R W :=
  if e.otaRetainedSession = some sessionId then e
  else { e with otaRetainedLlrs := fun _ => [], otaRetainedSession := some sessionId }

def deeper (candidates : List Candidate) (fallbackMode : Option String) (sessionId : String) (e : Engine A R W) :
    Option (Decoded Payload) × Engine A R W :=
  match committed afcBefore (tryScan plugins o n afcBefore candidates e) with
  | (some d,e) => (some d,e)
  | (none,e) =>
    match committed afcBefore (trySettle plugins o n afcBefore (phase2 candidates fallbackMode) e) with
    | (some d,e) => (some d,e)
    | (none,e) => committed afcBefore (harq plugins o n afcBefore candidates (forSession sessionId e))

def judged (found : Option (Decoded Payload) × Engine A R W) : OtaRxResult Payload × Engine A R W :=
  let e := if found.1.isSome then { found.2 with otaRetainedLlrs := fun _ => [] } else found.2
  let (ack,rest) := o.judge found.1 e
  (⟨found.1.map fun d => (d.payload,d.candidate.2.1),ack⟩,{ e with rest := rest })

/- The rungs of the rate controller; there are none without a session. -/
def otaDecodeAndAckInner (rxCandidates : Option (List Candidate)) (sessionId : String) (fallbackMode : Option String)
    (e : Engine A R W) : Except ModemError (OtaRxResult Payload) × Engine A R W :=
  match rxCandidates with
  | none => (.error (.configuration "no OTA session active"),e)
  | some candidates =>
    let afcBefore := e.afcCorrectionHz
    match standalone o n afcBefore candidates e with
    | (some d,e) =>
      let (result,e) := judged o (some d,e)
      (.ok result,e)
    | (none,e) =>
      match fallback plugins o n afcBefore fallbackMode e with
      | (some payload,e) => (.ok ⟨some payload,none⟩,e)
      | (none,e) =>
        let (result,e) := judged o (deeper plugins o n afcBefore candidates fallbackMode sessionId e)
        (.ok result,e)

def otaDecodeBurst (rxCandidates : Option (List Candidate)) (sessionId : String) (fallbackMode : Option String)
    (e : Engine A R W) : Except ModemError (OtaRxResult Payload) × Engine A R W :=
  let (result,after) := otaDecodeAndAckInner plugins o n rxCandidates sessionId fallbackMode
    { e with inputPrerouted := true, suppressAfcEvents := true }
  (result,{ after with inputPrerouted := e.inputPrerouted, suppressAfcEvents := e.suppressAfcEvents })

end

section
variable {A R W Payload : Type} {plugins : Plugins} {o : Attempts A R W Payload} {mode : String} {n : Nat}

theorem scanRestores {maxFrameSamples : Nat} {settle : Bool} {starts : List Nat} {lastErr err : ModemError} {e after : Engine A R W}
    (failed : scanFrom plugins o mode n maxFrameSamples settle starts lastErr e = (.error err,after)) :
    after.afcCorrectionHz = e.afcCorrectionHz := by
  induction starts generalizing lastErr e with
  | nil =>
    cases failed
    rfl
  | cons start starts ih =>
    rw [scanFrom] at failed
    generalize (if settle then acquireAtOnset plugins o mode n start e else (true,e)) = tried at failed
    obtain ⟨accepted,e'⟩ := tried
    dsimp only at failed
    cases accepted with
    | false => exact (ih failed).trans rfl
    | true =>
      generalize o.decodeAttempt mode (start,min (start + maxFrameSamples) n) .none e' = attempt at failed
      obtain ⟨payload | x,e''⟩ := attempt
      · exact (ih failed).trans rfl
      · cases failed

theorem correctionsRestore {entry : A} {starts : List Nat} {e : Engine A R W} (here : e.afcCorrectionHz = entry) :
    (corrections plugins o mode n entry starts e).2.afcCorrectionHz = entry := by
  induction starts generalizing e with
  | nil => exact here
  | cons start starts ih => exact ih rfl

theorem acquireRestores (plugins : Plugins) (o : Attempts A R W Payload) (mode : String) (n step scanEnd : Nat) (e : Engine A R W) :
    (acquireBurstCorrection plugins o mode n step scanEnd e).2.afcCorrectionHz = e.afcCorrectionHz := correctionsRestore rfl

theorem acquireShort (o : Attempts A R W Payload) (short : n < afcWindow plugins mode) (step scanEnd : Nat) (e : Engine A R W) :
    (acquireBurstCorrection plugins o mode n step scanEnd e).1 = none := by
  have none : ∀ (entry : A) (starts : List Nat) (e : Engine A R W), (corrections plugins o mode n entry starts e).1 = [] := by
    intro entry starts
    induction starts with
    | nil => exact fun _ => rfl
    | cons start starts ih =>
      intro e
      have refused : acquireAtOnset plugins o mode n start e = (false,e) := if_pos (by omega)
      rw [corrections, refused]
      exact ih _
  rw [acquireBurstCorrection]
  simp only [none, List.mergeSort_nil, List.getElem?_nil]

theorem innerRestores [Zero A] {e after : Engine A R W} {err : ModemError} (long : (plugins.frameScanGeometry mode).2.2.1 ≤ n)
    (quiet : e.afcCorrectionHz = 0 ∨ n < afcWindow plugins mode)
    (failed : decodeBurstInner plugins o mode n e = (.error err,after)) : after.afcCorrectionHz = e.afcCorrectionHz := by
  rw [decodeBurstInner, if_neg (Nat.not_lt.mpr long)] at failed
  generalize burstOnsetScanBounds plugins n mode = bounds at failed
  obtain ⟨step,scanEnd,maxFrameSamples⟩ := bounds
  dsimp only at failed
  cases first : scanBurstOnsets plugins o mode n step scanEnd maxFrameSamples false e with
  | mk result middle =>
    rw [first] at failed
    cases result with
    | ok payload => cases failed
    | error phase1Err =>
      have back := scanRestores first
      have kept := acquireRestores plugins o mode n step scanEnd middle
      have short := fun window : n < afcWindow plugins mode => acquireShort o window step scanEnd middle
      cases acquired : acquireBurstCorrection plugins o mode n step scanEnd middle with
      | mk found last =>
        rw [acquired] at kept short
        dsimp only at failed
        rw [acquired] at failed
        cases found with
        | none =>
          cases failed
          exact kept.trans back
        | some correction =>
          have zero : e.afcCorrectionHz = 0 := quiet.resolve_right fun window => Option.some_ne_none _ (short window)
          dsimp only at failed
          cases second : scanBurstOnsets plugins o mode n step scanEnd maxFrameSamples false (last.withAfc correction) with
          | mk result rescanned =>
            rw [second] at failed
            cases result with
            | ok payload => cases failed
            | error _ =>
              cases failed
              exact zero.symm

def failing (leave : A → A) : Attempts A R W Payload where
  decodeAttempt _ _ _ e := (.error (.demodulation "no frame"),e.withAfc (leave e.afcCorrectionHz))
  updateAfcEstimate _ _ e := e
  afcMiniSettle _ _ e := (⟨true,true,true⟩,e)
  vetoAccepts _ _ e := (true,e)
  otaDemodulateSoft _ e := (.error (.demodulation "no symbols"),e)
  decodeCombinedLlrs _ _ _ e := (.error (.demodulation "no frame"),e)
  judge _ e := (none,e.rest)
  atMost _ _ := true

theorem scanFails (plugins : Plugins) (mode : String) (n : Nat) (leave : A → A) (step scanEnd maxFrameSamples : Nat) (e : Engine A R W) :
    ∃ err, scanBurstOnsets plugins (failing leave : Attempts A R W Payload) mode n step scanEnd maxFrameSamples false e =
      (.error err,e) := by
  have from' : ∀ starts lastErr, ∃ err,
      scanFrom plugins (failing leave : Attempts A R W Payload) mode n maxFrameSamples false starts lastErr e = (.error err,e) := by
    intro starts
    induction starts with
    | nil => exact fun lastErr => ⟨lastErr,rfl⟩
    | cons start starts ih => exact fun _ => ih _
  exact from' _ _

theorem onsetsHead (step scanEnd start : Nat) : ∃ rest, onsets step scanEnd start = start :: rest := by
  rw [onsets]
  split
  · exact ⟨[],rfl⟩
  · exact ⟨_,rfl⟩

theorem acquireSucceeds (leave : A → A) (long : afcWindow plugins mode ≤ n) (step scanEnd : Nat) (e : Engine A R W) :
    ∃ correction, (acquireBurstCorrection plugins (failing leave : Attempts A R W Payload) mode n step scanEnd e).1 = some correction := by
  obtain ⟨rest,starts⟩ := onsetsHead (max (step * phase2StepMultiplier) 1) scanEnd 0
  have accepted : (acquireAtOnset plugins (failing leave : Attempts A R W Payload) mode n 0 e).1 = true := by
    rw [acquireAtOnset, if_neg (by omega)]
    rfl
  have some' : (corrections plugins (failing leave : Attempts A R W Payload) mode n e.afcCorrectionHz (0::rest) e).1 ≠ [] := by
    rw [corrections]
    dsimp only
    rw [accepted, if_pos rfl]
    exact List.cons_ne_nil _ _
  have inside := Nat.div_lt_self (List.length_pos_iff.mpr some') (by decide : 1 < 2)
  rw [acquireBurstCorrection, starts]
  exact ⟨_,List.getElem?_eq_getElem (by rw [List.length_mergeSort]; exact inside)⟩

theorem resetLeaks (Payload : Type) [Zero A] (long : (plugins.frameScanGeometry mode).2.2.1 ≤ n)
    (window : afcWindow plugins mode ≤ n) (e : Engine A R W) : ∃ err after,
      decodeBurstInner plugins (failing id : Attempts A R W Payload) mode n e = (.error err,after) ∧ after.afcCorrectionHz = 0 := by
  generalize bounds : burstOnsetScanBounds plugins n mode = b
  obtain ⟨step,scanEnd,maxFrameSamples⟩ := b
  have scan : ∀ x : Engine A R W, ∃ err,
      scanBurstOnsets plugins (failing id : Attempts A R W Payload) mode n step scanEnd maxFrameSamples false x = (.error err,x) :=
    scanFails plugins mode n id step scanEnd maxFrameSamples
  have acquires : ∃ correction,
      (acquireBurstCorrection plugins (failing id : Attempts A R W Payload) mode n step scanEnd e).1 = some correction :=
    acquireSucceeds id window step scanEnd e
  obtain ⟨err,first⟩ := scan e
  obtain ⟨correction,found⟩ := acquires
  generalize acquired : acquireBurstCorrection plugins (failing id : Attempts A R W Payload) mode n step scanEnd e = answer at found
  obtain ⟨answer,last⟩ := answer
  obtain rfl : answer = some correction := found
  obtain ⟨err',second⟩ := scan (last.withAfc correction)
  refine ⟨err,(last.withAfc correction).withAfc 0,?_,rfl⟩
  rw [decodeBurstInner, if_neg (Nat.not_lt.mpr long), bounds]
  dsimp only
  rw [first]
  dsimp only
  rw [acquired]
  dsimp only
  rw [second]

theorem shortLeaks (Payload : Type) [Zero A] (short : n < (plugins.frameScanGeometry mode).2.2.1) (b : A) (e : Engine A R W) :
    decodeBurstInner plugins (failing fun _ => b : Attempts A R W Payload) mode n e =
      (.error (.demodulation "no frame"),e.withAfc b) := by
  rw [decodeBurstInner, if_pos short]
  rfl

theorem innerLeaks [Zero A] [Nontrivial A] {e : Engine A R W}
    (leaks : ¬ ((plugins.frameScanGeometry mode).2.2.1 ≤ n ∧ (e.afcCorrectionHz = 0 ∨ n < afcWindow plugins mode))) :
    ∃ (o : Attempts A R W Payload) (err : ModemError) (after : Engine A R W),
      decodeBurstInner plugins o mode n e = (.error err,after) ∧ after.afcCorrectionHz ≠ e.afcCorrectionHz := by
  by_cases long : (plugins.frameScanGeometry mode).2.2.1 ≤ n
  · rw [not_and, not_or, Nat.not_lt] at leaks
    obtain ⟨other,window⟩ := leaks long
    obtain ⟨err,after,failed,zero⟩ := resetLeaks Payload long window e
    exact ⟨_,err,after,failed,fun same => other (same.symm.trans zero)⟩
  · obtain ⟨b,differs⟩ := exists_ne e.afcCorrectionHz
    exact ⟨_,_,_,shortLeaks Payload (Nat.not_le.mp long) b e,differs⟩

theorem committedRestores {afcBefore : A} (found : Option (Decoded Payload) × Engine A R W)
    (nothing : (committed afcBefore found).1 = none) : (committed afcBefore found).2.afcCorrectionHz = afcBefore := by
  unfold committed at nothing ⊢
  split
  · rename_i decoded
    rw [if_pos decoded] at nothing
    rw [nothing] at decoded
    cases decoded
  · rfl

theorem deeperRestores [Zero R] {afcBefore : A} {candidates : List Candidate} {fallbackMode : Option String} {sessionId : String}
    {e : Engine A R W} (nothing : (deeper plugins o n afcBefore candidates fallbackMode sessionId e).1 = none) :
    (deeper plugins o n afcBefore candidates fallbackMode sessionId e).2.afcCorrectionHz = afcBefore := by
  unfold deeper at nothing ⊢
  split
  · rename_i d after scanned
    rw [scanned] at nothing
    cases nothing
  · rename_i after scanned
    rw [scanned] at nothing
    dsimp only at nothing
    split
    · rename_i d last settled
      rw [settled] at nothing
      cases nothing
    · rename_i last settled
      rw [settled] at nothing
      exact committedRestores _ nothing

theorem judgedKeeps (found : Option (Decoded Payload) × Engine A R W) :
    (judged o found).2.afcCorrectionHz = found.2.afcCorrectionHz ∧ ((judged o found).1.payload = none ↔ found.1 = none) := by
  refine ⟨?_,Option.map_eq_none_iff⟩
  unfold judged
  dsimp only
  split <;> rfl

def payloadOf (result : Except ModemError (OtaRxResult Payload)) : Option (Payload × String) :=
  match result with
  | .ok r => r.payload
  | .error _ => none

theorem otaInnerRestores [Zero R] {rxCandidates : Option (List Candidate)} {sessionId : String} {fallbackMode : Option String}
    {e : Engine A R W} (nothing : payloadOf (otaDecodeAndAckInner plugins o n rxCandidates sessionId fallbackMode e).1 = none) :
    (otaDecodeAndAckInner plugins o n rxCandidates sessionId fallbackMode e).2.afcCorrectionHz = e.afcCorrectionHz := by
  cases rxCandidates with
  | none => rfl
  | some candidates =>
    unfold otaDecodeAndAckInner at nothing ⊢
    dsimp only at nothing ⊢
    generalize standalone o n e.afcCorrectionHz candidates e = first at nothing ⊢
    obtain ⟨_ | d,e'⟩ := first
    · dsimp only at nothing ⊢
      generalize fallback plugins o n e.afcCorrectionHz fallbackMode e' = second at nothing ⊢
      obtain ⟨_ | payload,e''⟩ := second
      · have kept := judgedKeeps (o := o) (deeper plugins o n e.afcCorrectionHz candidates fallbackMode sessionId e'')
        exact kept.1.trans (deeperRestores (kept.2.mp nothing))
      · cases nothing
    · cases nothing

/-- A decode that fails leaves the correction alone: always under a session, and for a single burst exactly when the burst
can hold a frame and there is nothing to lose or no room for an acquisition. -/
theorem failedBurstAfc [Zero A] [Nontrivial A] [Zero R] (plugins : Plugins) (mode : String) (n : Nat) (e : Engine A R W) :
    ((∀ o : Attempts A R W Payload, ∀ err, (decodeBurst plugins o mode n e).1 = .error err →
        (decodeBurst plugins o mode n e).2.afcCorrectionHz = e.afcCorrectionHz) ↔
      (plugins.frameScanGeometry mode).2.2.1 ≤ n ∧ (e.afcCorrectionHz = 0 ∨ n < afcWindow plugins mode)) ∧
    ∀ (o : Attempts A R W Payload) (rxCandidates : Option (List Candidate)) (sessionId : String) (fallbackMode : Option String),
      payloadOf (otaDecodeBurst plugins o n rxCandidates sessionId fallbackMode e).1 = none →
        (otaDecodeBurst plugins o n rxCandidates sessionId fallbackMode e).2.afcCorrectionHz = e.afcCorrectionHz := by
  refine ⟨⟨fun restores => ?_,fun ⟨long,quiet⟩ o err failed => ?_⟩,fun o rxCandidates sessionId fallbackMode nothing => ?_⟩
  · by_contra leaks
    obtain ⟨o,err,after,failed,other⟩ := @innerLeaks A R W Payload plugins mode n _ _
      { e with inputPrerouted := true, suppressAfcEvents := true } leaks
    refine other ?_
    have kept := restores o err (by rw [decodeBurst, failed])
    rwa [decodeBurst, failed] at kept
  · unfold decodeBurst at failed ⊢
    generalize inner : decodeBurstInner plugins o mode n { e with inputPrerouted := true, suppressAfcEvents := true } = answer at failed ⊢
    obtain ⟨result,after⟩ := answer
    obtain rfl : result = .error err := failed
    have kept := fun settled => innerRestores long settled inner
    exact kept quiet
  · exact otaInnerRestores nothing

end

def geometry : Plugins := ⟨fun _ => (32,1024,1056,72960),fun _ => true⟩
def settledEngine : Engine Int Int Unit := ⟨12,false,false,fun _ => [],none,()⟩
def freshEngine : Engine Int Int Unit := settledEngine.withAfc 0

theorem failedBurstAfcFresh :
    (decodeBurst geometry (failing id : Attempts Int Int Unit Unit) "BPSK250" 4096 freshEngine).2.afcCorrectionHz = 0 := by
  obtain ⟨err,after,failed,-⟩ := @resetLeaks Int Int Unit geometry "BPSK250" 4096 Unit _ (by decide) (by decide)
    ⟨0,true,true,fun _ => [],none,()⟩
  exact (failedBurstAfc geometry "BPSK250" 4096 freshEngine).1.mpr (by decide) (failing id) err (congrArg Prod.fst failed)

theorem settledBurstLost :
    (∃ err, (decodeBurst geometry (failing id : Attempts Int Int Unit Unit) "BPSK250" 4096 settledEngine).1 = .error err) ∧
    (decodeBurst geometry (failing id : Attempts Int Int Unit Unit) "BPSK250" 4096 settledEngine).2.afcCorrectionHz = 0 ∧
    (∃ err, (decodeBurst geometry (failing fun _ => 7 : Attempts Int Int Unit Unit) "BPSK250" 100 settledEngine).1 = .error err) ∧
    (decodeBurst geometry (failing fun _ => 7 : Attempts Int Int Unit Unit) "BPSK250" 100 settledEngine).2.afcCorrectionHz = 7 ∧
    settledEngine.afcCorrectionHz = 12 := by
  obtain ⟨err,after,failed,zero⟩ := @resetLeaks Int Int Unit geometry "BPSK250" 4096 Unit _ (by decide) (by decide)
    ⟨12,true,true,fun _ => [],none,()⟩
  refine ⟨⟨err,?_⟩,?_,⟨_,rfl⟩,rfl,rfl⟩
  · exact congrArg Prod.fst failed
  · exact (congrArg (fun r => r.2.afcCorrectionHz) failed).trans zero

end OpenPulse.BurstAfc
