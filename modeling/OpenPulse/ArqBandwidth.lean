import OpenPulse.Bandplan
import OpenPulse.RateLevels

/-! The ARDOP host's bandwidth limit. A command handler stores it, the worker loop turns
it into a cap when it differs from the one it last saw, and the rate policy enforces the
cap. The three are joined here over every interleaving. -/
namespace OpenPulse.ArqBandwidth
open OtaRate (SpeedLevel AckType)
open RatePolicy RateAdaptationPolicy Runs
open Bandplan (occupiedBandwidthHz)

def maxSpeedLevelForBandwidth (modes : List (SpeedLevel × String)) (maxHz : UInt32) : Option SpeedLevel :=
  ((modes.filter (fun entry => (occupiedBandwidthHz entry.2).any (fun bw => bw ≤ maxHz))).map (·.1)).max?

structure Bridge (Snr : Type) where
  policy : RateAdaptationPolicy Snr
  arqBw : UInt16
  lastArqBw : UInt16

def validBw : List UInt16 := [200,500,1000,2000]

namespace Bridge
variable {Snr : Type}

def start : Bridge Snr := { policy := .new, arqBw := 500, lastArqBw := 0 }

variable (b : Bridge Snr)

/- The argument as parsed, `none` when it is missing or no number. -/
def handleArqBw (parsed : Option UInt16) : Bridge Snr :=
  match parsed with
  | some bw => if bw ∈ validBw then { b with arqBw := bw } else b
  | none => b

def startAdaptiveSession (profile : SessionProfile Snr) : Bridge Snr := { b with policy := b.policy.startSession profile }

/- One iteration of the worker. The lock on the limit may be taken, and then nothing is read. -/
def workerIteration (read : Bool) : Bridge Snr :=
  if read = true ∧ b.arqBw ≠ b.lastArqBw then
    let policy := if b.policy.currentTxLevel.isSome then
        b.policy.setMaxTxLevel (maxSpeedLevelForBandwidth b.policy.definedModes b.arqBw.toUInt32)
      else b.policy
    { b with policy, lastArqBw := b.arqBw }
  else b

end Bridge

inductive Event (Snr : Type) where
  | arqBw (parsed : Option UInt16)
  | startAdaptiveSession (profile : SessionProfile Snr)
  | worker (read : Bool)
  | update (e : RateLevels.Event Snr)

/- What an ACK or an SNR report can do to the policy. A cap and a session come from elsewhere. -/
def Report {Snr : Type} : RateLevels.Event Snr → Prop
  | .setMaxTxLevel _ | .startSession _ => False
  | _ => True

def Known {Snr : Type} : Event Snr → Prop
  | .update e => Report e
  | _ => True

variable {Snr : Type} [LT Snr] [DecidableLT Snr]

def next (b : Bridge Snr) : Event Snr → Bridge Snr
  | .arqBw parsed => b.handleArqBw parsed
  | .startAdaptiveSession profile => b.startAdaptiveSession profile
  | .worker read => b.workerIteration read
  | .update e => { b with policy := RateLevels.step b.policy e }

def ModeFits (limit : UInt16) (mode : String) : Prop := ∃ bw, occupiedBandwidthHz mode = some bw ∧ bw ≤ limit.toUInt32

def SomeFits (profile : SessionProfile Snr) (limit : UInt16) : Prop :=
  ∃ l mode, profile.modeFor l = some mode ∧ ModeFits limit mode

/- A level where the session may be under the limit. With no fitting mode only the
lowest mapped level is one. `spared` are the unmapped levels that do not count
against the limit: nothing is sent there with a mode of the profile. -/
structure Within (spared : SpeedLevel → Prop) (profile : SessionProfile Snr) (limit : UInt16) (l : SpeedLevel) : Prop where
  fits : SomeFits profile limit → (∃ mode, profile.modeFor l = some mode ∧ ModeFits limit mode) ∨ profile.modeFor l = none ∧ spared l
  lowest : ¬ SomeFits profile limit → profile.definedLevels.head? = some l

def Respected (spared : SpeedLevel → Prop) (b : Bridge Snr) : Prop :=
  ∀ profile adapter, InSession profile adapter b.policy → ∀ reports, (∀ e ∈ reports, Report e) →
    ∀ l, (run RateLevels.step b.policy reports).currentTxLevel = some l → Within spared profile b.arqBw l

def RespectedAfter (spared : SpeedLevel → Prop) (b : Bridge Snr) : Event Snr → Prop
  | .worker read => Respected spared (next b (.worker read))
  | _ => True

def Reach (profile : SessionProfile Snr) (cap : Option SpeedLevel) (tx l : SpeedLevel) : Prop :=
  l ≤ tx ∨ ∃ rung ∈ profile.definedLevels, l ≤ underCap cap rung

def Applies (b : Bridge Snr) (read : Bool) : Prop := read = true ∧ b.arqBw ≠ b.lastArqBw

instance (b : Bridge Snr) (read : Bool) : Decidable (Applies b read) := inferInstanceAs (Decidable (_ ∧ _))

def newCap (b : Bridge Snr) : Option SpeedLevel := maxSpeedLevelForBandwidth b.policy.definedModes b.arqBw.toUInt32

def FitsBelow (spared : SpeedLevel → Prop) (b : Bridge Snr) : Event Snr → Prop
  | .worker read => ∀ profile adapter, InSession profile adapter b.policy → ∀ l,
      (if Applies b read then Reach profile (newCap b) (underCap (newCap b) adapter.txLevel) l
        else Reach profile b.policy.maxTxLevel adapter.txLevel l) →
      Within spared profile b.arqBw l
  | _ => True

section Reports
variable {s : RateAdaptationPolicy Snr} {profile : SessionProfile Snr} {adapter : BiDirRateAdapter} {cap : Option SpeedLevel}
  {tx : SpeedLevel}

omit [LT Snr] [DecidableLT Snr] in
theorem underCapDown (cap : Option SpeedLevel) (l : SpeedLevel) : underCap cap l ≤ l := by
  cases cap with
  | none => exact le_refl _
  | some cap => exact min_le_left l cap

omit [LT Snr] [DecidableLT Snr] in
theorem reachDown {l m : SpeedLevel} (down : m ≤ l) (reach : Reach profile cap tx l) : Reach profile cap tx m := by
  rcases reach with own | ⟨rung,member,under⟩
  · exact .inl (le_trans down own)
  · exact .inr ⟨rung,member,le_trans down under⟩

omit [LT Snr] [DecidableLT Snr] in
theorem reachAsked (reach : Reach profile cap tx adapter.txLevel) (ack : AckType) :
    Reach profile cap tx (underCap cap (asked s profile adapter ack)) := by
  simp only [asked]
  split
  · split
    · exact reachDown (underCapDown cap _) reach
    · cases found : nextMappedLevelAbove profile adapter.txLevel with
      | none => exact reachDown (underCapDown cap _) reach
      | some target => exact .inr ⟨target,(nextMappedRung found).member,le_refl _⟩
  · split
    · exact reachDown (le_trans (underCapDown cap _) (stepDownLe _)) reach
    · exact reachDown (underCapDown cap _) reach

structure Reached (profile : SessionProfile Snr) (cap : Option SpeedLevel) (tx : SpeedLevel) (s : RateAdaptationPolicy Snr) : Prop where
  session : ∃ adapter, InSession profile adapter s ∧ Reach profile cap tx adapter.txLevel
  cap : s.maxTxLevel = cap

theorem reportReached {e : RateLevels.Event Snr} (reached : Reached profile cap tx s) (report : Report e) :
    Reached profile cap tx (RateLevels.step s e) := by
  obtain ⟨⟨adapter,session,reach⟩,limit⟩ := reached
  cases e with
  | setMaxTxLevel max => exact absurd report id
  | startSession p => exact absurd report id
  | setMinBacklogForUpgrade bytes => exact ⟨⟨adapter,⟨session.profile,session.adapter⟩,reach⟩,limit⟩
  | setTxBacklog bytes => exact ⟨⟨adapter,⟨session.profile,session.adapter⟩,reach⟩,limit⟩
  | setUpgradeHoldFrames frames => exact ⟨⟨adapter,⟨session.profile,session.adapter⟩,reach⟩,limit⟩
  | applyAck ack =>
    obtain ⟨moved,done⟩ := applied session ack none
    refine ⟨⟨moved,done.session,?_⟩,done.cap.trans limit⟩
    rw [done.level, limit]
    exact reachAsked reach ack
  | applyAckFrame ackType reverseAck =>
    obtain ⟨rx,moved,done⟩ := RateLevels.framed session ackType reverseAck
    refine ⟨⟨moved,done.session,?_⟩,done.cap.trans limit⟩
    rw [done.level, limit]
    exact reachAsked reach ackType
  | applySnrHint snr =>
    obtain ⟨after,same⟩ := RateLevels.hinted session snr
    exact ⟨⟨_,after,reachDown (RateLevels.hintLe adapter.tx snr _ _) reach⟩,same.trans limit⟩
  | selectRxAckType snr =>
    obtain ⟨after,same⟩ := RateLevels.selected session snr
    exact ⟨⟨_,after,reach⟩,same.trans limit⟩

theorem reportsReached {reports : List (RateLevels.Event Snr)} (reached : Reached profile cap tx s) (known : ∀ e ∈ reports, Report e) :
    Reached profile cap tx (run RateLevels.step s reports) := by
  induction reports generalizing s with
  | nil => exact reached
  | cons e reports ih =>
    exact ih (reportReached reached (known e (by simp))) fun x member => known x (by simp [member])

end Reports

omit [LT Snr] [DecidableLT Snr] in
theorem iterationSession {b : Bridge Snr} {read : Bool} {profile : SessionProfile Snr} {adapter : BiDirRateAdapter}
    (session : InSession profile adapter (b.workerIteration read).policy) :
    ∃ before, InSession profile before b.policy ∧
      adapter.txLevel = (if Applies b read then underCap (newCap b) before.txLevel else before.txLevel) ∧
      (b.workerIteration read).policy.maxTxLevel = (if Applies b read then newCap b else b.policy.maxTxLevel) := by
  simp only [Bridge.workerIteration] at session ⊢
  by_cases applies : Applies b read
  · have taken : read = true ∧ b.arqBw ≠ b.lastArqBw := applies
    simp only [if_pos applies, if_pos taken] at session ⊢
    cases active : b.policy.rateAdapter with
    | none =>
      have idle := session.adapter
      simp [currentTxLevel, active] at idle
    | some before =>
      have some' : b.policy.currentTxLevel.isSome = true := by simp [currentTxLevel, active]
      rw [if_pos some'] at session ⊢
      have prior : InSession profile before b.policy := ⟨session.profile,active⟩
      have moved := (RateLevels.setMaxMoves prior (newCap b)).adapter
      have same : adapter = (newCap b).elim before (fun m => (before.clampTo m).2) := Option.some.inj (session.adapter.symm.trans moved)
      refine ⟨before,prior,?_,rfl⟩
      rw [same]
      cases newCap b with
      | none => rfl
      | some cap => exact clampLevel before.tx cap
  · have passed : ¬ (read = true ∧ b.arqBw ≠ b.lastArqBw) := applies
    simp only [if_neg applies, if_neg passed] at session ⊢
    exact ⟨adapter,session,rfl,trivial⟩

theorem iterationRespects {spared : SpeedLevel → Prop} {b : Bridge Snr} {read : Bool} (fits : FitsBelow spared b (.worker read)) :
    Respected spared (b.workerIteration read) := by
  intro profile adapter session reports known l level
  obtain ⟨before,prior,tx,cap⟩ := iterationSession session
  have reached : Reached profile (b.workerIteration read).policy.maxTxLevel adapter.txLevel (b.workerIteration read).policy :=
    ⟨⟨adapter,session,.inl (le_refl _)⟩,rfl⟩
  obtain ⟨⟨moved,active,reach⟩,-⟩ := reportsReached reached known
  have own : l = moved.txLevel := by
    simp only [currentTxLevel, active.adapter, Option.map_some] at level
    exact (Option.some.inj level).symm
  have limit : (b.workerIteration read).arqBw = b.arqBw := by
    simp only [Bridge.workerIteration]
    split <;> rfl
  rw [own, limit]
  refine fits profile before prior moved.txLevel ?_
  rw [tx, cap] at reach
  by_cases applies : Applies b read
  · rw [if_pos applies] at reach ⊢
    rwa [if_pos applies] at reach
  · rw [if_neg applies] at reach ⊢
    rwa [if_neg applies] at reach

/- Over every interleaving: while each iteration finds every level it leaves open under
the limit, the limit is respected after each of them. -/
theorem limitRespected (spared : SpeedLevel → Prop) (events : List (Event Snr)) (fits : EveryStep next (FitsBelow spared) Bridge.start events) :
    EveryStep next (RespectedAfter spared) Bridge.start events := by
  refine (everyStepInvariant (I := fun _ => True) (fun _ _ _ _ => trivial) ?_ trivial fits).2
  intro b e _ fits
  cases e with
  | worker read => exact iterationRespects fits
  | _ => trivial

def lateSession : List (Event Int) := [.worker true,.startAdaptiveSession hpx500,.worker true]

def threeUps : List (RateLevels.Event Int) := [.applyAck .ackUp,.applyAck .ackUp,.applyAck .ackUp]

theorem lateSessionUncapped : ¬ ∀ events : List (Event Int), (∀ e ∈ events, Known e) →
    EveryStep next (RespectedAfter (fun _ => True)) Bridge.start events := by
  intro always
  obtain ⟨-,-,respected,-⟩ := always lateSession (by simp [lateSession, Known])
  have climbed := respected hpx500 (.new .sl2 3) ⟨rfl,rfl⟩ threeUps (by simp [threeUps, Report]) .sl5 (by decide)
  rcases climbed.fits ⟨.sl2,"BPSK31",rfl,100,rfl,by decide⟩ with ⟨mode,mapped,bw,width,fits⟩ | ⟨unmapped,-⟩
  · cases mapped
    cases width
    revert fits
    decide
  · cases unmapped

theorem firstSessionCapped :
    EveryStep next (RespectedAfter (fun l => l = .sl1)) Bridge.start [Event.startAdaptiveSession hpx500,.worker true] := by
  refine limitRespected (fun l => l = .sl1) [.startAdaptiveSession hpx500,.worker true] ⟨trivial,?_,trivial⟩
  intro profile adapter session l reach
  cases session.profile
  cases session.adapter
  have applies : Applies (next Bridge.start (.startAdaptiveSession hpx500)) true := by decide
  have cap : newCap (next Bridge.start (.startAdaptiveSession hpx500)) = some .sl4 := by decide
  rw [if_pos applies, cap] at reach
  have under : l ≤ .sl4 := by
    rcases reach with own | ⟨rung,-,below⟩
    · exact le_trans own (by decide)
    · exact le_trans below (min_le_right rung _)
  have some' : SomeFits hpx500 500 := ⟨.sl2,"BPSK31",rfl,100,rfl,by decide⟩
  refine ⟨fun _ => ?_,fun none' => absurd some' none'⟩
  cases l with
  | sl1 => exact .inr ⟨rfl,rfl⟩
  | sl2 => exact .inl ⟨"BPSK31",rfl,100,rfl,by decide⟩
  | sl3 => exact .inl ⟨"BPSK63",rfl,150,rfl,by decide⟩
  | sl4 => exact .inl ⟨"BPSK250",rfl,500,rfl,by decide⟩
  | _ => exact absurd under (by decide)

end OpenPulse.ArqBandwidth
