import OpenPulse.B2f
import OpenPulse.KeyedTx
import OpenPulse.Runs
import OpenPulse.Words

/-! Identifying the station: the timer of `openpulse-core/src/station_id.rs`, and the two
loops that act on it, in `openpulse-daemon/src/server.rs` and `openpulse-ardop/src/bridge.rs`.
Each says when an identification that did not go out is written off. -/
namespace OpenPulse.StationId
open ByteCodec Engine KeyedTx SharedPtt Runs

structure StationIdTimer where
  intervalMs : Nat
  signoffIdleMs : Nat
  lastIdMs : Nat
  lastTxMs : Nat
  txSinceId : Bool
  deriving DecidableEq, Repr

namespace StationIdTimer

def new (intervalMs nowMs : Nat) : StationIdTimer := ⟨intervalMs,0,nowMs,nowMs,false⟩

variable (t : StationIdTimer) (nowMs : Nat)

def withSignoffIdleMs (signoffIdleMs : Nat) : StationIdTimer := { t with signoffIdleMs }

def isEnabled : Bool := decide (0 < t.intervalMs)

def noteTx : StationIdTimer := if t.isEnabled then { t with txSinceId := true, lastTxMs := nowMs } else t

def idDue : Bool := t.isEnabled && t.txSinceId && decide (t.intervalMs ≤ nowMs - t.lastIdMs)

def signoffDue : Bool :=
  t.isEnabled && decide (0 < t.signoffIdleMs) && t.txSinceId && decide (t.signoffIdleMs ≤ nowMs - t.lastTxMs)

def markIdentified : StationIdTimer := { t with lastIdMs := nowMs, txSinceId := false }

def due : Bool := t.idDue nowMs || t.signoffDue nowMs

theorem dueArmed {t : StationIdTimer} {nowMs : Nat} (due : t.due nowMs = true) : t.txSinceId = true := by
  simp only [StationIdTimer.due, idDue, signoffDue, Bool.or_eq_true, Bool.and_eq_true] at due
  rcases due with ⟨⟨-,armed⟩,-⟩ | ⟨⟨-,armed⟩,-⟩
  · exact armed
  · exact armed

theorem dueLater {t : StationIdTimer} {nowMs later : Nat} (due : t.due nowMs = true) (after : nowMs ≤ later) :
    t.due later = true := by
  simp only [StationIdTimer.due, idDue, signoffDue, Bool.or_eq_true, Bool.and_eq_true, decide_eq_true_eq] at due ⊢
  rcases due with ⟨armed,elapsed⟩ | ⟨armed,elapsed⟩
  · exact .inl ⟨armed,by omega⟩
  · exact .inr ⟨armed,by omega⟩

end StationIdTimer

def callsignIsValid (callsign : String) : Bool :=
  let trimmed := B2f.trim callsign.toList
  !trimmed.isEmpty && !Words.eqIgnoreAsciiCase trimmed "N0CALL".toList

/- What a pass finds: the loop's own clock, and the engine, the key and the radio as the rest
of the program has left them. -/
structure Tick (Sample : Type) where
  nowMs : Nat
  engine : ModemEngine
  ptt : Station
  keying : Keying
  mode : String
  radio : Radio Sample

def idBody (callsign : String) : Bytes := utf8 (String.append "DE " callsign)

section Loops

variable {Sample : Type}

structure IdLoop where
  timer : StationIdTimer
  txFramesSeen : UInt64
  idDeferredAt : Option Nat
  deriving DecidableEq, Repr

def noted (timer : StationIdTimer) (txFramesSeen : UInt64) (t : Tick Sample) : StationIdTimer :=
  if t.engine.framesTransmitted ≠ txFramesSeen then timer.noteTx t.nowMs else timer

def transmitId (callsign : String) (t : Tick Sample) : Transmitted Sample :=
  t.engine.transmit (idBody callsign) t.mode none t.radio

/- The daemon's pass; `autoIdActive` and the callsign are settled before the loop starts. -/
def daemonPass (autoIdActive : Bool) (idCallsign : String) (s : IdLoop) (t : Tick Sample) : IdLoop :=
  if autoIdActive = false then s
  else
    let s := { s with timer := noted s.timer s.txFramesSeen t, txFramesSeen := t.engine.framesTransmitted }
    if s.timer.due t.nowMs then
      let out := keyedTransmit t.keying t.ptt t.engine fun g =>
        let sent := g.transmit (idBody idCallsign) t.mode none t.radio
        (sent.result,sent.engine)
      match out.1 with
      | .error .alreadyKeyed => { s with idDeferredAt := s.idDeferredAt.or (some t.nowMs) }
      | _ => ⟨s.timer.markIdentified t.nowMs,out.2.2.framesTransmitted,none⟩
    else s

structure Worker where
  timer : StationIdTimer
  txFramesSeen : UInt64
  deriving DecidableEq, Repr

structure Poll (Sample : Type) extends Tick Sample where
  loopback : Bool
  txPending : Nat
  idRequested : Bool
  callsign : String
  cwidEnabled : Bool
  cwSamples : List Sample
  cwRadio : Radio Sample

def txCallsign (callsign : String) : Option String := if callsignIsValid callsign then some callsign else none

def emitCwId (g : ModemEngine) (samples : List Sample) (radio : Radio Sample) : Except ModemError Unit × ModemEngine :=
  if samples.isEmpty then (.ok (),g)
  else
    let sent := g.stageEmitOutput "CW" none radio samples
    (sent.result,sent.engine)

def transmitStationId (p : Poll Sample) (callsign : String) : Option Unit × Station × ModemEngine :=
  bridgeKeyedTransmit p.keying p.ptt p.engine fun g =>
    let sent := g.transmit (idBody callsign) p.mode none p.radio
    match sent.result with
    | .error e => (.error e,sent.engine)
    | .ok () => if p.cwidEnabled then emitCwId sent.engine p.cwSamples p.cwRadio else (.ok (),sent.engine)

/- The worker's pass, at a frame boundary. Whatever comes of the identification, the timer
is told that it went out. -/
def workerPass (s : Worker) (p : Poll Sample) : Worker :=
  if p.loopback ∨ p.txPending ≠ 0 then s
  else
    let s : Worker := ⟨noted s.timer s.txFramesSeen p.toTick,p.engine.framesTransmitted⟩
    if p.idRequested ∨ s.timer.due p.nowMs then
      match txCallsign p.callsign with
      | none => s
      | some callsign => ⟨s.timer.markIdentified p.nowMs,(transmitStationId p callsign).2.2.framesTransmitted⟩
    else s

end Loops

variable {Sample : Type} {callsign : String} {t : Tick Sample}

/- Nothing but the audio device can stop the frame: the session lets it pass, the channel is
free, it fits a frame, and its mode can be modulated. -/
structure Unhindered (g : ModemEngine) (data : Bytes) (mode : String) (radio : Radio Sample) : Prop where
  gate : g.sessionGate = .ok ()
  clear : g.csmaCheck radio = .ok ()
  small : data.length ≤ 255
  modulated : ∃ modulate, radio.plugins mode = some modulate ∧
    ∀ e, modulate (scrambled (Frame.encode ⟨g.sequence,data,small⟩)) = .error e → ∃ text, e = .audio text

def Reached (sent : Transmitted Sample) : Prop := sent.emitted.isSome = true ∨ ∃ text, sent.result = .error (.audio text)

theorem emitReached (g : ModemEngine) (mode : String) (device : Option String) (radio : Radio Sample) (samples : List Sample) :
    Reached (g.stageEmitOutput mode device radio samples) ∧
      (g.stageEmitOutput mode device radio samples).result ≠ .error .channelBusy := by
  unfold ModemEngine.stageEmitOutput
  cases radio.openOutput (device.or g.defaultDevice) with
  | error e => exact ⟨.inr ⟨e,rfl⟩,by simp⟩
  | ok opened =>
    dsimp only
    cases radio.write (radio.shape mode samples) with
    | error e => exact ⟨.inl rfl,by simp⟩
    | ok written =>
      cases radio.flush with
      | error e => exact ⟨.inl rfl,by simp⟩
      | ok flushed => cases radio.logFrame <;> exact ⟨.inl rfl,by simp⟩

theorem gateNotAudio {g : ModemEngine} {e : ModemError} (gate : g.sessionGate = .error e) (text : String) : e ≠ .audio text := by
  rintro rfl
  unfold ModemEngine.sessionGate at gate
  split at gate
  · cases gate
  · split at gate
    · cases gate
    · split at gate <;> cases gate

theorem checkNotAudio {g : ModemEngine} {radio : Radio Sample} {e : ModemError} (busy : g.csmaCheck radio = .error e)
    (text : String) : e ≠ .audio text := by
  rintro rfl
  unfold ModemEngine.csmaCheck at busy
  split at busy
  · cases busy
  · split at busy
    · cases busy
    · split at busy <;> cases busy

theorem stoppedReached {e : ModemError} {g : ModemEngine} :
    Reached (⟨.error e,none,g⟩ : Transmitted Sample) ↔ ∃ text, e = .audio text := by
  simp [Reached]

theorem codedReached {g : ModemEngine} {data : Bytes} {mode : String} {device : Option String} {radio : Radio Sample}
    (gate : g.sessionGate = .ok ()) :
    Reached (g.transmitCoded data mode device radio .ok) ↔ Unhindered g data mode radio := by
  have goes := @codedGoes Sample g data mode device radio .ok
  generalize g.transmitCoded data mode device radio .ok = sent at goes ⊢
  cases goes with
  | waits busy =>
    refine stoppedReached.trans (iff_of_false (fun ⟨text,audio⟩ => checkNotAudio busy text audio) fun free => ?_)
    rw [free.clear] at busy
    cases busy
  | oversized clear large => exact stoppedReached.trans (iff_of_false (by simp) fun free => large free.small)
  | uncodable clear small refused => cases refused
  | unknown clear small missing =>
    refine stoppedReached.trans (iff_of_false (by simp) fun free => ?_)
    obtain ⟨modulate,found,-⟩ := free.modulated
    rw [missing] at found
    cases found
  | @unmodulated coded modulate e clear small made found refused =>
    cases made
    refine stoppedReached.trans ⟨fun audio => ⟨gate,clear,small,modulate,found,fun e' refused' => ?_⟩,fun free => ?_⟩
    · cases Except.error.inj (refused.symm.trans refused')
      exact audio
    · obtain ⟨modulate',found',audio⟩ := free.modulated
      cases Option.some.inj (found.symm.trans found')
      exact audio e refused
  | @emits coded modulate samples clear small made found modulated =>
    cases made
    refine iff_of_true (emitReached ..).1 ⟨gate,clear,small,modulate,found,fun e refused => ?_⟩
    cases modulated.symm.trans refused

theorem transmitReached {g : ModemEngine} {data : Bytes} {mode : String} {device : Option String} {radio : Radio Sample} :
    Reached (g.transmit data mode device radio) ↔ Unhindered g data mode radio := by
  unfold ModemEngine.transmit
  cases gate : g.sessionGate with
  | error e =>
    refine stoppedReached.trans (iff_of_false (fun ⟨text,audio⟩ => gateNotAudio gate text audio) fun free => ?_)
    rw [free.gate] at gate
    cases gate
  | ok opened => exact codedReached gate

theorem unhinderedNotBusy {g : ModemEngine} {data : Bytes} {mode : String} {device : Option String} {radio : Radio Sample}
    (free : Unhindered g data mode radio) : (g.transmit data mode device radio).result ≠ .error .channelBusy := by
  obtain ⟨gate,clear,small,modulate,found,audio⟩ := free
  simp only [ModemEngine.transmit, gate, ModemEngine.transmitCoded, clear, encodeFits g small, found]
  cases made : modulate (scrambled (Frame.encode ⟨g.sequence,data,small⟩)) with
  | error e =>
    obtain ⟨text,rfl⟩ := audio e made
    simp
  | ok samples => exact (emitReached ..).2

def Sent (callsign : String) (t : Tick Sample) : Prop :=
  Free t.keying t.ptt ∧ (transmitId callsign t).emitted.isSome = true

def Fault (callsign : String) (t : Tick Sample) : Prop :=
  Faulty t.keying t.ptt ∨ Free t.keying t.ptt ∧ ∃ text, (transmitId callsign t).result = .error (.audio text)

def Busy (callsign : String) (t : Tick Sample) : Prop :=
  t.ptt.armed = true ∨ Free t.keying t.ptt ∧ (transmitId callsign t).result = .error .channelBusy

/-- What a pass owes the timer it found. -/
structure Honest (callsign : String) (t : Tick Sample) (before after : StationIdTimer) : Prop where
  disarmed : before.txSinceId = true → after.txSinceId = false → Sent callsign t ∨ Fault callsign t
  deferred : before.due t.nowMs = true → Busy callsign t →
    after.txSinceId = true ∧ ∀ later, t.nowMs ≤ later → after.due later = true

/-- The attempt is not up against someone else: nobody holds the key, and a key that is had
gets the frame out. -/
structure Clear (callsign : String) (t : Tick Sample) : Prop where
  idle : t.ptt.armed = false
  unhindered : Free t.keying t.ptt → Unhindered t.engine (idBody callsign) t.mode t.radio

theorem clearIff : Clear callsign t ↔ Sent callsign t ∨ Fault callsign t := by
  constructor
  · rintro ⟨idle,unhindered⟩
    rcases keyCases t.keying t.ptt with held | faulty | free
    · rw [idle] at held
      cases held
    · exact .inr (.inl faulty)
    · rcases transmitReached.mpr (unhindered free) with sent | fault
      · exact .inl ⟨free,sent⟩
      · exact .inr (.inr ⟨free,fault⟩)
  · rintro (⟨free,sent⟩ | faulty | ⟨free,fault⟩)
    · exact ⟨free.idle,fun _ => transmitReached.mp (.inl sent)⟩
    · refine ⟨faulty.idle,fun free => ?_⟩
      have taken := free.takes faulty.controller
      rw [faulty.refuses] at taken
      cases taken
    · exact ⟨free.idle,fun _ => transmitReached.mp (.inr fault)⟩

theorem clearNotBusy (clear : Clear callsign t) : ¬ Busy callsign t := by
  rintro (held | ⟨free,busy⟩)
  · rw [clear.idle] at held
    cases held
  · exact unhinderedNotBusy (clear.unhindered free) busy

theorem honestIff {before after : StationIdTimer} {marks : Prop} [Decidable marks]
    (told : after = if marks then before.markIdentified t.nowMs else before) :
    Honest callsign t before after ↔ (marks → before.txSinceId = true → Clear callsign t) := by
  by_cases mark : marks
  · rw [if_pos mark] at told
    subst told
    constructor
    · intro honest _ armed
      exact clearIff.mpr (honest.disarmed armed rfl)
    · intro clear
      refine ⟨fun armed _ => clearIff.mp (clear mark armed),fun due busy => ?_⟩
      exact absurd busy (clearNotBusy (clear mark (StationIdTimer.dueArmed due)))
  · rw [if_neg mark] at told
    subst told
    refine iff_of_true ⟨fun armed idle => ?_,fun due _ => ⟨StationIdTimer.dueArmed due,fun later => StationIdTimer.dueLater due⟩⟩
      fun yes => absurd yes mark
    rw [armed] at idle
    cases idle

def daemonTimer (autoIdActive : Bool) (s : IdLoop) (t : Tick Sample) : StationIdTimer :=
  if autoIdActive then noted s.timer s.txFramesSeen t else s.timer

theorem daemonMarks (autoIdActive : Bool) (idCallsign : String) (s : IdLoop) (t : Tick Sample) :
    (daemonPass autoIdActive idCallsign s t).timer =
      if autoIdActive = true ∧ (daemonTimer autoIdActive s t).due t.nowMs = true ∧ t.ptt.armed = false then
        (daemonTimer autoIdActive s t).markIdentified t.nowMs
      else daemonTimer autoIdActive s t := by
  cases autoIdActive with
  | false => simp [daemonPass, daemonTimer]
  | true =>
    simp only [daemonPass, daemonTimer, Bool.true_eq_false, if_false, if_true, true_and]
    cases due : (noted s.timer s.txFramesSeen t).due t.nowMs with
    | false => simp
    | true =>
      simp only [if_true, true_and]
      rcases keyCases t.keying t.ptt with held | faulty | free
      · rw [(keyedHeld held ..).1]
        simp [held]
      · obtain ⟨ptt,failed,-⟩ := keyedFaulty faulty t.engine fun g =>
          ((g.transmit (idBody idCallsign) t.mode none t.radio).result,(g.transmit (idBody idCallsign) t.mode none t.radio).engine)
        simp [failed, faulty.idle]
      · obtain ⟨ptt,keyed,-⟩ := keyedFree free t.engine fun g =>
          ((g.transmit (idBody idCallsign) t.mode none t.radio).result,(g.transmit (idBody idCallsign) t.mode none t.radio).engine)
        simp only [keyed, free.idle, if_true]
        cases (t.engine.transmit (idBody idCallsign) t.mode none t.radio).result with
        | error e => rfl
        | ok sent => rfl

def DaemonHonest (autoIdActive : Bool) (idCallsign : String) (s : IdLoop) (t : Tick Sample) : Prop :=
  Honest idCallsign t (daemonTimer autoIdActive s t) (daemonPass autoIdActive idCallsign s t).timer

def DaemonClear (autoIdActive : Bool) (idCallsign : String) (s : IdLoop) (t : Tick Sample) : Prop :=
  autoIdActive = true → (daemonTimer autoIdActive s t).due t.nowMs = true → Free t.keying t.ptt →
    Unhindered t.engine (idBody idCallsign) t.mode t.radio

theorem daemonHonestIff (autoIdActive : Bool) (idCallsign : String) (s : IdLoop) (t : Tick Sample) :
    DaemonHonest autoIdActive idCallsign s t ↔ DaemonClear autoIdActive idCallsign s t := by
  rw [DaemonHonest, honestIff (daemonMarks autoIdActive idCallsign s t)]
  constructor
  · intro clear active due free
    exact (clear ⟨active,due,free.idle⟩ (StationIdTimer.dueArmed due)).unhindered free
  · rintro clear ⟨active,due,idle⟩ -
    exact ⟨idle,clear active due⟩

def Poll.atBoundary (p : Poll Sample) : Bool := !p.loopback && p.txPending == 0

def workerTimer (s : Worker) (p : Poll Sample) : StationIdTimer :=
  if p.atBoundary then noted s.timer s.txFramesSeen p.toTick else s.timer

def Attempts (s : Worker) (p : Poll Sample) : Bool :=
  p.atBoundary && (p.idRequested || (workerTimer s p).due p.nowMs) && callsignIsValid p.callsign

theorem workerMarks (s : Worker) (p : Poll Sample) :
    (workerPass s p).timer =
      if Attempts s p = true then (workerTimer s p).markIdentified p.nowMs else workerTimer s p := by
  cases boundary : p.atBoundary with
  | false =>
    have away : p.loopback = true ∨ p.txPending ≠ 0 := by
      simp only [Poll.atBoundary, Bool.and_eq_false_iff, Bool.not_eq_false', beq_eq_false_iff_ne] at boundary
      exact boundary
    simp [workerPass, if_pos away, Attempts, workerTimer, boundary]
  | true =>
    have here : ¬ (p.loopback = true ∨ p.txPending ≠ 0) := by
      simp only [Poll.atBoundary, Bool.and_eq_true, Bool.not_eq_true', beq_iff_eq] at boundary
      simp [boundary]
    simp only [workerPass, if_neg here, Attempts, workerTimer, boundary, if_true, Bool.true_and]
    cases wanted : p.idRequested || (noted s.timer s.txFramesSeen p.toTick).due p.nowMs with
    | false =>
      have quiet := wanted
      rw [← Bool.not_eq_true, Bool.or_eq_true] at quiet
      simp [if_neg quiet]
    | true =>
      cases valid : callsignIsValid p.callsign with
      | false => simp [txCallsign, valid]
      | true =>
        rw [Bool.or_eq_true] at wanted
        simp [if_pos wanted, txCallsign, valid]

def WorkerHonest (s : Worker) (p : Poll Sample) : Prop :=
  Honest p.callsign p.toTick (workerTimer s p) (workerPass s p).timer

def WorkerClear (s : Worker) (p : Poll Sample) : Prop :=
  Attempts s p = true → (workerTimer s p).txSinceId = true → Clear p.callsign p.toTick

/-- Neither program writes off an identification for being busy exactly when what it attempts
is never up against a busy channel, a closed session gate or an unsendable frame; the daemon
alone waits for the key. -/
theorem idWrittenOff (autoIdActive : Bool) (idCallsign : String) (s : IdLoop) (ts : List (Tick Sample)) (w : Worker)
    (ps : List (Poll Sample)) :
    (EveryStep (daemonPass autoIdActive idCallsign) (DaemonHonest autoIdActive idCallsign) s ts ↔
      EveryStep (daemonPass autoIdActive idCallsign) (DaemonClear autoIdActive idCallsign) s ts) ∧
    (EveryStep workerPass WorkerHonest w ps ↔ EveryStep workerPass WorkerClear w ps) := by
  constructor
  · exact everyStepIff (I := fun _ => True) (fun _ _ _ => trivial)
      (fun s t _ => daemonHonestIff autoIdActive idCallsign s t) trivial ts
  · exact everyStepIff (I := fun _ => True) (fun _ _ _ => trivial)
      (fun w p _ => honestIff (workerMarks w p)) trivial ps

def quietRadio (busy : Bool) : Radio Unit where
  busy := busy
  drawn := true
  plugins := fun _ => some fun _ => .ok []
  shape := fun _ samples => samples
  openOutput := fun _ => .ok ()
  write := fun _ => .ok ()
  flush := .ok ()
  logFrame := .ok ()

def idTick (held busy : Bool) : Tick Unit where
  nowMs := 600000
  engine := { ModemEngine.new with csmaEnabled := true, framesTransmitted := 1 }
  ptt := if held then ((SharedPtt.new true 180).keyAs "arq" true 590 true).2 else SharedPtt.new true 180
  keying := ⟨600,true,true⟩
  mode := "BPSK250"
  radio := quietRadio busy

def idPoll (held busy : Bool) : Poll Unit where
  toTick := idTick held busy
  loopback := false
  txPending := 0
  idRequested := false
  callsign := "DC0SK"
  cwidEnabled := false
  cwSamples := []
  cwRadio := quietRadio busy

def idTimer : StationIdTimer := (StationIdTimer.new 600000 0).withSignoffIdleMs 30000

theorem busyPassUnsent : ¬ DaemonHonest true "DC0SK" ⟨idTimer,0,none⟩ (idTick false true) := by
  rw [daemonHonestIff]
  intro clear
  have gone := (clear rfl (by decide) ⟨rfl,fun _ => rfl⟩).clear
  cases gone

theorem heldPassUnsent : ¬ WorkerHonest ⟨idTimer,0⟩ (idPoll true false) := by
  rw [WorkerHonest, honestIff (workerMarks _ _)]
  intro clear
  have idle := (clear (by decide) (by decide)).idle
  cases idle

/- Ten minutes after the start one frame has gone out. The daemon marks its identification
on a busy channel, the worker while another emission holds the key. -/
theorem busyWrittenOff :
    ¬ EveryStep (daemonPass true "DC0SK") (DaemonHonest true "DC0SK") ⟨idTimer,0,none⟩ [idTick false true] ∧
      ¬ EveryStep workerPass WorkerHonest ⟨idTimer,0⟩ [idPoll true false] :=
  ⟨fun honest => busyPassUnsent honest.1,fun honest => heldPassUnsent honest.1⟩

end OpenPulse.StationId
