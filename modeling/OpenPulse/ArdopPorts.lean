import OpenPulse.B2f
import OpenPulse.Selects

/-! The two ports of the ARDOP TNC as their clients' bytes arrive: the `select!` loops of
`openpulse-ardop/src/data.rs` and `openpulse-ardop/src/command.rs`. -/
namespace OpenPulse.ArdopPorts
open ByteCodec Selects

def maxFrameBytes : Nat := 4096
def maxCmdLine : Nat := 4096

inductive ArdopError where
  | frameTooLarge (len max : Nat)
  | invalidUtf8
  | lineTooLong
  deriving DecidableEq, Repr

inductive DataPhase where
  | length
  | lengthSecond (first : UInt8)
  | payload (len : Nat) (buf : Bytes)
  | failed (error : ArdopError)
  | workerGone
  deriving DecidableEq, Repr

/- `sent` counts the frames offered to the modem worker so far. -/
structure DataClient where
  phase : DataPhase
  sent : Nat
  deriving DecidableEq, Repr

/- The blocking send gives up only when the worker is gone: then the client is closed. -/
def offer (takes : Nat → Bool) (c : DataClient) (payload : Bytes) : DataClient × List Bytes :=
  if takes c.sent then (⟨.length,c.sent + 1⟩,[payload]) else (⟨.workerGone,c.sent⟩,[])

def dataByte (takes : Nat → Bool) (c : DataClient) (b : UInt8) : DataClient × List Bytes :=
  match c.phase with
  | .length => ({ c with phase := .lengthSecond b },[])
  | .lengthSecond first =>
    let len := readBe [first,b]
    if maxFrameBytes < len then ({ c with phase := .failed (.frameTooLarge len maxFrameBytes) },[])
    else if len = 0 then offer takes c []
    else ({ c with phase := .payload len [] },[])
  | .payload len buf =>
    if (buf ++ [b]).length = len then offer takes c (buf ++ [b])
    else ({ c with phase := .payload len (buf ++ [b]) },[])
  | .failed _ | .workerGone => (c,[])

/- Only the length is read in the arm that an event can win. The payload is read inside the arm
already taken, so that an event has to wait. -/
def dropLength (c : DataClient) : DataClient :=
  match c.phase with
  | .lengthSecond _ => { c with phase := .length }
  | _ => c

def dataPort (takes : Nat → Bool) : Loop DataClient UInt8 Bytes := ⟨dataByte takes,dropLength⟩

def dataStart : DataClient := ⟨.length,0⟩

inductive CommandPhase where
  | line (buf : Bytes)
  | failed (error : ArdopError)
  deriving DecidableEq, Repr

def lineRead (raw : Bytes) : CommandPhase × List String :=
  match fromUtf8 raw with
  | none => (.failed .invalidUtf8,[])
  | some text =>
    if maxCmdLine < raw.length then (.failed .lineTooLong,[])
    else if B2f.trim text.toList = [] then (.line [],[])
    else (.line [],[String.ofList (B2f.trim text.toList)])

def newline : UInt8 := 0x0A

def commandByte : CommandPhase → UInt8 → CommandPhase × List String
  | .line buf, b =>
    if b = newline ∨ (buf ++ [b]).length = maxCmdLine + 1 then lineRead (buf ++ [b]) else (.line (buf ++ [b]),[])
  | .failed e, _ => (.failed e,[])

def dropLine : CommandPhase → CommandPhase
  | .line _ => .line []
  | .failed e => .failed e

def commandPort : Loop CommandPhase UInt8 String := ⟨commandByte,dropLine⟩

def commandEof : CommandPhase → List String
  | .line buf => if buf = [] then [] else (lineRead buf).2
  | .failed _ => []

def dispatched (inputs : List (Input UInt8)) : List String :=
  (run commandPort (.line []) inputs).2 ++ commandEof (run commandPort (.line []) inputs).1

def queued (takes : Nat → Bool) (inputs : List (Input UInt8)) : List Bytes := (run (dataPort takes) dataStart inputs).2

def quietly (inputs : List (Input UInt8)) : List (Input UInt8) := (bytesOf inputs).map .byte

@[simp] theorem dataStep (takes : Nat → Bool) (c : DataClient) (b : UInt8) :
    (dataPort takes).step c b = dataByte takes c b := rfl

@[simp] theorem dataCancel (takes : Nat → Bool) (c : DataClient) : (dataPort takes).cancel c = dropLength c := rfl

@[simp] theorem commandStep (s : CommandPhase) (b : UInt8) : commandPort.step s b = commandByte s b := rfl

@[simp] theorem commandCancel (s : CommandPhase) : commandPort.cancel s = dropLine s := rfl

def frameBytes (payload : Bytes) : Bytes := be 2 payload.length ++ payload

theorem feedPayload {takes : Nat → Bool} {sent : Nat} {len : Nat} {buf more : Bytes} (alive : takes sent = true)
    (some : more ≠ []) (fits : buf.length + more.length = len) (rest : Bytes) :
    feed (dataPort takes) ⟨.payload len buf,sent⟩ (more ++ rest) =
      ((feed (dataPort takes) ⟨.length,sent + 1⟩ rest).1,(buf ++ more) :: (feed (dataPort takes) ⟨.length,sent + 1⟩ rest).2) := by
  induction more generalizing buf with
  | nil => exact (some rfl).elim
  | cons b later ih =>
    rw [List.length_cons] at fits
    rw [List.cons_append, feed]
    cases later with
    | nil =>
      have full : (buf ++ [b]).length = len := by simpa using fits
      simp [dataByte, offer, full, alive]
    | cons c cs =>
      have short : ¬ (buf ++ [b]).length = len := by
        rw [List.length_append, List.length_singleton, ← fits, List.length_cons]
        omega
      have further := @ih (buf ++ [b]) (List.cons_ne_nil c cs) (by
        rw [List.length_append, List.length_singleton]
        omega)
      simp only [dataStep, dataByte, if_neg short, further]
      simp

theorem feedFrame {takes : Nat → Bool} {sent : Nat} {payload : Bytes} (alive : takes sent = true)
    (fits : payload.length ≤ maxFrameBytes) (rest : Bytes) :
    feed (dataPort takes) ⟨.length,sent⟩ (frameBytes payload ++ rest) =
      ((feed (dataPort takes) ⟨.length,sent + 1⟩ rest).1,payload :: (feed (dataPort takes) ⟨.length,sent + 1⟩ rest).2) := by
  have bound : payload.length < 256 ^ 2 := by
    unfold maxFrameBytes at fits
    omega
  have value := readBeBounded bound
  obtain ⟨first,second,width⟩ : ∃ first second, be 2 payload.length = [first,second] :=
    List.length_eq_two.mp (beLength 2 payload.length)
  rw [width] at value
  rw [frameBytes, width, List.append_assoc, List.cons_append, List.cons_append, List.nil_append, feed, feed]
  have small : ¬ maxFrameBytes < payload.length := Nat.not_lt.mpr fits
  simp only [dataStep, dataByte, value, if_neg small]
  cases payload with
  | nil => simp [offer, alive]
  | cons b later =>
    have more := @feedPayload takes sent _ [] _ alive (List.cons_ne_nil b later) (Nat.zero_add (b::later).length) rest
    simp only [List.length_cons, Nat.succ_ne_zero, if_false]
    rw [List.length_cons] at more
    rw [more]
    simp

theorem queuedPayloads {takes : Nat → Bool} (alive : ∀ n, takes n = true) {payloads : List Bytes}
    (fits : ∀ payload ∈ payloads, payload.length ≤ maxFrameBytes) (sent : Nat) :
    (feed (dataPort takes) ⟨.length,sent⟩ (payloads.flatMap frameBytes)).2 = payloads := by
  induction payloads generalizing sent with
  | nil => rfl
  | cons payload rest ih =>
    obtain ⟨here,later⟩ := List.forall_mem_cons.mp fits
    rw [List.flatMap_cons, feedFrame (alive sent) here, ih later]

theorem feedLine {body : Bytes} (plain : newline ∉ body) (buf : Bytes) (fits : buf.length + body.length ≤ maxCmdLine) :
    feed commandPort (.line buf) body = (.line (buf ++ body),[]) := by
  induction body generalizing buf with
  | nil => simp [feed]
  | cons b rest ih =>
    rw [List.mem_cons, not_or] at plain
    rw [List.length_cons] at fits
    have within : ¬ (b = newline ∨ (buf ++ [b]).length = maxCmdLine + 1) := by
      rw [List.length_append, List.length_singleton]
      rintro (ended | full)
      · exact plain.1 ended.symm
      · omega
    have more := ih plain.2 (buf ++ [b]) (by rw [List.length_append, List.length_singleton]; omega)
    simp only [feed, commandStep, commandByte, if_neg within, more]
    simp

theorem lineReadLong {raw : Bytes} (long : maxCmdLine < raw.length) : ∃ e, lineRead raw = (.failed e,[]) := by
  rw [lineRead]
  cases fromUtf8 raw with
  | none => exact ⟨_,rfl⟩
  | some text => exact ⟨_,if_pos long⟩

theorem lineReadShort {raw : Bytes} {text : String} (valid : fromUtf8 raw = some text) (short : raw.length ≤ maxCmdLine) :
    (lineRead raw).1 = .line [] := by
  rw [lineRead, valid]
  simp only [if_neg (Nat.not_lt.mpr short)]
  split <;> rfl

theorem lettersUtf8 (k : Nat) :
    utf8 (String.ofList (List.replicate k 'A' ++ ['\n'])) = List.replicate k 0x41 ++ [newline] := by
  rw [utf8, String.toUTF8_eq_toByteArray, String.toByteArray_ofList]
  induction k with
  | zero => decide +kernel
  | succ k ih =>
    rw [List.replicate_succ, List.cons_append, List.utf8Encode_cons, ByteArray.data_append, Array.toList_append, ih,
      List.replicate_succ]
    rfl

/- However little of a line is lost, it may have been what made the line too long. -/
theorem lostLineShows {buf : Bytes} (partly : buf ≠ []) (fits : buf.length ≤ maxCmdLine) :
    ∃ rest e later, feed commandPort (.line buf) rest = (.failed e,[]) ∧
      feed commandPort (.line []) rest = (.line [],later) ∧ later ≠ [] := by
  have positive := List.length_pos_iff.mpr partly
  let letters : Bytes := List.replicate (maxCmdLine - buf.length) 0x41
  have plain : newline ∉ letters := fun inside => absurd (List.eq_of_mem_replicate inside) (by decide)
  have room : letters.length = maxCmdLine - buf.length := List.length_replicate
  have whole : feed commandPort (.line buf) letters = (.line (buf ++ letters),[]) := feedLine plain buf (by omega)
  have alone : feed commandPort (.line []) letters = (.line letters,[]) := feedLine plain [] (by simp; omega)
  have long : maxCmdLine < (buf ++ letters ++ [newline]).length := by
    simp only [List.length_append, List.length_singleton]
    omega
  have short : (letters ++ [newline]).length ≤ maxCmdLine := by
    simp only [List.length_append, List.length_singleton]
    omega
  obtain ⟨e,rejected⟩ := lineReadLong long
  have valid := fromUtf8Utf8 (String.ofList (List.replicate (maxCmdLine - buf.length) 'A' ++ ['\n']))
  rw [lettersUtf8] at valid
  have taken : (lineRead (letters ++ [newline])).1 = .line [] := lineReadShort valid short
  have last : feed commandPort (.line []) [0x41,newline] = (.line [],["A"]) := by decide +kernel
  refine ⟨letters ++ newline::[0x41,newline],e,(lineRead (letters ++ [newline])).2 ++ ["A"],?_,?_,by simp⟩
  · rw [feedAppend, whole]
    simp only [feed, commandStep, commandByte, true_or, if_true, rejected]
    rfl
  · rw [feedAppend, alone, feed]
    simp only [commandStep, commandByte, true_or, if_true, taken, last]
    rfl

theorem lineFits {s : CommandPhase} {inputs : List (Input UInt8)} (fits : ∀ buf, s = .line buf → buf.length ≤ maxCmdLine) :
    ∀ buf, (run commandPort s inputs).1 = .line buf → buf.length ≤ maxCmdLine := by
  induction inputs generalizing s with
  | nil => exact fits
  | cons input rest ih =>
    cases input with
    | event =>
      refine ih ?_
      intro buf here
      cases s <;> cases here
      exact Nat.zero_le _
    | byte b =>
      refine ih ?_
      intro buf here
      rw [commandStep] at here
      cases s with
      | failed e => cases here
      | line before =>
        rw [commandByte] at here
        split at here
        · rw [lineRead] at here
          repeat' split at here
          all_goals cases here
          all_goals exact Nat.zero_le _
        · rename_i open'
          cases here
          have before := fits before rfl
          rw [not_or, List.length_append, List.length_singleton] at open'
          rw [List.length_append, List.length_singleton]
          omega

theorem lostLengthShows {takes : Nat → Bool} (alive : ∀ n, takes n = true) (first : UInt8) (sent : Nat) :
    ∃ rest, (feed (dataPort takes) ⟨.length,sent⟩ rest).2 ≠ (feed (dataPort takes) ⟨.lengthSecond first,sent⟩ rest).2 := by
  have nothing : readBe [0,0] = 0 := by decide
  by_cases zero : first = 0
  · subst zero
    refine ⟨[0],?_⟩
    simp [feed, dataByte, offer, alive, nothing]
  · refine ⟨[0,0],?_⟩
    have large : 1 < readBe [first,0] := by
      have positive : first.toNat ≠ 0 := fun none => zero (UInt8.toNat_inj.mp none)
      simp only [readBe, List.foldl_cons, List.foldl_nil, UInt8.toNat_zero]
      omega
    by_cases huge : maxFrameBytes < readBe [first,0]
    · simp [feed, dataByte, offer, alive, nothing, huge]
    · have some : ¬ readBe [first,0] = 0 := by omega
      have one : ¬ 1 = readBe [first,0] := by omega
      simp [feed, dataByte, offer, alive, nothing, huge, some, one]

theorem quietlyData (takes : Nat → Bool) (inputs : List (Input UInt8)) :
    queued takes (quietly inputs) = (feed (dataPort takes) dataStart (bytesOf inputs)).2 := by
  rw [queued, quietly, runBytes]

theorem bytesOfEvent (before : List (Input UInt8)) (rest : Bytes) :
    bytesOf (before ++ .event::rest.map .byte) = bytesOf before ++ rest := by
  rw [bytesOfAppend, bytesOf, bytesOfBytes]

/- An event must find neither half a length nor part of a line in the read it drops; wherever it
does, the rest of the stream can be such that the loss is seen. -/
theorem portsUndisturbed (takes : Nat → Bool) (inputs : List (Input UInt8)) :
    (Undisturbed (dataPort takes) dataStart inputs → queued takes inputs = queued takes (quietly inputs)) ∧
    (Undisturbed commandPort (.line []) inputs → dispatched inputs = dispatched (quietly inputs)) ∧
    (∀ first sent, (∀ n, takes n = true) → Undisturbed (dataPort takes) dataStart inputs →
      (run (dataPort takes) dataStart inputs).1 = ⟨.lengthSecond first,sent⟩ →
      ∃ rest : Bytes, queued takes (inputs ++ .event::rest.map .byte) ≠
        queued takes (quietly (inputs ++ .event::rest.map .byte))) ∧
    (∀ buf, buf ≠ [] → Undisturbed commandPort (.line []) inputs → (run commandPort (.line []) inputs).1 = .line buf →
      ∃ rest : Bytes, dispatched (inputs ++ .event::rest.map .byte) ≠
        dispatched (quietly (inputs ++ .event::rest.map .byte))) := by
  refine ⟨?_,?_,?_,?_⟩
  · intro calm
    rw [quietlyData, queued, runUndisturbed _ calm]
  · intro calm
    rw [dispatched, dispatched, quietly, runBytes, runUndisturbed _ calm]
  · intro first sent alive calm here
    obtain ⟨rest,shows⟩ := lostLengthShows alive first sent
    refine ⟨rest,?_⟩
    rw [quietlyData, bytesOfEvent]
    refine disturbedShows (dataPort takes) calm ?_
    rw [here]
    exact shows
  · intro buf partly calm here
    have fits := @lineFits (.line []) inputs (by intro _ none; cases none; exact Nat.zero_le _) buf here
    obtain ⟨rest,e,later,whole,cut,some⟩ := lostLineShows partly fits
    refine ⟨rest,?_⟩
    have quiet : feed commandPort (.line []) (bytesOf inputs) = (.line buf,(run commandPort (.line []) inputs).2) := by
      rw [← runUndisturbed commandPort calm, ← here]
    have alone : run commandPort (.line buf) (.event::rest.map .byte) = (.line [],later) := by
      rw [run, runBytes]
      exact cut
    rw [dispatched, dispatched, quietly, runBytes, bytesOfEvent, feedAppend, quiet, whole, runAppend, here, alone]
    simpa [commandEof] using some

def calmData : List (Input UInt8) :=
  [.event,.byte 0,.byte 2,.byte 0x48,.event,.byte 0x49,.event,.byte 0,.byte 0,.event]

def calmLines : List (Input UInt8) := ((utf8 "MYID\n").map .byte) ++ (.event :: (utf8 "STATE\n").map .byte)

theorem portsUndisturbedCalm :
    queued (fun _ => true) calmData = queued (fun _ => true) (quietly calmData) ∧
    dispatched calmLines = dispatched (quietly calmLines) ∧
    (∃ rest : Bytes, queued (fun _ => true) ([.byte 0] ++ .event::rest.map .byte) ≠
      queued (fun _ => true) (quietly ([.byte 0] ++ .event::rest.map .byte))) ∧
    (∃ rest : Bytes, dispatched ([.byte 0x41] ++ .event::rest.map .byte) ≠
      dispatched (quietly ([.byte 0x41] ++ .event::rest.map .byte))) :=
  ⟨(portsUndisturbed (fun _ => true) calmData).1 (by decide +kernel),
    (portsUndisturbed (fun _ => true) calmLines).2.1 (by decide +kernel),
    (portsUndisturbed (fun _ => true) [.byte 0]).2.2.1 0 0 (fun _ => rfl) trivial rfl,
    (portsUndisturbed (fun _ => true) [.byte 0x41]).2.2.2 [0x41] (by decide) trivial (by decide +kernel)⟩

theorem eventLosesFrameAndLine :
    queued (fun _ => true) [.byte 0,.event,.byte 1,.byte 0x48,.byte 0,.byte 1,.byte 0x49] ≠
      queued (fun _ => true) (quietly [.byte 0,.event,.byte 1,.byte 0x48,.byte 0,.byte 1,.byte 0x49]) ∧
    dispatched ([.byte 0x50] ++ (.event :: (utf8 "TT FALSE\n").map .byte)) ≠
      dispatched (quietly ([.byte 0x50] ++ (.event :: (utf8 "TT FALSE\n").map .byte))) := by
  decide +kernel

end OpenPulse.ArdopPorts
