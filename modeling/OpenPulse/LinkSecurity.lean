import OpenPulse.B2f
import OpenPulse.Deliveries
import OpenPulse.Reads
import OpenPulse.Utf8Texts

/-! The secured control link: the framed Noise channel of `openpulse-linksec`, and the control port of
`openpulse-daemon/src/lib.rs` that reads commands from it. The Noise library is a parameter: a finished
handshake gives a cipher for each direction. The serializer of the commands is one too. -/
namespace OpenPulse.LinkSecurity
open ByteCodec Selects Utf8Cuts Utf8Texts

def tagLen : Nat := 16
def maxPlaintext : Nat := 65535 - 16
def maxFrame : Nat := maxPlaintext + 16

inductive LinkSecError where
  | noise
  | tooLarge (len : Nat)
  | frameTooLarge (len : Nat)
  deriving DecidableEq, Repr

/- One direction after the handshake. The `n`th message is sealed and opened with the nonce `n`. -/
structure Cipher where
  writeMessage : Nat → Bytes → Bytes
  readMessage : Nat → Bytes → Option Bytes

structure NoiseTransport where
  sender : Cipher
  receiver : Cipher
  sent : Nat
  received : Nat

def NoiseTransport.encrypt (t : NoiseTransport) (plaintext : Bytes) : Except LinkSecError (Bytes × NoiseTransport) :=
  if maxPlaintext < plaintext.length then .error (.tooLarge plaintext.length)
  else .ok (t.sender.writeMessage t.sent plaintext,{ t with sent := t.sent + 1 })

def NoiseTransport.decrypt (t : NoiseTransport) (ciphertext : Bytes) : Except LinkSecError (Bytes × NoiseTransport) :=
  match t.receiver.readMessage t.received ciphertext with
  | none => .error .noise
  | some plaintext => .ok (plaintext,{ t with received := t.received + 1 })

def writeFrame (data : Bytes) : Bytes := be 4 data.length ++ data

inductive Reading where
  | length (got : Bytes)
  | body (need : Nat) (got : Bytes)
  deriving DecidableEq, Repr

def readByte : Reading → UInt8 → Except LinkSecError (Reading × Option Bytes)
  | .length got, b =>
    if (got ++ [b]).length < 4 then .ok (.length (got ++ [b]),none)
    else if maxFrame < readBe (got ++ [b]) then .error (.frameTooLarge (readBe (got ++ [b])))
    else if readBe (got ++ [b]) = 0 then .ok (.length [],some [])
    else .ok (.body (readBe (got ++ [b])) [],none)
  | .body need got, b =>
    if (got ++ [b]).length = need then .ok (.length [],some (got ++ [b])) else .ok (.body need (got ++ [b]),none)

/- A sender of message after message. At the first that is too large both senders give the connection up. -/
def sendEach : NoiseTransport → List Bytes → Bytes
  | _, [] => []
  | t, m::ms =>
    match t.encrypt m with
    | .error _ => []
    | .ok (ct,t) => writeFrame ct ++ sendEach t ms

def frameByte {S Out : Type} (onFrame : S → Bytes → Option (S × List Out)) :
    Option (S × Reading) → UInt8 → Option (S × Reading) × List Out
  | none, _ => (none,[])
  | some (s,reading), b =>
    match readByte reading b with
    | .error _ => (none,[])
    | .ok (reading,none) => (some (s,reading),[])
    | .ok (reading,some frame) =>
      match onFrame s frame with
      | none => (none,[])
      | some (s,out) => (some (s,reading),out)

inductive Session where
  | hello
  | ready (transport : NoiseTransport)

/- What the responder makes of the first message comes from the library. A refused message ends the
connection, and so does text that is not UTF-8. -/
def onFrame (responder : Bytes → Option NoiseTransport) : Session → Bytes → Option (Session × List String)
  | .hello, m1 => (responder m1).map fun transport => (.ready transport,[])
  | .ready transport, ct =>
    match transport.decrypt ct with
    | .error _ => none
    | .ok (bytes,transport) => (fromUtf8 bytes).map fun line => (.ready transport,[line])

/- The handshake is over before the loop begins. In the loop `read_exact` is dropped with what it has when
another arm comes first. -/
def dropFrame : Option (Session × Reading) → Option (Session × Reading)
  | some (.ready transport,_) => some (.ready transport,.length [])
  | s => s

def noisePort (responder : Bytes → Option NoiseTransport) : Loop (Option (Session × Reading)) UInt8 String :=
  ⟨frameByte (onFrame responder),dropFrame⟩

def newline : UInt8 := 0x0A

inductive PlainReader where
  | line (buf : Bytes)
  | failed
  deriving DecidableEq, Repr

/- `Lines::next_line` takes the line feed off, and a carriage return before it. -/
def chomp (text : List Char) : List Char :=
  if text.dropLast.getLast? = some '\r' then text.dropLast.dropLast else text.dropLast

def plainByte : PlainReader → UInt8 → PlainReader × List String
  | .line buf, b =>
    if b = newline then
      match fromUtf8 (buf ++ [b]) with
      | none => (.failed,[])
      | some text => (.line [],[String.ofList (chomp text.toList)])
    else (.line (buf ++ [b]),[])
  | .failed, _ => (.failed,[])

/- The reader of the lines keeps what it has over a dropped `next_line`. -/
def plainPort : Loop PlainReader UInt8 String := ⟨plainByte,id⟩

inductive Handled (C : Type) where
  | command (c : C)
  | parseError (response : String)
  deriving DecidableEq, Repr

structure Serde (C : Type) where
  toString : C → String
  fromStr : List Char → Except String C

variable {C : Type}

def handleLine (serde : Serde C) (line : String) : List (Handled C) :=
  if B2f.trim line.toList = [] then []
  else
    match serde.fromStr (B2f.trim line.toList) with
    | .ok c => [.command c]
    | .error e => [.parseError ("parse error: " ++ e)]

def handled (serde : Serde C) (lines : List String) : List (Handled C) := lines.flatMap (handleLine serde)

/- The cipher of a direction in which just these messages are sealed: each opens with its own nonce, and
nobody else can make one that opens. -/
structure Genuine (c : Cipher) (sent : List Bytes) : Prop where
  tagged : ∀ n p, (c.writeMessage n p).length = p.length + tagLen
  opens : ∀ n p, sent[n]? = some p → c.readMessage n (c.writeMessage n p) = some p
  authentic : ∀ n raw p, c.readMessage n raw = some p → sent[n]? = some p ∧ raw = c.writeMessage n p

def sealed (c : Cipher) : Nat → List Bytes → List Bytes
  | _, [] => []
  | n, m::ms => writeFrame (c.writeMessage n m) :: sealed c (n + 1) ms

def fits (m : Bytes) : Bool := m.length ≤ maxPlaintext

theorem sendEachFrames (t : NoiseTransport) (ms : List Bytes) :
    sendEach t ms = (sealed t.sender t.sent (ms.takeWhile fits)).flatten := by
  induction ms generalizing t with
  | nil => rfl
  | cons m ms ih =>
    by_cases large : maxPlaintext < m.length
    · have beyond : fits m = false := decide_eq_false (Nat.not_le.mpr large)
      rw [sendEach, NoiseTransport.encrypt, if_pos large, List.takeWhile_cons_of_neg (by simp [beyond])]
      rfl
    · have small : fits m = true := decide_eq_true (Nat.not_lt.mp large)
      rw [sendEach, NoiseTransport.encrypt, if_neg large, List.takeWhile_cons_of_pos small, sealed, List.flatten_cons]
      exact congrArg (writeFrame _ ++ ·) (ih _)

theorem sealedTake (c : Cipher) (n k : Nat) (ms : List Bytes) : (sealed c n ms).take k = sealed c n (ms.take k) := by
  induction ms generalizing n k with
  | nil => simp [sealed]
  | cons m ms ih =>
    cases k with
    | zero => rfl
    | succ k => rw [List.take_succ_cons, sealed, sealed, List.take_succ_cons, ih]

theorem Genuine.lengths {c : Cipher} {sent : List Bytes} (genuine : Genuine c sent) (n : Nat) (ms : List Bytes) :
    (sealed c n ms).map List.length = ms.map fun m => 4 + (m.length + tagLen) := by
  induction ms generalizing n with
  | nil => rfl
  | cons m ms ih =>
    rw [sealed, List.map_cons, List.map_cons, ih, writeFrame, List.length_append, beLength, genuine.tagged]

theorem nextSent {m : Bytes} {ms sent : List Bytes} {n : Nat} (next : m::ms <+: sent.drop n) :
    sent[n]? = some m ∧ ms <+: sent.drop (n + 1) := by
  obtain ⟨behind,whole⟩ := next
  constructor
  · have head := congrArg List.head? whole
    rw [List.head?_drop] at head
    exact head.symm
  · refine ⟨behind,?_⟩
    have tail := congrArg List.tail whole
    rwa [List.tail_drop] at tail

section
variable {S Out : Type} (onFrame : S → Bytes → Option (S × List Out)) (cancel : Option (S × Reading) → Option (S × Reading))

def afterFrame (s : S) (frame : Bytes) : Option (S × Reading) × List Out :=
  match onFrame s frame with
  | none => (none,[])
  | some (s,out) => (some (s,.length []),out)

theorem feedBody (s : S) {need : Nat} {buf more : Bytes} (some' : more ≠ []) (whole : buf.length + more.length = need) :
    feed ⟨frameByte onFrame,cancel⟩ (some (s,.body need buf)) more = afterFrame onFrame s (buf ++ more) := by
  induction more generalizing buf with
  | nil => exact absurd rfl some'
  | cons b more ih =>
    rw [List.length_cons] at whole
    cases more with
    | nil =>
      have full : (buf ++ [b]).length = need := by simpa using whole
      simp only [feed, frameByte, readByte, if_pos full, afterFrame]
      cases onFrame s (buf ++ [b]) <;> simp
    | cons c rest =>
      have short : ¬ (buf ++ [b]).length = need := by
        rw [List.length_append, List.length_singleton, ← whole, List.length_cons]
        omega
      have further := @ih (buf ++ [b]) (List.cons_ne_nil c rest) (by
        rw [List.length_append, List.length_singleton]
        omega)
      rw [feed]
      simp only [frameByte, readByte, if_neg short, further]
      simp

theorem feedFrame (s : S) {frame : Bytes} (fits : frame.length ≤ maxFrame) :
    feed ⟨frameByte onFrame,cancel⟩ (some (s,.length [])) (writeFrame frame) = afterFrame onFrame s frame := by
  have value : readBe (be 4 frame.length) = frame.length := readBeBounded (by
    unfold maxFrame maxPlaintext at fits
    omega)
  obtain ⟨a,b,c,d,header⟩ : ∃ a b c d, be 4 frame.length = [a,b,c,d] := by
    have width := beLength 4 frame.length
    match be 4 frame.length, width with
    | [a,b,c,d], _ => exact ⟨a,b,c,d,rfl⟩
  rw [header] at value
  rw [writeFrame, header]
  have header : feed ⟨frameByte onFrame,cancel⟩ (some (s,.length [])) [a,b,c] = (some (s,.length [a,b,c]),[]) := by
    simp [feed, frameByte, readByte]
  have small : ¬ maxFrame < readBe [a,b,c,d] := by omega
  have split : [a,b,c,d] ++ frame = [a,b,c] ++ (d::frame) := rfl
  rw [split, feedAppend, header]
  cases frame with
  | nil =>
    have none : readByte (.length [a,b,c]) d = .ok (.length [],some []) := by
      rw [readByte, if_neg (by simp), List.cons_append, List.cons_append, List.cons_append, List.nil_append, if_neg small, value]
      rfl
    simp only [feed, frameByte, none, afterFrame]
    cases onFrame s [] <;> simp
  | cons x rest =>
    have body : feed ⟨frameByte onFrame,cancel⟩ (some (s,.body (x::rest).length [])) (x::rest) = afterFrame onFrame s (x::rest) :=
      feedBody onFrame cancel s (List.cons_ne_nil x rest) (Nat.zero_add _)
    have begun : readByte (.length [a,b,c]) d = .ok (.body (x::rest).length [],Option.none) := by
      rw [readByte, if_neg (by simp), List.cons_append, List.cons_append, List.cons_append, List.nil_append, if_neg small, value]
      rfl
    rw [feed]
    simp only [frameByte, begun, body]
    simp

end

def Reading.held : Reading → Nat
  | .length got => got.length
  | .body _ got => 4 + got.length

theorem readOn {reading next : Reading} {b : UInt8} (read : readByte reading b = .ok (next,none)) : next.held ≤ reading.held + 1 := by
  cases reading with
  | length got =>
    rw [readByte, List.length_append, List.length_singleton] at read
    split_ifs at read with short large empty
    · cases read
      simp [Reading.held]
    · cases read
    · cases read
      simp only [Reading.held, List.length_nil]
      omega
  | body need got =>
    rw [readByte] at read
    split_ifs at read
    · cases read
    · cases read
      simp only [Reading.held, List.length_append, List.length_singleton]
      omega

theorem readWhole {reading next : Reading} {b : UInt8} {frame : Bytes} (read : readByte reading b = .ok (next,some frame)) :
    next = .length [] ∧ 4 + frame.length ≤ reading.held + 1 := by
  cases reading with
  | length got =>
    rw [readByte, List.length_append, List.length_singleton] at read
    split_ifs at read with short large empty
    · cases read
    · cases read
      refine ⟨rfl,?_⟩
      simp only [Reading.held, List.length_nil]
      omega
    · cases read
  | body need got =>
    rw [readByte] at read
    split_ifs at read
    · cases read
      refine ⟨rfl,?_⟩
      simp only [Reading.held, List.length_append, List.length_singleton]
      omega
    · cases read

def Reading.taken : Reading → Bytes
  | .length got => got
  | .body need got => be 4 need ++ got

def Reading.Begun (reading : Reading) : Prop := ∀ got, reading = .length got → got.length < 4

theorem beginBegun : (Reading.length []).Begun := by
  rintro got same
  cases same
  decide

theorem headerTaken {got : Bytes} {b : UInt8} (short : got.length < 4) (full : ¬ (got ++ [b]).length < 4) :
    be 4 (readBe (got ++ [b])) = got ++ [b] := by
  have width : (got ++ [b]).length = 4 := by
    rw [List.length_append, List.length_singleton] at full ⊢
    omega
  have back := Reads.beReadBe (got ++ [b])
  rwa [width] at back

theorem takenOn {reading next : Reading} {b : UInt8} (begun : reading.Begun) (read : readByte reading b = .ok (next,none)) :
    next.Begun ∧ next.taken = reading.taken ++ [b] := by
  cases reading with
  | length got =>
    rw [readByte] at read
    split_ifs at read with short large empty
    · cases read
      refine ⟨fun more same => ?_,rfl⟩
      cases same
      exact short
    · cases read
    · cases read
      refine ⟨fun more same => by (cases same),?_⟩
      show be 4 (readBe (got ++ [b])) ++ [] = got ++ [b]
      rw [headerTaken (begun got rfl) short, List.append_nil]
  | body need got =>
    rw [readByte] at read
    split_ifs at read
    · cases read
    · cases read
      exact ⟨fun more same => by (cases same),by rw [Reading.taken, Reading.taken, List.append_assoc]⟩

theorem takenWhole {reading next : Reading} {b : UInt8} {frame : Bytes} (begun : reading.Begun)
    (read : readByte reading b = .ok (next,some frame)) : writeFrame frame = reading.taken ++ [b] := by
  cases reading with
  | length got =>
    rw [readByte] at read
    split_ifs at read with short large empty
    · cases read
    · cases read
      have header := headerTaken (begun got rfl) short
      rw [empty] at header
      exact header
    · cases read
  | body need got =>
    rw [readByte] at read
    split_ifs at read with whole
    · cases read
      rw [writeFrame, whole, Reading.taken, List.append_assoc]
    · cases read

theorem Genuine.opened {t after : NoiseTransport} {sent : List Bytes} (genuine : Genuine t.receiver sent) {raw bytes : Bytes}
    (opens : t.decrypt raw = .ok (bytes,after)) :
    sent[t.received]? = some bytes ∧ raw.length = bytes.length + tagLen ∧ after = { t with received := t.received + 1 } := by
  rw [NoiseTransport.decrypt] at opens
  split at opens
  · cases opens
  next plaintext found =>
    cases opens
    obtain ⟨there,same⟩ := genuine.authentic _ _ _ found
    exact ⟨there,by rw [same, genuine.tagged],rfl⟩

section
variable {responder : Bytes → Option NoiseTransport} {t : NoiseTransport} {sent : List Bytes}

def lineWeight (line : String) : Nat := 4 + ((utf8 line).length + tagLen)

inductive Stepped (t : NoiseTransport) (sent : List Bytes) (reading : Reading) : Option (Session × Reading) × List String → Prop where
  | closed : Stepped t sent reading (none,[])
  | more (next : Reading) (held : next.held ≤ reading.held + 1) : Stepped t sent reading (some (.ready t,next),[])
  | line (line : String) (there : sent[t.received]? = some (utf8 line)) (whole : lineWeight line ≤ reading.held + 1) :
      Stepped t sent reading (some (.ready { t with received := t.received + 1 },.length []),[line])

theorem stepped (responder : Bytes → Option NoiseTransport) (genuine : Genuine t.receiver sent) (reading : Reading) (b : UInt8) :
    Stepped t sent reading ((noisePort responder).step (some (.ready t,reading)) b) := by
  simp only [noisePort, frameByte]
  cases read : readByte reading b with
  | error e => exact .closed
  | ok after =>
    obtain ⟨next,none | frame⟩ := after
    · exact .more next (readOn read)
    · obtain ⟨rfl,held⟩ := readWhole read
      simp only [onFrame]
      cases opens : t.decrypt frame with
      | error e => exact .closed
      | ok pair =>
        obtain ⟨bytes,after⟩ := pair
        obtain ⟨there,size,rfl⟩ := genuine.opened opens
        cases text : fromUtf8 bytes with
        | none => simpa [text] using Stepped.closed
        | some line =>
          have same := utf8Read text
          rw [← same] at there size
          simpa [text] using Stepped.line line there (by
            unfold lineWeight
            omega)

def Trusted (sent : List Bytes) : Option (Session × Reading) → Prop
  | none => True
  | some (.hello,_) => False
  | some (.ready t,_) => Genuine t.receiver sent

def heldBytes : Option (Session × Reading) → Nat
  | none => 0
  | some (_,reading) => reading.held

theorem portWeighed (responder : Bytes → Option NoiseTransport) (sent : List Bytes) :
    Weighed (noisePort responder) (Trusted sent) heldBytes lineWeight where
  step s b trusted := by
    obtain _ | ⟨_ | t,reading⟩ := s
    · exact ⟨trivial,by simp [noisePort, frameByte, heldBytes]⟩
    · exact trusted.elim
    · have step := stepped responder trusted reading b
      generalize (noisePort responder).step (some (.ready t,reading)) b = after at step ⊢
      cases step with
      | closed => exact ⟨trivial,by simp [heldBytes]⟩
      | more next held => exact ⟨trusted,by simpa [heldBytes] using held⟩
      | line line there whole => exact ⟨trusted,by simpa [heldBytes, Reading.held] using whole⟩
  cancel s trusted := by
    obtain _ | ⟨_ | t,reading⟩ := s
    · exact ⟨trivial,rfl⟩
    · exact trusted.elim
    · exact ⟨trusted,rfl⟩
  still s trusted empty := by
    obtain _ | ⟨_ | t,_ | _⟩ := s
    · rfl
    · exact trusted.elim
    · exact trusted.elim
    · rw [List.eq_nil_of_length_eq_zero empty]
      rfl
    · simp [heldBytes, Reading.held] at empty

theorem closedQuiet (inputs : List (Input UInt8)) : (run (noisePort responder) none inputs).2 = [] := by
  induction inputs with
  | nil => rfl
  | cons input rest ih => cases input <;> exact ih

theorem linesGenuine (responder : Bytes → Option NoiseTransport) (genuine : Genuine t.receiver sent) (reading : Reading) (inputs : List (Input UInt8)) :
    (run (noisePort responder) (some (.ready t,reading)) inputs).2.map utf8 <+: sent.drop t.received := by
  induction inputs generalizing t reading with
  | nil => exact List.nil_prefix
  | cons input rest ih =>
    cases input with
    | byte b =>
      have step := stepped responder genuine reading b
      rw [run]
      generalize (noisePort responder).step (some (.ready t,reading)) b = after at step ⊢
      cases step with
      | closed => simp [closedQuiet]
      | more next held => simpa using ih genuine next
      | line line there whole =>
        have later := ih (t := { t with received := t.received + 1 }) genuine (.length [])
        obtain ⟨inside,here⟩ := List.getElem?_eq_some_iff.mp there
        rw [List.drop_eq_getElem_cons inside, here]
        simpa using later
    | event => exact ih genuine (.length [])

theorem linesTrusted {sent : Bytes → List Bytes}
    (keyed : ∀ m1 t, responder m1 = some t → t.received = 0 ∧ Genuine t.receiver (sent m1)) {reading : Reading} (begun : reading.Begun)
    (inputs : List (Input UInt8)) :
    (run (noisePort responder) (some (.hello,reading)) inputs).2 = [] ∨
      ∃ m1 t, writeFrame m1 <+: reading.taken ++ bytesOf inputs ∧ responder m1 = some t ∧ (run (noisePort responder) (some (.hello,reading)) inputs).2.map utf8 <+: sent m1 := by
  induction inputs generalizing reading with
  | nil => exact .inl rfl
  | cons input rest ih =>
    cases input with
    | byte b =>
      rw [run]
      cases read : readByte reading b with
      | error e =>
        simp only [noisePort, frameByte, read]
        exact .inl (closedQuiet rest)
      | ok after =>
        obtain ⟨next,none | m1⟩ := after
        · obtain ⟨still,taken⟩ := takenOn begun read
          have later := ih still
          rw [taken, List.append_assoc] at later
          simp only [noisePort, frameByte, read]
          exact later
        · cases answer : responder m1 with
          | none =>
            simp only [noisePort, frameByte, read, onFrame, answer, Option.map_none]
            exact .inl (closedQuiet rest)
          | some t =>
            obtain ⟨fresh,genuine⟩ := keyed m1 t answer
            have lines := linesGenuine responder genuine next rest
            rw [fresh, List.drop_zero] at lines
            simp only [noisePort, frameByte, read, onFrame, answer, Option.map_some]
            refine .inr ⟨m1,t,?_,answer,lines⟩
            rw [takenWhole begun read, bytesOf]
            exact ⟨bytesOf rest,by rw [List.append_assoc, List.singleton_append]⟩
    | event => exact ih begun

theorem feedSealed (genuine : Genuine t.receiver sent) {lines : List String} (next : lines.map utf8 <+: sent.drop t.received)
    (small : ∀ line ∈ lines, fits (utf8 line)) :
    (feed (noisePort responder) (some (.ready t,.length [])) (sealed t.receiver t.received (lines.map utf8)).flatten).2 = lines := by
  induction lines generalizing t with
  | nil => rfl
  | cons line lines ih =>
    obtain ⟨first,rest⟩ := List.forall_mem_cons.mp small
    obtain ⟨there,further⟩ := nextSent next
    have size : (t.receiver.writeMessage t.received (utf8 line)).length ≤ maxFrame := by
      rw [genuine.tagged]
      exact Nat.add_le_add_right (of_decide_eq_true first) _
    have taken : afterFrame (onFrame responder) (.ready t) (t.receiver.writeMessage t.received (utf8 line)) =
        (some (.ready { t with received := t.received + 1 },.length []),[line]) := by
      simp [afterFrame, onFrame, NoiseTransport.decrypt, genuine.opens _ _ there, fromUtf8Utf8]
    rw [List.map_cons, sealed, List.flatten_cons, feedAppend]
    rw [noisePort, feedFrame (onFrame responder) dropFrame (.ready t) size, taken]
    exact congrArg (line :: ·) (ih (t := { t with received := t.received + 1 }) genuine further rest)

theorem linesKeptIff (responder : Bytes → Option NoiseTransport) {lines : List String} (genuine : Genuine t.receiver (lines.map utf8)) (fresh : t.received = 0)
    (small : ∀ line ∈ lines, fits (utf8 line)) {inputs : List (Input UInt8)}
    (arrives : bytesOf inputs = (sealed t.receiver 0 (lines.map utf8)).flatten) :
    (run (noisePort responder) (some (.ready t,.length [])) inputs).2 = lines ↔
      EventsBetween (sealed t.receiver 0 (lines.map utf8)) inputs := by
  have trusted : Trusted (lines.map utf8) (some (.ready t,.length [])) := genuine
  refine (portWeighed responder (lines.map utf8)).lostNothingIff trusted rfl (fun k => ?_) ?_ arrives
  · rw [sealedTake, ← List.map_take, ← fresh]
    refine feedSealed genuine ?_ fun line member => small line (List.mem_of_mem_take member)
    rw [fresh, List.drop_zero]
    exact (List.take_prefix k lines).map utf8
  · rw [genuine.lengths, List.map_map]
    rfl

end

def Object (text : List Char) : Prop := ∃ body, text = '{' :: (body ++ ['}'])

theorem trimObject {text : List Char} (object : Object text) : B2f.trim text = text := by
  obtain ⟨body,rfl⟩ := object
  rw [B2f.trim, List.dropWhile_cons_of_neg (by decide), B2f.trimEnd, ← List.cons_append, List.reverse_append,
    List.reverse_singleton, List.singleton_append, List.dropWhile_cons_of_neg (by decide), List.reverse_cons, List.reverse_reverse]

/- What the serializer is known to write for a command: an object on one line, that reads as the command. -/
structure Serde.Prints (serde : Serde C) (c : C) : Prop where
  back : serde.fromStr (serde.toString c).toList = .ok c
  object : Object (serde.toString c).toList
  oneLine : '\n' ∉ (serde.toString c).toList

def text (serde : Serde C) (c : C) : Bytes := utf8 (serde.toString c)

variable {serde : Serde C}

theorem Serde.Prints.handled {c : C} (prints : serde.Prints c) : handleLine serde (serde.toString c) = [.command c] := by
  have some' : (serde.toString c).toList ≠ [] := by
    obtain ⟨body,whole⟩ := prints.object
    rw [whole]
    exact List.cons_ne_nil _ _
  rw [handleLine, trimObject prints.object, if_neg some', prints.back]

theorem handledAll {cs : List C} (prints : ∀ c ∈ cs, serde.Prints c) : handled serde (cs.map serde.toString) = cs.map .command := by
  induction cs with
  | nil => rfl
  | cons c cs ih =>
    obtain ⟨first,rest⟩ := List.forall_mem_cons.mp prints
    rw [List.map_cons, handled, List.flatMap_cons, first.handled]
    exact congrArg (_ :: ·) (ih rest)

theorem firstLines {lines : List String} {cs : List C} (begin' : lines.map utf8 <+: cs.map (text serde)) :
    lines = (cs.take lines.length).map serde.toString := by
  have same := List.prefix_iff_eq_take.mp begin'
  rw [List.length_map, ← List.map_take] at same
  refine List.map_injective_iff.mpr (fun a b => utf8Inj) ?_
  rw [same, List.map_map]
  rfl

theorem handledFirst {lines : List String} {cs : List C} (prints : ∀ c ∈ cs, serde.Prints c)
    (begin' : lines.map utf8 <+: cs.map (text serde)) : handled serde lines = (cs.take lines.length).map .command := by
  conv_lhs => rw [firstLines begin']
  exact handledAll fun c member => prints c (List.mem_of_mem_take member)

/-- Whatever bytes reach the port and whatever cuts in, it handles nothing before a first message that the
library lets pass, and then commands that its sender sent, in order, from the first. -/
theorem commandsTrusted (serde : Serde C) (responder : Bytes → Option NoiseTransport) (sent : Bytes → List C)
    (prints : ∀ m1, ∀ c ∈ sent m1, serde.Prints c)
    (keyed : ∀ m1 t, responder m1 = some t → t.received = 0 ∧ Genuine t.receiver ((sent m1).map (text serde)))
    (inputs : List (Input UInt8)) :
    handled serde (run (noisePort responder) (some (.hello,.length [])) inputs).2 = [] ∨
      ∃ m1 t, writeFrame m1 <+: bytesOf inputs ∧ responder m1 = some t ∧
        handled serde (run (noisePort responder) (some (.hello,.length [])) inputs).2 <+: (sent m1).map .command := by
  rcases linesTrusted keyed beginBegun inputs with none | ⟨m1,t,came,answer,lines⟩
  · rw [none]
    exact .inl rfl
  · refine .inr ⟨m1,t,came,answer,?_⟩
    rw [handledFirst (prints m1) lines]
    exact (List.take_prefix _ _).map _

namespace Bench

def json : Serde Bool := ⟨fun b => if b then "\x7b1\x7d" else "\x7b0\x7d",fun cs => if cs = ['{','1','}'] then .ok true else .error "unknown"⟩

def tag (n : Nat) : Bytes := List.replicate tagLen (UInt8.ofNat n)

def cipher (sent : List Bytes) : Cipher :=
  ⟨fun n p => p ++ tag n,fun n raw => sent[n]?.bind fun p => if raw = p ++ tag n then some p else none⟩

theorem genuine (sent : List Bytes) : Genuine (cipher sent) sent where
  tagged n p := by simp [cipher, tag]
  opens n p there := by simp [cipher, there]
  authentic n raw p opened := by
    obtain ⟨q,there,same⟩ := Option.bind_eq_some_iff.mp opened
    split at same
    · cases Option.some.inj same
      exact ⟨there,by assumption⟩
    · cases same

def transport : NoiseTransport := ⟨cipher [],cipher [text json true],0,0⟩

def peer : NoiseTransport := ⟨transport.receiver,transport.sender,0,0⟩

def responder (m1 : Bytes) : Option NoiseTransport := if m1 = [1,2] then some transport else none

theorem prints : json.Prints true := ⟨rfl,⟨['1'],rfl⟩,by decide⟩

end Bench

def Bench.inputs : List (Input UInt8) :=
  (writeFrame [1,2]).map .byte ++ .event :: (sendEach Bench.peer [text Bench.json true]).map .byte

theorem commandsTrustedOne :
    handled Bench.json (run (noisePort Bench.responder) (some (.hello,.length [])) Bench.inputs).2 = [.command true] ∧
    (handled Bench.json (run (noisePort Bench.responder) (some (.hello,.length [])) Bench.inputs).2 = [] ∨
      ∃ m1 t, writeFrame m1 <+: bytesOf Bench.inputs ∧ Bench.responder m1 = some t ∧
        handled Bench.json (run (noisePort Bench.responder) (some (.hello,.length [])) Bench.inputs).2 <+: [true].map .command) :=
  ⟨by decide +kernel,
    commandsTrusted Bench.json Bench.responder (fun _ => [true]) (fun _ c member => by simpa [List.mem_singleton.mp member] using Bench.prints)
      (fun m1 t answer => by
        unfold Bench.responder at answer
        split at answer
        · cases Option.some.inj answer
          exact ⟨rfl,Bench.genuine _⟩
        · cases answer) _⟩

theorem helloRead {responder : Bytes → Option NoiseTransport} {m1 : Bytes} {t : NoiseTransport} (accepted : responder m1 = some t)
    (short : m1.length ≤ maxFrame) (inputs : List (Input UInt8)) :
    run (noisePort responder) (some (.hello,.length [])) ((writeFrame m1).map .byte ++ inputs) =
      run (noisePort responder) (some (.ready t,.length [])) inputs := by
  have taken : afterFrame (onFrame responder) .hello m1 = (some (.ready t,.length []),[]) := by
    simp [afterFrame, onFrame, accepted]
  rw [runAppend, runBytes, noisePort, feedFrame (onFrame responder) dropFrame .hello short, taken]
  simp

theorem feedPlain {raw : Bytes} (plain : newline ∉ raw) (buf : Bytes) : feed plainPort (.line buf) raw = (.line (buf ++ raw),[]) := by
  induction raw generalizing buf with
  | nil => simp [feed]
  | cons b raw ih =>
    rw [List.mem_cons, not_or] at plain
    rw [feed]
    simp only [plainPort, plainByte, if_neg (Ne.symm plain.1)]
    have further := ih plain.2 (buf ++ [b])
    rw [plainPort] at further
    simp [further]

theorem Serde.Prints.chomped {c : C} (prints : serde.Prints c) : chomp ((serde.toString c).toList ++ ['\n']) = (serde.toString c).toList := by
  obtain ⟨body,whole⟩ := prints.object
  rw [chomp, List.dropLast_concat, whole, ← List.cons_append, List.getLast?_concat, if_neg (by decide)]

def plainLine (serde : Serde C) (c : C) : Bytes := text serde c ++ [newline]

theorem feedLine {c : C} (prints : serde.Prints c) : feed plainPort (.line []) (plainLine serde c) = (.line [],[serde.toString c]) := by
  have absent : newline ∉ text serde c := by
    rw [text, utf8ToList]
    exact lowAbsent (c := '\n') (by decide) prints.oneLine
  have read : fromUtf8 (text serde c ++ [newline]) = some (serde.toString c ++ "\n") := by
    have bytes : utf8 (serde.toString c ++ "\n") = text serde c ++ [newline] := utf8Append _ _
    rw [← bytes, fromUtf8Utf8]
  rw [plainLine, feedAppend, feedPlain absent, feed, feed]
  simp only [plainPort, plainByte, if_true, List.nil_append, read, String.toList_append]
  have chomped := prints.chomped
  simp [chomped]

theorem feedLines {cs : List C} (prints : ∀ c ∈ cs, serde.Prints c) :
    feed plainPort (.line []) (cs.flatMap (plainLine serde)) = (.line [],cs.map serde.toString) := by
  induction cs with
  | nil => rfl
  | cons c cs ih =>
    obtain ⟨first,rest⟩ := List.forall_mem_cons.mp prints
    rw [List.flatMap_cons, feedAppend, feedLine first, ih rest]
    rfl

theorem plainUndisturbed (s : PlainReader) (inputs : List (Input UInt8)) : Undisturbed plainPort s inputs := by
  induction inputs generalizing s with
  | nil => trivial
  | cons input rest ih =>
    cases input with
    | byte b => exact ih _
    | event => exact ⟨rfl,ih s⟩

/-- A client's commands over either port, with events of the daemon among the bytes. The plain port handles
them all. The secured one does, up to the first that is too large, just where no event falls inside a frame. -/
theorem commandsArrive (serde : Serde C) (responder : Bytes → Option NoiseTransport) (cs : List C) (prints : ∀ c ∈ cs, serde.Prints c)
    {m1 : Bytes} {t peer : NoiseTransport} (accepted : responder m1 = some t) (short : m1.length ≤ maxFrame)
    (paired : peer.sender = t.receiver ∧ peer.sent = 0 ∧ t.received = 0)
    (genuine : Genuine t.receiver ((cs.takeWhile fun c => fits (text serde c)).map (text serde))) (inputs : List (Input UInt8)) :
    (bytesOf inputs = cs.flatMap (plainLine serde) → handled serde (run plainPort (.line []) inputs).2 = cs.map .command) ∧
      (bytesOf inputs = sendEach peer (cs.map (text serde)) →
        (handled serde (run (noisePort responder) (some (.hello,.length [])) ((writeFrame m1).map .byte ++ inputs)).2 =
            (cs.takeWhile fun c => fits (text serde c)).map .command ↔
          EventsBetween (sealed t.receiver 0 ((cs.takeWhile fun c => fits (text serde c)).map (text serde))) inputs)) := by
  constructor
  · intro sent
    rw [runUndisturbed plainPort (plainUndisturbed _ inputs), sent, feedLines prints]
    exact handledAll prints
  · obtain ⟨same,first,fresh⟩ := paired
    intro sent
    rw [sendEachFrames, same, first, List.takeWhile_map] at sent
    rw [helloRead accepted short]
    change bytesOf inputs = (sealed t.receiver 0 ((cs.takeWhile fun c => fits (text serde c)).map (text serde))).flatten at sent
    have printed : ∀ c ∈ cs.takeWhile fun c => fits (text serde c), serde.Prints c := fun c member =>
      prints c (List.takeWhile_prefix _ |>.subset member)
    have small : ∀ c ∈ cs.takeWhile fun c => fits (text serde c), fits (text serde c) := List.all_eq_true.mp List.all_takeWhile
    generalize cs.takeWhile (fun c => fits (text serde c)) = taken at *
    have lines := linesGenuine responder genuine (.length []) inputs
    rw [fresh, List.drop_zero] at lines
    have bytes : taken.map (text serde) = (taken.map serde.toString).map utf8 := by
      rw [List.map_map]
      rfl
    rw [bytes] at genuine sent
    have kept := linesKeptIff responder genuine fresh (List.forall_mem_map.mpr small) sent
    rw [bytes, ← kept, handledFirst printed lines]
    constructor
    · intro all
      have count := congrArg List.length all
      rw [List.length_map, List.length_map, List.length_take] at count
      have begun := firstLines lines
      rwa [List.take_of_length_le (by omega)] at begun
    · intro all
      rw [all, List.length_map, List.take_length]

def Bench.cut : List (Input UInt8) :=
  .byte 0 :: .event :: ((sendEach Bench.peer [text Bench.json true]).drop 1).map .byte

theorem commandsArriveCut :
    handled Bench.json (run (noisePort Bench.responder) (some (.hello,.length [])) ((writeFrame [1,2]).map .byte ++ Bench.cut)).2 = [] ∧
      (handled Bench.json (run (noisePort Bench.responder) (some (.hello,.length [])) ((writeFrame [1,2]).map .byte ++ Bench.cut)).2 =
          [.command true] ↔
        EventsBetween (sealed Bench.transport.receiver 0 [text Bench.json true]) Bench.cut) :=
  ⟨by decide +kernel,
    (commandsArrive Bench.json Bench.responder [true] (List.forall_mem_singleton.mpr Bench.prints)
      (show Bench.responder [1,2] = some Bench.transport from rfl) (by decide)
      (show Bench.peer.sender = Bench.transport.receiver ∧ Bench.peer.sent = 0 ∧ Bench.transport.received = 0 from ⟨rfl,rfl,rfl⟩)
      (Bench.genuine _) Bench.cut).2 (by decide +kernel)⟩

end OpenPulse.LinkSecurity
