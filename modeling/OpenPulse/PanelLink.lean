import Mathlib.Data.List.TakeWhile
import OpenPulse.Jsc
import OpenPulse.LinkSecurity

/-! The panel's end of the control link, `openpulse-panel/src/transport.rs` with the session of
`connection.rs`, and what the daemon writes to it: events as JSON and spectrum frames, over the plain
port or the secured one. A bin of a spectrum is the bits of its number. -/
namespace OpenPulse.PanelLink
open ByteCodec Selects Utf8Cuts Utf8Texts LinkSecurity

def spectrumMagic : Bytes := [0x4F,0x50,0x53,0x50]

def encodeSpectrumFrame (sampleRate : UInt32) (bins : List UInt32) : Bytes :=
  spectrumMagic ++ (le 2 bins.length ++ (le 4 sampleRate.toNat ++ bins.flatMap fun b => le 4 b.toNat))

def words : Bytes → List UInt32
  | a::b::c::d::rest => UInt32.ofNat (readLe [a,b,c,d]) :: words rest
  | _ => []

def applySpectrum (frame : Bytes) : Option (List UInt32) :=
  if frame.length < 10 ∨ frame.take 4 ≠ spectrumMagic then none
  else if frame.length < 10 + readLe (slice 4 2 frame) * 4 then none
  else some (words (slice 10 (readLe (slice 4 2 frame) * 4) frame))

inductive RecvMsg where
  | text (s : String)
  | binary (b : Bytes)
  deriving DecidableEq, Repr

inductive Handed where
  | event (line : String)
  | bins (bins : List UInt32)
  deriving DecidableEq, Repr

/- A line goes to `apply_event`, a frame to `apply_spectrum`. -/
def RecvMsg.handed : RecvMsg → List Handed
  | .text line => if line.isEmpty then [] else [.event line]
  | .binary frame => (applySpectrum frame).toList.map .bins

variable {E : Type}

inductive Shown (E : Type) where
  | event (e : E)
  | bins (bins : List UInt32)
  deriving DecidableEq, Repr

def holds (text part : List Char) : Bool := text.tails.any part.isPrefixOf

/- A line with a quoted `ok` anywhere counts as the answer to a command. -/
def applyEvent (serde : Serde E) (line : String) : Option E :=
  if holds line.toList "\"ok\"".toList then none else (serde.fromStr line.toList).toOption

def Handed.shown (serde : Serde E) : Handed → Option (Shown E)
  | .event line => (applyEvent serde line).map .event
  | .bins values => some (.bins values)

def trimmed (text : List Char) : String := String.ofList (B2f.trim text)

structure NoiseCtx where
  transport : NoiseTransport
  rxBuf : Bytes
  rxExpected : Option Nat

inductive ReadResult where
  | data (chunk : Bytes)
  | wouldBlock
  | eof
  | failed
  deriving DecidableEq, Repr

def takeLength : Option Nat → Bytes → Option (Bytes × Option Nat)
  | none, a::b::c::d::rest => if maxFrame < readBe [a,b,c,d] then none else some (rest,some (readBe [a,b,c,d]))
  | rxExpected, rxBuf => some (rxBuf,rxExpected)

def takeFrame (rxBuf : Bytes) (rxExpected : Option Nat) : Option (Option Bytes × Bytes × Option Nat) :=
  match takeLength rxExpected rxBuf with
  | none => none
  | some (rxBuf,none) => some (none,rxBuf,none)
  | some (rxBuf,some n) => some (if n ≤ rxBuf.length then (some (rxBuf.take n),rxBuf.drop n,none) else (none,rxBuf,some n))

def demuxMessage (pt : Bytes) : RecvMsg :=
  if 4 ≤ pt.length ∧ pt.take 4 = spectrumMagic then .binary pt else .text (trimmed (Jsc.fromUtf8Lossy pt))

def ReadResult.arrived : ReadResult → Option Bytes
  | .data chunk => some chunk
  | .wouldBlock => some []
  | .eof | .failed => none

def tryRecvNoise (nc : NoiseCtx) (r : ReadResult) : Option (NoiseCtx × Option RecvMsg) :=
  match r.arrived with
  | none => none
  | some chunk =>
    match takeFrame (nc.rxBuf ++ chunk) nc.rxExpected with
    | none => none
    | some (none,rxBuf,rxExpected) => some (⟨nc.transport,rxBuf,rxExpected⟩,none)
    | some (some ct,rxBuf,rxExpected) =>
      match nc.transport.decrypt ct with
      | .error _ => none
      | .ok (pt,transport) => some (⟨transport,rxBuf,rxExpected⟩,some (demuxMessage pt))

def poll : Option NoiseCtx → ReadResult → Option NoiseCtx × List Handed
  | none, _ => (none,[])
  | some nc, r =>
    match tryRecvNoise nc r with
    | none => (none,[])
    | some (nc,msg) => (some nc,msg.toList.flatMap RecvMsg.handed)

def securedPanel : Loop (Option NoiseCtx) ReadResult Handed := ⟨poll,id⟩

@[simp] theorem securedStep (s : Option NoiseCtx) (r : ReadResult) : securedPanel.step s r = poll s r := rfl

inductive Phase where
  | start
  | line (buf : Bytes)
  | header (buf : Bytes)
  | payload (header : Bytes) (need : Nat) (buf : Bytes)
  | closed
  deriving DecidableEq, Repr

def lineByte (buf : Bytes) (b : UInt8) : Phase × List RecvMsg :=
  if b = newline then
    match fromUtf8 (buf ++ [b]) with
    | none => (.closed,[])
    | some text => (.start,if B2f.trim text.toList = [] then [] else [.text (trimmed text.toList)])
  else (.line (buf ++ [b]),[])

def headerByte (buf : Bytes) (b : UInt8) : Phase × List RecvMsg :=
  let header := buf ++ [b]
  if header.length < 10 then (.header header,[])
  else if header.take 4 ≠ spectrumMagic then (.closed,[])
  else if 8192 < readLe (slice 4 2 header) then (.closed,[])
  else if readLe (slice 4 2 header) * 4 = 0 then (.start,[.binary header])
  else (.payload header (readLe (slice 4 2 header) * 4) [],[])

def tryRecvPlain : Phase → UInt8 → Phase × List RecvMsg
  | .start, b => if b = 0x4F then headerByte [] b else lineByte [] b
  | .line buf, b => lineByte buf b
  | .header buf, b => headerByte buf b
  | .payload header need buf, b =>
    if (buf ++ [b]).length = need then (.start,[.binary (header ++ (buf ++ [b]))]) else (.payload header need (buf ++ [b]),[])
  | .closed, _ => (.closed,[])

/- A read that finds nothing within the timeout. A line under way is dropped with what was read of it; a
frame under way ends the session. -/
def timeout : Phase → Phase
  | .start | .line _ => .start
  | .header _ | .payload .. | .closed => .closed

def plainPanel : Loop Phase UInt8 Handed where
  step s b := ((tryRecvPlain s b).1,(tryRecvPlain s b).2.flatMap RecvMsg.handed)
  cancel := timeout

inductive Outgoing where
  | json (text : String)
  | spectrum (sampleRate : UInt32) (bins : List UInt32)
  deriving DecidableEq, Repr

def Outgoing.payload : Outgoing → Bytes
  | .json text => utf8 text
  | .spectrum sampleRate bins => encodeSpectrumFrame sampleRate bins

def Outgoing.plain : Outgoing → Bytes
  | .json text => utf8 text ++ [newline]
  | .spectrum sampleRate bins => encodeSpectrumFrame sampleRate bins

def Outgoing.hands : Outgoing → Handed
  | .json text => .event text
  | .spectrum _ bins => .bins bins

/- JSON is an object on one line, and no more bins than a reader takes. -/
def Outgoing.Sound : Outgoing → Prop
  | .json text => Object text.toList ∧ '\n' ∉ text.toList
  | .spectrum _ bins => bins.length ≤ 8192

theorem continues (n : Nat) : Jsc.continuation (UInt8.ofNat (n % 64 + 0x80)) = true := by
  have half : (n % 64 + 0x80) / 64 = 2 := by omega
  rw [Jsc.continuation, byteValue (by omega), half]
  rfl

theorem lossySequence (a b : UInt8) (more : Bytes) {lo hi : Nat} (long : ¬ a.toNat < 0x80)
    (known : Jsc.utf8Shape a.toNat = some (lo,hi,more.length)) (low : lo ≤ b.toNat) (high : b.toNat ≤ hi)
    (others : ∀ x ∈ more, Jsc.continuation x = true) (rest : Bytes) :
    Jsc.fromUtf8Lossy (a::b::(more ++ rest)) =
      Char.ofNat ((b::more).foldl (fun n x => n * 64 + x.toNat % 64) (a.toNat % 2 ^ (5 - more.length))) :: Jsc.fromUtf8Lossy rest := by
  have tail : Jsc.utf8Tail (lo,hi,more.length) (b::(more ++ rest)) = b::more := by
    rw [Jsc.utf8Tail, if_pos ⟨low,high⟩, List.take_left, List.takeWhile_eq_self_iff.mpr others]
  have behind : (b::(more ++ rest)).drop (b::more).length = rest := by
    rw [List.length_cons, List.drop_succ_cons, List.drop_left]
  rw [Jsc.fromUtf8Lossy, if_neg long, known]
  dsimp only
  rw [tail, behind, if_pos List.length_cons]

theorem lossyChar {v : Nat} {raw : Bytes} (shape : Shape v raw) (rest : Bytes) :
    Jsc.fromUtf8Lossy (raw ++ rest) = Char.ofNat v :: Jsc.fromUtf8Lossy rest := by
  cases shape with
  | one low =>
    have value := byteValue (show v < 256 by omega)
    rw [List.cons_append, List.nil_append, Jsc.fromUtf8Lossy, value, if_pos low]
  | two least most =>
    have first := byteValue (show v / 64 + 0xC0 < 256 by omega)
    have second := byteValue (show v % 64 + 0x80 < 256 by omega)
    have read := lossySequence (UInt8.ofNat (v / 64 + 0xC0)) (UInt8.ofNat (v % 64 + 0x80)) [] (by omega)
      (by rw [first, Jsc.utf8Shape, if_pos (by omega)]; rfl) (by omega) (by omega) (List.forall_mem_nil _) rest
    have whole : (v / 64 + 0xC0) % 2 ^ 5 * 64 + (v % 64 + 0x80) % 64 = v := by omega
    refine read.trans ?_
    simp only [List.foldl_cons, List.foldl_nil, List.length_nil, Nat.sub_zero, first, second, whole]
  | three least most plain =>
    have first := byteValue (show v / 4096 + 0xE0 < 256 by omega)
    have second := byteValue (show v / 64 % 64 + 0x80 < 256 by omega)
    have third := byteValue (show v % 64 + 0x80 < 256 by omega)
    have whole : ((v / 4096 + 0xE0) % 2 ^ 4 * 64 + (v / 64 % 64 + 0x80) % 64) * 64 + (v % 64 + 0x80) % 64 = v := by omega
    obtain ⟨lo,hi,known,low,high⟩ : ∃ lo hi, Jsc.utf8Shape (v / 4096 + 0xE0) = some (lo,hi,1) ∧
        lo ≤ v / 64 % 64 + 0x80 ∧ v / 64 % 64 + 0x80 ≤ hi := by
      unfold Jsc.utf8Shape
      split_ifs <;> first | exact ⟨_,_,rfl,by omega,by omega⟩ | omega
    have read := lossySequence (UInt8.ofNat (v / 4096 + 0xE0)) (UInt8.ofNat (v / 64 % 64 + 0x80))
      [UInt8.ofNat (v % 64 + 0x80)] (by omega) (by rw [first]; exact known) (by omega) (by omega)
      (List.forall_mem_singleton.mpr (continues _)) rest
    refine read.trans ?_
    simp only [List.foldl_cons, List.foldl_nil, List.length_cons, List.length_nil, first, second, third]
    rw [whole]
  | four least most =>
    have first := byteValue (show v / 262144 + 0xF0 < 256 by omega)
    have second := byteValue (show v / 4096 % 64 + 0x80 < 256 by omega)
    have third := byteValue (show v / 64 % 64 + 0x80 < 256 by omega)
    have fourth := byteValue (show v % 64 + 0x80 < 256 by omega)
    have whole : (((v / 262144 + 0xF0) % 2 ^ 3 * 64 + (v / 4096 % 64 + 0x80) % 64) * 64 + (v / 64 % 64 + 0x80) % 64) * 64 +
        (v % 64 + 0x80) % 64 = v := by omega
    obtain ⟨lo,hi,known,low,high⟩ : ∃ lo hi, Jsc.utf8Shape (v / 262144 + 0xF0) = some (lo,hi,2) ∧
        lo ≤ v / 4096 % 64 + 0x80 ∧ v / 4096 % 64 + 0x80 ≤ hi := by
      unfold Jsc.utf8Shape
      split_ifs <;> first | exact ⟨_,_,rfl,by omega,by omega⟩ | omega
    have read := lossySequence (UInt8.ofNat (v / 262144 + 0xF0)) (UInt8.ofNat (v / 4096 % 64 + 0x80))
      [UInt8.ofNat (v / 64 % 64 + 0x80),UInt8.ofNat (v % 64 + 0x80)] (by omega) (by rw [first]; exact known) (by omega) (by omega)
      (List.forall_mem_cons.mpr ⟨continues _,List.forall_mem_singleton.mpr (continues _)⟩) rest
    refine read.trans ?_
    simp only [List.foldl_cons, List.foldl_nil, List.length_cons, List.length_nil, first, second, third, fourth]
    rw [whole]

theorem lossyEncoded (cs : List Char) : Jsc.fromUtf8Lossy (encoded cs) = cs := by
  induction cs with
  | nil => rw [encodedNil, Jsc.fromUtf8Lossy]
  | cons c cs ih => rw [encodedCons, lossyChar (charShape c), ih, Char.ofNat_toNat]

theorem trimmedObject {text : String} (object : Object text.toList) : trimmed text.toList = text := by
  rw [trimmed, trimObject object, String.ofList_toList]

theorem objectBytes {text : String} (object : Object text.toList) : ∃ rest, utf8 text = 0x7B::rest := by
  obtain ⟨body,whole⟩ := object
  exact ⟨encoded (body ++ ['}']),by rw [utf8ToList, whole]; rfl⟩

theorem eventHanded {text : String} (object : Object text.toList) :
    (RecvMsg.text (trimmed text.toList)).handed = [.event text] := by
  have some' : text.isEmpty = false := by
    obtain ⟨body,whole⟩ := object
    rw [Bool.eq_false_iff]
    intro empty
    rw [String.isEmpty_iff.mp empty] at whole
    cases whole
  rw [trimmedObject object, RecvMsg.handed, if_neg (by simp [some'])]

theorem wordsBack (bins : List UInt32) : words (bins.flatMap fun b => le 4 b.toNat) = bins := by
  induction bins with
  | nil => rfl
  | cons b bins ih =>
    obtain ⟨x,y,z,w,bytes⟩ : ∃ x y z w, le 4 b.toNat = [x,y,z,w] := List.length_eq_four.mp (leLength 4 b.toNat)
    have value : readLe (le 4 b.toNat) = b.toNat := by
      rw [readLe, le, List.reverse_reverse]
      exact readBeBounded b.toNat_lt
    rw [List.flatMap_cons, bytes, List.cons_append, List.cons_append, List.cons_append, List.cons_append, List.nil_append, words, ih,
      ← bytes, value, UInt32.ofNat_toNat]

section
variable {sampleRate : UInt32} {bins : List UInt32}

theorem binsLength (bins : List UInt32) : (bins.flatMap fun b => le 4 b.toNat).length = bins.length * 4 := by
  induction bins with
  | nil => rfl
  | cons b bins ih => rw [List.flatMap_cons, List.length_append, leLength, ih, List.length_cons]; omega

def spectrumHeader (sampleRate : UInt32) (bins : List UInt32) : Bytes :=
  spectrumMagic ++ (le 2 bins.length ++ le 4 sampleRate.toNat)

theorem headerLength (sampleRate : UInt32) (bins : List UInt32) : (spectrumHeader sampleRate bins).length = 10 := by
  simp [spectrumHeader, spectrumMagic]

theorem frameSplit (sampleRate : UInt32) (bins : List UInt32) :
    encodeSpectrumFrame sampleRate bins = spectrumHeader sampleRate bins ++ bins.flatMap fun b => le 4 b.toNat := by
  simp [encodeSpectrumFrame, spectrumHeader]

theorem headerMagic (sampleRate : UInt32) (bins : List UInt32) (rest : Bytes) : (spectrumHeader sampleRate bins ++ rest).take 4 = spectrumMagic := by
  rw [spectrumHeader, List.append_assoc, List.take_append_of_le_length (by decide)]
  rfl

theorem headerSize (sampleRate : UInt32) (small : bins.length < 65536) (rest : Bytes) :
    readLe (slice 4 2 (spectrumHeader sampleRate bins ++ rest)) = bins.length := by
  have field : slice 4 2 (spectrumHeader sampleRate bins ++ rest) = le 2 bins.length :=
    sliceAt spectrumMagic _ (le 4 sampleRate.toNat ++ rest) (by simp [spectrumHeader]) rfl (leLength ..)
  rw [field, readLe, le, List.reverse_reverse]
  exact readBeBounded small

theorem binsHanded (sampleRate : UInt32) (small : bins.length < 65536) :
    (RecvMsg.binary (encodeSpectrumFrame sampleRate bins)).handed = [.bins bins] := by
  have size := headerLength sampleRate bins
  have many := binsLength bins
  have inside : slice 10 (bins.length * 4) (encodeSpectrumFrame sampleRate bins) = bins.flatMap fun b => le 4 b.toNat :=
    sliceAt (spectrumHeader sampleRate bins) _ [] (by rw [frameSplit, List.append_nil]) size many
  have applied : applySpectrum (encodeSpectrumFrame sampleRate bins) = some bins := by
    rw [applySpectrum, if_neg, if_neg]
    · rw [frameSplit, headerSize sampleRate small, ← frameSplit, inside, wordsBack]
    · rw [frameSplit, headerSize sampleRate small, List.length_append, size, many]
      omega
    · rw [frameSplit, headerMagic, List.length_append, size]
      simp
  rw [RecvMsg.handed, applied]
  rfl

end

def Handed.weight : Handed → Nat
  | .event line => (utf8 line).length + 1
  | .bins values => 10 + values.length * 4

def Phase.held : Phase → Nat
  | .start | .closed => 0
  | .line buf | .header buf => buf.length
  | .payload first _ buf => first.length + buf.length

def Phase.Begun : Phase → Prop
  | .start | .closed => True
  | .line buf | .header buf => buf ≠ []
  | .payload first _ _ => first ≠ []

def RecvMsg.size : RecvMsg → Nat
  | .text s => (utf8 s).length + 1
  | .binary b => b.length

def Accounted (room : Nat) (after : Phase × List RecvMsg) : Prop :=
  after.1.Begun ∧ after.1.held + (after.2.map RecvMsg.size).sum ≤ room

theorem feedPayload {first : Bytes} {need : Nat} {buf more : Bytes} (some' : more ≠ []) (whole : buf.length + more.length = need) :
    feed plainPanel (.payload first need buf) more = (.start,(RecvMsg.binary (first ++ (buf ++ more))).handed) := by
  induction more generalizing buf with
  | nil => exact absurd rfl some'
  | cons b more ih =>
    rw [List.length_cons] at whole
    cases more with
    | nil =>
      have full : (buf ++ [b]).length = need := by simpa using whole
      simp only [feed, plainPanel, tryRecvPlain, if_pos full]
      simp
    | cons c rest =>
      have short : ¬ (buf ++ [b]).length = need := by
        rw [List.length_append, List.length_singleton, ← whole, List.length_cons]
        omega
      have further := @ih (buf ++ [b]) (List.cons_ne_nil c rest) (by
        rw [List.length_append, List.length_singleton]
        omega)
      have step : plainPanel.step (.payload first need buf) b = (.payload first need (buf ++ [b]),[]) := by
        simp only [plainPanel, tryRecvPlain, if_neg short]
        rfl
      rw [feed, step, further]
      simp

section
variable {sampleRate : UInt32} {bins : List UInt32}

end

def Bench.items : List Outgoing := [.json "\x7b1\x7d",.json "\x7b\"ok\"\x7d",.spectrum 8000 [1,2]]

theorem Bench.sound : ∀ item ∈ items, item.Sound := by
  intro item member
  simp only [items, List.mem_cons, List.not_mem_nil, or_false] at member
  rcases member with rfl | rfl | rfl
  · exact ⟨⟨['1'],rfl⟩,by decide⟩
  · exact ⟨⟨"\"ok\"".toList,rfl⟩,by decide⟩
  · change [(1 : UInt32),2].length ≤ 8192
    decide

def Bench.timed (n : Nat) : List (Input UInt8) :=
  ((Bench.items.map Outgoing.plain).flatten.take n).map .byte ++ .event :: (((Bench.items.map Outgoing.plain).flatten.drop n).map .byte)

def pendingBytes (rxBuf : Bytes) (rxExpected : Option Nat) : Bytes := rxExpected.elim [] (be 4) ++ rxBuf

def Expected (rxExpected : Option Nat) : Prop := ∀ n ∈ rxExpected, n ≤ maxFrame

theorem lengthBack {n : Nat} (small : n ≤ maxFrame) : readBe (be 4 n) = n := readBeBounded (by
  unfold maxFrame maxPlaintext at small
  omega)

section
variable {rxBuf ct : Bytes} {rxExpected : Option Nat}

theorem takeWhole (expected : Expected rxExpected) (small : ct.length ≤ maxFrame) {rest : Bytes}
    (begun : pendingBytes rxBuf rxExpected = writeFrame ct ++ rest) : takeFrame rxBuf rxExpected = some (some ct,rest,none) := by
  have given : takeLength rxExpected rxBuf = some (ct ++ rest,some ct.length) := by
    cases rxExpected with
    | some n =>
      rw [pendingBytes, writeFrame, List.append_assoc] at begun
      obtain ⟨header,body⟩ := List.append_inj begun (by simp)
      have same : n = ct.length := by
        rw [← lengthBack (expected n rfl), ← lengthBack small]
        exact congrArg readBe header
      rw [body, same]
      rfl
    | none =>
      obtain ⟨a,b,c,d,header⟩ : ∃ a b c d, be 4 ct.length = [a,b,c,d] := List.length_eq_four.mp (beLength 4 ct.length)
      have value := lengthBack small
      rw [pendingBytes, writeFrame, List.append_assoc, header] at begun
      rw [header] at value
      change rxBuf = a::b::c::d::(ct ++ rest) at begun
      rw [begun, takeLength, value, if_neg (by omega)]
  rw [takeFrame, given]
  simp

theorem takePartial (expected : Expected rxExpected) (small : ct.length ≤ maxFrame) {more : Bytes} (short : more ≠ [])
    (begun : pendingBytes rxBuf rxExpected ++ more = writeFrame ct) :
    ∃ rxBuf' rxExpected', takeFrame rxBuf rxExpected = some (none,rxBuf',rxExpected') ∧ Expected rxExpected' ∧
      pendingBytes rxBuf' rxExpected' = pendingBytes rxBuf rxExpected := by
  have positive := List.length_pos_of_ne_nil short
  cases rxExpected with
  | some n =>
    refine ⟨rxBuf,some n,?_,expected,rfl⟩
    rw [pendingBytes, writeFrame, List.append_assoc] at begun
    obtain ⟨header,body⟩ := List.append_inj begun (by simp)
    have same : n = ct.length := by
      rw [← lengthBack (expected n rfl), ← lengthBack small]
      exact congrArg readBe header
    have size := congrArg List.length body
    rw [List.length_append] at size
    have few : ¬ n ≤ rxBuf.length := by omega
    simp [takeFrame, takeLength, few]
  | none =>
    rcases rxBuf with _ | ⟨a,_ | ⟨b,_ | ⟨c,_ | ⟨d,rest⟩⟩⟩⟩
    · exact ⟨_,none,rfl,expected,rfl⟩
    · exact ⟨_,none,rfl,expected,rfl⟩
    · exact ⟨_,none,rfl,expected,rfl⟩
    · exact ⟨_,none,rfl,expected,rfl⟩
    · rw [writeFrame] at begun
      have cut : [a,b,c,d] ++ (rest ++ more) = be 4 ct.length ++ ct := by simpa [pendingBytes] using begun
      obtain ⟨header,body⟩ := List.append_inj cut (by simp)
      have value := lengthBack small
      rw [← header] at value
      have size := congrArg List.length body
      rw [List.length_append] at size
      have few : ¬ ct.length ≤ rest.length := by omega
      have large : ¬ maxFrame < ct.length := by omega
      refine ⟨rest,some ct.length,?_,?_,?_⟩
      · simp [takeFrame, takeLength, value, few, large]
      · rintro n ⟨⟩
        exact small
      · rw [pendingBytes, Option.elim_some, ← header]
        rfl

end

section
variable {sent : List Bytes}

def handsOf (pt : Bytes) : List Handed := (demuxMessage pt).handed

inductive Polled (t : NoiseTransport) (sent : List Bytes) : Option NoiseCtx × List Handed → Prop where
  | closed : Polled t sent (none,[])
  | waits (rxBuf : Bytes) (rxExpected : Option Nat) : Polled t sent (some ⟨t,rxBuf,rxExpected⟩,[])
  | message (pt : Bytes) (there : sent[t.received]? = some pt) (rxBuf : Bytes) (rxExpected : Option Nat) :
      Polled t sent (some ⟨{ t with received := t.received + 1 },rxBuf,rxExpected⟩,handsOf pt)

theorem polled {nc : NoiseCtx} (genuine : Genuine nc.transport.receiver sent) (r : ReadResult) :
    Polled nc.transport sent (poll (some nc) r) := by
  rw [poll, tryRecvNoise]
  cases r.arrived with
  | none => exact .closed
  | some chunk =>
    dsimp only
    cases takeFrame (nc.rxBuf ++ chunk) nc.rxExpected with
    | none => exact .closed
    | some taken =>
      obtain ⟨none | ct,rxBuf,rxExpected⟩ := taken
      · exact .waits rxBuf rxExpected
      · dsimp only
        cases opens : nc.transport.decrypt ct with
        | error e => exact .closed
        | ok pair =>
          obtain ⟨pt,after⟩ := pair
          obtain ⟨there,_,rfl⟩ := genuine.opened opens
          simpa [handsOf] using Polled.message pt there rxBuf rxExpected

theorem closedHands (reads : List ReadResult) : (feed securedPanel none reads).2 = [] := by
  induction reads with
  | nil => rfl
  | cons r rest ih => exact ih

theorem handedGenuine {nc : NoiseCtx} (genuine : Genuine nc.transport.receiver sent) (reads : List ReadResult) :
    (feed securedPanel (some nc) reads).2 <+: (sent.drop nc.transport.received).flatMap handsOf := by
  induction reads generalizing nc with
  | nil => exact List.nil_prefix
  | cons r rest ih =>
    have step := polled genuine r
    rw [feed, securedStep]
    generalize poll (some nc) r = after at step ⊢
    cases step with
    | closed => simp [closedHands]
    | waits rxBuf rxExpected => exact @ih ⟨nc.transport,rxBuf,rxExpected⟩ genuine
    | message pt there rxBuf rxExpected =>
      have later := @ih ⟨{ nc.transport with received := nc.transport.received + 1 },rxBuf,rxExpected⟩ genuine
      obtain ⟨inside,here⟩ := List.getElem?_eq_some_iff.mp there
      rw [List.drop_eq_getElem_cons inside, here, List.flatMap_cons]
      exact (List.prefix_append_right_inj _).mpr later

structure Ahead (sent : List Bytes) (nc : NoiseCtx) (later : Bytes) (ms : List Bytes) : Prop where
  genuine : Genuine nc.transport.receiver sent
  expected : Expected nc.rxExpected
  next : ms <+: sent.drop nc.transport.received
  small : ∀ m ∈ ms, fits m
  stream : pendingBytes nc.rxBuf nc.rxExpected ++ later = (sealed nc.transport.receiver nc.transport.received ms).flatten

theorem pollAhead {nc : NoiseCtx} {later chunk : Bytes} {ms : List Bytes} (ahead : Ahead sent nc (chunk ++ later) ms) {r : ReadResult}
    (arrives : r.arrived = some chunk) :
    (∃ m rest nc', ms = m::rest ∧ poll (some nc) r = (some nc',handsOf m) ∧ Ahead sent nc' later rest) ∨
      ∃ nc', poll (some nc) r = (some nc',[]) ∧ Ahead sent nc' later ms ∧ (later = [] → ms = []) := by
  obtain ⟨genuine,expected,next,small,stream⟩ := ahead
  have pending : pendingBytes (nc.rxBuf ++ chunk) nc.rxExpected = pendingBytes nc.rxBuf nc.rxExpected ++ chunk :=
    (List.append_assoc ..).symm
  rw [← List.append_assoc, ← pending] at stream
  cases ms with
  | nil =>
    obtain ⟨read,done⟩ := List.append_eq_nil_iff.mp stream
    have empty : nc.rxBuf ++ chunk = [] ∧ nc.rxExpected = none := by
      cases waiting : nc.rxExpected with
      | none =>
        rw [waiting, pendingBytes] at read
        exact ⟨read,rfl⟩
      | some n =>
        rw [waiting, pendingBytes] at read
        have four := congrArg List.length read
        simp at four
    have taken : takeFrame (nc.rxBuf ++ chunk) nc.rxExpected = some (none,[],none) := by
      rw [empty.1, empty.2]
      rfl
    refine .inr ⟨⟨nc.transport,[],none⟩,?_,⟨genuine,by simp [Expected],next,small,?_⟩,fun _ => rfl⟩
    · simp [poll, tryRecvNoise, arrives, taken]
    · rw [done]
      rfl
  | cons m rest =>
    obtain ⟨first,others⟩ := List.forall_mem_cons.mp small
    obtain ⟨there,further⟩ := nextSent next
    have size : (nc.transport.receiver.writeMessage nc.transport.received m).length ≤ maxFrame := by
      rw [genuine.tagged]
      exact Nat.add_le_add_right (of_decide_eq_true first) _
    have hands : ∀ behind, pendingBytes (nc.rxBuf ++ chunk) nc.rxExpected =
          writeFrame (nc.transport.receiver.writeMessage nc.transport.received m) ++ behind →
        (sealed nc.transport.receiver (nc.transport.received + 1) rest).flatten = behind ++ later →
        ∃ nc', poll (some nc) r = (some nc',handsOf m) ∧ Ahead sent nc' later rest := fun behind cut ends => by
      refine ⟨⟨{ nc.transport with received := nc.transport.received + 1 },behind,none⟩,?_,⟨genuine,by simp [Expected],further,others,?_⟩⟩
      · simp [poll, tryRecvNoise, arrives, takeWhole expected size cut, NoiseTransport.decrypt, genuine.opens _ _ there, handsOf]
      · exact ends.symm
    rw [sealed, List.flatten_cons] at stream
    rcases List.append_eq_append_iff.mp stream with ⟨more,cut,ends⟩ | ⟨behind,cut,ends⟩
    · by_cases full : more = []
      · subst full
        obtain ⟨nc',handed,onward⟩ := hands [] (by rw [cut, List.append_nil, List.append_nil]) ends.symm
        exact .inl ⟨m,rest,nc',rfl,handed,onward⟩
      · obtain ⟨rxBuf,rxExpected,taken,fine,same⟩ := takePartial expected size full cut.symm
        refine .inr ⟨⟨nc.transport,rxBuf,rxExpected⟩,?_,⟨genuine,fine,next,small,?_⟩,fun none => ?_⟩
        · simp [poll, tryRecvNoise, arrives, taken]
        · rw [same, stream, sealed, List.flatten_cons]
        · rw [none] at ends
          exact absurd (List.append_eq_nil_iff.mp ends.symm).1 full
    · obtain ⟨nc',handed,onward⟩ := hands behind cut ends
      exact .inl ⟨m,rest,nc',rfl,handed,onward⟩

def ReadResult.bytes (r : ReadResult) : Bytes := r.arrived.getD []

theorem feedAhead {nc : NoiseCtx} {reads : List ReadResult} {later : Bytes} {ms : List Bytes} (alive : ∀ r ∈ reads, r.arrived ≠ none)
    (ahead : Ahead sent nc (reads.flatMap ReadResult.bytes ++ later) ms) :
    ∃ before rest nc', ms = before ++ rest ∧ feed securedPanel (some nc) reads = (some nc',before.flatMap handsOf) ∧
      Ahead sent nc' later rest := by
  induction reads generalizing nc ms with
  | nil => exact ⟨[],ms,nc,rfl,rfl,ahead⟩
  | cons r reads ih =>
    obtain ⟨some',others⟩ := List.forall_mem_cons.mp alive
    obtain ⟨chunk,arrives⟩ := Option.ne_none_iff_exists'.mp some'
    have bytes : r.bytes = chunk := by rw [ReadResult.bytes, arrives, Option.getD_some]
    rw [List.flatMap_cons, bytes, List.append_assoc] at ahead
    rcases pollAhead ahead arrives with ⟨m,rest,nc',rfl,handed,onward⟩ | ⟨nc',handed,onward,_⟩
    · obtain ⟨before,after,last,rfl,fed,ends⟩ := ih others onward
      refine ⟨m::before,after,last,rfl,?_,ends⟩
      rw [feed, securedStep, handed, fed]
      rfl
    · obtain ⟨before,after,last,whole,fed,ends⟩ := ih others onward
      refine ⟨before,after,last,whole,?_,ends⟩
      rw [feed, securedStep, handed, fed]
      rfl

theorem feedIdle {nc : NoiseCtx} {ms : List Bytes} (ahead : Ahead sent nc [] ms) {n : Nat} (enough : ms.length ≤ n) :
    (feed securedPanel (some nc) (List.replicate n .wouldBlock)).2 = ms.flatMap handsOf := by
  induction n generalizing nc ms with
  | zero =>
    rw [List.eq_nil_of_length_eq_zero (Nat.le_zero.mp enough)]
    rfl
  | succ n ih =>
    rw [List.replicate_succ, feed, securedStep]
    have arrives : ReadResult.wouldBlock.arrived = some [] := rfl
    rcases pollAhead ahead arrives with ⟨m,rest,nc',rfl,handed,onward⟩ | ⟨nc',handed,onward,none⟩
    · rw [handed, ih onward (Nat.le_of_succ_le_succ enough)]
      rfl
    · have empty := none rfl
      subst empty
      rw [handed, ih onward (Nat.zero_le n)]
      rfl

end

theorem payloadHanded {item : Outgoing} (sound : item.Sound) : handsOf item.payload = [item.hands] := by
  cases item with
  | json text =>
    obtain ⟨rest,bytes⟩ := objectBytes sound.1
    have other : ¬ (4 ≤ (utf8 text).length ∧ (utf8 text).take 4 = spectrumMagic) := by
      rintro ⟨-,front⟩
      rw [bytes, List.take_succ_cons, spectrumMagic] at front
      exact absurd (List.cons.inj front).1 (by decide)
    rw [handsOf, Outgoing.payload, demuxMessage, if_neg other, utf8ToList, lossyEncoded, eventHanded sound.1]
    rfl
  | spectrum sampleRate bins =>
    have long : 4 ≤ (encodeSpectrumFrame sampleRate bins).length := by
      rw [frameSplit, List.length_append, headerLength]
      omega
    have front : (encodeSpectrumFrame sampleRate bins).take 4 = spectrumMagic := by rw [frameSplit, headerMagic]
    have few : bins.length ≤ 8192 := sound
    rw [handsOf, Outgoing.payload, demuxMessage, if_pos ⟨long,front⟩, binsHanded sampleRate (by omega)]
    rfl

theorem payloadsHanded {items : List Outgoing} (sound : ∀ item ∈ items, item.Sound) :
    (items.map Outgoing.payload).flatMap handsOf = items.map Outgoing.hands := by
  induction items with
  | nil => rfl
  | cons item items ih =>
    obtain ⟨first,rest⟩ := List.forall_mem_cons.mp sound
    rw [List.map_cons, List.flatMap_cons, payloadHanded first, ih rest]
    rfl

def fitting (items : List Outgoing) : List Outgoing := items.takeWhile fun item => fits item.payload

/-- Over the secured port nothing is handed on or shown but what the daemon wrote, in order from the first,
whatever bytes arrive; and if its bytes arrive, in any pieces and with any pauses, then all of it is handed on. -/
theorem securedShown (serde : Serde E) (items : List Outgoing) (sound : ∀ item ∈ items, item.Sound) {peer : NoiseTransport} {nc : NoiseCtx}
    (fresh : nc.rxBuf = [] ∧ nc.rxExpected = none ∧ nc.transport.received = 0)
    (paired : peer.sender = nc.transport.receiver ∧ peer.sent = 0)
    (genuine : Genuine nc.transport.receiver ((fitting items).map Outgoing.payload)) (reads : List ReadResult) :
    (feed securedPanel (some nc) reads).2 <+: (fitting items).map Outgoing.hands ∧
      (feed securedPanel (some nc) reads).2.filterMap (Handed.shown serde) <+:
        (fitting items).filterMap (fun item => item.hands.shown serde) ∧
      ((∀ r ∈ reads, r.arrived ≠ none) → reads.flatMap ReadResult.bytes = sendEach peer (items.map Outgoing.payload) →
        ∀ n, (fitting items).length ≤ n →
          (feed securedPanel (some nc) (reads ++ List.replicate n .wouldBlock)).2 = (fitting items).map Outgoing.hands) := by
  obtain ⟨empty,waiting,first⟩ := fresh
  have whole : ∀ item ∈ fitting items, item.Sound := fun item member => sound item (List.takeWhile_prefix _ |>.subset member)
  have handed := payloadsHanded whole
  have begun := handedGenuine genuine reads
  rw [first, List.drop_zero, handed] at begun
  refine ⟨begun,?_,?_⟩
  · have filtered := begun.filterMap (Handed.shown serde)
    rwa [List.filterMap_map] at filtered
  · intro alive arrived n enough
    have small : ∀ m ∈ (fitting items).map Outgoing.payload, fits m := List.forall_mem_map.mpr (List.all_eq_true.mp List.all_takeWhile)
    rw [sendEachFrames, paired.1, paired.2, List.takeWhile_map] at arrived
    change _ = (sealed nc.transport.receiver 0 ((fitting items).map Outgoing.payload)).flatten at arrived
    have ahead : Ahead ((fitting items).map Outgoing.payload) nc (reads.flatMap ReadResult.bytes ++ [])
        ((fitting items).map Outgoing.payload) :=
      ⟨genuine,by simp [waiting, Expected],by simp [first],small,
        by rw [empty, waiting, first, ← arrived]; simp [pendingBytes]⟩
    obtain ⟨before,rest,nc',split,fed,onward⟩ := feedAhead alive ahead
    have few : rest.length ≤ n := by
      have count := congrArg List.length split
      rw [List.length_map, List.length_append] at count
      omega
    rw [feedAppend, fed]
    dsimp only
    rw [feedIdle onward few, ← List.flatMap_append, ← split, handed]

def Bench.cipher : Cipher := LinkSecurity.Bench.cipher (Bench.items.map Outgoing.payload)

def Bench.context : NoiseCtx := ⟨⟨Bench.cipher,Bench.cipher,0,0⟩,[],none⟩

def Bench.stream : Bytes := sendEach ⟨Bench.cipher,Bench.cipher,0,0⟩ (Bench.items.map Outgoing.payload)

def Bench.reads : List ReadResult := [.data (Bench.stream.take 3),.wouldBlock,.data (Bench.stream.drop 3)]

theorem securedShownPieces :
    (feed securedPanel (some Bench.context) Bench.reads).2 <+: Bench.items.map Outgoing.hands ∧
      (feed securedPanel (some Bench.context) Bench.reads).2.filterMap (Handed.shown LinkSecurity.Bench.json) <+:
        Bench.items.filterMap (fun item => item.hands.shown LinkSecurity.Bench.json) ∧
      (feed securedPanel (some Bench.context) (Bench.reads ++ List.replicate 3 .wouldBlock)).2 = Bench.items.map Outgoing.hands := by
  have paired : (⟨Bench.cipher,Bench.cipher,0,0⟩ : NoiseTransport).sender = Bench.context.transport.receiver ∧
      (⟨Bench.cipher,Bench.cipher,0,0⟩ : NoiseTransport).sent = 0 := ⟨rfl,rfl⟩
  have all : fitting Bench.items = Bench.items := by decide +kernel
  have genuine : Genuine Bench.context.transport.receiver ((fitting Bench.items).map Outgoing.payload) := by
    rw [all]
    exact LinkSecurity.Bench.genuine _
  have handed := securedShown LinkSecurity.Bench.json Bench.items Bench.sound ⟨rfl,rfl,rfl⟩ paired genuine Bench.reads
  rw [all] at handed
  exact ⟨handed.1,handed.2.1,handed.2.2 (by decide) (by decide +kernel) 3 (by decide)⟩

end OpenPulse.PanelLink
