import OpenPulse.ByteCodec
import OpenPulse.Selects

/-! KISS framing: `openpulse-kiss/src/kiss.rs`, and the reader of a client's stream in
`openpulse-kiss/src/server.rs`. -/
namespace OpenPulse.Kiss
open ByteCodec Selects

def fend : UInt8 := 0xC0
def fesc : UInt8 := 0xDB
def tfend : UInt8 := 0xDC
def tfesc : UInt8 := 0xDD

def kissData : UInt8 := 0x00

inductive KissError where
  | emptyFrame | invalidEscape
  deriving DecidableEq, Repr

def escape : Bytes → Bytes
  | [] => []
  | b::rest =>
    if b = fend then fesc :: tfend :: escape rest
    else if b = fesc then fesc :: tfesc :: escape rest
    else b :: escape rest

def encode (typeByte : UInt8) (payload : Bytes) : Bytes := fend :: typeByte :: (escape payload ++ [fend])

def unescape (payload : Bytes) : Bytes → Except KissError Bytes
  | [] => .ok payload
  | [b] => if b = fesc then .error .invalidEscape else .ok (payload ++ [b])
  | b::c::rest =>
    if b = fesc then
      if c = tfend then unescape (payload ++ [fend]) rest
      else if c = tfesc then unescape (payload ++ [fesc]) rest
      else .error .invalidEscape
    else unescape (payload ++ [b]) (c::rest)

def decode : Bytes → Except KissError (UInt8 × Bytes)
  | [] => .error .emptyFrame
  | typeByte::rest => (unescape [] rest).map fun payload => (typeByte,payload)

def maxPayloadBytes : Nat := 255
def maxFrameBody : Nat := 600

inductive KissTncError where
  | unexpectedEof
  | frameTooLarge (len max : Nat)
  deriving DecidableEq, Repr

def accumulate (buf : Bytes) : Bytes → Except KissTncError (Bytes × Bytes)
  | [] => .error .unexpectedEof
  | b::rest =>
    if b = fend then .ok (buf,rest)
    else if maxFrameBody < (buf ++ [b]).length then .error (.frameTooLarge (buf ++ [b]).length maxFrameBody)
    else accumulate (buf ++ [b]) rest

def readKissFrame : Bytes → Except KissTncError (Bytes × Bytes)
  | [] => .error .unexpectedEof
  | b::rest => if b = fend then accumulate [] rest else readKissFrame rest

theorem accumulateShorter {buf raw body rest : Bytes} (ok : accumulate buf raw = .ok (body,rest)) :
    rest.length < raw.length := by
  induction raw generalizing buf with
  | nil => cases ok
  | cons b later ih =>
    rw [accumulate] at ok
    split at ok
    · cases ok
      exact Nat.lt_succ_self _
    · split at ok
      · cases ok
      · exact Nat.lt_succ_of_lt (ih ok)

theorem readShorter {raw body rest : Bytes} (ok : readKissFrame raw = .ok (body,rest)) : rest.length < raw.length := by
  induction raw with
  | nil => cases ok
  | cons b later ih =>
    rw [readKissFrame] at ok
    split at ok
    · exact Nat.lt_succ_of_lt (accumulateShorter ok)
    · exact Nat.lt_succ_of_lt (ih ok)

/- Successive calls until one fails: the bodies, and the error that ends the client. -/
def readBodies (raw : Bytes) : List Bytes × KissTncError :=
  match _ : readKissFrame raw with
  | .error e => ([],e)
  | .ok (body,rest) => (body :: (readBodies rest).1,(readBodies rest).2)
termination_by raw.length
decreasing_by all_goals exact readShorter ‹_›

inductive Phase where
  | skipping
  | collecting (buf : Bytes)
  | failed (error : KissTncError)
  deriving DecidableEq, Repr

def readByte : Phase → UInt8 → Phase × List Bytes
  | .skipping, b => if b = fend then (.collecting [],[]) else (.skipping,[])
  | .collecting buf, b =>
    if b = fend then (.skipping,[buf])
    else if maxFrameBody < (buf ++ [b]).length then (.failed (.frameTooLarge (buf ++ [b]).length maxFrameBody),[])
    else (.collecting (buf ++ [b]),[])
  | .failed e, _ => (.failed e,[])

/- The buffer and the position of `read_kiss_frame` are locals of its future. -/
def dropRead : Phase → Phase
  | .skipping | .collecting _ => .skipping
  | .failed e => .failed e

def reader : Loop Phase UInt8 Bytes := ⟨readByte,dropRead⟩

@[simp] theorem readerStep (s : Phase) (b : UInt8) : reader.step s b = readByte s b := rfl

@[simp] theorem readerCancel (s : Phase) : reader.cancel s = dropRead s := rfl

theorem feedFailed (e : KissTncError) (raw : Bytes) : feed reader (.failed e) raw = (.failed e,[]) := by
  induction raw with
  | nil => rfl
  | cons b rest ih => simp [feed, readByte, ih]

theorem feedAccumulate (buf raw : Bytes) :
    (feed reader (.collecting buf) raw).2 = match accumulate buf raw with
      | .error _ => []
      | .ok (body,rest) => body :: (feed reader .skipping rest).2 := by
  induction raw generalizing buf with
  | nil => rfl
  | cons b rest ih =>
    rw [feed, accumulate]
    simp only [readerStep, readByte]
    split
    · rfl
    · split
      · exact congrArg Prod.snd (feedFailed _ rest)
      · simpa using ih (buf ++ [b])

theorem feedRead (raw : Bytes) :
    (feed reader .skipping raw).2 = match readKissFrame raw with
      | .error _ => []
      | .ok (body,rest) => body :: (feed reader .skipping rest).2 := by
  induction raw with
  | nil => rfl
  | cons b rest ih =>
    rw [feed, readKissFrame]
    simp only [readerStep, readByte]
    split
    · simpa using feedAccumulate [] rest
    · simpa using ih

theorem readBodiesFeed (raw : Bytes) : (readBodies raw).1 = (feed reader .skipping raw).2 := by
  induction h : raw.length using Nat.strong_induction_on generalizing raw with
  | _ n ih =>
    rw [readBodies, feedRead]
    split
    · rename_i e failed
      rw [failed]
    · rename_i body rest read
      rw [read]
      exact congrArg (body :: ·) (ih rest.length (h ▸ readShorter read) rest rfl)

theorem unescapePlain {b : UInt8} (plain : b ≠ fesc) (payload rest : Bytes) :
    unescape payload (b::rest) = unescape (payload ++ [b]) rest := by
  cases rest with
  | nil => simp [unescape, plain]
  | cons c later => simp [unescape, plain]

theorem unescapeEscape (payload before : Bytes) : unescape before (escape payload) = .ok (before ++ payload) := by
  induction payload generalizing before with
  | nil => simp [escape, unescape]
  | cons b rest ih =>
    rw [escape]
    split
    · rename_i delimiter
      rw [unescape, if_pos rfl, if_pos rfl, ih, delimiter]
      simp
    · split
      · rename_i escaping
        rw [unescape, if_pos rfl, if_neg (by decide), if_pos rfl, ih, escaping]
        simp
      · rename_i plain
        rw [unescapePlain plain, ih]
        simp

theorem decodeBody (typeByte : UInt8) (payload : Bytes) : decode (typeByte :: escape payload) = .ok (typeByte,payload) := by
  rw [decode, unescapeEscape]
  rfl

theorem escapeNoFend (payload : Bytes) : fend ∉ escape payload := by
  induction payload with
  | nil => exact List.not_mem_nil
  | cons b rest ih =>
    rw [escape]
    split
    · simp only [List.mem_cons, not_or]
      exact ⟨by decide,by decide,ih⟩
    · split
      · simp only [List.mem_cons, not_or]
        exact ⟨by decide,by decide,ih⟩
      · rename_i other _
        simp [ih, Ne.symm other]

theorem feedSkip {junk : Bytes} (none : fend ∉ junk) (rest : Bytes) :
    feed reader .skipping (junk ++ rest) = feed reader .skipping rest := by
  induction junk with
  | nil => rfl
  | cons b later ih =>
    rw [List.mem_cons, not_or] at none
    simp [feed, readByte, Ne.symm none.1, ih none.2]

theorem feedBody {body : Bytes} (none : fend ∉ body) (buf rest : Bytes) (fits : buf.length + body.length ≤ maxFrameBody) :
    feed reader (.collecting buf) (body ++ fend::rest) =
      ((feed reader .skipping rest).1,(buf ++ body) :: (feed reader .skipping rest).2) := by
  induction body generalizing buf with
  | nil => simp [feed, readByte]
  | cons b later ih =>
    rw [List.mem_cons, not_or] at none
    rw [List.length_cons] at fits
    have short : ¬ maxFrameBody < (buf ++ [b]).length := by rw [List.length_append, List.length_singleton]; omega
    have more := ih none.2 (buf ++ [b]) (by rw [List.length_append, List.length_singleton]; omega)
    simp only [List.cons_append, feed, readerStep, readByte, if_neg (Ne.symm none.1), if_neg short, more]
    simp

/- A frame that a client may send: the type byte is not escaped, and the body fits the reader. -/
structure Frame where
  typeByte : UInt8
  payload : Bytes
  plain : typeByte ≠ fend
  fits : (typeByte :: escape payload).length ≤ maxFrameBody

def Frame.body (f : Frame) : Bytes := f.typeByte :: escape f.payload

def Frame.bytes (f : Frame) : Bytes := encode f.typeByte f.payload

theorem Frame.bytesBody (f : Frame) : f.bytes = fend :: (f.body ++ [fend]) := rfl

theorem Frame.noFend (f : Frame) : fend ∉ f.body := by
  rw [Frame.body, List.mem_cons, not_or]
  exact ⟨f.plain.symm,escapeNoFend f.payload⟩

inductive Gap where
  | extra (n : Nat)
  | shared
  deriving DecidableEq, Repr

def Gap.wire (f : Frame) : Gap → Bytes
  | .extra n => List.replicate n fend ++ f.bytes
  | .shared => f.body ++ [fend]

def wire (after : Nat) : List (Gap × Frame) → Bytes
  | [] => List.replicate after fend
  | (gap,f)::rest => gap.wire f ++ wire after rest

/- Before the first frame there is no frame to share a delimiter with. -/
structure Layout where
  frames : List (Gap × Frame)
  after : Nat
  starts : ∀ f rest, frames ≠ (.shared,f)::rest

def Layout.stream (l : Layout) : Bytes := wire l.after l.frames

def Layout.sent (l : Layout) : List (UInt8 × Bytes) := l.frames.map fun sent => (sent.2.typeByte,sent.2.payload)

def received (raw : Bytes) : List (Except KissError (UInt8 × Bytes)) :=
  (((readBodies raw).1).filter fun body => !body.isEmpty).map decode

def kept (s : Phase) (raw : Bytes) : List Bytes := (feed reader s raw).2.filter fun body => !body.isEmpty

theorem keptOpening (raw : Bytes) : kept .skipping (fend::raw) = kept (.collecting []) raw := by
  simp [kept, feed, readByte]

theorem keptEmpty (raw : Bytes) : kept (.collecting []) (fend::raw) = kept .skipping raw := by
  simp [kept, feed, readByte]

theorem keptSkipped (f : Frame) (raw : Bytes) : kept .skipping (f.body ++ fend::raw) = kept (.collecting []) raw := by
  rw [kept, feedSkip f.noFend]
  exact keptOpening raw

theorem keptBody (f : Frame) (raw : Bytes) : kept (.collecting []) (f.body ++ fend::raw) = f.body :: kept .skipping raw := by
  have small : ([] : Bytes).length + f.body.length ≤ maxFrameBody := by
    rw [List.length_nil, Nat.zero_add]
    exact f.fits
  rw [kept, feedBody f.noFend [] raw small]
  simp [kept, Frame.body]

theorem keptFends (n : Nat) (raw : Bytes) :
    kept .skipping (List.replicate n fend ++ raw) = (if n % 2 = 0 then kept .skipping raw else kept (.collecting []) raw) ∧
    kept (.collecting []) (List.replicate n fend ++ raw) =
      (if n % 2 = 0 then kept (.collecting []) raw else kept .skipping raw) := by
  induction n with
  | zero => exact ⟨rfl,rfl⟩
  | succ n ih =>
    rw [List.replicate_succ, List.cons_append, keptOpening, keptEmpty, ih.1, ih.2]
    have parity : n % 2 = 0 ∨ n % 2 = 1 := by omega
    rcases parity with even | odd
    · have next : (n + 1) % 2 = 1 := by omega
      simp [even, next]
    · have next : (n + 1) % 2 = 0 := by omega
      simp [odd, next]

theorem keptFrame (f : Frame) (raw : Bytes) :
    kept .skipping (f.bytes ++ raw) = f.body :: kept .skipping raw ∧
    kept (.collecting []) (f.bytes ++ raw) = kept (.collecting []) raw := by
  have shape : f.bytes ++ raw = fend :: (f.body ++ fend::raw) := by simp [Frame.bytesBody]
  rw [shape, keptOpening, keptEmpty, keptBody, keptSkipped]
  exact ⟨rfl,rfl⟩

theorem keptShared (f : Frame) (raw : Bytes) :
    kept .skipping (Gap.wire f .shared ++ raw) = kept (.collecting []) raw ∧
    kept (.collecting []) (Gap.wire f .shared ++ raw) = f.body :: kept .skipping raw := by
  have shape : Gap.wire f .shared ++ raw = f.body ++ fend::raw := by simp [Gap.wire]
  rw [shape, keptSkipped, keptBody]
  exact ⟨rfl,rfl⟩

theorem keptExtra (f : Frame) (n : Nat) (raw : Bytes) :
    kept .skipping (Gap.wire f (.extra n) ++ raw) =
      (if n % 2 = 0 then f.body :: kept .skipping raw else kept (.collecting []) raw) ∧
    kept (.collecting []) (Gap.wire f (.extra n) ++ raw) =
      (if n % 2 = 0 then kept (.collecting []) raw else f.body :: kept .skipping raw) := by
  rw [Gap.wire, List.append_assoc, (keptFends n _).1, (keptFends n _).2, (keptFrame f raw).1, (keptFrame f raw).2]
  exact ⟨rfl,rfl⟩

theorem keptBound (after : Nat) (frames : List (Gap × Frame)) :
    (kept .skipping (wire after frames)).length ≤ frames.length ∧
    (kept (.collecting []) (wire after frames)).length ≤ frames.length := by
  induction frames with
  | nil =>
    have none := keptFends after []
    have empty : kept .skipping [] = [] ∧ kept (.collecting []) [] = [] := ⟨rfl,rfl⟩
    rw [List.append_nil, empty.1, empty.2, ite_self] at none
    rw [wire, none.1, none.2]
    exact ⟨Nat.le_refl _,Nat.le_refl _⟩
  | cons sent rest ih =>
    obtain ⟨gap,f⟩ := sent
    rw [wire]
    cases gap with
    | extra n =>
      rw [(keptExtra f n _).1, (keptExtra f n _).2]
      split
      · exact ⟨Nat.succ_le_succ ih.1,Nat.le_succ_of_le ih.2⟩
      · exact ⟨Nat.le_succ_of_le ih.2,Nat.succ_le_succ ih.1⟩
    | shared =>
      rw [(keptShared f _).1, (keptShared f _).2]
      exact ⟨Nat.le_succ_of_le ih.2,Nat.succ_le_succ ih.1⟩

def Gap.Even : Gap → Prop
  | .extra n => n % 2 = 0
  | .shared => False

theorem keptAll (after : Nat) {frames : List (Gap × Frame)} (even : ∀ sent ∈ frames, sent.1.Even) :
    kept .skipping (wire after frames) = frames.map fun sent => sent.2.body := by
  induction frames with
  | nil =>
    have none := (keptBound after []).1
    exact List.length_eq_zero_iff.mp (Nat.le_zero.mp none)
  | cons sent rest ih =>
    obtain ⟨gap,f⟩ := sent
    obtain ⟨here,later⟩ := List.forall_mem_cons.mp even
    cases gap with
    | extra n =>
      have paired : n % 2 = 0 := here
      rw [wire, (keptExtra f n _).1, if_pos paired, ih later, List.map_cons]
    | shared => exact here.elim

theorem keptAligned (after : Nat) {frames : List (Gap × Frame)}
    (all : (kept .skipping (wire after frames)).length = frames.length) : ∀ sent ∈ frames, sent.1.Even := by
  induction frames with
  | nil => exact fun _ none => absurd none List.not_mem_nil
  | cons sent rest ih =>
    obtain ⟨gap,f⟩ := sent
    have short := (keptBound after rest).2
    rw [wire] at all
    cases gap with
    | extra n =>
      rw [(keptExtra f n _).1] at all
      split at all
      · rename_i even
        exact List.forall_mem_cons.mpr ⟨even,ih (Nat.succ.inj all)⟩
      · rw [List.length_cons] at all
        omega
    | shared =>
      rw [(keptShared f _).1, List.length_cons] at all
      omega

theorem receivedKept (raw : Bytes) : received raw = (kept .skipping raw).map decode := by
  rw [received, readBodiesFeed, kept]

/- Two delimiters in a row are an empty frame to the reader and cost nothing; one too many makes
it take the next frame's opening delimiter for a closing one. -/
theorem streamReceivedIff (l : Layout) : received l.stream = l.sent.map .ok ↔ ∀ sent ∈ l.frames, sent.1.Even := by
  rw [receivedKept, Layout.stream]
  constructor
  · intro same
    have lengths := congrArg List.length same
    simp only [List.length_map, Layout.sent] at lengths
    exact keptAligned l.after lengths
  · intro even
    rw [keptAll l.after even, Layout.sent, List.map_map, List.map_map]
    exact List.map_congr_left fun sent _ => decodeBody sent.2.typeByte sent.2.payload

def hello : Frame := ⟨kissData,[0x48,0x49],by decide,by decide⟩

theorem idleDelimiterLosesFrame :
    received (Layout.mk [(.extra 1,hello)] 0 (by simp)).stream ≠ [.ok (kissData,[0x48,0x49])] ∧
    received (Layout.mk [(.extra 0,hello),(.shared,hello)] 0 (by simp)).stream ≠
      [.ok (kissData,[0x48,0x49]),.ok (kissData,[0x48,0x49])] := by
  constructor
  · rw [receivedKept]
    decide +kernel
  · rw [receivedKept]
    decide +kernel

end OpenPulse.Kiss
