import OpenPulse.Kiss

/-! One client of the KISS port: the `select!` loop of `handle_client` in
`openpulse-kiss/src/server.rs`, which reads frames and passes received data on. -/
namespace OpenPulse.KissClient
open ByteCodec Selects Kiss

inductive Action where
  | enqueue (payload : Bytes)
  | tooLarge (len : Nat)
  | control (cmd : UInt8) (value : Bytes)
  | undecodable (error : KissError)
  deriving DecidableEq, Repr

def handleBody (body : Bytes) : List Action :=
  if body.isEmpty then []
  else match decode body with
    | .error e => [.undecodable e]
    | .ok (typeByte,payload) =>
      if typeByte = kissData then
        if maxPayloadBytes < payload.length then [.tooLarge payload.length] else [.enqueue payload]
      else [.control typeByte payload]

/- A data event that is ready drops the pending `read_kiss_frame`; so does a lagged one. The
channel itself cannot close while the client holds the bridge. -/
def client : Loop Phase UInt8 Action where
  step s b := ((readByte s b).1,(readByte s b).2.flatMap handleBody)
  cancel := dropRead

@[simp] theorem clientStep (s : Phase) (b : UInt8) :
    client.step s b = ((readByte s b).1,(readByte s b).2.flatMap handleBody) := rfl

@[simp] theorem clientCancel (s : Phase) : client.cancel s = dropRead s := rfl

def stream (frames : List (UInt8 × Bytes)) : Bytes := frames.flatMap fun f => encode f.1 f.2

def Between : Bool → List (Input UInt8) → Prop
  | _, [] => True
  | inside, .byte b::rest => Between (if b = fend then !inside else inside) rest
  | inside, .event::rest => inside = false ∧ Between inside rest

def Aligned (inside : Bool) : Phase → Prop
  | .skipping => inside = false
  | .collecting _ => inside = true
  | .failed _ => True

theorem alignedStep {inside : Bool} {s : Phase} (b : UInt8) (aligned : Aligned inside s) :
    Aligned (if b = fend then !inside else inside) (readByte s b).1 := by
  cases s with
  | skipping =>
    cases aligned
    rw [readByte]
    split <;> rfl
  | collecting buf =>
    cases aligned
    rw [readByte]
    split
    · rfl
    · split
      · trivial
      · rfl
  | failed e => trivial

theorem betweenUndisturbed {inside : Bool} {s : Phase} {inputs : List (Input UInt8)} (aligned : Aligned inside s)
    (between : Between inside inputs) : Undisturbed client s inputs := by
  induction inputs generalizing inside s with
  | nil => trivial
  | cons input rest ih =>
    cases input with
    | byte b => exact ih (alignedStep b aligned) between
    | event =>
      obtain ⟨outside,later⟩ := between
      refine ⟨?_,ih aligned later⟩
      cases s with
      | skipping => rfl
      | collecting buf => cases outside.symm.trans aligned
      | failed e => rfl

def Framed : Bool → Bytes → Prop
  | inside, [] => inside = false
  | inside, b::rest => if b = fend then Framed (!inside) rest else inside = true ∧ Framed inside rest

def closings : Bool → Bytes → Nat
  | _, [] => 0
  | inside, b::rest => if b = fend then inside.toNat + closings (!inside) rest else closings inside rest

theorem closingsInside {raw : Bytes} (framed : Framed true raw) : 0 < closings true raw := by
  induction raw with
  | nil => cases framed
  | cons b rest ih =>
    rw [closings]
    rw [Framed] at framed
    split
    · exact Nat.add_pos_left Nat.one_pos _
    · rename_i other
      rw [if_neg other] at framed
      exact ih framed.2

theorem readQuiet (s : Phase) {b : UInt8} (other : ¬ b = fend) : (readByte s b).2 = [] := by
  cases s with
  | skipping => simp [readByte, other]
  | collecting buf =>
    rw [readByte, if_neg other]
    split <;> rfl
  | failed e => rfl

theorem handledOnce (body : Bytes) : (handleBody body).length = (if body.isEmpty then 0 else 1) := by
  rw [handleBody]
  split
  · rfl
  · split
    · rfl
    · split
      · split <;> rfl
      · rfl

theorem runFailed (e : KissTncError) (inputs : List (Input UInt8)) : run client (.failed e) inputs = (.failed e,[]) := by
  induction inputs with
  | nil => rfl
  | cons input rest ih =>
    cases input with
    | byte b => simp [run, readByte, ih]
    | event => simpa [run, dropRead] using ih

theorem handledBound {inside : Bool} {s : Phase} {inputs : List (Input UInt8)} (framed : Framed inside (bytesOf inputs))
    (between : inside = false → ∀ buf, s = .collecting buf → buf = []) :
    (run client s inputs).2.length ≤ closings inside (bytesOf inputs) := by
  induction inputs generalizing inside s with
  | nil => exact Nat.zero_le _
  | cons input rest ih =>
    cases input with
    | event =>
      refine ih framed ?_
      intro _ buf here
      cases s <;> cases here
    | byte b =>
      rw [bytesOf, Framed] at framed
      rw [bytesOf, closings, run]
      simp only [clientStep, List.length_append]
      by_cases delimiter : b = fend
      · rw [if_pos delimiter] at framed ⊢
        have later := @ih (!inside) (readByte s b).1 framed
        cases s with
        | skipping =>
          simp only [readByte, if_pos delimiter] at later ⊢
          have bound := later (by intro _ buf same; cases same; rfl)
          simp only [List.flatMap_nil, List.length_nil]
          omega
        | collecting buf =>
          simp only [readByte, if_pos delimiter] at later ⊢
          have bound := later (by intro _ buf same; cases same)
          have once := handledOnce buf
          simp only [List.flatMap_singleton]
          cases inside with
          | false =>
            rw [between rfl buf rfl, List.isEmpty_nil, if_pos rfl] at once
            rw [between rfl buf rfl]
            omega
          | true =>
            have one : (handleBody buf).length ≤ 1 := by rw [once]; split <;> omega
            simp only [Bool.toNat_true]
            omega
        | failed e =>
          simp only [readByte, runFailed, List.flatMap_nil, List.length_nil]
          omega
      · rw [if_neg delimiter] at framed ⊢
        obtain ⟨inner,framed⟩ := framed
        subst inner
        have later := @ih true (readByte s b).1 framed (fun outside => by cases outside)
        rw [readQuiet s delimiter, List.flatMap_nil, List.length_nil]
        omega

theorem handledLost {inputs : List (Input UInt8)} (framed : Framed true (bytesOf inputs)) :
    (run client .skipping inputs).2.length < closings true (bytesOf inputs) := by
  induction inputs with
  | nil => cases framed
  | cons input rest ih =>
    cases input with
    | event => exact ih framed
    | byte b =>
      rw [bytesOf, Framed] at framed
      rw [bytesOf, closings, run]
      simp only [clientStep, readByte]
      split
      · rename_i delimiter
        rw [if_pos delimiter] at framed
        have bound := @handledBound false (.collecting []) rest framed (by intro _ buf same; cases same; rfl)
        simp only [List.flatMap_nil, List.nil_append, Bool.toNat_true, Bool.not_true]
        omega
      · rename_i other
        rw [if_neg other] at framed
        simpa using ih framed.2

theorem closingsDisturbed {inside : Bool} {inputs : List (Input UInt8)} (framed : Framed inside (bytesOf inputs))
    (disturbed : ¬ Between inside inputs) : 0 < closings inside (bytesOf inputs) := by
  induction inputs generalizing inside with
  | nil => exact (disturbed trivial).elim
  | cons input rest ih =>
    cases input with
    | event =>
      cases inside with
      | true => exact closingsInside framed
      | false => exact @ih false framed fun later => disturbed ⟨rfl,later⟩
    | byte b =>
      rw [bytesOf, Framed] at framed
      rw [Between] at disturbed
      rw [bytesOf, closings]
      split
      · rename_i delimiter
        rw [if_pos delimiter] at framed disturbed
        have later := ih framed disturbed
        omega
      · rename_i other
        rw [if_neg other] at framed disturbed
        exact ih framed.2 disturbed

theorem handledDisturbed {inside : Bool} {s : Phase} {inputs : List (Input UInt8)}
    (framed : Framed inside (bytesOf inputs)) (aligned : Aligned inside s) (disturbed : ¬ Between inside inputs) :
    (run client s inputs).2.length < closings inside (bytesOf inputs) := by
  induction inputs generalizing inside s with
  | nil => exact (disturbed trivial).elim
  | cons input rest ih =>
    cases input with
    | event =>
      rw [run, bytesOf]
      cases s with
      | skipping =>
        exact ih framed aligned fun later => disturbed ⟨aligned,later⟩
      | collecting buf =>
        cases aligned
        exact handledLost framed
      | failed e =>
        rw [clientCancel, dropRead, runFailed]
        exact @closingsDisturbed inside (.event::rest) framed disturbed
    | byte b =>
      have next := alignedStep b aligned
      have positive := closingsDisturbed framed disturbed
      rw [bytesOf, Framed] at framed
      rw [Between] at disturbed
      rw [bytesOf, closings] at positive ⊢
      rw [run]
      simp only [clientStep, List.length_append]
      by_cases delimiter : b = fend
      · rw [if_pos delimiter] at framed disturbed next positive ⊢
        have later := ih framed next disturbed
        cases s with
        | skipping =>
          simp only [readByte, if_pos delimiter] at later ⊢
          simp only [List.flatMap_nil, List.length_nil]
          omega
        | collecting buf =>
          cases aligned
          simp only [readByte, if_pos delimiter] at later ⊢
          have one : (handleBody buf).length ≤ 1 := by rw [handledOnce]; split <;> omega
          simp only [List.flatMap_singleton, Bool.toNat_true]
          omega
        | failed e => simpa [readByte, runFailed] using positive
      · rw [if_neg delimiter] at framed disturbed next positive ⊢
        have later := ih framed.2 next disturbed
        rw [readQuiet s delimiter, List.flatMap_nil, List.length_nil]
        omega

theorem feedClient (s : Phase) (raw : Bytes) : (feed client s raw).2 = (feed reader s raw).2.flatMap handleBody := by
  induction raw generalizing s with
  | nil => rfl
  | cons b rest ih => simp [feed, ih]

theorem handledKept (s : Phase) (raw : Bytes) : (feed client s raw).2.length = (kept s raw).length := by
  rw [feedClient, kept]
  induction (feed reader s raw).2 with
  | nil => rfl
  | cons body rest ih =>
    rw [List.flatMap_cons, List.length_append, ih, handledOnce, List.filter_cons]
    cases body.isEmpty
    · simp [Nat.add_comm]
    · simp

def Sendable (f : UInt8 × Bytes) : Prop := f.1 ≠ fend ∧ (f.1 :: escape f.2).length ≤ maxFrameBody

theorem framedBody {body : Bytes} (plain : fend ∉ body) (raw : Bytes) :
    (Framed true (body ++ raw) ↔ Framed true raw) ∧ closings true (body ++ raw) = closings true raw := by
  induction body with
  | nil => exact ⟨Iff.rfl,rfl⟩
  | cons b rest ih =>
    rw [List.mem_cons, not_or] at plain
    have other : ¬ b = fend := Ne.symm plain.1
    rw [List.cons_append, Framed, closings, if_neg other, if_neg other, (ih plain.2).1, (ih plain.2).2]
    simp

theorem framedEncode {f : UInt8 × Bytes} (plain : f.1 ≠ fend) (raw : Bytes) :
    (Framed false (encode f.1 f.2 ++ raw) ↔ Framed false raw) ∧
      closings false (encode f.1 f.2 ++ raw) = closings false raw + 1 := by
  have none : fend ∉ f.1 :: escape f.2 := by
    rw [List.mem_cons, not_or]
    exact ⟨plain.symm,escapeNoFend f.2⟩
  have shape : encode f.1 f.2 ++ raw = fend :: ((f.1 :: escape f.2) ++ fend::raw) := by simp [encode]
  rw [shape, Framed, closings, if_pos rfl, if_pos rfl]
  simp only [Bool.not_false, Bool.toNat_false, (framedBody none _).1, (framedBody none _).2]
  rw [Framed, closings, if_pos rfl, if_pos rfl]
  simp only [Bool.not_true, Bool.toNat_true]
  exact ⟨trivial,by omega⟩

theorem framedStream {frames : List (UInt8 × Bytes)} (sendable : ∀ f ∈ frames, Sendable f) :
    Framed false (stream frames) ∧ closings false (stream frames) = frames.length ∧
      (feed client .skipping (stream frames)).2.length = frames.length := by
  rw [handledKept]
  induction frames with
  | nil => exact ⟨rfl,rfl,rfl⟩
  | cons f rest ih =>
    obtain ⟨here,later⟩ := List.forall_mem_cons.mp sendable
    obtain ⟨framed,closed,handled⟩ := ih later
    have first := framedEncode here.1 (stream rest)
    have body := (keptFrame ⟨f.1,f.2,here.1,here.2⟩ (stream rest)).1
    simp only [Frame.bytes] at body
    rw [stream, List.flatMap_cons]
    rw [stream] at first body framed closed handled
    rw [first.1, first.2, body, List.length_cons, List.length_cons, closed, handled]
    exact ⟨framed,rfl,rfl⟩

/- The buffer and the position of a frame live in the read that an event drops. Where no event
comes inside a frame nothing is lost; where all frames could be received, an event inside one
always shows. -/
theorem handledSameIff (frames : List (UInt8 × Bytes)) (inputs : List (Input UInt8))
    (sent : bytesOf inputs = stream frames) :
    (Between false inputs → (run client .skipping inputs).2 = (feed client .skipping (stream frames)).2) ∧
    ((∀ f ∈ frames, Sendable f) → (run client .skipping inputs).2 = (feed client .skipping (stream frames)).2 →
      Between false inputs) := by
  have start : Aligned false .skipping := rfl
  constructor
  · intro between
    rw [runUndisturbed client (betweenUndisturbed start between), sent]
  · intro sendable same
    obtain ⟨framed,closed,handled⟩ := framedStream sendable
    refine Classical.byContradiction fun disturbed => ?_
    have fewer := handledDisturbed (sent ▸ framed) start disturbed
    rw [same, sent, handled, closed] at fewer
    exact Nat.lt_irrefl _ fewer

def calm : List (Input UInt8) :=
  ((encode kissData [0x48]).map .byte) ++ (.event :: (encode kissData [0x49]).map .byte)

theorem handledSameIffCalm :
    (run client .skipping calm).2 = (feed client .skipping (stream [(kissData,[0x48]),(kissData,[0x49])])).2 ∧
    Between false calm := by
  have sent : bytesOf calm = stream [(kissData,[0x48]),(kissData,[0x49])] := by decide +kernel
  have both := handledSameIff _ calm sent
  have same : (run client .skipping calm).2 = (feed client .skipping (stream [(kissData,[0x48]),(kissData,[0x49])])).2 := by
    decide +kernel
  have sendable : ∀ f ∈ [(kissData,[0x48]),(kissData,[0x49])], Sendable f := by
    simp only [List.forall_mem_cons, Sendable]
    decide
  exact ⟨both.1 (both.2 sendable same),both.2 sendable same⟩

def cut : List (Input UInt8) :=
  [.byte fend,.byte kissData,.event,.byte 0x48,.byte fend] ++ (encode kissData [0x49]).map .byte

theorem eventInsideFrameLosesBoth :
    bytesOf cut = stream [(kissData,[0x48]),(kissData,[0x49])] ∧ (run client .skipping cut).2 = [] ∧
    (feed client .skipping (stream [(kissData,[0x48]),(kissData,[0x49])])).2 = [.enqueue [0x48],.enqueue [0x49]] := by
  decide +kernel

end OpenPulse.KissClient
