import OpenPulse.ByteCodec

/-! Bodies written field by field and read back in the same order. A writer appends
to what it has, or refuses; a reader is the bytes that are left. -/
namespace OpenPulse.Bodies
open ByteCodec

variable {ε α β : Type}

abbrev ByteWriter (ε α : Type) := StateT Bytes (Except ε) α

abbrev ByteReader (ε α : Type) := StateT Bytes (Except ε) α

theorem thenOk {x : Except ε α} {f : α → Except ε β} {b : β} : (x >>= f) = .ok b ↔ ∃ a, x = .ok a ∧ f a = .ok b := by
  cases x with
  | error e => exact ⟨nofun,fun ⟨_,failed,_⟩ => nomatch failed⟩
  | ok a => exact ⟨fun ok => ⟨a,rfl,ok⟩,fun ⟨_,same,ok⟩ => Except.ok.inj same ▸ ok⟩

theorem mapErrorOk {δ : Type} {x : Except ε α} {f : ε → δ} {a : α} : x.mapError f = .ok a ↔ x = .ok a := by
  cases x with
  | error e => exact ⟨nofun,nofun⟩
  | ok b => simp [Except.mapError]

theorem unlessOk {c : Prop} [Decidable c] {x : Except ε α} {e : ε} {a : α} :
    (if c then throw e else x) = .ok a ↔ ¬ c ∧ x = .ok a := by
  by_cases refused : c
  · rw [if_pos refused]
    exact ⟨nofun,fun h => absurd refused h.1⟩
  · rw [if_neg refused]
    exact ⟨fun ok => ⟨refused,ok⟩,fun h => h.2⟩

def push (raw : Bytes) : ByteWriter ε Unit := fun buf => .ok ((),buf ++ raw)

def finish (w : ByteWriter ε Unit) : Except ε Bytes := (w.run []).map Prod.snd

def Writes (w : ByteWriter ε Unit) (fits : Prop) (raw : Bytes) : Prop :=
  ∀ buf out, w buf = .ok ((),out) ↔ fits ∧ out = buf ++ raw

theorem writesPush (raw : Bytes) : Writes (push raw : ByteWriter ε Unit) True raw := by
  intro buf out
  simp [push, eq_comm]

theorem writesUnless {c : Prop} [Decidable c] (refused : ε) (raw : Bytes) :
    Writes (if c then throw refused else push raw : ByteWriter ε Unit) (¬ c) raw := by
  intro buf out
  by_cases refusing : c
  · rw [if_pos refusing]
    exact ⟨nofun,fun ⟨fits,_⟩ => absurd refusing fits⟩
  · rw [if_neg refusing]
    exact (writesPush raw buf out).trans ⟨fun h => ⟨refusing,h.2⟩,fun h => ⟨trivial,h.2⟩⟩

theorem writesThen {x y : ByteWriter ε Unit} {p q : Prop} {a b : Bytes} (first : Writes x p a) (last : Writes y q b) :
    Writes (x >>= fun _ => y) (p ∧ q) (a ++ b) := by
  intro buf out
  change (x buf >>= fun s => y s.2) = _ ↔ _
  cases found : x buf with
  | error e =>
    have refused : ¬ p := by
      intro fits
      have went := (first buf _).mpr ⟨fits,rfl⟩
      rw [found] at went
      cases went
    exact ⟨nofun,fun h => absurd h.1.1 refused⟩
  | ok s =>
    obtain ⟨fits,here⟩ := (first buf s.2).mp found
    have rest := last s.2 out
    rw [here, List.append_assoc] at rest
    change y s.2 = _ ↔ _
    rw [here, rest]
    exact ⟨fun h => ⟨⟨fits,h.1⟩,h.2⟩,fun h => ⟨h.1.2,h.2⟩⟩

theorem writesEach {item : α → ByteWriter ε Unit} {piece : α → Bytes} (each : ∀ a, Writes (item a) True (piece a)) (xs : List α) :
    Writes (xs.forM item) True (xs.flatMap piece) := by
  induction xs with
  | nil =>
    intro buf out
    change Except.ok ((),buf) = _ ↔ _
    simp [eq_comm]
  | cons x xs ih =>
    have both := writesThen (each x) ih
    rw [and_self] at both
    exact both

theorem finishIff {w : ByteWriter ε Unit} {fits : Prop} {raw body : Bytes} (writes : Writes w fits raw) :
    finish w = .ok body ↔ fits ∧ body = raw := by
  have whole := writes [] body
  rw [List.nil_append] at whole
  rw [← whole, finish, StateT.run]
  cases w [] with
  | error e => exact ⟨nofun,nofun⟩
  | ok s =>
    obtain ⟨⟨⟩,out⟩ := s
    simp [Except.map]

def take (n : Nat) (short : Nat → ε) : ByteReader ε (Octets n) := fun buf =>
  if fits : n ≤ buf.length then .ok (⟨buf.take n,List.length_take_of_le fits⟩,buf.drop n) else .error (short buf.length)

def done (trailing : Nat → ε) : ByteReader ε Unit := fun buf =>
  if buf.length = 0 then .ok ((),buf) else .error (trailing buf.length)

def Reads (r : ByteReader ε α) (raw : Bytes) (v : α) : Prop := ∀ after, r (raw ++ after) = .ok (v,after)

def ReadsAll (r : ByteReader ε α) (raw : Bytes) (v : α) : Prop := r raw = .ok (v,[])

theorem readsPure (v : α) : Reads (pure v : ByteReader ε α) [] v := fun _ => rfl

theorem readThen {x : ByteReader ε α} {f : α → ByteReader ε β} {buf left : Bytes} {a : α} (read : x buf = .ok (a,left)) :
    (x >>= f) buf = f a left := by
  change (x buf >>= fun p => f p.1 p.2) = _
  rw [read]
  rfl

theorem readThenInv {x : ByteReader ε α} {f : α → ByteReader ε β} {buf : Bytes} {out : β × Bytes}
    (read : (x >>= f) buf = .ok out) : ∃ a left, x buf = .ok (a,left) ∧ f a left = .ok out := by
  change (x buf >>= fun p => f p.1 p.2) = _ at read
  cases first : x buf with
  | error e =>
    rw [first] at read
    cases read
  | ok p =>
    rw [first] at read
    exact ⟨p.1,p.2,rfl,read⟩

theorem readsThen {x : ByteReader ε α} {f : α → ByteReader ε β} {raw rest : Bytes} {a : α} {b : β} (first : Reads x raw a)
    (last : Reads (f a) rest b) : Reads (x >>= f) (raw ++ rest) b := by
  intro after
  rw [List.append_assoc, readThen (first _), last]

theorem readsMap {x : ByteReader ε α} {raw : Bytes} {a : α} (first : Reads x raw a) (f : α → β) :
    Reads (x >>= fun a => pure (f a)) raw (f a) := by
  have whole := @readsThen ε α β x (fun a => pure (f a)) _ _ _ _ first (readsPure (f a))
  rwa [List.append_nil] at whole

theorem readsAllThen {x : ByteReader ε α} {f : α → ByteReader ε β} {raw rest : Bytes} {a : α} {b : β} (first : Reads x raw a)
    (last : ReadsAll (f a) rest b) : ReadsAll (x >>= f) (raw ++ rest) b := by
  rw [ReadsAll, readThen (first _), last]

theorem readsAllLast {x : ByteReader ε α} {f : α → ByteReader ε β} {raw : Bytes} {a : α} {b : β} (first : Reads x raw a)
    (last : ReadsAll (f a) [] b) : ReadsAll (x >>= f) raw b := by
  have whole := readsAllThen first last
  rwa [List.append_nil] at whole

theorem readsTake {n : Nat} (short : Nat → ε) (x : Octets n) : Reads (take n short) x.val x := by
  intro after
  obtain ⟨raw,rfl⟩ := x
  simp [take]

def Spends (r : ByteReader ε α) (n : Nat) : Prop := ∀ buf v left, r buf = .ok (v,left) → buf.length = left.length + n

theorem spendsTake (n : Nat) (short : Nat → ε) : Spends (take n short) n := by
  intro buf v left read
  unfold take at read
  split at read
  · rename_i fits
    cases read
    rw [List.length_drop]
    omega
  · cases read

theorem spendsMap {r : ByteReader ε α} {n : Nat} (spends : Spends r n) (f : α → β) : Spends (r >>= fun a => pure (f a)) n := by
  intro buf v left read
  obtain ⟨a,rest,first,last⟩ := readThenInv read
  cases last
  exact spends _ _ _ first

theorem doneThen (trailing : Nat → ε) (f : Unit → ByteReader ε β) : (done trailing >>= f) [] = f () [] := rfl

theorem doneInv {trailing : Nat → ε} {buf : Bytes} {out : Unit × Bytes} (read : done trailing buf = .ok out) : buf = [] := by
  unfold done at read
  split at read
  · rename_i none
    exact List.length_eq_zero_iff.mp none
  · cases read

end OpenPulse.Bodies
