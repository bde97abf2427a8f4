import Mathlib.Data.List.Induction
import OpenPulse.ByteCodec

/-! Reads of a byte slice as the language makes them: an index or a range that
leaves the slice stops the program. The outer `Option` is that stop, the `Except`
inside it is what the reader reports. -/
namespace OpenPulse.Reads
open ByteCodec

variable {ε α β : Type} {bytes : Bytes}

abbrev Read (ε α : Type) := ExceptT ε Option α

def stop : Read ε α := ExceptT.mk none

def index (bytes : Bytes) (i : Nat) : Read ε UInt8 :=
  match bytes[i]? with
  | some b => pure b
  | none => stop

def range (bytes : Bytes) (start finish : Nat) : Read ε Bytes :=
  if start ≤ finish ∧ finish ≤ bytes.length then pure (slice start (finish - start) bytes) else stop

def rest (bytes : Bytes) (start : Nat) : Read ε Bytes := range bytes start bytes.length

def array (n : Nat) (bytes : Bytes) (off : Nat) (refused : ε) : Read ε (Octets n) := do
  let raw ← range bytes off (off + n)
  if fits : raw.length = n then pure ⟨raw,fits⟩ else throw refused

def Yields (x : Read ε α) (y : Except ε α) : Prop := x.run = some y

theorem yieldsPure (a : α) : Yields (pure a : Read ε α) (.ok a) := rfl

theorem yieldsThrow (e : ε) : Yields (throw e : Read ε α) (.error e) := rfl

theorem yieldsThen {x : Read ε α} {f : α → Read ε β} {a : α} {z : Except ε β} (first : Yields x (.ok a))
    (last : Yields (f a) z) : Yields (x >>= f) z := by
  unfold Yields at *
  rw [ExceptT.run_bind, first]
  exact last

theorem yieldsBind {x : Read ε α} {f : α → Read ε β} {y : Except ε α} {g : α → Except ε β} (first : Yields x y)
    (last : ∀ a, y = .ok a → Yields (f a) (g a)) : Yields (x >>= f) (y >>= g) := by
  cases y with
  | error e =>
    unfold Yields at *
    rw [ExceptT.run_bind, first]
    rfl
  | ok a => exact yieldsThen first (last a rfl)

theorem yieldsIf {c : Prop} [Decidable c] {x x' : Read ε α} {y y' : Except ε α} (left : c → Yields x y)
    (right : ¬ c → Yields x' y') : Yields (if c then x else x') (if c then y else y') := by
  by_cases holds : c
  · rw [if_pos holds, if_pos holds]
    exact left holds
  · rw [if_neg holds, if_neg holds]
    exact right holds

theorem yieldsIndex {i : Nat} (inside : i < bytes.length) : Yields (index bytes i : Read ε UInt8) (.ok (bytes.getD i 0)) := by
  simp [Yields, index, inside]

theorem yieldsRange {start finish : Nat} (ordered : start ≤ finish) (inside : finish ≤ bytes.length) :
    Yields (range bytes start finish : Read ε Bytes) (.ok (slice start (finish - start) bytes)) := by
  simp [Yields, range, ordered, inside]

theorem sliceLength {off n : Nat} (inside : off + n ≤ bytes.length) : (slice off n bytes).length = n := by
  rw [slice, List.length_take, List.length_drop]
  omega

theorem yieldsRest {start : Nat} (inside : start ≤ bytes.length) :
    Yields (rest bytes start : Read ε Bytes) (.ok (bytes.drop start)) := by
  have whole : slice start (bytes.length - start) bytes = bytes.drop start :=
    List.take_of_length_le (List.length_drop ▸ Nat.le_refl _)
  exact whole ▸ yieldsRange inside (Nat.le_refl _)

theorem yieldsArray {n off : Nat} (inside : off + n ≤ bytes.length) (refused : ε) :
    Yields (array n bytes off refused) (.ok ⟨slice off n bytes,sliceLength inside⟩) := by
  have found := @yieldsRange ε bytes off (off + n) (Nat.le_add_right _ _) inside
  refine yieldsThen found ?_
  have size : off + n - off = n := Nat.add_sub_cancel_left off n
  simp only [size, sliceLength inside, dite_true]
  exact yieldsPure _

theorem dropSlice (off n : Nat) (bytes : Bytes) : bytes.drop off = slice off n bytes ++ bytes.drop (off + n) := by
  rw [slice, ← List.drop_drop, List.take_append_drop]

theorem dropIndex {off : Nat} (inside : off < bytes.length) : bytes.drop off = bytes.getD off 0 :: bytes.drop (off + 1) := by
  rw [List.drop_eq_getElem_cons inside]
  simp [inside]

theorem sliceIndex {off : Nat} (inside : off + 2 ≤ bytes.length) :
    slice off 2 bytes = [bytes.getD off 0,bytes.getD (off + 1) 0] := by
  rw [slice, dropIndex (by omega), dropIndex (by omega)]
  rfl

theorem readBeSmall (raw : Bytes) : readBe raw < 256 ^ raw.length := by
  induction raw using List.reverseRecOn with
  | nil => decide
  | append_singleton raw b ih =>
    have small := b.toNat_lt
    rw [readBeSnoc, List.length_append, List.length_singleton, Nat.pow_succ]
    omega

theorem beReadBe (raw : Bytes) : be raw.length (readBe raw) = raw := by
  induction raw using List.reverseRecOn with
  | nil => rfl
  | append_singleton raw b ih =>
    have small := b.toNat_lt
    have high : (readBe raw * 256 + b.toNat) / 256 = readBe raw := by omega
    rw [readBeSnoc, List.length_append, List.length_singleton, be, high, ih]
    simp

theorem sliceTake {off n size : Nat} (inside : off + n ≤ size) : slice off n (bytes.take size) = slice off n bytes := by
  rw [slice, slice, List.drop_take, List.take_take, Nat.min_eq_left (by omega)]

/- A codec over the values that fit it. `cuts total n` says that the first `n` bytes
of an encoding of `total` bytes end inside what it declares. -/
structure Codec (ε V : Type) where
  fits : V → Prop
  encode : V → Except ε Bytes
  decode : Bytes → Except ε V
  reads : Bytes → Read ε V
  cuts : Nat → Nat → Prop

structure Codec.Lossless {V : Type} (c : Codec ε V) : Prop where
  roundTrip : ∀ v, c.fits v → ∃ bytes, c.encode v = .ok bytes ∧ c.decode bytes = .ok v
  injective : ∀ v w, c.fits v → c.fits w → c.encode v = c.encode w → v = w
  inside : ∀ bytes, (c.reads bytes).run = some (c.decode bytes)
  truncated : ∀ v bytes, c.fits v → c.encode v = .ok bytes → ∀ n, c.cuts bytes.length n →
    ∃ err, c.decode (bytes.take n) = .error err

theorem Codec.lossless {V : Type} {c : Codec ε V} (written : V → Bytes)
    (accepted : ∀ v, c.fits v → c.encode v = .ok (written v)) (back : ∀ v, c.fits v → c.decode (written v) = .ok v)
    (inside : ∀ bytes, Yields (c.reads bytes) (c.decode bytes))
    (truncated : ∀ v, c.fits v → ∀ n, c.cuts (written v).length n → ∃ err, c.decode ((written v).take n) = .error err) :
    c.Lossless where
  roundTrip := fun v fits => ⟨written v,accepted v fits,back v fits⟩
  injective := by
    intro v w left right same
    rw [accepted v left, accepted w right] at same
    have both := back v left
    rw [Except.ok.inj same, back w right] at both
    exact (Except.ok.inj both).symm
  inside := inside
  truncated := by
    intro v bytes fits written n cut
    rw [accepted v fits, Except.ok.injEq] at written
    subst written
    exact truncated v fits n cut

end OpenPulse.Reads
