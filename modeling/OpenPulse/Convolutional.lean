import Mathlib.Data.List.Basic
import Mathlib.Data.Nat.Basic

/-! Rate one half convolutional codes over a shift register of `n` bits: the code
is linear, and a potential on the states bounds the weight of what leaves the
zero state. -/
namespace OpenPulse.Convolutional

def weight (xs : List Bool) : Nat := xs.count true

def added (xs ys : List Bool) : List Bool := xs.zipWith xor ys

def distance (xs ys : List Bool) : Nat := weight (added xs ys)

@[simp] theorem weightNil : weight [] = 0 := rfl

@[simp] theorem weightCons (b : Bool) (xs : List Bool) : weight (b::xs) = b.toNat + weight xs := by
  cases b <;> simp [weight, Nat.add_comm]

theorem weightAppend (xs ys : List Bool) : weight (xs ++ ys) = weight xs + weight ys := List.count_append

@[simp] theorem addedNil (ys : List Bool) : added [] ys = [] := rfl

@[simp] theorem addedCons (x y : Bool) (xs ys : List Bool) : added (x::xs) (y::ys) = (x ^^ y) :: added xs ys := rfl

@[simp] theorem addedLength (xs ys : List Bool) : (added xs ys).length = min xs.length ys.length := List.length_zipWith

theorem distanceSelf (xs : List Bool) : distance xs xs = 0 := by
  induction xs with
  | nil => rfl
  | cons x xs ih =>
    rw [distance, addedCons, weightCons, Bool.xor_self, Bool.toNat_false, Nat.zero_add]
    exact ih

theorem distanceSymm (xs ys : List Bool) : distance xs ys = distance ys xs := by
  rw [distance, distance, added, List.zipWith_comm_of_comm Bool.xor_comm]
  rfl

theorem distanceTriangle (xs ys zs : List Bool) (left : xs.length = ys.length) (right : ys.length = zs.length) :
    distance xs zs ≤ distance xs ys + distance ys zs := by
  induction xs generalizing ys zs with
  | nil => exact Nat.zero_le _
  | cons x xs ih =>
    cases ys with
    | nil => cases left
    | cons y ys =>
      cases zs with
      | nil => cases right
      | cons z zs =>
        have rest := ih ys zs (Nat.succ.inj left) (Nat.succ.inj right)
        unfold distance at rest ⊢
        simp only [addedCons, weightCons]
        cases x <;> cases y <;> cases z <;> simp <;> omega

theorem addedFirst {xs ys : List Bool} (same : xs.length = ys.length) (t : Nat) :
    xs.take t = ys.take t ∨ ∃ i rest, i < t ∧ added xs ys = List.replicate i false ++ true::rest := by
  induction xs generalizing ys t with
  | nil =>
    have none : ys = [] := List.eq_nil_of_length_eq_zero same.symm
    exact .inl (by rw [none])
  | cons x xs ih =>
    cases ys with
    | nil => cases same
    | cons y ys =>
      cases t with
      | zero => exact .inl rfl
      | succ t =>
        by_cases equal : x = y
        · subst equal
          rcases ih (Nat.succ.inj same) t with alike | ⟨i,rest,inside,split⟩
          · exact .inl (by rw [List.take_succ_cons, List.take_succ_cons, alike])
          · exact .inr ⟨i + 1,rest,by omega,by rw [addedCons, split, Bool.xor_self]; rfl⟩
        · have one : (x ^^ y) = true := by simpa using equal
          exact .inr ⟨0,added xs ys,Nat.succ_pos t,by rw [addedCons, one]; rfl⟩

structure Generators (n : Nat) where
  g0 : BitVec (n + 1)
  g1 : BitVec (n + 1)

def parity {w : Nat} (x : BitVec w) : Bool := (List.range w).foldl (fun p i => p ^^ x.getLsbD i) false

variable {n : Nat} (g : Generators n)

def shift (s : BitVec n) (b : Bool) : BitVec n := s >>> 1 ||| (BitVec.ofBool b).setWidth n <<< (n - 1)

def symbol (s : BitVec n) (b : Bool) : Bool × Bool := (parity (BitVec.cons b s &&& g.g0),parity (BitVec.cons b s &&& g.g1))

def encodeBits : BitVec n → List Bool → List Bool
  | _, [] => []
  | s, b::bs => (symbol g s b).1 :: (symbol g s b).2 :: encodeBits (shift s b) bs

def walk (s : BitVec n) (bs : List Bool) : BitVec n := bs.foldl shift s

@[simp] theorem encodeLength (s : BitVec n) (bs : List Bool) : (encodeBits g s bs).length = 2 * bs.length := by
  induction bs generalizing s with
  | nil => rfl
  | cons b bs ih =>
    simp only [encodeBits, List.length_cons, ih]
    omega

theorem encodeAppend (s : BitVec n) (as bs : List Bool) :
    encodeBits g s (as ++ bs) = encodeBits g s as ++ encodeBits g (walk s as) bs := by
  induction as generalizing s with
  | nil => rfl
  | cons a as ih => simp only [List.cons_append, encodeBits, ih, walk, List.foldl_cons]

theorem walkAppend (s : BitVec n) (as bs : List Bool) : walk s (as ++ bs) = walk (walk s as) bs := List.foldl_append

theorem parityXor {w : Nat} (x y : BitVec w) : parity (x ^^^ y) = (parity x ^^ parity y) := by
  have fold : ∀ (is : List Nat) (p q : Bool), is.foldl (fun p i => p ^^ (x ^^^ y).getLsbD i) (p ^^ q) =
      (is.foldl (fun p i => p ^^ x.getLsbD i) p ^^ is.foldl (fun p i => p ^^ y.getLsbD i) q) := by
    intro is
    induction is with
    | nil => exact fun _ _ => rfl
    | cons i is ih =>
      intro p q
      rw [List.foldl_cons, List.foldl_cons, List.foldl_cons, ← ih, BitVec.getLsbD_xor]
      congr 1
      cases p <;> cases q <;> cases x.getLsbD i <;> cases y.getLsbD i <;> rfl
  exact fold (List.range w) false false

theorem shiftBit (s : BitVec n) (b : Bool) {i : Nat} (inside : i < n) :
    (shift s b).getLsbD i = (s.getLsbD (i + 1) ^^ (b && decide (i = n - 1))) := by
  rw [shift, BitVec.getLsbD_or, BitVec.getLsbD_ushiftRight, BitVec.getLsbD_shiftLeft, Nat.add_comm 1 i]
  by_cases top : i = n - 1
  · have gone : s.getLsbD (i + 1) = false := BitVec.getLsbD_of_ge s (i + 1) (by omega)
    rw [gone, top, Nat.sub_self]
    cases b with
    | false => simp
    | true =>
      have some : 0 < n := by omega
      have last : n - 1 < n := by omega
      simp [some, last]
  · have low : i < n - 1 := by omega
    simp [top, low]

theorem andXor {w : Nat} (x y z : BitVec w) : (x ^^^ y) &&& z = (x &&& z) ^^^ (y &&& z) := by
  refine BitVec.eq_of_getLsbD_eq (fun i _ => ?_)
  simp only [BitVec.getLsbD_and, BitVec.getLsbD_xor]
  cases x.getLsbD i <;> cases y.getLsbD i <;> cases z.getLsbD i <;> rfl

theorem shiftXor (s t : BitVec n) (b c : Bool) : shift (s ^^^ t) (b ^^ c) = shift s b ^^^ shift t c := by
  refine BitVec.eq_of_getLsbD_eq (fun i inside => ?_)
  rw [BitVec.getLsbD_xor, shiftBit _ _ inside, shiftBit _ _ inside, shiftBit _ _ inside, BitVec.getLsbD_xor]
  cases decide (i = n - 1) <;> cases b <;> cases c <;> simp

theorem symbolXor (s t : BitVec n) (b c : Bool) : symbol g (s ^^^ t) (b ^^ c) =
    ((symbol g s b).1 ^^ (symbol g t c).1,(symbol g s b).2 ^^ (symbol g t c).2) := by
  simp only [symbol, ← BitVec.cons_xor_cons, andXor, parityXor]

theorem encodeAdded (s t : BitVec n) {as bs : List Bool} (same : as.length = bs.length) :
    encodeBits g (s ^^^ t) (added as bs) = added (encodeBits g s as) (encodeBits g t bs) := by
  induction as generalizing s t bs with
  | nil => rfl
  | cons a as ih =>
    cases bs with
    | nil => cases same
    | cons b bs => simp only [addedCons, encodeBits, symbolXor, shiftXor, ih _ _ (Nat.succ.inj same)]

theorem walkAdded (s t : BitVec n) {as bs : List Bool} (same : as.length = bs.length) :
    walk (s ^^^ t) (added as bs) = walk s as ^^^ walk t bs := by
  induction as generalizing s t bs with
  | nil =>
    rw [List.eq_nil_of_length_eq_zero same.symm]
    rfl
  | cons a as ih =>
    cases bs with
    | nil => cases same
    | cons b bs =>
      simp only [addedCons, walk, List.foldl_cons, shiftXor]
      exact ih _ _ (Nat.succ.inj same)

theorem zeroShift (k : Nat) : (0 : BitVec n) >>> k = 0 := BitVec.zero_ushiftRight

theorem shiftQuiet (s : BitVec n) : shift s false = s >>> 1 := by
  simp [shift, BitVec.ofBool]

theorem walkQuiet (s : BitVec n) (k : Nat) : walk s (List.replicate k false) = s >>> k := by
  induction k generalizing s with
  | zero => simp [walk]
  | succ k ih =>
    rw [List.replicate_succ, walk, List.foldl_cons, shiftQuiet]
    refine (ih (s >>> 1)).trans ?_
    rw [← BitVec.shiftRight_add, Nat.add_comm]

theorem walkFlushed (s : BitVec n) {k : Nat} (long : n ≤ k) : walk s (List.replicate k false) = 0 := by
  rw [walkQuiet]
  exact BitVec.ushiftRight_eq_zero long

theorem symbolQuiet : symbol g 0 false = (false,false) := by
  have none : BitVec.cons false (0 : BitVec n) = 0 := by
    refine BitVec.eq_of_getLsbD_eq (fun i _ => ?_)
    rw [BitVec.getLsbD_cons]
    simp
  have even : parity (0 : BitVec (n + 1)) = false := by
    have still : ∀ is : List Nat, is.foldl (fun p i => p ^^ (0 : BitVec (n + 1)).getLsbD i) false = false := by
      intro is
      induction is with
      | nil => rfl
      | cons i is ih =>
        rw [List.foldl_cons, show (0 : BitVec (n + 1)).getLsbD i = false from BitVec.getLsbD_zero, Bool.xor_false]
        exact ih
    exact still _
  have masked : ∀ mask : BitVec (n + 1), 0 &&& mask = 0 := fun mask => BitVec.zero_and
  rw [symbol, none, masked, masked, even]

theorem encodeQuiet (k : Nat) : encodeBits g 0 (List.replicate k false) = List.replicate (2 * k) false := by
  induction k with
  | zero => rfl
  | succ k ih =>
    have still : shift (0 : BitVec n) false = 0 := by
      rw [shiftQuiet, zeroShift]
    rw [List.replicate_succ, encodeBits, symbolQuiet, still, ih, show 2 * (k + 1) = 2 * k + 1 + 1 by omega,
      List.replicate_succ, List.replicate_succ]

def symbolWeight (p : Bool × Bool) : Nat := p.1.toNat + p.2.toNat

structure Potential (height : BitVec n → Nat) : Prop where
  zero : height 0 = 0
  step : ∀ s b, height s ≤ symbolWeight (symbol g s b) + height (shift s b)

def lightest : Nat → BitVec n → Nat
  | 0, _ => 0
  | k + 1, s => min (symbolWeight (symbol g s false) + lightest k (shift s false))
      (symbolWeight (symbol g s true) + lightest k (shift s true))

variable {g}

theorem encodeWeight (s : BitVec n) (b : Bool) (bs : List Bool) :
    weight (encodeBits g s (b::bs)) = symbolWeight (symbol g s b) + weight (encodeBits g (shift s b) bs) := by
  simp only [encodeBits, weightCons, symbolWeight]
  omega

theorem potentialBound {height : BitVec n → Nat} (potential : Potential g height) (s : BitVec n) (bs : List Bool) :
    height s ≤ weight (encodeBits g s bs) + height (walk s bs) := by
  induction bs generalizing s with
  | nil => exact Nat.le_add_left _ _
  | cons b bs ih =>
    have first := potential.step s b
    have rest := ih (shift s b)
    rw [encodeWeight]
    rw [walk, List.foldl_cons]
    rw [walk] at rest
    omega

theorem lightestBound (s : BitVec n) {k : Nat} {bs : List Bool} (long : k ≤ bs.length) :
    lightest g k s ≤ weight (encodeBits g s bs) := by
  induction bs generalizing s k with
  | nil =>
    rw [Nat.le_zero.mp long]
    exact Nat.zero_le _
  | cons b bs ih =>
    cases k with
    | zero => exact Nat.zero_le _
    | succ k =>
      have rest := ih (shift s b) (Nat.le_of_succ_le_succ long)
      rw [encodeWeight, lightest]
      cases b with
      | false => exact Nat.le_trans (Nat.min_le_left _ _) (Nat.add_le_add_left rest _)
      | true => exact Nat.le_trans (Nat.min_le_right _ _) (Nat.add_le_add_left rest _)

theorem encodeStarted (i : Nat) (rest : List Bool) : weight (encodeBits g 0 (List.replicate i false ++ true::rest)) =
    symbolWeight (symbol g 0 true) + weight (encodeBits g (shift 0 true) rest) := by
  have quiet : weight (List.replicate (2 * i) false) = 0 := by simp [weight, List.count_replicate]
  rw [encodeAppend, weightAppend, encodeQuiet, quiet, Nat.zero_add, walkQuiet, zeroShift, encodeWeight]

theorem closedWeight {height : BitVec n → Nat} (potential : Potential g height) {i : Nat} {rest : List Bool}
    (closed : walk 0 (List.replicate i false ++ true::rest) = (0 : BitVec n)) :
    symbolWeight (symbol g 0 true) + height (shift 0 true) ≤
      weight (encodeBits g 0 (List.replicate i false ++ true::rest)) := by
  have bound := potentialBound potential (shift 0 true) rest
  rw [walkAppend, walkQuiet, zeroShift, walk, List.foldl_cons] at closed
  rw [walk, closed, potential.zero] at bound
  rw [encodeStarted]
  omega

theorem openWeight {i k : Nat} {rest : List Bool} (long : k ≤ rest.length) :
    symbolWeight (symbol g 0 true) + lightest g k (shift 0 true) ≤
      weight (encodeBits g 0 (List.replicate i false ++ true::rest)) := by
  have bound := lightestBound (g := g) (shift 0 true) long
  rw [encodeStarted]
  omega

theorem closedSame {height : BitVec n → Nat} (potential : Potential g height) {as bs : List Bool}
    (same : as.length = bs.length) (meets : walk 0 as = (walk 0 bs : BitVec n))
    (near : distance (encodeBits g 0 as) (encodeBits g 0 bs) < symbolWeight (symbol g 0 true) + height (shift 0 true)) :
    as = bs := by
  rcases addedFirst same as.length with alike | ⟨i,rest,-,split⟩
  · rwa [List.take_length, same, List.take_length] at alike
  · have closed : walk 0 (added as bs) = (0 : BitVec n) := by
      have both := walkAdded (0 : BitVec n) 0 same
      rwa [BitVec.xor_self, meets, BitVec.xor_self] at both
    have word := encodeAdded g 0 0 same
    rw [BitVec.xor_self] at word
    rw [distance, ← word] at near
    rw [split] at closed near
    exact absurd (closedWeight potential closed) (Nat.not_le.mpr near)

theorem openSame {as bs : List Bool} (same : as.length = bs.length) {t k : Nat} (long : t + k ≤ as.length)
    (near : distance (encodeBits g 0 as) (encodeBits g 0 bs) <
      symbolWeight (symbol g 0 true) + lightest g k (shift 0 true)) :
    as.take t = bs.take t := by
  rcases addedFirst same t with alike | ⟨i,rest,inside,split⟩
  · exact alike
  · have length := congrArg List.length split
    rw [addedLength, same, Nat.min_self, List.length_append, List.length_replicate, List.length_cons] at length
    have word := encodeAdded g 0 0 same
    rw [BitVec.xor_self] at word
    rw [distance, ← word, split] at near
    exact absurd (openWeight (by omega)) (Nat.not_le.mpr near)

def pairs {A : Type} : List A → List (A × A)
  | a::b::rest => (a,b)::pairs rest
  | _ => []

theorem pairsMap {A B : Type} (f : A → B) (xs : List A) : pairs (xs.map f) = (pairs xs).map (Prod.map f f) := by
  induction xs using pairs.induct with
  | case1 a b rest ih => simp only [List.map_cons, pairs, ih, Prod.map_apply]
  | case2 xs short =>
    cases xs with
    | nil => rfl
    | cons a xs =>
      cases xs with
      | nil => rfl
      | cons b rest => exact absurd rfl (short a b rest)

def flat (rs : List (Bool × Bool)) : List Bool := rs.flatMap (fun r => [r.1,r.2])

theorem flatLength (rs : List (Bool × Bool)) : (flat rs).length = 2 * rs.length := by
  induction rs with
  | nil => rfl
  | cons r rs ih =>
    rw [flat, List.flatMap_cons, List.length_append, List.length_cons]
    rw [flat] at ih
    rw [ih]
    simp only [List.length_cons, List.length_nil]
    omega

theorem flatPairs {bits : List Bool} {k : Nat} (even : bits.length = 2 * k) : flat (pairs bits) = bits := by
  induction k generalizing bits with
  | zero =>
    rw [List.eq_nil_of_length_eq_zero even]
    rfl
  | succ k ih =>
    cases bits with
    | nil => cases even
    | cons a bits =>
      cases bits with
      | nil =>
        rw [List.length_singleton] at even
        omega
      | cons b bits =>
        have rest : flat (pairs bits) = bits := ih (by simp only [List.length_cons] at even; omega)
        rw [pairs, flat, List.flatMap_cons]
        rw [flat] at rest
        rw [rest]
        rfl

def symbolDistance (p q : Bool × Bool) : Nat := (p.1 ^^ q.1).toNat + (p.2 ^^ q.2).toNat

theorem encodeDistance (s : BitVec n) (b : Bool) (bs : List Bool) (r : Bool × Bool) (rs : List (Bool × Bool)) :
    distance (encodeBits g s (b::bs)) (flat (r::rs)) =
      symbolDistance (symbol g s b) r + distance (encodeBits g (shift s b) bs) (flat rs) := by
  have split : flat (r::rs) = r.1::r.2::flat rs := rfl
  simp only [distance, encodeBits, split, addedCons, weightCons, symbolDistance]
  omega

end OpenPulse.Convolutional
