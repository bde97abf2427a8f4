import Mathlib.LinearAlgebra.Lagrange

/-! Systematic codes by interpolation: the message is the values of a polynomial of
low degree at the first points, the codeword its values at all points. Two
codewords that agree in as many places as a message has are equal, so a word with
few errors is near one codeword only. -/
namespace OpenPulse.ReedSolomon
open Polynomial

variable {α F : Type}

section Errors
variable [DecidableEq α]

def wrongPlaces (a b : List α) : Finset Nat := (Finset.range a.length).filter (fun i => a[i]? ≠ b[i]?)

def errors (a b : List α) : Nat := (wrongPlaces a b).card

theorem errorsSelf (a : List α) : errors a a = 0 := by simp [errors, wrongPlaces]

theorem errorsSymm {a b : List α} (same : b.length = a.length) : errors a b = errors b a := by
  unfold errors wrongPlaces
  rw [same]
  exact congrArg Finset.card (Finset.filter_congr (fun i _ => ne_comm))

theorem errorsTriangle {a b c : List α} (same : b.length = a.length) : errors a c ≤ errors a b + errors b c := by
  refine le_trans (Finset.card_le_card (fun i wrong => ?_)) (Finset.card_union_le (wrongPlaces a b) (wrongPlaces b c))
  obtain ⟨inside,differ⟩ := Finset.mem_filter.mp wrong
  by_cases first : a[i]? = b[i]?
  · refine Finset.mem_union_right _ (Finset.mem_filter.mpr ⟨by rwa [same],?_⟩)
    rwa [← first]
  · exact Finset.mem_union_left _ (Finset.mem_filter.mpr ⟨inside,first⟩)

theorem errorsAgree (a b : List α) : ((Finset.range a.length).filter (fun i => a[i]? = b[i]?)).card + errors a b = a.length := by
  have both := Finset.card_filter_add_card_filter_not (s := Finset.range a.length) (fun i => a[i]? = b[i]?)
  rwa [Finset.card_range] at both

end Errors

structure Points (α F : Type) [Field F] (n : Nat) where
  symbol : α ≃ F
  point : Nat → F
  apart : Set.InjOn point (Finset.range n)

namespace Points
variable [Field F] {n k : Nat} (P : Points α F n)

noncomputable def value (message : List α) (i : Nat) : F := P.symbol (message.getD i (P.symbol.symm 0))

noncomputable def polynomial (k : Nat) (message : List α) : F[X] := Lagrange.interpolate (Finset.range k) P.point (P.value message)

noncomputable def codeword (k : Nat) (message : List α) : List α :=
  (List.range n).map (fun i => P.symbol.symm ((P.polynomial k message).eval (P.point i)))

theorem codewordLength (k : Nat) (message : List α) : (P.codeword k message).length = n := by simp [codeword]

theorem codewordGet (k : Nat) (message : List α) {i : Nat} (inside : i < n) :
    (P.codeword k message)[i]? = some (P.symbol.symm ((P.polynomial k message).eval (P.point i))) := by
  rw [codeword, List.getElem?_map, List.getElem?_range inside, Option.map_some]

theorem apartBelow (within : k ≤ n) : Set.InjOn P.point (Finset.range k) :=
  P.apart.mono (Finset.coe_subset.mpr (Finset.range_subset_range.mpr within))

theorem codewordStarts (within : k ≤ n) {message : List α} (full : message.length = k) :
    (P.codeword k message).take k = message := by
  refine List.ext_getElem? (fun i => ?_)
  by_cases inside : i < k
  · have node := Lagrange.eval_interpolate_at_node (P.value message) (P.apartBelow within) (Finset.mem_range.mpr inside)
    rw [List.getElem?_take_of_lt inside, P.codewordGet k message (Nat.lt_of_lt_of_le inside within), polynomial, node, value,
      Equiv.symm_apply_apply, List.getD_eq_getElem?_getD, List.getElem?_eq_getElem (by rwa [full]), Option.getD_some]
  · rw [List.getElem?_eq_none (by rw [List.length_take]; omega), List.getElem?_eq_none (by omega)]

theorem codewordNested {m : Nat} (below : k ≤ m) (within : m ≤ n) (message : List α) :
    P.codeword m ((P.codeword k message).take m) = P.codeword k message := by
  have degree : (P.polynomial k message).degree < (Finset.range m).card := by
    refine lt_of_lt_of_le (Lagrange.degree_interpolate_lt _ (P.apartBelow (Nat.le_trans below within))) ?_
    rw [Finset.card_range, Finset.card_range]
    exact_mod_cast below
  have values : ∀ i ∈ Finset.range m, (P.polynomial k message).eval (P.point i) = P.value ((P.codeword k message).take m) i := by
    intro i member
    have inside := Finset.mem_range.mp member
    rw [value, List.getD_eq_getElem?_getD, List.getElem?_take_of_lt inside, P.codewordGet k message (Nat.lt_of_lt_of_le inside within),
      Option.getD_some, Equiv.apply_symm_apply]
  have same : P.polynomial k message = P.polynomial m ((P.codeword k message).take m) :=
    Lagrange.eq_interpolate_of_eval_eq _ (P.apartBelow within) degree values
  rw [codeword, ← same, codeword]

variable [DecidableEq α]

theorem codewordsApart (within : k ≤ n) {a b : List α} (near : errors (P.codeword k a) (P.codeword k b) + k ≤ n) :
    P.codeword k a = P.codeword k b := by
  let agree := (Finset.range n).filter (fun i => (P.codeword k a)[i]? = (P.codeword k b)[i]?)
  have many : k ≤ agree.card := by
    have count := errorsAgree (P.codeword k a) (P.codeword k b)
    rw [P.codewordLength] at count
    change agree.card + _ = _ at count
    omega
  have degree : ∀ m : List α, (P.polynomial k m).degree < agree.card := fun m => by
    refine lt_of_lt_of_le (Lagrange.degree_interpolate_lt _ (P.apartBelow within)) ?_
    rw [Finset.card_range]
    exact_mod_cast many
  have same : P.polynomial k a = P.polynomial k b := by
    refine Polynomial.eq_of_degrees_lt_of_eval_index_eq agree (P.apart.mono (Finset.coe_subset.mpr (Finset.filter_subset _ _)))
      (degree a) (degree b) (fun i member => ?_)
    obtain ⟨inside,equal⟩ := Finset.mem_filter.mp member
    rw [P.codewordGet k a (Finset.mem_range.mp inside), P.codewordGet k b (Finset.mem_range.mp inside)] at equal
    exact P.symbol.symm.injective (Option.some.inj equal)
  rw [codeword, codeword, same]

open Classical in
noncomputable def nearest (k t : Nat) (word : List α) : Option (List α) :=
  if found : ∃ message, errors (P.codeword k message) word ≤ t then some (P.codeword k found.choose) else none

theorem nearestCorrects {t : Nat} (radius : 2 * t + k ≤ n) {message word : List α} (full : word.length = n)
    (near : errors (P.codeword k message) word ≤ t) : P.nearest k t word = some (P.codeword k message) := by
  have found : ∃ message, errors (P.codeword k message) word ≤ t := ⟨message,near⟩
  have length := P.codewordLength k
  have back : errors word (P.codeword k found.choose) ≤ t := by
    rw [errorsSymm ((length _).trans full.symm)]
    exact found.choose_spec
  have triangle := errorsTriangle (c := P.codeword k found.choose) (full.trans (length message).symm)
  have same : P.codeword k message = P.codeword k found.choose := P.codewordsApart (by omega) (by omega)
  rw [nearest, dif_pos found, same]

theorem nearestLength {t : Nat} {word out : List α} (found : P.nearest k t word = some out) : out.length = n := by
  unfold nearest at found
  split at found
  · rw [← Option.some.inj found, P.codewordLength]
  · cases found

end Points

end OpenPulse.ReedSolomon
