import Mathlib.Data.List.Basic

/-! Numbers written in lower-case hexadecimal, padded with zeros on the left to a
minimum width. The text determines the number, whatever the width. -/
namespace OpenPulse.Hex

def digits (n : Nat) : List Char := Nat.toDigits 16 n

def padded (width n : Nat) : List Char := List.replicate (width - (digits n).length) '0' ++ digits n

def digitOf (c : Char) : Nat := if c.isDigit then c.toNat - 48 else c.toNat - 87

def value (cs : List Char) : Nat := cs.foldl (fun n c => n * 16 + digitOf c) 0

theorem digitOfChar {n : Nat} (small : n < 16) : digitOf n.digitChar = n := by
  have every : ∀ m < 16, digitOf (Nat.digitChar m) = m := by decide
  exact every n small

theorem valueSnoc (cs : List Char) (c : Char) : value (cs ++ [c]) = value cs * 16 + digitOf c := by
  simp [value]

theorem valueDigits (n : Nat) : value (digits n) = n := by
  induction n using Nat.strongRecOn with
  | _ n ih =>
    unfold digits at *
    by_cases small : n < 16
    · rw [Nat.toDigits_of_lt_base small]
      simpa [value] using digitOfChar small
    · have lower : n / 16 < n := by omega
      rw [Nat.toDigits_of_base_le (by decide) (Nat.not_lt.mp small), valueSnoc, ih _ lower,
        digitOfChar (Nat.mod_lt n (by decide))]
      omega

theorem valuePadded (width n : Nat) : value (padded width n) = n := by
  have zeros : ∀ k, value (List.replicate k '0' ++ digits n) = value (digits n) := by
    intro k
    induction k with
    | zero => rfl
    | succ k ih =>
      rw [List.replicate_succ, List.cons_append, ← ih]
      rfl
  rw [padded, zeros, valueDigits]

theorem paddedInj {width m n : Nat} (same : padded width m = padded width n) : m = n := by
  rw [← valuePadded width m, same, valuePadded]

theorem digitsHex {n : Nat} {c : Char} (member : c ∈ digits n) : ∃ d, d < 16 ∧ c = Nat.digitChar d := by
  induction n using Nat.strongRecOn with
  | _ n ih =>
    unfold digits at *
    by_cases small : n < 16
    · rw [Nat.toDigits_of_lt_base small, List.mem_singleton] at member
      exact ⟨n,small,member⟩
    · rw [Nat.toDigits_of_base_le (by decide) (Nat.not_lt.mp small), List.mem_append, List.mem_singleton] at member
      rcases member with high | low
      · exact ih (n / 16) (by omega) high
      · exact ⟨n % 16,Nat.mod_lt n (by decide),low⟩

theorem dashAbsent (width n : Nat) : '-' ∉ padded width n := by
  intro member
  rcases List.mem_append.mp member with zero | digit
  · exact absurd (List.eq_of_mem_replicate zero) (by decide)
  · obtain ⟨d,small,same⟩ := digitsHex digit
    have every : ∀ m < 16, '-' ≠ Nat.digitChar m := by decide
    exact every d small same

end OpenPulse.Hex
