import Mathlib.Algebra.Ring.Nat
import Mathlib.Data.Nat.Size
import Mathlib.Order.MinMax

/-! Rounding to a number of binary digits, to nearest with ties to even, and to a largest value from
which on all is infinite: the sums of a floating-point format, counted in its least value. Rounding
keeps the order, and what it gives it leaves as it is. -/
namespace OpenPulse.Rounding

/-- The multiple of `2 ^ k` that is nearest, of two the even one. -/
def nearestMultiple (k n : Nat) : Nat :=
  if 2 ^ k < 2 * (n % 2 ^ k) ∨ 2 ^ k = 2 * (n % 2 ^ k) ∧ n / 2 ^ k % 2 = 1 then (n / 2 ^ k + 1) * 2 ^ k else n / 2 ^ k * 2 ^ k

def nearest (digits n : Nat) : Nat := nearestMultiple (n.size - digits) n

/- From `2 ^ top` on the value is infinite. -/
def rounded (digits top n : Nat) : Nat := min (nearest digits n) (2 ^ top)

variable {k m n digits top : Nat}

theorem multipleDvd (k n : Nat) : 2 ^ k ∣ nearestMultiple k n := by
  unfold nearestMultiple
  split <;> exact Nat.dvd_mul_left _ _

theorem multipleSelf (whole : 2 ^ k ∣ n) : nearestMultiple k n = n := by
  have positive : 0 < 2 ^ k := Nat.two_pow_pos k
  rw [nearestMultiple, Nat.mod_eq_zero_of_dvd whole, if_neg (by omega), Nat.div_mul_cancel whole]

theorem multipleMono (k : Nat) (less : m ≤ n) : nearestMultiple k m ≤ nearestMultiple k n := by
  have quotients : m / 2 ^ k ≤ n / 2 ^ k := Nat.div_le_div_right less
  have parts := Nat.div_add_mod m (2 ^ k)
  have parts' := Nat.div_add_mod n (2 ^ k)
  rcases Nat.lt_or_eq_of_le quotients with apart | same
  · have lower : nearestMultiple k m ≤ (m / 2 ^ k + 1) * 2 ^ k := by
      unfold nearestMultiple
      split
      · exact Nat.le_refl _
      · exact Nat.mul_le_mul_right _ (Nat.le_succ _)
    have upper : n / 2 ^ k * 2 ^ k ≤ nearestMultiple k n := by
      unfold nearestMultiple
      split
      · exact Nat.mul_le_mul_right _ (Nat.le_succ _)
      · exact Nat.le_refl _
    exact Nat.le_trans lower (Nat.le_trans (Nat.mul_le_mul_right _ apart) upper)
  · rw [same] at parts
    unfold nearestMultiple
    rw [same]
    split
    · rw [if_pos (by omega)]
    · split
      · exact Nat.mul_le_mul_right _ (Nat.le_succ _)
      · exact Nat.le_refl _

theorem nearestPower (e : Nat) (positive : 0 < digits) : nearest digits (2 ^ e) = 2 ^ e := by
  rw [nearest, Nat.size_pow]
  exact multipleSelf (Nat.pow_dvd_pow 2 (by omega))

/- The powers of two keep values of different exponents apart. -/
theorem nearestMono (positive : 0 < digits) (less : m ≤ n) : nearest digits m ≤ nearest digits n := by
  have sizes : m.size ≤ n.size := Nat.size_le_size less
  by_cases same : m.size - digits = n.size - digits
  · rw [nearest, nearest, same]
    exact multipleMono _ less
  · have below : m < 2 ^ (n.size - 1) := Nat.size_le.mp (by omega)
    have above : 2 ^ (n.size - 1) ≤ n := Nat.lt_size.mp (by omega)
    calc nearest digits m ≤ nearestMultiple (m.size - digits) (2 ^ (n.size - 1)) := multipleMono _ (Nat.le_of_lt below)
      _ = 2 ^ (n.size - 1) := multipleSelf (Nat.pow_dvd_pow 2 (by omega))
      _ = nearestMultiple (n.size - digits) (2 ^ (n.size - 1)) := (multipleSelf (Nat.pow_dvd_pow 2 (by omega))).symm
      _ ≤ nearest digits n := multipleMono _ above

theorem nearestAgain (positive : 0 < digits) (n : Nat) : nearest digits (nearest digits n) = nearest digits n := by
  have whole : 2 ^ (n.size - digits) ∣ nearest digits n := multipleDvd _ n
  have within : nearest digits n ≤ 2 ^ n.size := by
    rw [← nearestPower n.size positive]
    exact nearestMono positive (Nat.le_of_lt (Nat.lt_size_self n))
  rcases Nat.lt_or_eq_of_le within with inside | top
  · exact multipleSelf (Nat.dvd_trans (Nat.pow_dvd_pow 2 (Nat.sub_le_sub_right (Nat.size_le.mpr inside) _)) whole)
  · rw [top, nearestPower _ positive]

theorem roundedMono (positive : 0 < digits) (less : m ≤ n) : rounded digits top m ≤ rounded digits top n :=
  min_le_min_right _ (nearestMono positive less)

theorem roundedAgain (positive : 0 < digits) (n : Nat) : rounded digits top (rounded digits top n) = rounded digits top n := by
  unfold rounded
  rcases Nat.le_total (nearest digits n) (2 ^ top) with finite | infinite
  · rw [Nat.min_eq_left finite, nearestAgain positive, Nat.min_eq_left finite]
  · rw [Nat.min_eq_right infinite, nearestPower top positive, Nat.min_self]

theorem roundedZero : rounded digits top 0 = 0 := by
  rw [rounded, nearest, multipleSelf (Nat.dvd_zero _)]
  exact Nat.zero_min _

def Value (digits top : Nat) : Type := { n : Nat // rounded digits top n = n }

namespace Value

instance : LinearOrder (Value digits top) := inferInstanceAs (LinearOrder { n : Nat // rounded digits top n = n })

instance : Zero (Value digits top) := ⟨⟨0,roundedZero⟩⟩

def add (positive : 0 < digits) (a b : Value digits top) : Value digits top :=
  ⟨rounded digits top (a.val + b.val),roundedAgain positive _⟩

theorem addMono (positive : 0 < digits) {a b : Value digits top} (less : a ≤ b) (c : Value digits top) :
    add positive a c ≤ add positive b c := roundedMono positive (Nat.add_le_add_right less c.val)

theorem addGrows (positive : 0 < digits) (a c : Value digits top) : a ≤ add positive a c := by
  have kept : rounded digits top a.val ≤ rounded digits top (a.val + c.val) := roundedMono positive (Nat.le_add_right _ _)
  rwa [a.property] at kept

end Value

end OpenPulse.Rounding
