import Mathlib.Data.Fintype.EquivFin
import Mathlib.Data.Nat.ModEq
import Mathlib.Data.Nat.Prime.Basic
import Mathlib.Tactic.Ring

/-! Permutations of the residues of `k` by a polynomial `f1 * i + f2 * i²`. -/
namespace OpenPulse.Quadratic

def quadratic (f1 f2 k i : Nat) : Nat := (f1 * i + f2 * i * i) % k

structure Regular (f1 f2 k : Nat) : Prop where
  unit : Nat.Coprime f1 k
  kernel : ∀ p, p.Prime → p ∣ k → p ∣ f2

theorem regularPower {f1 f2 k m : Nat} (unit : Nat.Coprime f1 k) (power : k ∣ f2 ^ m) : Regular f1 f2 k :=
  ⟨unit,fun _ prime divides => prime.dvd_of_dvd_pow (Nat.dvd_trans divides power)⟩

theorem Regular.slope {f1 f2 k : Nat} (regular : Regular f1 f2 k) (s : Nat) : Nat.Coprime k (f1 + f2 * s) := by
  refine Nat.coprime_of_dvd fun p prime divides slope => ?_
  have square : p ∣ f2 * s := Dvd.dvd.mul_right (regular.kernel p prime divides) s
  have linear : p ∣ f1 := (Nat.dvd_add_left square).mp slope
  exact prime.one_lt.ne' (Nat.dvd_one.mp (regular.unit ▸ Nat.dvd_gcd linear divides))

theorem Regular.apart {f1 f2 k : Nat} (regular : Regular f1 f2 k) {i d : Nat} (inside : i + d < k)
    (same : quadratic f1 f2 k i = quadratic f1 f2 k (i + d)) : d = 0 := by
  have product : f1 * (i + d) + f2 * (i + d) * (i + d) - (f1 * i + f2 * i * i) = d * (f1 + f2 * (i + i + d)) := by
    refine Nat.sub_eq_of_eq_add ?_
    ring
  have larger : f1 * i + f2 * i * i ≤ f1 * (i + d) + f2 * (i + d) * (i + d) :=
    Nat.add_le_add (Nat.mul_le_mul_left f1 (Nat.le_add_right i d))
      (Nat.mul_le_mul (Nat.mul_le_mul_left f2 (Nat.le_add_right i d)) (Nat.le_add_right i d))
  have divides : k ∣ d * (f1 + f2 * (i + i + d)) := product ▸ (Nat.modEq_iff_dvd' larger).mp same
  exact Nat.eq_zero_of_dvd_of_lt ((regular.slope _).dvd_of_dvd_mul_right divides) (by omega)

theorem Regular.inj {f1 f2 k : Nat} (regular : Regular f1 f2 k) {i j : Nat} (left : i < k) (right : j < k)
    (same : quadratic f1 f2 k i = quadratic f1 f2 k j) : i = j := by
  rcases Nat.le_total i j with below | below
  · obtain ⟨d,rfl⟩ := Nat.exists_eq_add_of_le below
    rw [regular.apart right same, Nat.add_zero]
  · obtain ⟨d,rfl⟩ := Nat.exists_eq_add_of_le below
    rw [regular.apart left same.symm, Nat.add_zero]

theorem Regular.onto {f1 f2 k : Nat} (regular : Regular f1 f2 k) {j : Nat} (inside : j < k) :
    ∃ i < k, quadratic f1 f2 k i = j := by
  have some' : 0 < k := Nat.zero_lt_of_lt inside
  let f : Fin k → Fin k := fun i => ⟨quadratic f1 f2 k i,Nat.mod_lt _ some'⟩
  have injective : Function.Injective f := fun a b same => Fin.ext (regular.inj a.isLt b.isLt (congrArg Fin.val same))
  obtain ⟨i,hit⟩ := Finite.surjective_of_injective injective ⟨j,inside⟩
  exact ⟨i,i.isLt,congrArg Fin.val hit⟩

theorem quadraticDivided {d f1 f2 k : Nat} (linear : d ∣ f1) (square : d ∣ f2) (whole : d ∣ k) (i : Nat) :
    d ∣ quadratic f1 f2 k i := by
  refine (Nat.dvd_mod_iff whole).mpr (Nat.dvd_add (Dvd.dvd.mul_right linear i) ?_)
  exact Dvd.dvd.mul_right (Dvd.dvd.mul_right square i) i

end OpenPulse.Quadratic
