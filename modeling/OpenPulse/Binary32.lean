import Mathlib

/-! Single precision numbers, by the model of their bits that comes with the
language. The sum with zero is the number again, but for the negative zero. -/
namespace OpenPulse.Binary32
open Float.Model

/-- The hard decision: below zero is a one. -/
def negative (x : Float32) : Bool := decide (x < 0.0)

theorem packUnpack (x : Float32) : Float32.ofModel (.pack x.toModel.unpack) = x := Float32.ofBits_toBits x

theorem zeroUnpack : (0.0 : Float32).toModel.unpack = .zero .positive := rfl

theorem addZero {x : Float32} (other : x.toModel.unpack ≠ .zero .negative) : x + 0.0 = x := by
  have kept : UnpackedFloat.add Format.binary32 x.toModel.unpack (.zero .positive) = x.toModel.unpack := by
    cases shown : x.toModel.unpack with
    | infinity s => rfl
    | notANumber => rfl
    | finite s m e pos => rfl
    | zero s =>
      cases s with
      | negative => exact absurd shown other
      | positive => rfl
  change Float32.ofModel (Float32.Model.pack (UnpackedFloat.add Format.binary32 x.toModel.unpack (0.0 : Float32).toModel.unpack)) = x
  rw [zeroUnpack, kept, packUnpack]

theorem negativeAddZero (x : Float32) : negative (x + 0.0) = negative x := by
  by_cases signed : x.toModel.unpack = .zero .negative
  · have same : x = -0.0 := by
      have packed := packUnpack x
      rw [signed] at packed
      exact packed.symm
    rw [same]
    decide +kernel
  · rw [addZero signed]

end OpenPulse.Binary32
