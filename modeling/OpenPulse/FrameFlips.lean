import OpenPulse.CrcRegisters
import OpenPulse.FrameCodec

/-! Flipped bits that the check of a frame sees besides the bursts: an odd number of them, and two wherever they lie. The
polynomial of `openpulse-core/src/frame.rs` has four terms, and it comes back to itself later than a frame is long. -/
namespace OpenPulse.FrameFlips
open ByteCodec CrcRegisters Engine

def poly : BitVec 16 := 0x1021

def bits (data : Bytes) : List Bool := data.flatMap fun x => places x.toBitVec

theorem crcBitStep (c : UInt16) : (crcBit c).toBitVec = step poly c.toBitVec false := by
  rw [crcBitForm, step, BitVec.msb_eq_getLsbD_last, Bool.xor_false]
  cases c.toBitVec.getLsbD 15 <;> rfl

theorem highPlaces (b : UInt8) : (places (b.toUInt16 <<< 8).toBitVec).take 8 = places b.toBitVec ∧ (b.toUInt16 <<< 8).toBitVec <<< 8 = 0 := by
  have moved : (b.toUInt16 <<< 8).toBitVec = b.toBitVec.setWidth 16 <<< 8 := rfl
  rw [moved]
  refine ⟨List.ext_getElem rfl fun i inside _ => ?_,?_⟩
  · simp [places]
  · rw [← BitVec.shiftLeft_add]
    exact BitVec.shiftLeft_eq_zero (Nat.le_refl 16)

theorem crcByteBits (crc : UInt16) (b : UInt8) : (crcByte crc b).toBitVec = CrcRegisters.feed poly crc.toBitVec (places b.toBitVec) := by
  have steps : Function.Semiconj UInt16.toBitVec crcBit fun r => step poly r false := crcBitStep
  rw [← (highPlaces b).1, feedPlaces poly _ _ (show 8 ≤ 16 by decide), (highPlaces b).2, feedShifts]
  exact (steps.iterate_right 8 (crc ^^^ (b.toUInt16 <<< 8))).trans BitVec.zero_xor.symm

theorem feedBits (r : UInt16) (data : Bytes) : (Engine.feed r data).toBitVec = CrcRegisters.feed poly r.toBitVec (bits data) := by
  induction data generalizing r with
  | nil => rfl
  | cons x data ih => rw [Engine.feedCons, ih, crcByteBits, bits, bits, List.flatMap_cons, CrcRegisters.feedAppend]

theorem bitsLength (data : Bytes) : (bits data).length = 8 * data.length := by
  induction data with
  | nil => rfl
  | cons x data ih =>
    rw [bits] at ih ⊢
    rw [List.flatMap_cons, List.length_append, placesLength, ih, List.length_cons]
    omega

theorem flipsSeen {error : Bytes} (short : error.length ≤ 265) (flips : (bits error).count true % 2 = 1 ∨ (bits error).count true = 2) :
    Engine.feed 0 error ≠ 0 := by
  intro zero
  have still : CrcRegisters.feed poly 0 (bits error) = 0 := (feedBits 0 error).symm.trans (congrArg UInt16.toBitVec zero)
  rcases flips with odd | two
  · exact oddSeen poly (by decide) (by decide) odd still
  · have length : (bits error).length ≤ 2120 := by
      rw [bitsLength]
      omega
    exact pairSeen poly (by decide) (by decide) (by decide +kernel) length two still

theorem flipsRefused {f : Frame} {error : Bytes} (same : error.length = f.encode.length) (spared : error.getD 7 0 = 0)
    (flips : (bits error).count true % 2 = 1 ∨ (bits error).count true = 2) :
    ∃ e, Frame.decode (corrupted f.encode error) = .error e := by
  have short : error.length ≤ 265 := by
    rw [same, frameLength]
    have small := f.small
    unfold Frame.wireOverhead
    omega
  exact seenRefused same (flipsSeen short flips) spared

theorem flipsRefusedPair : ∃ e, Frame.decode (corrupted (Frame.encode ⟨1234,[0x41],by decide⟩) [0x80,0,0,0,0,0,0,0,0,0,1]) = .error e :=
  flipsRefused (by decide) (by decide) (by decide)

end OpenPulse.FrameFlips
