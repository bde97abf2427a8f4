import OpenPulse.BitPacking
import OpenPulse.Engine

/-! Descrambling of soft decisions: `descramble_llrs` of `openpulse-core/src/scramble.rs`
and `hard_decide` of `fec.rs`. A single precision number is its 32 bits here: its sign and
its negation are the top bit, for zeros and for what is not a number as for any other. -/
namespace OpenPulse.Scramble
open ByteCodec BitPacking Engine

structure F32 where
  bits : UInt32
  deriving DecidableEq, Repr

def F32.isSignNegative (x : F32) : Bool := x.bits >>> 31 == 1

def F32.neg (x : F32) : F32 := ⟨x.bits ^^^ 0x80000000⟩

def keyBit (ks : Bytes) (i : Nat) : Bool := (ks.getD (i / 8) 0 >>> (i % 8).toUInt8) &&& 1 == 1

def descrambleLlrs (llrs : List F32) : List F32 :=
  let ks := keystream ((llrs.length + 7) / 8) scrambleSeed
  llrs.mapIdx fun i l => if keyBit ks i then l.neg else l

def hardByte (chunk : List F32) : UInt8 :=
  chunk.zipIdx.foldl (fun acc t => acc ||| t.1.isSignNegative.toUInt8 <<< t.2.toUInt8) 0

def hardDecide (llrs : List F32) : Bytes :=
  (List.range ((llrs.length + 7) / 8)).map fun j => hardByte ((llrs.drop (8 * j)).take 8)

theorem keystreamLength (n : Nat) (state : UInt16) : (keystream n state).length = n := by
  induction n generalizing state with
  | zero => rfl
  | succ n ih => rw [keystream, List.length_cons, ih]

theorem shiftedBit (b : UInt8) {k : Nat} (inside : k < 8) : ((b >>> k.toUInt8) &&& 1 == 1) = bitAt .leastSignificant b k := by
  have shift : k.toUInt8.toNat % 8 = k := by
    rw [Nat.toUInt8, UInt8.toNat_ofNat']
    omega
  have low : ((b >>> k.toUInt8) &&& 1).toNat = b.toNat >>> k % 2 := by
    rw [UInt8.toNat_and, UInt8.toNat_shiftRight, shift]
    exact Nat.and_one_is_mod _
  rw [bitAt, BitOrder.place, Nat.testBit_eq_decide_div_mod_eq, ← Nat.shiftRight_eq_div_pow, Bool.eq_iff_iff, beq_iff_eq,
    decide_eq_true_iff, ← UInt8.toNat_inj, low]
  rfl

theorem keyBitUnpacked {ks : Bytes} {i : Nat} (inside : i < 8 * ks.length) :
    (unpack .leastSignificant ks)[i]? = some (keyBit ks i) := by
  have byte : i / 8 < ks.length := by omega
  rw [unpackGet, List.getElem?_eq_getElem byte, Option.map_some, keyBit, List.getD_eq_getElem?_getD,
    List.getElem?_eq_getElem byte, Option.getD_some, shiftedBit _ (Nat.mod_lt i (by decide))]

def signs (llrs : List F32) : List Bool := llrs.map F32.isSignNegative

theorem signNeg (x : F32) : x.neg.isSignNegative = !x.isSignNegative := by
  have top : ∀ y : UInt32, (y >>> 31 == 1) = y.toNat.testBit 31 := fun y => by
    have small := y.toNat_lt
    rw [Nat.testBit_eq_decide_div_mod_eq, Bool.eq_iff_iff, beq_iff_eq, decide_eq_true_iff, ← UInt32.toNat_inj, UInt32.toNat_shiftRight]
    show y.toNat >>> 31 = 1 ↔ _
    rw [Nat.shiftRight_eq_div_pow]
    omega
  rw [F32.isSignNegative, F32.isSignNegative, F32.neg, top, top, UInt32.toNat_xor, Nat.testBit_xor]
  exact Bool.xor_true _

theorem hardByteWhole {chunk : List F32} (whole : chunk.length = 8) :
    hardByte chunk = ofBits .leastSignificant fun k => (signs chunk).getD k false := by
  have numbered : chunk.zipIdx = (List.range 8).map fun k => (chunk.getD k ⟨0⟩,k) := by
    refine List.ext_getElem? fun k => ?_
    rw [List.getElem?_zipIdx, List.getElem?_map]
    by_cases inside : k < 8
    · rw [List.getElem?_range inside, List.getElem?_eq_getElem (by omega), Option.map_some, Option.map_some,
        List.getD_eq_getElem?_getD, List.getElem?_eq_getElem (by omega), Option.getD_some, Nat.zero_add]
    · rw [List.getElem?_eq_none (by omega), List.getElem?_eq_none (by simpa using inside), Option.map_none, Option.map_none]
  rw [hardByte, numbered, List.foldl_map, ofBits]
  refine List.foldl_ext _ _ _ fun acc k member => ?_
  have inside : k < chunk.length := by
    rw [whole]
    exact List.mem_range.mp member
  rw [signs, List.getD_eq_getElem?_getD, List.getD_eq_getElem?_getD, List.getElem?_map, List.getElem?_eq_getElem inside,
    Option.map_some, Option.getD_some, Option.getD_some]
  rfl

theorem hardPacked {llrs : List F32} (whole : llrs.length % 8 = 0) : hardDecide llrs = pack .leastSignificant (signs llrs) := by
  have count : (signs llrs).length = llrs.length := List.length_map _
  rw [hardDecide, pack, count]
  refine List.map_congr_left fun j member => ?_
  have room : 8 * j + 8 ≤ llrs.length := by
    have below := List.mem_range.mp member
    omega
  rw [hardByteWhole (by rw [List.length_take, List.length_drop]; omega)]
  refine bitsExt .leastSignificant fun k inside => ?_
  rw [bitAtOfBits _ _ inside, bitAtOfBits _ _ inside, signs, signs, List.map_take, List.map_drop, List.getD_eq_getElem?_getD,
    List.getD_eq_getElem?_getD, List.getElem?_take_of_lt inside, List.getElem?_drop]

theorem descrambledSigns (llrs : List F32) :
    signs (descrambleLlrs llrs) = (signs llrs).zipWith xor (unpack .leastSignificant (keystream ((llrs.length + 7) / 8) scrambleSeed)) := by
  refine List.ext_getElem? fun i => ?_
  rw [signs, signs, descrambleLlrs, List.getElem?_map, List.getElem?_mapIdx, List.getElem?_zipWith, List.getElem?_map]
  by_cases inside : i < llrs.length
  · rw [List.getElem?_eq_getElem inside, keyBitUnpacked (by rw [keystreamLength]; omega)]
    refine congrArg some ?_
    cases keyBit (keystream ((llrs.length + 7) / 8) scrambleSeed) i with
    | true => exact (signNeg _).trans (Bool.xor_true _).symm
    | false => exact (Bool.xor_false _).symm
  · rw [List.getElem?_eq_none (Nat.not_lt.mp inside)]
    rfl

theorem hardDecideLength (llrs : List F32) : (hardDecide llrs).length = (llrs.length + 7) / 8 := by
  rw [hardDecide, List.length_map, List.length_range]

theorem hardDescrambled {llrs : List F32} (whole : llrs.length % 8 = 0) :
    hardDecide (descrambleLlrs llrs) = scrambled (hardDecide llrs) := by
  have kept : (descrambleLlrs llrs).length = llrs.length := List.length_mapIdx
  have bits : ∀ l : List F32, l.length % 8 = 0 → unpack .leastSignificant (hardDecide l) = signs l := fun l full => by
    rw [hardPacked full, unpackPackWhole _ _ (l.length / 8)]
    rw [signs, List.length_map]
    omega
  refine unpackInj .leastSignificant ?_
  rw [bits _ (by rw [kept]; exact whole), descrambledSigns, scrambled, unpackXor, bits _ whole, hardDecideLength]

theorem scrambledLength (data : Bytes) : (scrambled data).length = data.length := by
  rw [scrambled, List.length_zipWith, keystreamLength, Nat.min_self]

theorem scrambledGet {data : Bytes} {i : Nat} (inside : i < data.length) :
    (scrambled data)[i]? = some (data[i] ^^^ (keystream data.length scrambleSeed).getD i 0) := by
  have key : i < (keystream data.length scrambleSeed).length := by rwa [keystreamLength]
  rw [scrambled, List.getElem?_zipWith, List.getElem?_eq_getElem inside, List.getElem?_eq_getElem key, List.getD_eq_getElem?_getD,
    List.getElem?_eq_getElem key, Option.getD_some]

theorem scrambledTwice (data : Bytes) : scrambled (scrambled data) = data := by
  refine List.ext_getElem? fun i => ?_
  by_cases inside : i < data.length
  · have once : i < (scrambled data).length := by rwa [scrambledLength]
    have byte : (scrambled data)[i] = data[i] ^^^ (keystream data.length scrambleSeed).getD i 0 :=
      Option.some.inj ((List.getElem?_eq_getElem once).symm.trans (scrambledGet inside))
    rw [scrambledGet once, byte, scrambledLength, UInt8.xor_assoc, UInt8.xor_self, UInt8.xor_zero, List.getElem?_eq_getElem inside]
  · have beyond := Nat.not_lt.mp inside
    rw [List.getElem?_eq_none (by rwa [scrambledLength, scrambledLength]), List.getElem?_eq_none beyond]

theorem scrambledApart {a b : Bytes} (same : a.length = b.length) :
    (scrambled a).zipWith (· ^^^ ·) (scrambled b) = a.zipWith (· ^^^ ·) b := by
  refine List.ext_getElem? fun i => ?_
  rw [List.getElem?_zipWith, List.getElem?_zipWith]
  by_cases inside : i < a.length
  · have inside' : i < b.length := same ▸ inside
    rw [scrambledGet inside, scrambledGet inside', List.getElem?_eq_getElem inside, List.getElem?_eq_getElem inside', same]
    refine congrArg some ?_
    show (a[i] ^^^ _) ^^^ (b[i] ^^^ _) = a[i] ^^^ b[i]
    rw [UInt8.xor_comm b[i], UInt8.xor_assoc, ← UInt8.xor_assoc _ _ b[i], UInt8.xor_self, UInt8.zero_xor]
  · have beyond := Nat.not_lt.mp inside
    rw [List.getElem?_eq_none (by rwa [scrambledLength]), List.getElem?_eq_none beyond]

theorem descramblingAgrees :
    (∀ llrs : List F32, llrs.length % 8 = 0 → hardDecide (descrambleLlrs llrs) = scrambled (hardDecide llrs)) ∧
    (∀ data : Bytes, scrambled (scrambled data) = data) ∧
    ∀ a b : Bytes, a.length = b.length → (scrambled a).zipWith (· ^^^ ·) (scrambled b) = a.zipWith (· ^^^ ·) b :=
  ⟨fun _ whole => hardDescrambled whole,scrambledTwice,fun _ _ same => scrambledApart same⟩

def sampleLlrs : List F32 :=
  [⟨0x3F800000⟩,⟨0xBF800000⟩,⟨0⟩,⟨0x80000000⟩,⟨0x7F800000⟩,⟨0xFFC00000⟩,⟨0x7FC00000⟩,⟨0x80000001⟩]

theorem descramblingAgreesSample : hardDecide (descrambleLlrs sampleLlrs) = scrambled (hardDecide sampleLlrs) ∧
    (scrambled [1,2]).zipWith (· ^^^ ·) (scrambled [255,0]) = [254,2] :=
  ⟨descramblingAgrees.1 sampleLlrs (by decide),descramblingAgrees.2.2 [1,2] [255,0] (by decide)⟩

end OpenPulse.Scramble
