import OpenPulse.BitPacking
import OpenPulse.Engine
import OpenPulse.Hex

/-! Frames read back, and what their CRC detects: `openpulse-core/src/frame.rs`. The check
register is linear in the exclusive or, and a register that runs over its own
two bytes ends at zero. -/
namespace OpenPulse.Engine
open ByteCodec BitPacking

def magic : Bytes := [0x4F,0x50,0x4C,0x53]
def version : UInt8 := 1

def hex06 (n : UInt16) : String := "0x" ++ String.ofList (Hex.padded 4 n.toNat)

/- The bytes the indices name are inside: the length is checked before each. -/
def Frame.decode (bytes : Bytes) : Except ModemError Frame :=
  if bytes.length < Frame.wireOverhead then .error (.frame "frame too short")
  else if bytes.take 4 ≠ magic then .error (.frame "invalid magic")
  else if bytes.getD 4 0 ≠ version then .error (.frame s!"unsupported version {bytes.getD 4 0}")
  else
    let sequence := (bytes.getD 5 0).toUInt16 <<< 8 ||| (bytes.getD 6 0).toUInt16
    let payloadLen := bytes.getD 7 0
    let bodyEnd := 8 + payloadLen.toNat
    if bytes.length < bodyEnd + 2 then .error (.frame "frame truncated")
    else
      let expectedCrc := crc16 (bytes.take bodyEnd)
      let actualCrc := (bytes.getD bodyEnd 0).toUInt16 <<< 8 ||| (bytes.getD (bodyEnd + 1) 0).toUInt16
      if expectedCrc ≠ actualCrc then
        .error (.frame ("CRC mismatch (expected " ++ hex06 expectedCrc ++ ", got " ++ hex06 actualCrc ++ ")"))
      else .ok {
        sequence
        payload := slice 8 payloadLen.toNat bytes
        small := by
          have bound := payloadLen.toNat_lt
          have cut := List.length_take_le payloadLen.toNat (bytes.drop 8)
          unfold slice
          omega }

def feed (r : UInt16) (data : Bytes) : UInt16 := data.foldl crcByte r

theorem crcFeed (data : Bytes) : crc16 data = feed 0xFFFF data := rfl

theorem feedCons (r : UInt16) (x : UInt8) (xs : Bytes) : feed r (x::xs) = feed (crcByte r x) xs := rfl

theorem feedAppend (r : UInt16) (xs ys : Bytes) : feed r (xs ++ ys) = feed (feed r xs) ys := List.foldl_append

theorem topBit (c : UInt16) : (c &&& 0x8000 ≠ 0) = (c.toBitVec.getLsbD 15 = true) := by
  have masked : (c &&& 0x8000).toBitVec = if c.toBitVec.getLsbD 15 then BitVec.twoPow 16 15 else 0 := by
    rw [UInt16.toBitVec_and]
    exact BitVec.and_twoPow c.toBitVec 15
  rw [ne_eq, ← UInt16.toBitVec_inj, masked]
  cases c.toBitVec.getLsbD 15 <;> simp

theorem shiftXor (a b k : UInt16) : (a ^^^ b) <<< k = a <<< k ^^^ b <<< k := by
  apply UInt16.toBitVec_inj.mp
  simp only [UInt16.toBitVec_shiftLeft, UInt16.toBitVec_xor]
  exact BitVec.shiftLeft_xor_distrib _ _ _

theorem xorSwap (a b c d : UInt16) : (a ^^^ b) ^^^ (c ^^^ d) = (a ^^^ c) ^^^ (b ^^^ d) := by ac_rfl

theorem crcBitForm (c : UInt16) : crcBit c = (c <<< 1) ^^^ (if c.toBitVec.getLsbD 15 then 0x1021 else 0) := by
  unfold crcBit
  simp only [topBit]
  cases c.toBitVec.getLsbD 15 <;> simp

theorem crcBitXor (a b : UInt16) : crcBit (a ^^^ b) = crcBit a ^^^ crcBit b := by
  rw [crcBitForm, crcBitForm a, crcBitForm b, shiftXor, xorSwap, UInt16.toBitVec_xor, BitVec.getLsbD_xor]
  cases a.toBitVec.getLsbD 15 <;> cases b.toBitVec.getLsbD 15 <;> simp

theorem crcBitZero {c : UInt16} (zero : crcBit c = 0) : c = 0 := by
  rw [crcBitForm] at zero
  have bits : ∀ i, ((c.toBitVec <<< 1) ^^^ (if c.toBitVec.getLsbD 15 then 0x1021 else 0 : UInt16).toBitVec).getLsbD i = false := by
    intro i
    have same := congrArg (fun r : UInt16 => r.toBitVec.getLsbD i) zero
    simpa [UInt16.toBitVec_shiftLeft] using same
  have top : c.toBitVec.getLsbD 15 = false := by
    have low := bits 0
    cases high : c.toBitVec.getLsbD 15 with
    | false => rfl
    | true => simp [high] at low
  apply UInt16.toBitVec_inj.mp
  refine BitVec.eq_of_getLsbD_eq (fun i bound => ?_)
  have shifted := bits (i + 1)
  rw [top] at shifted
  by_cases last : i = 15
  · subst last
    simpa using top
  · have inside : i + 1 < 16 := by omega
    rw [BitVec.getLsbD_eq_getElem bound]
    simpa [inside] using shifted

theorem crcBitsXor (n : Nat) (a b : UInt16) : crcBit^[n] (a ^^^ b) = crcBit^[n] a ^^^ crcBit^[n] b := by
  induction n generalizing a b with
  | zero => rfl
  | succ n ih => rw [Function.iterate_succ_apply, Function.iterate_succ_apply, Function.iterate_succ_apply, crcBitXor, ih]

theorem crcBitsZero {n : Nat} {c : UInt16} (zero : crcBit^[n] c = 0) : c = 0 := by
  induction n generalizing c with
  | zero => exact zero
  | succ n ih =>
    rw [Function.iterate_succ_apply] at zero
    exact crcBitZero (ih zero)

theorem crcByteXor (a b : UInt16) (x y : UInt8) : crcByte (a ^^^ b) (x ^^^ y) = crcByte a x ^^^ crcByte b y := by
  rw [crcByte, crcByte, crcByte, UInt8.toUInt16_xor, shiftXor, xorSwap, crcBitsXor]

def corrupted (data error : Bytes) : Bytes := data.zipWith (· ^^^ ·) error

theorem feedXor {xs ys : Bytes} (same : xs.length = ys.length) (a b : UInt16) :
    feed (a ^^^ b) (corrupted xs ys) = feed a xs ^^^ feed b ys := by
  induction xs generalizing ys a b with
  | nil =>
    have none : ys = [] := List.eq_nil_of_length_eq_zero same.symm
    rw [none]
    rfl
  | cons x xs ih =>
    cases ys with
    | nil => cases same
    | cons y ys =>
      have rest := ih (Nat.succ.inj same) (crcByte a x) (crcByte b y)
      rw [← crcByteXor] at rest
      exact rest

theorem feedZeros (n : Nat) {r : UInt16} (zero : feed r (List.replicate n 0) = 0) : r = 0 := by
  induction n generalizing r with
  | zero => exact zero
  | succ n ih =>
    have next : crcByte r 0 = 0 := ih zero
    rw [crcByte] at next
    simpa using crcBitsZero next

theorem feedQuiet (n : Nat) : feed 0 (List.replicate n 0) = 0 := by
  induction n with
  | zero => rfl
  | succ n ih => exact ih

theorem crcBitsLow (b : UInt8) : crcBit^[8] b.toUInt16 = b.toUInt16 <<< 8 := by
  have every : ∀ n : Fin 256, crcBit^[8] (UInt8.ofFin n).toUInt16 = (UInt8.ofFin n).toUInt16 <<< 8 := by decide +kernel
  exact every b.toFin

def word (hi lo : UInt8) : UInt16 := hi.toUInt16 <<< 8 ||| lo.toUInt16

theorem wordXor (hi lo : UInt8) : word hi lo = hi.toUInt16 <<< 8 ^^^ lo.toUInt16 := by
  apply UInt16.toBitVec_inj.mp
  refine BitVec.eq_of_getLsbD_eq (fun i bound => ?_)
  simp only [word, UInt16.toBitVec_or, UInt16.toBitVec_xor, UInt16.toBitVec_shiftLeft, UInt8.toBitVec_toUInt16,
    BitVec.getLsbD_or, BitVec.getLsbD_xor]
  by_cases low : i < 8
  · simp [low]
  · have empty : (lo.toBitVec.setWidth 16).getLsbD i = false := by
      simp [BitVec.getLsbD_of_ge lo.toBitVec i (by omega)]
    rw [empty, Bool.or_false, Bool.xor_false]

theorem feedOwn (hi lo : UInt8) : feed (word hi lo) [hi,lo] = 0 := by
  change crcByte (crcByte (word hi lo) hi) lo = 0
  have first : crcByte (word hi lo) hi = lo.toUInt16 <<< 8 := by
    rw [crcByte, wordXor, UInt16.xor_comm (hi.toUInt16 <<< 8), UInt16.xor_assoc, UInt16.xor_self, UInt16.xor_zero, crcBitsLow]
  rw [first, crcByte, UInt16.xor_self]
  exact feedQuiet 1

theorem feedCheck (r : UInt16) (hi lo : UInt8) : feed r [hi,lo] = 0 ↔ r = word hi lo := by
  constructor
  · intro zero
    have both := feedXor (show [hi,lo].length = [hi,lo].length from rfl) r (word hi lo)
    rw [zero, feedOwn] at both
    have quiet : feed (r ^^^ word hi lo) (List.replicate 2 0) = 0 := by
      simpa [corrupted] using both
    exact UInt16.xor_eq_zero_iff.mp (feedZeros 2 quiet)
  · rintro rfl
    exact feedOwn hi lo

def header (s1 s0 len : UInt8) : Bytes := magic ++ [version,s1,s0,len]

theorem wordOf (r : UInt16) : ∃ hi lo, r = word hi lo ∧ be 2 r.toNat = [hi,lo] := by
  have small := r.toNat_lt
  have same : r = word (r.toNat / 256).toUInt8 r.toNat.toUInt8 := by
    apply UInt16.toNat_inj.mp
    rw [word, wordValue]
    simp only [Nat.toUInt8_eq, UInt8.toNat_ofNat']
    omega
  exact ⟨_,_,same,rfl⟩

theorem encodeShape (f : Frame) : ∃ s1 s0 len c1 c0, f.sequence = word s1 s0 ∧ f.payload.length = len.toNat ∧
    crc16 (header s1 s0 len ++ f.payload) = word c1 c0 ∧ f.encode = header s1 s0 len ++ f.payload ++ [c1,c0] := by
  obtain ⟨s1,s0,sequence,wire⟩ := wordOf f.sequence
  obtain ⟨c1,c0,check,tail⟩ := wordOf (crc16 f.body)
  have small := f.small
  have length : f.payload.length = f.payload.length.toUInt8.toNat := by
    simp only [Nat.toUInt8_eq, UInt8.toNat_ofNat']
    omega
  have body : f.body = header s1 s0 f.payload.length.toUInt8 ++ f.payload := by
    rw [Frame.body, wire]
    rfl
  refine ⟨s1,s0,f.payload.length.toUInt8,c1,c0,sequence,length,by rw [← body, check],?_⟩
  rw [Frame.encode, tail, body]

structure Holds (s1 s0 len c1 c0 : UInt8) (payload raw : Bytes) : Prop where
  long : 8 + len.toNat + 2 ≤ raw.length
  magic : raw.take 4 = magic
  version : raw.getD 4 0 = version
  high : raw.getD 5 0 = s1
  low : raw.getD 6 0 = s0
  size : raw.getD 7 0 = len
  front : raw.take (8 + len.toNat) = header s1 s0 len ++ payload
  payload : slice 8 len.toNat raw = payload
  checkHigh : raw.getD (8 + len.toNat) 0 = c1
  checkLow : raw.getD (8 + len.toNat + 1) 0 = c0

theorem holdsOf {s1 s0 len c1 c0 : UInt8} {payload : Bytes} (fits : payload.length = len.toNat) (t : Bytes) :
    Holds s1 s0 len c1 c0 payload (header s1 s0 len ++ payload ++ (c1::c0::t)) := by
  have wide : (header s1 s0 len ++ payload).length = 8 + len.toNat := by
    rw [List.length_append, fits]
    rfl
  refine ⟨?_,rfl,rfl,rfl,rfl,rfl,List.take_left' wide,?_,?_,?_⟩
  · rw [List.length_append, wide, List.length_cons, List.length_cons]
    omega
  · rw [List.append_assoc]
    exact sliceAt (header s1 s0 len) payload _ rfl rfl fits
  · rw [List.getD_eq_getElem?_getD, List.getElem?_append_right (by omega), wide, Nat.sub_self]
    rfl
  · rw [List.getD_eq_getElem?_getD, List.getElem?_append_right (by omega), wide, Nat.add_sub_cancel_left]
    rfl

theorem decodeHolds {s1 s0 len c1 c0 : UInt8} {payload raw : Bytes} (holds : Holds s1 s0 len c1 c0 payload raw)
    (good : crc16 (header s1 s0 len ++ payload) = word c1 c0) (small : payload.length ≤ 255) :
    Frame.decode raw = .ok ⟨word s1 s0,payload,small⟩ := by
  have long := holds.long
  have enough : ¬ raw.length < Frame.wireOverhead := by
    unfold Frame.wireOverhead
    omega
  have whole : ¬ raw.length < 8 + len.toNat + 2 := Nat.not_lt.mpr long
  have checked : ¬ crc16 (header s1 s0 len ++ payload) ≠ c1.toUInt16 <<< 8 ||| c0.toUInt16 := not_not.mpr good
  simp only [Frame.decode, holds.magic, holds.version, holds.high, holds.low, holds.size, holds.front, holds.checkHigh,
    holds.checkLow, holds.payload, if_neg enough, if_neg whole, if_neg checked, ne_eq, not_true_eq_false, if_false]
  rfl

theorem decodeEncode (f : Frame) (t : Bytes) : Frame.decode (f.encode ++ t) = .ok f := by
  obtain ⟨s1,s0,len,c1,c0,sequence,fits,good,wire⟩ := encodeShape f
  have whole : f.encode ++ t = header s1 s0 len ++ f.payload ++ (c1::c0::t) := by
    rw [wire, List.append_assoc (header s1 s0 len ++ f.payload)]
    rfl
  rw [whole, decodeHolds (holdsOf fits t) good f.small, ← sequence]

theorem dropAt {raw : Bytes} {i : Nat} (inside : i < raw.length) : raw.drop i = raw.getD i 0 :: raw.drop (i + 1) := by
  rw [List.getD_eq_getElem?_getD, List.getElem?_eq_getElem inside, Option.getD_some]
  exact List.drop_eq_getElem_cons inside

theorem decodeShape {raw : Bytes} {f : Frame} (decoded : Frame.decode raw = .ok f) :
    ∃ s1 s0 len c1 c0 t, raw = header s1 s0 len ++ f.payload ++ (c1::c0::t) ∧ f.payload.length = len.toNat ∧
      f.sequence = word s1 s0 ∧ crc16 (header s1 s0 len ++ f.payload) = word c1 c0 := by
  unfold Frame.decode at decoded
  split at decoded
  · cases decoded
  rename_i enough
  split at decoded
  · cases decoded
  rename_i first
  split at decoded
  · cases decoded
  rename_i second
  dsimp only at decoded
  split at decoded
  · cases decoded
  rename_i long
  split at decoded
  · cases decoded
  rename_i checked
  cases decoded
  unfold Frame.wireOverhead at enough
  dsimp only
  generalize length : raw.getD 7 0 = len at long checked ⊢
  have front : raw = header (raw.getD 5 0) (raw.getD 6 0) len ++ raw.drop 8 := by
    conv_lhs => rw [← List.take_append_drop 4 raw, not_not.mp first, dropAt (by omega), dropAt (by omega),
      dropAt (by omega), dropAt (by omega), not_not.mp second, length]
    rfl
  have rest : raw.drop 8 = slice 8 len.toNat raw ++ raw.drop (8 + len.toNat) := by
    rw [slice, ← List.drop_drop, List.take_append_drop]
  have tail : raw.drop (8 + len.toNat) =
      raw.getD (8 + len.toNat) 0 :: raw.getD (8 + len.toNat + 1) 0 :: raw.drop (8 + len.toNat + 2) := by
    rw [dropAt (by omega), dropAt (by omega)]
  have fits : (slice 8 len.toNat raw).length = len.toNat := by
    rw [slice, List.length_take, List.length_drop]
    omega
  have whole : raw = header (raw.getD 5 0) (raw.getD 6 0) len ++ slice 8 len.toNat raw ++
      (raw.getD (8 + len.toNat) 0 :: raw.getD (8 + len.toNat + 1) 0 :: raw.drop (8 + len.toNat + 2)) := by
    rw [List.append_assoc, ← tail, ← rest]
    exact front
  have body : raw.take (8 + len.toNat) = header (raw.getD 5 0) (raw.getD 6 0) len ++ slice 8 len.toNat raw := by
    conv_lhs => rw [whole]
    refine List.take_left' ?_
    rw [List.length_append, fits]
    rfl
  rw [body] at checked
  exact ⟨_,_,len,_,_,_,whole,fits,rfl,not_not.mp checked⟩

theorem wordInj {a b c d : UInt8} (same : word a b = word c d) : a = c ∧ b = d := by
  have bytes := congrArg (fun r : UInt16 => be 2 r.toNat) same
  simp only [word, wordBytes] at bytes
  exact ⟨(List.cons.inj bytes).1,(List.cons.inj (List.cons.inj bytes).2).1⟩

theorem decodePrefix {raw : Bytes} {f : Frame} (decoded : Frame.decode raw = .ok f) : f.encode <+: raw := by
  obtain ⟨s1,s0,len,c1,c0,t,whole,fits,sequence,good⟩ := decodeShape decoded
  obtain ⟨s1',s0',len',c1',c0',sequence',fits',good',wire⟩ := encodeShape f
  obtain ⟨rfl,rfl⟩ := wordInj (sequence.symm.trans sequence')
  have same : len = len' := UInt8.toNat_inj.mp (fits.symm.trans fits')
  subst same
  obtain ⟨rfl,rfl⟩ := wordInj (good.symm.trans good')
  refine ⟨t,?_⟩
  rw [wire, whole, List.append_assoc (header s1 s0 len ++ f.payload)]
  rfl

def errorBit (order : BitOrder) (error : Bytes) (p : Nat) : Bool := bitAt order (error.getD (p / 8) 0) (p % 8)

/-- An error that changes something, and nothing outside sixteen consecutive bits. -/
def Burst (order : BitOrder) (error : Bytes) : Prop :=
  (∃ p < 8 * error.length, errorBit order error p = true) ∧
    ∃ first, ∀ p < 8 * error.length, errorBit order error p = true → first ≤ p ∧ p < first + 16

theorem burstTable (order : BitOrder) (s : Fin 8) (b : Fin 256)
    (early : ∀ k < s.val, bitAt order (UInt8.ofFin b) k = false)
    (late : ∀ k < 8, s.val ≤ k → bitAt order (crcByte 0 (UInt8.ofFin b)).toUInt8 k = false) : b = 0 := by
  cases order with
  | mostSignificant => revert s b; decide +kernel
  | leastSignificant => revert s b; decide +kernel

theorem windowSeen {order : BitOrder} {s : Nat} (inside : s < 8) {b0 b1 b2 : UInt8}
    (early : ∀ k < s, bitAt order b0 k = false) (late : ∀ k < 8, s ≤ k → bitAt order b2 k = false)
    (zero : feed 0 [b0,b1,b2] = 0) : b0 = 0 ∧ b1 = 0 ∧ b2 = 0 := by
  rw [feedCons, feedCheck] at zero
  have check : crcByte 0 b0 = word b1 b2 := zero
  have low : (crcByte 0 b0).toUInt8 = b2 := by
    apply UInt8.toNat_inj.mp
    have small := b2.toNat_lt
    rw [check, UInt16.toNat_toUInt8, word, wordValue]
    omega
  have first : b0 = 0 := by
    obtain ⟨n,rfl⟩ : ∃ n, b0 = UInt8.ofFin n := ⟨b0.toFin,(UInt8.ofFin_toFin b0).symm⟩
    rw [← low] at late
    rw [burstTable order ⟨s,inside⟩ n early late]
    rfl
  have quiet : crcByte 0 0 = 0 := feedQuiet 1
  have empty : word 0 0 = 0 := by decide
  rw [first, quiet, ← empty] at check
  obtain ⟨second,third⟩ := wordInj check.symm
  exact ⟨first,second,third⟩

theorem byteQuiet (order : BitOrder) {error : Bytes} {j : Nat}
    (quiet : ∀ p, p / 8 = j → p < 8 * error.length → errorBit order error p = false) : error.getD j 0 = 0 := by
  by_cases inside : j < error.length
  · refine bitsZero order (fun k bound => ?_)
    have here := quiet (8 * j + k) (by omega) (by omega)
    rwa [errorBit, show (8 * j + k) / 8 = j by omega, show (8 * j + k) % 8 = k by omega] at here
  · rw [List.getD_eq_getElem?_getD, List.getElem?_eq_none (Nat.not_lt.mp inside), Option.getD_none]

theorem burstCut {error : Bytes} {i : Nat} (inside : i < error.length)
    (outside : ∀ j, j < i ∨ i + 2 < j → error.getD j 0 = 0) :
    error ++ [0,0] = List.replicate i 0 ++ [error.getD i 0,error.getD (i + 1) 0,error.getD (i + 2) 0] ++
      List.replicate (error.length - 1 - i) 0 := by
  have value : ∀ j < error.length + 2, (error ++ [0,0])[j]? = some (error.getD j 0) := by
    intro j bound
    by_cases known : j < error.length
    · rw [List.getElem?_append_left known, List.getD_eq_getElem?_getD, List.getElem?_eq_getElem known, Option.getD_some]
    · have beyond : error.length ≤ j := Nat.not_lt.mp known
      rw [List.getElem?_append_right beyond, List.getD_eq_getElem?_getD, List.getElem?_eq_none beyond, Option.getD_none]
      obtain first | second : j - error.length = 0 ∨ j - error.length = 1 := by omega
      · rw [first]
        rfl
      · rw [second]
        rfl
  refine List.ext_getElem? (fun j => ?_)
  by_cases bound : j < error.length + 2
  · rw [value j bound, List.append_assoc]
    by_cases before : j < i
    · rw [List.getElem?_append_left (by simpa using before), List.getElem?_replicate, if_pos before, outside j (.inl before)]
    · rw [List.getElem?_append_right (by simpa using before), List.length_replicate]
      by_cases within : j - i < 3
      · rw [List.getElem?_append_left within]
        obtain first | second | third : j = i ∨ j = i + 1 ∨ j = i + 2 := by omega
        · rw [first, Nat.sub_self]
          rfl
        · rw [second, Nat.add_sub_cancel_left]
          rfl
        · rw [third, Nat.add_sub_cancel_left]
          rfl
      · rw [List.getElem?_append_right (Nat.not_lt.mp within), List.getElem?_replicate, if_pos (by simp only [List.length_cons, List.length_nil]; omega),
          outside j (.inr (by omega))]
  · rw [List.getElem?_eq_none (by simpa using bound), List.getElem?_eq_none]
    simp only [List.length_append, List.length_replicate, List.length_cons, List.length_nil]
    omega

theorem burstSeen {order : BitOrder} {error : Bytes} (burst : Burst order error) : feed 0 error ≠ 0 := by
  intro zero
  obtain ⟨⟨p,inside,hit⟩,first,confined⟩ := burst
  have place := confined p inside hit
  let i := first / 8
  have start : i < error.length := by omega
  have quiet : ∀ q < 8 * error.length, ¬ (first ≤ q ∧ q < first + 16) → errorBit order error q = false := by
    intro q bound away
    by_contra some
    exact away (confined q bound (by simpa using some))
  have outside : ∀ j, j < i ∨ i + 2 < j → error.getD j 0 = 0 := by
    intro j away
    exact byteQuiet order (fun q here bound => quiet q bound (by omega))
  have cut := burstCut start outside
  have padded : feed 0 (error ++ [0,0]) = 0 := by
    rw [feedAppend, zero]
    exact feedQuiet 2
  rw [cut, feedAppend, feedAppend, feedQuiet] at padded
  have window := feedZeros _ padded
  have early : ∀ k < first % 8, bitAt order (error.getD i 0) k = false := by
    intro k bound
    have here := quiet (8 * i + k) (by omega) (by omega)
    rwa [errorBit, show (8 * i + k) / 8 = i by omega, show (8 * i + k) % 8 = k by omega] at here
  have late : ∀ k < 8, first % 8 ≤ k → bitAt order (error.getD (i + 2) 0) k = false := by
    intro k bound later
    by_cases known : i + 2 < error.length
    · have here := quiet (8 * (i + 2) + k) (by omega) (by omega)
      rwa [errorBit, show (8 * (i + 2) + k) / 8 = i + 2 by omega, show (8 * (i + 2) + k) % 8 = k by omega] at here
    · rw [List.getD_eq_getElem?_getD, List.getElem?_eq_none (Nat.not_lt.mp known), Option.getD_none]
      exact bitAtZero order k
  obtain ⟨none,second,third⟩ := windowSeen (Nat.mod_lt first (by decide)) early late window
  have still : error.getD (p / 8) 0 = 0 := by
    obtain away | here | here | here : (p / 8 < i ∨ i + 2 < p / 8) ∨ p / 8 = i ∨ p / 8 = i + 1 ∨ p / 8 = i + 2 := by omega
    · exact outside _ away
    · rw [here, none]
    · rw [here, second]
    · rw [here, third]
  rw [errorBit, still, bitAtZero] at hit
  cases hit

theorem encodeChecks (f : Frame) : feed 0xFFFF f.encode = 0 := by
  obtain ⟨s1,s0,len,c1,c0,-,-,good,wire⟩ := encodeShape f
  rw [wire, feedAppend]
  exact (feedCheck _ c1 c0).mpr good

/-- An error that the register does not end at zero on is refused, when the length byte is spared. -/
theorem seenRefused {f : Frame} {error : Bytes} (same : error.length = f.encode.length) (seen : feed 0 error ≠ 0)
    (spared : error.getD 7 0 = 0) : ∃ e, Frame.decode (corrupted f.encode error) = .error e := by
  cases answer : Frame.decode (corrupted f.encode error) with
  | error e => exact ⟨e,rfl⟩
  | ok g =>
    obtain ⟨s1,s0,len,c1,c0,t,whole,fits,-,good⟩ := decodeShape answer
    obtain ⟨s1',s0',len',c1',c0',-,fits',-,wire⟩ := encodeShape f
    have size : (corrupted f.encode error).length = f.encode.length := by
      rw [corrupted, List.length_zipWith, same, Nat.min_self]
    have length : len = len' := by
      have found : (corrupted f.encode error).getD 7 0 = f.encode.getD 7 0 := by
        have inside : 7 < f.encode.length := by
          rw [frameLength]
          unfold Frame.wireOverhead
          omega
        have here : error[7]? = some 0 := by
          rw [List.getD_eq_getElem?_getD, List.getElem?_eq_getElem (by omega), Option.getD_some] at spared
          rw [List.getElem?_eq_getElem (by omega), spared]
        rw [List.getD_eq_getElem?_getD, corrupted, List.getElem?_zipWith, here, List.getElem?_eq_getElem inside,
          List.getD_eq_getElem?_getD, List.getElem?_eq_getElem inside]
        simp
      rw [whole, wire] at found
      exact found
    subst length
    have none : t = [] := by
      rw [whole, frameLength] at size
      have head : (header s1 s0 len).length = 8 := rfl
      simp only [List.length_append, List.length_cons, head, fits, fits', Frame.wireOverhead] at size
      exact List.eq_nil_of_length_eq_zero (by omega)
    have checks := feedXor same.symm 0xFFFF 0
    rw [encodeChecks, UInt16.xor_zero, UInt16.zero_xor, whole, none, feedAppend] at checks
    exact absurd (checks.symm.trans ((feedCheck _ c1 c0).mpr good)) seen

theorem burstRefused {order : BitOrder} {f : Frame} {error : Bytes} (same : error.length = f.encode.length)
    (burst : Burst order error) (spared : error.getD 7 0 = 0) :
    ∃ e, Frame.decode (corrupted f.encode error) = .error e := seenRefused same (burstSeen burst) spared

theorem frameCodec :
    (∀ (f : Frame) (t : Bytes), Frame.decode (f.encode ++ t) = .ok f) ∧
    (∀ (raw : Bytes) (f : Frame), Frame.decode raw = .ok f → f.encode <+: raw) ∧
    ∀ (order : BitOrder) (f : Frame) (error : Bytes), error.length = f.encode.length → Burst order error →
      error.getD 7 0 = 0 → ∃ e, Frame.decode (corrupted f.encode error) = .error e :=
  ⟨decodeEncode,fun _ _ => decodePrefix,fun _ _ _ same burst spared => burstRefused same burst spared⟩

def threeBytes : Frame := ⟨7,[1,2,3],by decide⟩

theorem frameCodecBurst : threeBytes.encode <+: threeBytes.encode ++ [0xFF] ∧
    ∃ e, Frame.decode (corrupted threeBytes.encode (List.replicate 9 0 ++ [0x0F,0xFF,0x80,0])) = .error e := by
  refine ⟨frameCodec.2.1 _ _ (frameCodec.1 threeBytes [0xFF]),
    frameCodec.2.2 .mostSignificant threeBytes _ (by decide) ⟨⟨76,?_,?_⟩,76,?_⟩ rfl⟩
  · decide
  · decide
  · decide

end OpenPulse.Engine
