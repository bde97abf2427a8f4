import Mathlib.Data.List.MinMax
import Mathlib.Tactic.Ring
import OpenPulse.BitPacking
import OpenPulse.Convolutional
import OpenPulse.Engine
import OpenPulse.Trellis

/-! The convolutional codec of constraint length three with its hard decisions:
`openpulse-core/src/conv.rs`. Path metrics are the `u32` values of the source. -/
namespace OpenPulse.Conv
open ByteCodec BitPacking Convolutional Trellis Engine

def tailBits : Nat := 2

def generators : Generators 2 := ⟨0b111,0b101⟩

def encode (data : Bytes) : Bytes :=
  let src := be 4 data.length ++ data
  pack .mostSignificant (encodeBits generators 0 (unpack .mostSignificant src ++ List.replicate tailBits false))

def u32Max : Nat := 4294967295

def states : List (BitVec 2) := (List.range 4).map (BitVec.ofNat 2)

def branchOrder : List (BitVec 2 × Bool) :=
  states.flatMap fun nextState => [false,true].flatMap fun bit =>
    (states.filter (fun prevState => shift prevState bit == nextState)).map (fun prevState => (prevState,bit))

def hamming (a b : Bool) : Nat := (a ^^ b).toNat

def machine : Machine (BitVec 2) Bool (Bool × Bool) Nat where
  next := shift
  extend c r s b :=
    let branch := hamming (symbol generators s b).1 r.1 + hamming (symbol generators s b).2 r.2
    min (c + branch) u32Max
  worst := u32Max / 2
  states := states
  branches := branchOrder

/- `min_by_key` takes the first state of least metric. -/
def bestState (metrics : BitVec 2 → Nat) : BitVec 2 := (states.argmin metrics).getD 0

def bitsToU32 (bits : List Bool) : Nat := bits.foldl (fun acc b => acc * 2 + b.toNat) 0

def decode (data : Bytes) : Except ModemError Bytes :=
  if data.length < 4 then .error (.fec "too short")
  else
    let received := pairs (unpack .mostSignificant data)
    let start := machine.startAt 0 0
    let best := bestState (machine.metricAt (machine.after (0,false) received start))
    let decoded := (machine.traceback (0,false) (machine.forward (0,false) received start) best).1
    let dataBits := decoded.take (decoded.length - tailBits)
    if dataBits.length < 32 then .error (.fec "decoded stream too short for prefix")
    else
      let origLen := bitsToU32 (dataBits.take 32)
      if 32 + origLen * 8 ≤ dataBits.length then
        .ok (pack .mostSignificant ((dataBits.take (32 + origLen * 8)).drop 32))
      else .error (.fec s!"decoded stream has {dataBits.length} bits, need {32 + origLen * 8}")

theorem branchesAll (s : BitVec 2) (b : Bool) : (s,b) ∈ branchOrder := by
  have all : ∀ (s : BitVec 2) (b : Bool), (s,b) ∈ branchOrder := by decide
  exact all s b

theorem machineOrdered : Ordered machine := by
  refine ⟨by decide,branchesAll,fun c d r s i le => ?_,fun c r s i dead => ?_⟩
  · exact min_le_min_right u32Max (Nat.add_le_add_right le _)
  · change u32Max / 2 ≤ c at dead
    exact le_min (Nat.le_trans dead (Nat.le_add_right _ _)) (by decide)

theorem totalDistance {c : Nat} (small : c ≤ u32Max) (s : BitVec 2) {rs : List (Bool × Bool)} {is : List Bool}
    (same : is.length = rs.length) :
    machine.total c s rs is = min (c + distance (encodeBits generators s is) (flat rs)) u32Max := by
  induction rs generalizing c s is with
  | nil =>
    rw [List.eq_nil_of_length_eq_zero same]
    exact (Nat.min_eq_left small).symm
  | cons r rs ih =>
    cases is with
    | nil => cases same
    | cons b is =>
      have rest := ih (c := machine.extend c r s b) (Nat.min_le_right _ _) (shift s b) (Nat.succ.inj same)
      have step : machine.extend c r s b = min (c + symbolDistance (symbol generators s b) r) u32Max := rfl
      rw [Machine.total, encodeDistance]
      refine rest.trans ?_
      rw [step]
      omega

structure Survivor (rs : List (Bool × Bool)) (s : BitVec 2) (is : List Bool) : Prop where
  length : is.length = rs.length
  arrives : walk 0 is = s
  cost : machine.metricAt (machine.after (0,false) rs (machine.startAt 0 0)) s = distance (encodeBits generators 0 is) (flat rs)

theorem survivor {rs : List (Bool × Bool)} {s : BitVec 2}
    (alive : machine.metricAt (machine.after (0,false) rs (machine.startAt 0 0)) s < u32Max / 2) :
    Survivor rs s (machine.traceback (0,false) (machine.forward (0,false) rs (machine.startAt 0 0)) s).1 := by
  obtain ⟨length,arrives,cost⟩ := tracedStart machineOrdered (0,false) rs 0 0 alive
  rw [totalDistance (Nat.zero_le _) 0 length, Nat.zero_add] at cost
  refine ⟨length,arrives,?_⟩
  unfold u32Max at alive cost
  omega

theorem metricLe {rs : List (Bool × Bool)} {is : List Bool} (same : is.length = rs.length) :
    machine.metricAt (machine.after (0,false) rs (machine.startAt 0 0)) (walk 0 is) ≤
      distance (encodeBits generators 0 is) (flat rs) := by
  have best := bestStart machineOrdered (0,false) same 0 0
  rw [totalDistance (Nat.zero_le _) 0 same, Nat.zero_add] at best
  exact Nat.le_trans best (Nat.min_le_left _ _)

theorem bestLe (metrics : BitVec 2 → Nat) : metrics (bestState metrics) ≤ metrics 0 ∧
    (metrics (bestState metrics) = metrics 0 → bestState metrics = 0) := by
  unfold bestState
  cases found : states.argmin metrics with
  | none => exact ⟨Nat.le_refl _,fun _ => rfl⟩
  | some s =>
    have zero : (0 : BitVec 2) ∈ states := by decide
    have member : s ∈ states.argmin metrics := found
    refine ⟨List.le_of_mem_argmin zero member,fun tie => ?_⟩
    have first := List.index_of_argmin member zero (Nat.le_of_eq tie.symm)
    have head : states.idxOf (0 : BitVec 2) = 0 := by decide
    have inside : states.idxOf s < states.length := List.idxOf_lt_length_of_mem (List.argmin_mem member)
    rw [head] at first
    have here := List.getElem_idxOf inside
    simp only [Nat.le_zero.mp first] at here
    exact here.symm

def height (s : BitVec 2) : Nat := [0,2,3,3].getD s.toNat 0

theorem heightPotential : Potential generators height := by
  refine ⟨by decide,?_⟩
  have all : ∀ (s : BitVec 2) (b : Bool), height s ≤ symbolWeight (symbol generators s b) + height (shift s b) := by decide
  exact all

theorem freeDistance : symbolWeight (symbol generators 0 true) + height (shift 0 true) = 5 := by decide

theorem openDistance : symbolWeight (symbol generators 0 true) + lightest generators 4 (shift 0 true) = 4 := by decide

/- The last byte of an encoded frame is half empty, and its zeros are what the
encoder puts out for two more zero inputs. -/
theorem paddedEncode (order : BitOrder) {n : Nat} (g : Generators n) {bits : List Bool} {m q tail : Nat}
    (whole : bits.length = 8 * m) (half : tail = 4 * q + 2) (long : n ≤ tail) :
    unpack order (pack order (encodeBits g 0 (bits ++ List.replicate tail false))) =
      encodeBits g 0 (bits ++ List.replicate (tail + 2) false) := by
  have length : (encodeBits g 0 (bits ++ List.replicate tail false)).length = 2 * (8 * m + (4 * q + 2)) := by
    rw [encodeLength, List.length_append, List.length_replicate, whole, half]
  have flushed : walk 0 (bits ++ List.replicate tail false) = (0 : BitVec n) := by
    rw [walkAppend, walkFlushed _ long]
  rw [unpackPack, length, show 8 * ((2 * (8 * m + (4 * q + 2)) + 7) / 8) - 2 * (8 * m + (4 * q + 2)) = 2 * 2 by omega,
    List.replicate_add, ← List.append_assoc bits, encodeAppend g 0 (bits ++ List.replicate tail false), flushed, encodeQuiet]

theorem bitsAcc (bits : List Bool) (acc : Nat) :
    bits.foldl (fun acc b => acc * 2 + b.toNat) acc = acc * 2 ^ bits.length + bitsToU32 bits := by
  unfold bitsToU32
  induction bits generalizing acc with
  | nil => simp
  | cons b bits ih =>
    rw [List.foldl_cons, List.foldl_cons, ih, ih (0 * 2 + b.toNat), List.length_cons, Nat.pow_succ]
    ring

theorem byteValue (b : UInt8) : bitsToU32 ((List.range 8).map (bitAt .mostSignificant b)) = b.toNat := by
  have all : ∀ n : Fin 256, bitsToU32 ((List.range 8).map (bitAt .mostSignificant (UInt8.ofFin n))) = n.val := by decide +kernel
  exact all b.toFin

theorem bitsValue (raw : Bytes) : bitsToU32 (unpack .mostSignificant raw) = readBe raw := by
  have fold : ∀ acc, (unpack .mostSignificant raw).foldl (fun acc b => acc * 2 + b.toNat) acc =
      raw.foldl (fun n b => n * 256 + b.toNat) acc := by
    induction raw with
    | nil => exact fun _ => rfl
    | cons b raw ih =>
      intro acc
      rw [unpackCons, List.foldl_append, ih, bitsAcc, byteValue, List.length_map, List.length_range, show 2 ^ 8 = 256 from rfl,
        List.foldl_cons]
  exact fold 0

structure Framed (order : BitOrder) (data : Bytes) (bits : List Bool) : Prop where
  long : 32 + data.length * 8 ≤ bits.length
  head : bits.take 32 = unpack order (be 4 data.length)
  body : (bits.take (32 + data.length * 8)).drop 32 = unpack order data

theorem framedOf {order : BitOrder} {data : Bytes} {bits : List Bool}
    (same : bits.take (32 + data.length * 8) = unpack order (be 4 data.length ++ data))
    (long : 32 + data.length * 8 ≤ bits.length) : Framed order data bits := by
  have header : (unpack order (be 4 data.length)).length = 32 := by rw [unpackLength, beLength]
  refine ⟨long,?_,?_⟩
  · have shorter : bits.take 32 = (bits.take (32 + data.length * 8)).take 32 := by
      rw [List.take_take, Nat.min_eq_left (Nat.le_add_right _ _)]
    rw [shorter, same, unpackAppend, List.take_left' header]
  · rw [same, unpackAppend, List.drop_left' header]

def sent (data : Bytes) : List Bool :=
  unpack .mostSignificant (be 4 data.length ++ data) ++ List.replicate (tailBits + 2) false

theorem sentBits (data : Bytes) : unpack .mostSignificant (encode data) = encodeBits generators 0 (sent data) := by
  have whole : (unpack .mostSignificant (be 4 data.length ++ data)).length = 8 * (4 + data.length) := by
    rw [unpackLength, List.length_append, beLength]
  exact paddedEncode .mostSignificant generators whole (q := 0) rfl (Nat.le_refl 2)

theorem sentLength (data : Bytes) : (sent data).length = 8 * (4 + data.length) + 4 := by
  rw [sent, List.length_append, unpackLength, List.length_append, beLength, List.length_replicate]
  rfl

theorem sentEnds (data : Bytes) : walk 0 (sent data) = (0 : BitVec 2) := by
  rw [sent, walkAppend, walkFlushed _ (by decide)]

theorem sentStart (data : Bytes) (k : Nat) (short : k = 8 * (4 + data.length)) :
    (sent data).take k = unpack .mostSignificant (be 4 data.length ++ data) := by
  refine List.take_left' ?_
  rw [unpackLength, List.length_append, beLength, short]

/- The survivor of the best state differs from the sent word in at most four
bits, and in at most three when another state than the zero state is best. Its
inputs leave those of the sender only in the tail. -/
theorem survivorAgrees (data : Bytes) {rs : List (Bool × Bool)} (count : rs.length = (sent data).length)
    (near : distance (flat rs) (encodeBits generators 0 (sent data)) ≤ 2) :
    let metrics := machine.metricAt (machine.after (0,false) rs (machine.startAt 0 0))
    let decoded := (machine.traceback (0,false) (machine.forward (0,false) rs (machine.startAt 0 0)) (bestState metrics)).1
    decoded.length = (sent data).length ∧
      decoded.take (8 * (4 + data.length)) = (sent data).take (8 * (4 + data.length)) := by
  intro metrics decoded
  have home : metrics 0 ≤ distance (flat rs) (encodeBits generators 0 (sent data)) := by
    have le := metricLe count.symm
    rwa [sentEnds, distanceSymm] at le
  obtain ⟨best,tie⟩ := bestLe metrics
  have alive : metrics (bestState metrics) < u32Max / 2 := by
    unfold u32Max
    omega
  obtain ⟨length,arrives,paid⟩ := survivor alive
  have cost : metrics (bestState metrics) = distance (encodeBits generators 0 decoded) (flat rs) := paid
  have same : decoded.length = (sent data).length := length.trans count
  have close := distanceTriangle (encodeBits generators 0 decoded) (flat rs)
    (encodeBits generators 0 (sent data)) (by rw [encodeLength, flatLength, length]) (by rw [encodeLength, flatLength, count])
  refine ⟨same,?_⟩
  by_cases zero : bestState metrics = 0
  · have meets : walk 0 decoded = (walk 0 (sent data) : BitVec 2) := by
      rw [sentEnds]
      exact arrives.trans zero
    rw [closedSame heightPotential same meets (by rw [freeDistance]; omega)]
  · have apart : metrics (bestState metrics) ≠ metrics 0 := fun equal => zero (tie equal)
    refine openSame (k := 4) same ?_ (by rw [openDistance]; omega)
    rw [same, sentLength]

theorem convCorrects (data : Bytes) (small : data.length < 2 ^ 28) (received : Bytes)
    (same : received.length = (encode data).length)
    (near : distance (unpack .mostSignificant received) (unpack .mostSignificant (encode data)) ≤ 2) :
    decode received = .ok data := by
  have total := sentLength data
  have bits : (unpack .mostSignificant received).length = 2 * (sent data).length := by
    rw [unpackLength, same, ← unpackLength .mostSignificant (encode data), sentBits, encodeLength]
  have flatten := flatPairs bits
  have count : (pairs (unpack .mostSignificant received)).length = (sent data).length := by
    have length := flatLength (pairs (unpack .mostSignificant received))
    rw [flatten, bits] at length
    omega
  have long : ¬ received.length < 4 := by
    rw [unpackLength] at bits
    omega
  rw [sentBits, ← flatten] at near
  obtain ⟨length,agrees⟩ := survivorAgrees data count near
  unfold decode
  rw [if_neg long]
  dsimp only at length agrees ⊢
  generalize (machine.traceback (0,false) (machine.forward (0,false) (pairs (unpack .mostSignificant received))
    (machine.startAt 0 0)) (bestState (machine.metricAt (machine.after (0,false) (pairs (unpack .mostSignificant received))
    (machine.startAt 0 0))))).1 = decoded at length agrees ⊢
  have cut : (decoded.take (decoded.length - tailBits)).length = 8 * (4 + data.length) + 2 := by
    rw [List.length_take, length, total]
    unfold tailBits
    omega
  have framed : Framed .mostSignificant data (decoded.take (decoded.length - tailBits)) := by
    refine framedOf ?_ (by omega)
    rw [List.take_take, Nat.min_eq_left (by unfold tailBits; omega), show 32 + data.length * 8 = 8 * (4 + data.length) by omega,
      agrees, sentStart data _ rfl]
  have origin : bitsToU32 (unpack .mostSignificant (be 4 data.length)) = data.length := by
    rw [bitsValue, readBeBounded (Nat.lt_trans small (by decide))]
  rw [if_neg (by omega), framed.head, origin, if_pos framed.long, framed.body, packUnpack]

theorem convCorrectsByte : decode [0x80,0,0,0,0,0,0,0x03,0x88,0x88,0xB1] = .ok [0x55] :=
  convCorrects [0x55] (by decide) [0x80,0,0,0,0,0,0,0x03,0x88,0x88,0xB1] (by decide +kernel) (by decide +kernel)

end OpenPulse.Conv
