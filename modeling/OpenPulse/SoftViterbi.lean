import Mathlib.Algebra.Order.Monoid.Unbundled.WithTop
import Mathlib.Order.OrderDual
import OpenPulse.Conv

/-! The convolutional codec of constraint length seven with its soft decisions:
`openpulse-core/src/soft_viterbi.rs`. A log-likelihood ratio is an integer and a path
metric an integer or minus infinity, so that sums are exact. The larger metric
wins: the trellis compares them in the opposite order. -/
namespace OpenPulse.SoftViterbi
open ByteCodec BitPacking Convolutional Trellis Engine
open Conv (paddedEncode Framed framedOf)

def nStates : Nat := 64
def flush : Nat := 6

def generators : Generators 6 := ⟨0b1011011,0b1111001⟩

def encode (data : Bytes) : Bytes :=
  let src := be 4 data.length ++ data
  let bits := unpack .leastSignificant src
  pack .leastSignificant (encodeBits generators 0 (bits ++ List.replicate flush false))

abbrev Metric := OrderDual (WithBot Int)

def branchMetric (llr : Int) (encodedBit : Bool) : Int := if encodedBit then -llr else llr

def states : List (BitVec 6) := (List.range nStates).map (BitVec.ofNat 6)

/- States without a metric are skipped in the source: minus infinity is never the
larger candidate. -/
def machine : Machine (BitVec 6) Bool (Int × Int) Metric where
  next := shift
  extend c llr s input :=
    let bm := branchMetric llr.1 (symbol generators s input).1 + branchMetric llr.2 (symbol generators s input).2
    OrderDual.toDual (OrderDual.ofDual c + (bm : WithBot Int))
  worst := OrderDual.toDual ⊥
  states := states
  branches := states.flatMap fun s => [false,true].map fun input => (s,input)

def bitsBeToU32 (bits : List Bool) : Nat := readBe (pack .leastSignificant bits)

def decodeSoft (llrs : List Int) : Except ModemError Bytes :=
  let nPairs := llrs.length / 2
  if nPairs < 32 + flush then .error (.fec "LLR slice too short to contain a valid K=7 frame")
  else
    let tables := machine.forward (0,false) (pairs llrs) (machine.startAt 0 (OrderDual.toDual 0))
    let decoded := (machine.traceback (0,false) tables 0).1
    let dataBits := decoded.take (decoded.length - flush)
    if dataBits.length < 32 then .error (.fec "decoded bit stream too short to contain length prefix")
    else
      let origLen := bitsBeToU32 (dataBits.take 32)
      if 32 + origLen * 8 ≤ dataBits.length then
        .ok (pack .leastSignificant ((dataBits.take (32 + origLen * 8)).drop 32))
      else .error (.fec s!"decoded length prefix ({origLen}) exceeds available bits")

def llr (b : Bool) : Int := if b then -1 else 1

theorem machineOrdered : Ordered machine := by
  refine ⟨by decide,?_,fun c d r s i le => ?_,fun c r s i dead => ?_⟩
  · have all : ∀ (s : BitVec 6) (i : Bool), (s,i) ∈ machine.branches := by decide +kernel
    exact all
  · exact OrderDual.toDual_le_toDual.mpr (add_le_add_left (OrderDual.ofDual_le_ofDual.mpr le) _)
  · have none : OrderDual.ofDual c = ⊥ := le_bot_iff.mp (OrderDual.ofDual_le_ofDual.mpr dead)
    change OrderDual.toDual ⊥ ≤ OrderDual.toDual (OrderDual.ofDual c + _)
    rw [none, WithBot.bot_add]

theorem branchOfBit (b c : Bool) : branchMetric (llr b) c = 1 - 2 * ((c ^^ b).toNat : Int) := by
  cases b <;> cases c <;> rfl

theorem totalDistance (c : Int) (s : BitVec 6) {rs : List (Bool × Bool)} {is : List Bool} (same : is.length = rs.length) :
    machine.total (OrderDual.toDual (c : WithBot Int)) s (rs.map (Prod.map llr llr)) is =
      OrderDual.toDual ((c + 2 * rs.length - 2 * distance (encodeBits generators s is) (flat rs) : Int) : WithBot Int) := by
  induction rs generalizing c s is with
  | nil =>
    rw [List.eq_nil_of_length_eq_zero same]
    simp [Machine.total, distance, encodeBits, flat]
  | cons r rs ih =>
    cases is with
    | nil => cases same
    | cons b is =>
      let bm : Int := branchMetric (llr r.1) (symbol generators s b).1 + branchMetric (llr r.2) (symbol generators s b).2
      have step : machine.extend (OrderDual.toDual (c : WithBot Int)) (Prod.map llr llr r) s b =
          OrderDual.toDual ((c + bm : Int) : WithBot Int) := by
        rw [WithBot.coe_add]
        rfl
      have gain : bm = 2 - 2 * (symbolDistance (symbol generators s b) r : Int) := by
        simp only [bm, branchOfBit, symbolDistance, Nat.cast_add]
        omega
      have rest := ih (c + bm) (shift s b) (Nat.succ.inj same)
      rw [List.map_cons, Machine.total, step, encodeDistance]
      refine rest.trans ?_
      rw [gain, List.length_cons]
      congr 2
      push_cast
      omega

theorem survivorNearest {rs : List (Bool × Bool)} {js : List Bool} (count : js.length = rs.length)
    (home : walk 0 js = (0 : BitVec 6)) :
    let decoded := (machine.traceback (0,false) (machine.forward (0,false) (rs.map (Prod.map llr llr))
      (machine.startAt 0 (OrderDual.toDual 0))) 0).1
    decoded.length = rs.length ∧ walk 0 decoded = (0 : BitVec 6) ∧
      distance (encodeBits generators 0 decoded) (flat rs) ≤ distance (encodeBits generators 0 js) (flat rs) := by
  intro decoded
  have same : js.length = (rs.map (Prod.map llr llr)).length := by rw [List.length_map, count]
  have best := bestStart machineOrdered (0,false) same 0 (OrderDual.toDual (0 : WithBot Int))
  have sent := totalDistance 0 0 count
  rw [show ((0 : Int) : WithBot Int) = 0 from rfl] at sent
  have into : machine.walk 0 js = 0 := home
  rw [sent, into] at best
  have alive : machine.metricAt (machine.after (0,false) (rs.map (Prod.map llr llr))
      (machine.startAt 0 (OrderDual.toDual 0))) 0 < machine.worst :=
    lt_of_le_of_lt best (OrderDual.toDual_lt_toDual.mpr (WithBot.bot_lt_coe _))
  obtain ⟨length,arrives,cost⟩ := tracedStart machineOrdered (0,false) _ 0 (OrderDual.toDual 0) alive
  have count' : decoded.length = rs.length := by rw [length, List.length_map]
  have paid := totalDistance 0 0 count'
  rw [show ((0 : Int) : WithBot Int) = 0 from rfl] at paid
  refine ⟨count',arrives,?_⟩
  rw [← cost] at best
  have le := paid ▸ best
  have le := WithBot.coe_le_coe.mp (OrderDual.toDual_le_toDual.mp le)
  omega

def height (s : BitVec 6) : Nat :=
  [0,2,3,3,3,5,4,4,5,3,6,6,6,4,5,5,7,5,4,4,6,6,7,7,6,6,5,5,5,7,6,6,
    8,8,7,5,5,5,6,4,7,7,6,6,6,6,7,7,7,7,6,6,6,6,5,7,6,6,7,7,7,7,6,6].getD s.toNat 0

theorem heightPotential : Potential generators height := by
  refine ⟨by decide,?_⟩
  have all : ∀ (s : BitVec 6) (b : Bool), height s ≤ symbolWeight (symbol generators s b) + height (shift s b) := by
    decide +kernel
  exact all

theorem freeDistance : symbolWeight (symbol generators 0 true) + height (shift 0 true) = 10 := by decide

def sent (data : Bytes) : List Bool :=
  unpack .leastSignificant (be 4 data.length ++ data) ++ List.replicate (flush + 2) false

theorem sentBits (data : Bytes) : unpack .leastSignificant (encode data) = encodeBits generators 0 (sent data) := by
  have whole : (unpack .leastSignificant (be 4 data.length ++ data)).length = 8 * (4 + data.length) := by
    rw [unpackLength, List.length_append, beLength]
  exact paddedEncode .leastSignificant generators whole (q := 1) rfl (Nat.le_refl 6)

theorem sentLength (data : Bytes) : (sent data).length = 8 * (4 + data.length) + 8 := by
  rw [sent, List.length_append, unpackLength, List.length_append, beLength, List.length_replicate]
  rfl

theorem sentEnds (data : Bytes) : walk 0 (sent data) = (0 : BitVec 6) := by
  rw [sent, walkAppend, walkFlushed _ (by decide)]

theorem sentStart (data : Bytes) (k : Nat) (short : k = 8 * (4 + data.length)) :
    (sent data).take k = unpack .leastSignificant (be 4 data.length ++ data) := by
  refine List.take_left' ?_
  rw [unpackLength, List.length_append, beLength, short]

theorem nearestReads {data : Bytes} (small : data.length < 2 ^ 32) {received : List Bool}
    (same : received.length = (unpack .leastSignificant (encode data)).length)
    (near : distance received (unpack .leastSignificant (encode data)) ≤ 4) :
    decodeSoft (received.map llr) = .ok data := by
  have total := sentLength data
  rw [sentBits, encodeLength] at same
  have flatten := flatPairs same
  have count : (sent data).length = (pairs received).length := by
    have length := flatLength (pairs received)
    rw [flatten, same] at length
    omega
  rw [sentBits, ← flatten] at near
  obtain ⟨length,arrives,nearer⟩ := survivorNearest count (sentEnds data)
  rw [← pairsMap] at length arrives nearer
  unfold decodeSoft
  dsimp only
  generalize (machine.traceback (0,false) (machine.forward (0,false) (pairs (received.map llr))
    (machine.startAt 0 (OrderDual.toDual 0))) 0).1 = decoded at length arrives nearer ⊢
  have equal : decoded = sent data := by
    have close := distanceTriangle (encodeBits generators 0 decoded) (flat (pairs received))
      (encodeBits generators 0 (sent data)) (by rw [encodeLength, flatLength, length])
      (by rw [encodeLength, flatLength, count])
    rw [distanceSymm (encodeBits generators 0 (sent data))] at nearer
    refine closedSame heightPotential (length.trans count.symm) (arrives.trans (sentEnds data).symm) ?_
    rw [freeDistance]
    omega
  have enough : ¬ (received.map llr).length / 2 < 32 + flush := by
    rw [List.length_map, same, total]
    unfold flush
    omega
  have cut : (decoded.take (decoded.length - flush)).length = 8 * (4 + data.length) + 2 := by
    rw [List.length_take, equal, total]
    unfold flush
    omega
  have framed : Framed .leastSignificant data (decoded.take (decoded.length - flush)) := by
    refine framedOf ?_ (by omega)
    rw [equal, List.take_take, total, Nat.min_eq_left (by unfold flush; omega), sentStart data _ (by omega)]
  have origin : bitsBeToU32 (unpack .leastSignificant (be 4 data.length)) = data.length := by
    rw [bitsBeToU32, packUnpack, readBeBounded small]
  rw [if_neg enough, if_neg (by omega), framed.head, origin, if_pos framed.long, framed.body, packUnpack]

theorem softCorrects (data : Bytes) (small : data.length < 2 ^ 28) (received : List Bool)
    (same : received.length = (unpack .leastSignificant (encode data)).length)
    (near : distance received (unpack .leastSignificant (encode data)) ≤ 4) :
    decodeSoft (received.map llr) = .ok data := nearestReads (Nat.lt_trans small (by decide)) same near

theorem softCorrectsByte :
    decodeSoft ((unpack .leastSignificant [0x0F,0,0,0,0,0,251,52,75,48,120,3]).map llr) = .ok [0x55] :=
  softCorrects [0x55] (by decide) (unpack .leastSignificant [0x0F,0,0,0,0,0,251,52,75,48,120,3]) (by decide +kernel)
    (by decide +kernel)

theorem softBounded {llrs : List Int} {out : Bytes} (decoded : decodeSoft llrs = .ok out) : out.length < 2 ^ 32 := by
  unfold decodeSoft at decoded
  dsimp only at decoded
  split at decoded
  · cases decoded
  · split at decoded
    · cases decoded
    · split at decoded
      · cases decoded
        generalize (machine.traceback (0,false) (machine.forward (0,false) (pairs llrs) (machine.startAt 0 (OrderDual.toDual 0))) 0).1 = bits
        have origin := readBeLt (pack .leastSignificant ((bits.take (bits.length - flush)).take 32))
        have width : (pack .leastSignificant ((bits.take (bits.length - flush)).take 32)).length ≤ 4 := by
          rw [packLength, List.length_take]
          omega
        have below : bitsBeToU32 ((bits.take (bits.length - flush)).take 32) < 256 ^ 4 :=
          Nat.lt_of_lt_of_le origin (Nat.pow_le_pow_right (by decide) width)
        rw [packLength, List.length_drop, List.length_take]
        omega
      · cases decoded

end OpenPulse.SoftViterbi
