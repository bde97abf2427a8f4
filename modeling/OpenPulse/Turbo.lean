import Mathlib.Data.Set.Function
import OpenPulse.BitPacking
import OpenPulse.Engine
import OpenPulse.Quadratic

/-! The encoder of the turbo codec: `openpulse-core/src/turbo.rs`. The information bits enter
one recursive encoder in their order and a second one in the order of a quadratic permutation. -/
namespace OpenPulse.Turbo
open ByteCodec BitPacking Engine Quadratic

structure Qpp where
  k : Nat
  f1 : Nat
  f2 : Nat
  deriving DecidableEq, Repr

def qppTable : List Qpp :=
  [⟨40,3,10⟩,⟨48,7,12⟩,⟨56,19,42⟩,⟨64,7,16⟩,⟨72,7,18⟩,⟨80,11,20⟩,⟨96,7,24⟩,⟨112,5,28⟩,⟨128,11,32⟩,⟨160,3,20⟩,⟨192,13,48⟩,
    ⟨224,11,56⟩,⟨256,7,64⟩,⟨288,11,36⟩,⟨320,7,20⟩,⟨384,13,48⟩,⟨448,13,56⟩,⟨512,3,64⟩,⟨640,9,80⟩,⟨768,7,96⟩,⟨1024,13,128⟩,
    ⟨1280,9,160⟩,⟨1536,13,192⟩,⟨2048,9,256⟩,⟨3072,9,384⟩,⟨4096,13,512⟩,⟨6144,13,768⟩]

def qppParams (minK : Nat) : Option Qpp := qppTable.find? fun q => minK ≤ q.k

/-- No product leaves 64 bits: the largest is below `768 * 6144 * 6144`. -/
def qppPermute (i f1 f2 k : Nat) : Nat := quadratic f1 f2 k i

def trellis (s : Fin 4) (d : Bool) : Fin 4 × Bool :=
  let s0 := s.val.testBit 0
  let s1 := s.val.testBit 1
  let v := d ^^ s0 ^^ s1
  (Fin.ofNat 4 (s0.toNat <<< 1 ||| v.toNat),v ^^ s1)

def parityFrom (state : Fin 4) : List Bool → List Bool
  | [] => []
  | d::bits => (trellis state d).2 :: parityFrom (trellis state d).1 bits

def rscParity (bits : List Bool) : List Bool := parityFrom 0 bits

def bytesToBits (raw : Bytes) : List Bool := unpack .leastSignificant raw
def bitsToBytes (bits : List Bool) : Bytes := pack .leastSignificant bits
def packBits (a b c : List Bool) : Bytes := bitsToBytes (a ++ b ++ c)

def turboMaxInfoBytes : Nat := 764

def headed (data : Bytes) : Bytes := le 2 data.length ++ data

def buildPayload (data : Bytes) : Bytes := headed data ++ le 2 (crc16 (headed data)).toNat

def permuted (q : Qpp) (bits : List Bool) : List Bool :=
  (List.range q.k).map fun i => bits.getD (qppPermute i q.f1 q.f2 q.k) false

structure Streams where
  bits : List Bool
  par1 : List Bool
  par2 : List Bool
  deriving DecidableEq, Repr

def streams (data : Bytes) : Except ModemError Streams :=
  let rawBits := bytesToBits (buildPayload data)
  match qppParams rawBits.length with
  | none => .error (.frame s!"turbo: block {rawBits.length} bits exceeds max QPP size (6144); split payload at call site")
  | some q =>
    let bits := rawBits.rightpad q.k false
    .ok ⟨bits,rscParity bits,rscParity (permuted q bits)⟩

def encode (data : Bytes) : Except ModemError Bytes := (streams data).map fun s => packBits s.bits s.par1 s.par2

def rawLength (n : Nat) : Nat := 8 * (n + 4)

theorem payloadLength (data : Bytes) : (buildPayload data).length = data.length + 4 := by
  rw [buildPayload, headed, List.length_append, List.length_append, leLength, leLength]
  omega

theorem rawBits (data : Bytes) : (bytesToBits (buildPayload data)).length = rawLength data.length := by
  rw [bytesToBits, unpackLength, payloadLength, rawLength]

theorem paramsFits {minK : Nat} {q : Qpp} (selected : qppParams minK = some q) : minK ≤ q.k ∧ q ∈ qppTable := by
  refine ⟨?_,List.mem_of_find?_eq_some selected⟩
  simpa using List.find?_some selected

theorem streamsOf {data : Bytes} {q : Qpp} (selected : qppParams (rawLength data.length) = some q) :
    streams data = .ok ⟨(bytesToBits (buildPayload data)).rightpad q.k false,
      rscParity ((bytesToBits (buildPayload data)).rightpad q.k false),
      rscParity (permuted q ((bytesToBits (buildPayload data)).rightpad q.k false))⟩ := by
  rw [streams]
  simp only [rawBits, selected]

theorem blockLength {data : Bytes} {q : Qpp} (selected : qppParams (rawLength data.length) = some q) :
    ((bytesToBits (buildPayload data)).rightpad q.k false).length = q.k := by
  rw [List.length_rightpad, rawBits]
  exact Nat.max_eq_left (paramsFits selected).1

theorem blockInj {q : Qpp} {a b : Bytes} (sameLength : a.length = b.length)
    (same : (bytesToBits (buildPayload a)).rightpad q.k false = (bytesToBits (buildPayload b)).rightpad q.k false) : a = b := by
  have raw : (bytesToBits (buildPayload a)).length = (bytesToBits (buildPayload b)).length := by
    rw [rawBits, rawBits, sameLength]
  rw [List.rightpad, List.rightpad] at same
  have payload := unpackInj .leastSignificant (List.append_inj same raw).1
  have head : (headed a).length = (headed b).length := by
    rw [headed, headed, List.length_append, List.length_append, leLength, leLength, sameLength]
  exact (List.append_inj (List.append_inj payload head).1 (by rw [leLength, leLength])).2

theorem parityDetermines : ∀ (s : Fin 4) (d d' : Bool), (trellis s d).2 = (trellis s d').2 → d = d' := by decide

theorem parityFromInj (state : Fin 4) {xs ys : List Bool} (same : parityFrom state xs = parityFrom state ys) : xs = ys := by
  induction xs generalizing state ys with
  | nil =>
    cases ys with
    | nil => rfl
    | cons y ys => cases same
  | cons x xs ih =>
    cases ys with
    | nil => cases same
    | cons y ys =>
      obtain ⟨first,rest⟩ := List.cons.inj same
      obtain rfl := parityDetermines state x y first
      rw [ih _ rest]

def Qpp.Bijective (q : Qpp) : Prop := Set.BijOn (fun i => qppPermute i q.f1 q.f2 q.k) (Set.Iio q.k) (Set.Iio q.k)

theorem regularBijective {q : Qpp} (regular : Regular q.f1 q.f2 q.k) (some' : 0 < q.k) : q.Bijective :=
  ⟨fun _ _ => Nat.mod_lt _ some',fun _ left _ right same => regular.inj left right same,fun _ inside => regular.onto inside⟩

theorem permutedGet {q : Qpp} {i : Nat} (inside : i < q.k) (bits : List Bool) :
    (permuted q bits)[i]? = some (bits.getD (qppPermute i q.f1 q.f2 q.k) false) := by
  rw [permuted, List.getElem?_map, List.getElem?_range inside]
  rfl

theorem permutedInj {q : Qpp} (bijective : q.Bijective) {xs ys : List Bool} (left : xs.length = q.k) (right : ys.length = q.k)
    (same : permuted q xs = permuted q ys) : xs = ys := by
  refine List.ext_getElem (by rw [left, right]) fun j first second => ?_
  obtain ⟨i,inside,hit⟩ := bijective.surjOn (show j ∈ Set.Iio q.k from left ▸ first)
  have read := congrArg (·[i]?) same
  simp only [permutedGet inside] at read
  simp only at hit
  rw [hit] at read
  simpa [List.getD_eq_getElem?_getD, first, second] using read

/-- The one entry whose numbers have a common divisor. -/
def shared : Qpp := ⟨3072,9,384⟩

theorem tableRegular : ∀ q ∈ qppTable, q ≠ shared → Nat.Coprime q.f1 q.k ∧ q.k ∣ q.f2 ^ 13 ∧ 0 < q.k := by decide +kernel

theorem tableBijective {q : Qpp} (member : q ∈ qppTable) (other : q ≠ shared) : q.Bijective := by
  obtain ⟨unit,power,some'⟩ := tableRegular q member other
  exact regularBijective (regularPower unit power) some'

theorem sharedMissesOne : ¬ shared.Bijective := by
  intro bijective
  obtain ⟨i,-,hit⟩ := bijective.surjOn (show 1 ∈ Set.Iio shared.k from Set.mem_Iio.mpr (by decide))
  have divided : 3 ∣ quadratic 9 384 3072 i := quadraticDivided (by decide) (by decide) (by decide) i
  have one : quadratic 9 384 3072 i = 1 := hit
  rw [one] at divided
  exact absurd divided (by decide)

def TakesShared (n : Nat) : Prop := 253 ≤ n ∧ n ≤ 380

instance (n : Nat) : Decidable (TakesShared n) := inferInstanceAs (Decidable (_ ∧ _))

theorem selection : (List.range 765).all (fun n => (qppParams (rawLength n)).isSome &&
    (decide (qppParams (rawLength n) = some shared) == decide (TakesShared n))) = true := by decide +kernel

theorem selected {n : Nat} (fits : n ≤ turboMaxInfoBytes) :
    ∃ q, qppParams (rawLength n) = some q ∧ q ∈ qppTable ∧ (q = shared ↔ TakesShared n) := by
  have both := List.all_eq_true.mp selection n (List.mem_range.mpr (Nat.lt_succ_of_le fits))
  rw [Bool.and_eq_true] at both
  obtain ⟨q,found⟩ := Option.isSome_iff_exists.mp both.1
  refine ⟨q,found,(paramsFits found).2,?_⟩
  have agree := decide_eq_decide.mp (beq_iff_eq.mp both.2)
  rwa [found, Option.some_inj] at agree

/-- Zeros against three bytes that leave the checksum alone and no position a multiple of three. -/
def quiet (n : Nat) : Bytes := [0,0,0] ++ List.replicate n 0
def hidden (n : Nat) : Bytes := [1,16,33] ++ List.replicate n 0

theorem sameChecksum : (List.range 128).all (fun d => crc16 (le 2 (253 + d) ++ [0,0,0]) == crc16 (le 2 (253 + d) ++ [1,16,33])) = true := by
  decide +kernel

theorem crc16Append (x y : Bytes) : crc16 (x ++ y) = y.foldl crcByte (crc16 x) := List.foldl_append

theorem checksumHidden {n : Nat} (takes : TakesShared (n + 3)) : crc16 (headed (hidden n)) = crc16 (headed (quiet n)) := by
  obtain ⟨low,high⟩ := takes
  have agree := List.all_eq_true.mp sameChecksum (n + 3 - 253) (List.mem_range.mpr (by omega))
  rw [beq_iff_eq, show 253 + (n + 3 - 253) = n + 3 by omega] at agree
  have split : ∀ first : Bytes, first.length = 3 →
      headed (first ++ List.replicate n 0) = (le 2 (n + 3) ++ first) ++ List.replicate n 0 := by
    intro first three
    rw [headed, List.length_append, three, List.length_replicate, Nat.add_comm, List.append_assoc]
  rw [hidden, quiet, split _ rfl, split _ rfl, crc16Append (le 2 (n + 3) ++ [1,16,33]), crc16Append (le 2 (n + 3) ++ [0,0,0]), agree]

theorem middleHidden : ∀ j < 24, (16 + j) % 3 = 0 →
    (bytesToBits [1,16,33]).getD j false = (bytesToBits [0,0,0]).getD j false := by decide +kernel

theorem getMiddle {p a b r : List Bool} (same : a.length = b.length) {i : Nat}
    (middle : ∀ j < a.length, p.length + j = i → a.getD j false = b.getD j false) :
    (p ++ (a ++ r)).getD i false = (p ++ (b ++ r)).getD i false := by
  simp only [List.getD_eq_getElem?_getD] at middle ⊢
  rcases Nat.lt_or_ge i p.length with before | behind
  · rw [List.getElem?_append_left before, List.getElem?_append_left before]
  · rw [List.getElem?_append_right behind, List.getElem?_append_right behind]
    rcases Nat.lt_or_ge (i - p.length) a.length with inside | after
    · rw [List.getElem?_append_left inside, List.getElem?_append_left (same ▸ inside)]
      exact middle _ inside (by omega)
    · rw [List.getElem?_append_right after, List.getElem?_append_right (same ▸ after), same]

theorem hiddenBits {n i : Nat} (takes : TakesShared (n + 3)) (third : i % 3 = 0) (room : Nat) :
    ((bytesToBits (buildPayload (hidden n))).rightpad room false).getD i false =
      ((bytesToBits (buildPayload (quiet n))).rightpad room false).getD i false := by
  have split : ∀ first : Bytes, first.length = 3 → crc16 (headed (first ++ List.replicate n 0)) = crc16 (headed (quiet n)) →
      (bytesToBits (buildPayload (first ++ List.replicate n 0))).rightpad room false =
        bytesToBits (le 2 (n + 3)) ++ (bytesToBits first ++ (bytesToBits (List.replicate n 0 ++ le 2 (crc16 (headed (quiet n))).toNat) ++
          List.replicate (room - rawLength (n + 3)) false)) := by
    intro first three checksum
    have length : (first ++ List.replicate n 0).length = n + 3 := by
      rw [List.length_append, three, List.length_replicate, Nat.add_comm]
    rw [List.rightpad, rawBits, length, buildPayload, checksum, headed, length]
    simp only [bytesToBits, unpack, List.flatMap_append, List.append_assoc]
  have ends : (bytesToBits (le 2 (n + 3))).length = 16 := by
    rw [bytesToBits, unpackLength, leLength]
  rw [hidden, quiet, split _ rfl (checksumHidden takes), split _ rfl rfl]
  refine getMiddle (by decide) fun j inside place => middleHidden j inside ?_
  rw [ends] at place
  rw [place, third]

theorem sharedThirds (i : Nat) : qppPermute i shared.f1 shared.f2 shared.k % 3 = 0 :=
  Nat.mod_eq_zero_of_dvd (quadraticDivided (by decide) (by decide) (by decide) i)

theorem hiddenPermuted {n : Nat} (takes : TakesShared (n + 3)) :
    permuted shared ((bytesToBits (buildPayload (hidden n))).rightpad shared.k false) =
      permuted shared ((bytesToBits (buildPayload (quiet n))).rightpad shared.k false) :=
  List.map_congr_left fun i _ => hiddenBits takes (sharedThirds i) shared.k

/-- The permutation the encoder selects reads every position once. -/
def Interleaved (data : Bytes) : Prop :=
  ∃ q, qppParams (bytesToBits (buildPayload data)).length = some q ∧ q.Bijective

/-- Other data of this length have other parity, in both streams. -/
def Distinguished (data : Bytes) : Prop :=
  ∀ data' : Bytes, data'.length = data.length → data' ≠ data →
    ∃ s s', streams data = .ok s ∧ streams data' = .ok s' ∧ s.par1 ≠ s'.par1 ∧ s.par2 ≠ s'.par2

theorem interleavedIff {data : Bytes} (fits : data.length ≤ turboMaxInfoBytes) : Interleaved data ↔ ¬ TakesShared data.length := by
  obtain ⟨q,found,member,taken⟩ := selected fits
  rw [Interleaved, rawBits, found, ← taken]
  constructor
  · rintro ⟨q',same,bijective⟩ rfl
    obtain rfl := Option.some.inj same
    exact sharedMissesOne bijective
  · exact fun other => ⟨q,rfl,tableBijective member other⟩

theorem interleavedDistinguished {data : Bytes} (interleaved : Interleaved data) :
    Distinguished data := by
  obtain ⟨q,found,bijective⟩ := interleaved
  rw [rawBits] at found
  intro data' sameLength other
  have found' : qppParams (rawLength data'.length) = some q := by rw [sameLength, found]
  refine ⟨_,_,streamsOf found,streamsOf found',?_,?_⟩
  · intro same
    exact other (blockInj sameLength (parityFromInj 0 same).symm)
  · intro same
    have blocks := permutedInj bijective (blockLength found) (blockLength found') (parityFromInj 0 same)
    exact other (blockInj sameLength blocks.symm)

theorem quietLength (n : Nat) : (quiet n).length = n + 3 := by
  rw [quiet, List.length_append, List.length_replicate, Nat.add_comm]
  rfl

theorem hiddenLength (n : Nat) : (hidden n).length = n + 3 := by
  rw [hidden, List.length_append, List.length_replicate, Nat.add_comm]
  rfl

theorem hiddenOther (n : Nat) : hidden n ≠ quiet n := by
  intro same
  cases (List.append_inj same rfl).1

theorem hiddenSecond {n : Nat} (takes : TakesShared (n + 3)) :
    ∃ s s', streams (hidden n) = .ok s ∧ streams (quiet n) = .ok s' ∧ s.par2 = s'.par2 := by
  have fits : n + 3 ≤ turboMaxInfoBytes := Nat.le_trans takes.2 (by decide)
  obtain ⟨q,found,-,taken⟩ := selected fits
  obtain rfl := taken.mpr takes
  refine ⟨_,_,streamsOf (hiddenLength n ▸ found),streamsOf (quietLength n ▸ found),?_⟩
  simp only [hiddenPermuted takes]

theorem hiddenPair {n : Nat} (takes : TakesShared n) : ∃ a b : Bytes, a.length = n ∧ b.length = n ∧ a ≠ b ∧
    ∃ s s', streams a = .ok s ∧ streams b = .ok s' ∧ s.par2 = s'.par2 := by
  obtain ⟨m,rfl⟩ : ∃ m, n = m + 3 := ⟨n - 3,by unfold TakesShared at takes; omega⟩
  exact ⟨hidden m,quiet m,hiddenLength m,quietLength m,hiddenOther m,hiddenSecond takes⟩

/-- The second stream covers the data but for the lengths whose block takes the entry 3072. -/
theorem turboInterleaver {data : Bytes} (fits : data.length ≤ turboMaxInfoBytes) :
    (Interleaved data ∧ Distinguished data ↔ ¬ TakesShared data.length) ∧
    (TakesShared data.length → ¬ Interleaved data ∧ ∃ a b : Bytes, a.length = data.length ∧ b.length = data.length ∧ a ≠ b ∧
      ∃ s s', streams a = .ok s ∧ streams b = .ok s' ∧ s.par2 = s'.par2) := by
  refine ⟨⟨fun both => (interleavedIff fits).mp both.1,fun other => ?_⟩,fun takes => ⟨?_,hiddenPair takes⟩⟩
  · have interleaved := (interleavedIff fits).mpr other
    exact ⟨interleaved,interleavedDistinguished interleaved⟩
  · exact fun interleaved => (interleavedIff fits).mp interleaved takes

theorem turboInterleaverFour : Interleaved [1,2,3,255] ∧ Distinguished [1,2,3,255] :=
  (@turboInterleaver [1,2,3,255] (by decide)).1.mpr (by decide)

theorem zerosHidden : (quiet 250).length = 253 ∧ ¬ Interleaved (quiet 250) ∧ ¬ Distinguished (quiet 250) := by
  have takes : TakesShared (250 + 3) := by decide
  refine ⟨quietLength 250,fun interleaved => ?_,fun distinguished => ?_⟩
  · have fits : (quiet 250).length ≤ turboMaxInfoBytes := by rw [quietLength]; decide
    have other := (interleavedIff fits).mp interleaved
    rw [quietLength] at other
    exact other takes
  · have lengths : (hidden 250).length = (quiet 250).length := by rw [hiddenLength, quietLength]
    obtain ⟨s,s',quietStreams,hiddenStreams,-,second⟩ := distinguished (hidden 250) lengths (hiddenOther 250)
    obtain ⟨t,t',left,right,same⟩ := hiddenSecond takes
    rw [hiddenStreams] at left
    rw [quietStreams] at right
    cases left
    cases right
    exact second same.symm

end OpenPulse.Turbo
