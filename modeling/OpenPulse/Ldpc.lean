import Mathlib.Data.List.GetD
import OpenPulse.Binary32
import OpenPulse.BitPacking
import OpenPulse.Engine
import OpenPulse.Peg

/-! The systematic low-density parity check codec: `openpulse-core/src/ldpc.rs`. -/
namespace OpenPulse.Ldpc
open ByteCodec BitPacking Peg Engine
open Binary32 (negative negativeAddZero)

structure LdpcCodec where
  k : Nat
  m : Nat
  /-- The information variables of each check, and last its own parity variable. -/
  checkToVars : List (List Nat)
  deriving Repr

namespace LdpcCodec

def withPeg (k m dv : Nat) : LdpcCodec := ⟨k,m,pegCheckToVars k m dv⟩

def new : LdpcCodec := withPeg 1024 1024 3

def highRate : LdpcCodec := withPeg 1024 128 3

end LdpcCodec

def parityOf (bits : List Bool) (vars : List Nat) : Bool := vars.foldl (fun acc v => acc ^^ bits.getD v false) false

def syndromeOk (bits : List Bool) (checkToVars : List (List Nat)) : Bool := checkToVars.all (fun vars => !parityOf bits vars)

def maxIterations : Nat := 50

namespace LdpcCodec

def infoBits (self : LdpcCodec) (data : Bytes) : List Bool :=
  let bits := unpack .leastSignificant (data.take (self.k / 8))
  bits ++ List.replicate (self.k - bits.length) false

/- The codeword has room for whole bytes only. -/
def encode (self : LdpcCodec) (data : Bytes) : Bytes :=
  let info := self.infoBits data
  let parity := self.checkToVars.map (fun vars => parityOf info vars.dropLast)
  (pack .leastSignificant (info ++ parity)).take ((self.k + self.m) / 8)

def totals (self : LdpcCodec) (ch : List Float32) (c2v : List (List Float32)) : List Float32 :=
  (self.checkToVars.zip c2v).foldl (fun total row =>
    (row.1.zip row.2).foldl (fun total edge => total.modify edge.1 (· + edge.2)) total) ch

def infinity : Float32 := 1.0 / 0.0

def minSum (others : List Float32) : Float32 :=
  let prodSign := others.foldl (fun sign e => sign * if 0.0 ≤ e then 1.0 else -1.0) 1.0
  let minAbs := others.foldl (fun least e => if e.abs < least then e.abs else least) infinity
  prodSign * minAbs

def update (self : LdpcCodec) (total : List Float32) (c2v : List (List Float32)) : List (List Float32) :=
  (self.checkToVars.zip c2v).map fun row =>
    let ext := (row.1.zip row.2).map (fun edge => total.getD edge.1 0.0 - edge.2)
    (List.range row.2.length).map (fun i => minSum (ext.eraseIdx i))

def iterate (self : LdpcCodec) (ch : List Float32) : Nat → List (List Float32) → Except ModemError Bytes
  | 0, _ => .error (.fec "LDPC did not converge")
  | left + 1, c2v =>
    let total := self.totals ch c2v
    let bits := total.map negative
    if syndromeOk bits self.checkToVars then .ok (pack .leastSignificant (bits.take self.k))
    else self.iterate ch left (self.update total c2v)

def quiet (self : LdpcCodec) : List (List Float32) := self.checkToVars.map (fun vars => vars.map (fun _ => 0.0))

def decodeSoft (self : LdpcCodec) (llrs : List Float32) : Except ModemError Bytes :=
  let n := self.k + self.m
  if llrs.length < n then .error (.fec s!"LDPC: expected {n} LLRs, got {llrs.length}")
  else self.iterate (llrs.take n) maxIterations self.quiet

end LdpcCodec

theorem parityLast (bits : List Bool) (vars : List Nat) (x : Nat) :
    parityOf bits (vars ++ [x]) = (parityOf bits vars ^^ bits.getD x false) := by
  rw [parityOf, List.foldl_append]
  rfl

theorem parityCongr {a b : List Bool} {vars : List Nat} (same : ∀ v ∈ vars, a.getD v false = b.getD v false) :
    parityOf a vars = parityOf b vars := by
  refine List.foldl_ext _ _ _ (fun acc v member => ?_)
  rw [same v member]

section Words
variable {k m : Nat} {rows : List (List Nat)} {info parity : List Bool}

theorem rowCheck (width : info.length = k) {c : Nat} {vars : List Nat} (inside : ∀ v ∈ vars, v < k) :
    parityOf (info ++ parity) (vars ++ [k + c]) = (parityOf info vars ^^ parity.getD c false) := by
  rw [parityLast]
  congr 1
  · refine parityCongr (fun v member => ?_)
    rw [List.getD_append _ _ _ _ (by rw [width]; exact inside v member)]
  · rw [List.getD_append_right _ _ _ _ (by omega), show k + c - info.length = c by omega]

theorem syndromeIff (sys : Systematic k m rows) (width : info.length = k) (tail : parity.length = m) :
    syndromeOk (info ++ parity) rows = true ↔ parity = rows.map (fun vars => parityOf info vars.dropLast) := by
  have count := sys.count
  have rowIff : ∀ c < m, ∃ row, rows[c]? = some row ∧
      (parityOf (info ++ parity) row = false ↔ parity[c]? = some (parityOf info row.dropLast)) := fun c bound => by
    obtain ⟨vars,row,_,inside⟩ := sys.row c bound
    refine ⟨_,row,?_⟩
    have here : parity[c]? = some parity[c] := List.getElem?_eq_getElem (by omega)
    rw [rowCheck width inside, List.dropLast_concat, List.getD_eq_getElem?_getD, here, Option.getD_some, Option.some_inj]
    cases parityOf info vars <;> cases parity[c] <;> decide
  rw [syndromeOk, List.all_eq_true]
  constructor
  · intro all
    refine List.ext_getElem? (fun c => ?_)
    by_cases bound : c < m
    · obtain ⟨row,at_,iff⟩ := rowIff c bound
      rw [List.getElem?_map, at_, Option.map_some]
      exact iff.mp (by simpa using all row (List.mem_of_getElem? at_))
    · rw [List.getElem?_eq_none (by omega), List.getElem?_eq_none (by rw [List.length_map]; omega)]
  · intro equal row member
    obtain ⟨c,at_⟩ := List.getElem?_of_mem member
    have bound := (List.getElem?_eq_some_iff.mp at_).1
    obtain ⟨row',again,iff⟩ := rowIff c (by omega)
    cases Option.some_inj.mp (at_.symm.trans again)
    rw [iff.mpr (by rw [equal, List.getElem?_map, at_, Option.map_some])]
    rfl

end Words

def padded (k : Nat) (data : Bytes) : Bytes := data ++ List.replicate (k / 8 - data.length) 0

theorem unpackZeros (order : BitOrder) (n : Nat) : unpack order (List.replicate n 0) = List.replicate (8 * n) false := by
  induction n with
  | zero => rfl
  | succ n ih =>
    have zero : (List.range 8).map (bitAt order 0) = List.replicate 8 false := by
      rw [List.map_congr_left (fun k _ => bitAtZero order k)]
      rfl
    rw [List.replicate_succ, unpackCons, ih, zero, ← List.replicate_add]
    congr 1
    omega

theorem infoPadded {codec : LdpcCodec} (bytes : 8 ∣ codec.k) {data : Bytes} (fits : data.length ≤ codec.k / 8) :
    codec.infoBits data = unpack .leastSignificant (padded codec.k data) := by
  rw [LdpcCodec.infoBits, List.take_of_length_le fits, padded, unpackAppend, unpackZeros, unpackLength]
  congr 2
  omega

theorem infoLength {codec : LdpcCodec} (bytes : 8 ∣ codec.k) (data : Bytes) : (codec.infoBits data).length = codec.k := by
  rw [LdpcCodec.infoBits, List.length_append, List.length_replicate, unpackLength, List.length_take]
  omega

section Codec
variable {codec : LdpcCodec} (sys : Systematic codec.k codec.m codec.checkToVars) (bytesK : 8 ∣ codec.k) (bytesM : 8 ∣ codec.m)
include sys bytesK bytesM

theorem encodeBits (data : Bytes) : unpack .leastSignificant (codec.encode data) =
    codec.infoBits data ++ codec.checkToVars.map (fun vars => parityOf (codec.infoBits data) vars.dropLast) := by
  obtain ⟨n,whole⟩ := Nat.dvd_add bytesK bytesM
  have length : (codec.infoBits data ++
      codec.checkToVars.map (fun vars => parityOf (codec.infoBits data) vars.dropLast)).length = 8 * n := by
    rw [List.length_append, infoLength bytesK, List.length_map, sys.count, whole]
  rw [LdpcCodec.encode, List.take_of_length_le (by rw [packLength, length]; omega), unpackPackWhole _ _ n length]

theorem encodeLength (data : Bytes) : (codec.encode data).length = (codec.k + codec.m) / 8 := by
  have bits := congrArg List.length (encodeBits sys bytesK bytesM data)
  rw [unpackLength, List.length_append, infoLength bytesK, List.length_map, sys.count] at bits
  omega

theorem encodeSatisfies (data : Bytes) : syndromeOk (unpack .leastSignificant (codec.encode data)) codec.checkToVars = true := by
  rw [encodeBits sys bytesK bytesM]
  exact (syndromeIff sys (infoLength bytesK data) (by rw [List.length_map, sys.count])).mpr rfl

theorem encodeStarts {data : Bytes} (fits : data.length ≤ codec.k / 8) : (codec.encode data).take (codec.k / 8) = padded codec.k data := by
  refine unpackInj .leastSignificant ?_
  rw [unpackTake, encodeBits sys bytesK bytesM, ← infoPadded bytesK fits,
    List.take_left' (by rw [infoLength bytesK]; omega)]

theorem encodeOnly {word : Bytes} (length : word.length = (codec.k + codec.m) / 8)
    (ok : syndromeOk (unpack .leastSignificant word) codec.checkToVars = true) :
    codec.encode (word.take (codec.k / 8)) = word := by
  have cut := unpackAppend .leastSignificant (word.take (codec.k / 8)) (word.drop (codec.k / 8))
  rw [List.take_append_drop] at cut
  have start : (word.take (codec.k / 8)).length = codec.k / 8 := List.length_take_of_le (by omega)
  have info : codec.infoBits (word.take (codec.k / 8)) = unpack .leastSignificant (word.take (codec.k / 8)) := by
    rw [infoPadded bytesK (Nat.le_of_eq start), padded, start, Nat.sub_self, List.replicate_zero, List.append_nil]
  rw [cut, ← info] at ok
  have sums := (syndromeIff sys (infoLength bytesK _) (by rw [unpackLength, List.length_drop]; omega)).mp ok
  refine unpackInj .leastSignificant ?_
  rw [encodeBits sys bytesK bytesM, cut, sums, info]

end Codec

def Agree (a b : List Float32) : Prop := a.map negative = b.map negative

theorem agreeModify {a b : List Float32} (agree : Agree a b) (i : Nat) : Agree (a.modify i (· + 0.0)) b := by
  refine Eq.trans (List.ext_getElem? (fun j => ?_)) agree
  rw [List.getElem?_map, List.getElem?_map]
  by_cases here : i = j
  · subst here
    rw [List.getElem?_modify_eq]
    cases a[i]? with
    | none => rfl
    | some x => exact congrArg some (negativeAddZero x)
  · rw [List.getElem?_modify_ne _ _ here]

theorem totalsQuiet (codec : LdpcCodec) (ch : List Float32) : Agree (codec.totals ch codec.quiet) ch := by
  have row : ∀ (vars : List Nat) (total : List Float32), Agree total ch →
      Agree ((vars.zip (vars.map (fun _ => (0.0 : Float32)))).foldl (fun total edge => total.modify edge.1 (· + edge.2)) total) ch := by
    intro vars
    induction vars with
    | nil => exact fun _ agree => agree
    | cons v vars ih => exact fun total agree => ih _ (agreeModify agree v)
  have rows : ∀ (rows : List (List Nat)) (total : List Float32), Agree total ch →
      Agree ((rows.zip (rows.map (fun vars => vars.map (fun _ => (0.0 : Float32))))).foldl (fun total row =>
        (row.1.zip row.2).foldl (fun total edge => total.modify edge.1 (· + edge.2)) total) total) ch := by
    intro rows
    induction rows with
    | nil => exact fun _ agree => agree
    | cons vars rows ih => exact fun total agree => ih _ (row vars total agree)
  exact rows _ ch rfl

theorem decodeFirst {codec : LdpcCodec} (sys : Systematic codec.k codec.m codec.checkToVars) (bytesK : 8 ∣ codec.k)
    (bytesM : 8 ∣ codec.m) {data : Bytes} (fits : data.length ≤ codec.k / 8) {ch : List Float32}
    (signs : ch.map negative = unpack .leastSignificant (codec.encode data)) (left : Nat) :
    codec.iterate ch (left + 1) codec.quiet = .ok (padded codec.k data) := by
  have bits : (codec.totals ch codec.quiet).map negative = unpack .leastSignificant (codec.encode data) :=
    (totalsQuiet codec ch).trans signs
  have info : (unpack .leastSignificant (codec.encode data)).take codec.k = unpack .leastSignificant (padded codec.k data) := by
    rw [encodeBits sys bytesK bytesM, List.take_left' (infoLength bytesK data), infoPadded bytesK fits]
  rw [LdpcCodec.iterate, bits, if_pos (encodeSatisfies sys bytesK bytesM data), info, packUnpack]

theorem decodeSigns {codec : LdpcCodec} (sys : Systematic codec.k codec.m codec.checkToVars) (bytesK : 8 ∣ codec.k)
    (bytesM : 8 ∣ codec.m) {data : Bytes} (fits : data.length ≤ codec.k / 8) {llrs : List Float32}
    (signs : (llrs.take (codec.k + codec.m)).map negative = unpack .leastSignificant (codec.encode data)) :
    codec.decodeSoft llrs = .ok (padded codec.k data) := by
  have enough : ¬ llrs.length < codec.k + codec.m := by
    have width := congrArg List.length signs
    rw [List.length_map, List.length_take, unpackLength, encodeLength sys bytesK bytesM] at width
    have whole := Nat.dvd_add bytesK bytesM
    omega
  rw [LdpcCodec.decodeSoft, if_neg enough]
  exact decodeFirst sys bytesK bytesM fits signs 49

structure Correct (k m dv : Nat) (codec : LdpcCodec) : Prop where
  rows : Systematic k m codec.checkToVars
  degree : ∀ v < k, codec.checkToVars.countP (fun row => decide (v ∈ row)) = min dv m
  length : ∀ data : Bytes, data.length ≤ k / 8 → (codec.encode data).length = (k + m) / 8
  starts : ∀ data : Bytes, data.length ≤ k / 8 → (codec.encode data).take (k / 8) = padded k data
  satisfies : ∀ data : Bytes, data.length ≤ k / 8 → syndromeOk (unpack .leastSignificant (codec.encode data)) codec.checkToVars = true
  only : ∀ word : Bytes, word.length = (k + m) / 8 → syndromeOk (unpack .leastSignificant word) codec.checkToVars = true →
    codec.encode (word.take (k / 8)) = word
  decodes : ∀ (data : Bytes) (llrs : List Float32), data.length ≤ k / 8 →
    (llrs.take (k + m)).map negative = unpack .leastSignificant (codec.encode data) → codec.decodeSoft llrs = .ok (padded k data)
  first : ∀ (data : Bytes) (llrs : List Float32), data.length ≤ k / 8 →
    (llrs.take (k + m)).map negative = unpack .leastSignificant (codec.encode data) →
    codec.iterate (llrs.take (k + m)) 1 codec.quiet = .ok (padded k data)

theorem pegCode (k m dv : Nat) (bytesK : 8 ∣ k) (bytesM : 8 ∣ m) (some : 0 < m) :
    Correct k m dv (LdpcCodec.withPeg k m dv) := by
  let codec := LdpcCodec.withPeg k m dv
  have sys : Systematic codec.k codec.m codec.checkToVars := pegSystematic k dv some
  constructor
  case rows => exact sys
  case degree => exact fun v inside => pegDegree some inside
  case length => exact fun data _ => encodeLength sys bytesK bytesM data
  case starts => exact fun data fits => encodeStarts sys bytesK bytesM fits
  case satisfies => exact fun data _ => encodeSatisfies sys bytesK bytesM data
  case only => exact fun word length ok => encodeOnly sys bytesK bytesM length ok
  case first => exact fun data llrs fits signs => decodeFirst sys bytesK bytesM fits signs 0
  case decodes => exact fun data llrs fits signs => decodeSigns sys bytesK bytesM fits signs

theorem pegCodeSmall : Correct 16 8 3 (LdpcCodec.withPeg 16 8 3) := pegCode 16 8 3 (by decide) (by decide) (by decide)

end OpenPulse.Ldpc
