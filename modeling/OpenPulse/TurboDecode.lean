import Mathlib.Algebra.Order.Field.Basic
import Mathlib.Algebra.Order.Ring.Rat
import Mathlib.Data.List.Forall2
import Mathlib.Tactic.NormNum
import OpenPulse.BestOf
import OpenPulse.Reads
import OpenPulse.Turbo

/-! The iterative decoder of `openpulse-core/src/turbo.rs`, with exact numbers in place of
floats. A likelihood above zero speaks for the bit 0. -/
namespace OpenPulse.Turbo
open ByteCodec BitPacking Engine BestOf
open Reads (beReadBe)

section
variable {A B : Type} {R : A → B → Prop} {xs : List A} {ys : List B}

theorem relatedGet (related : List.Forall₂ R xs ys) {i : Nat} (inside : i < xs.length) (a : A) (b : B) :
    R (xs.getD i a) (ys.getD i b) := by
  induction related generalizing i with
  | nil => exact absurd inside (Nat.not_lt_zero i)
  | cons first rest ih =>
    cases i with
    | zero => exact first
    | succ i => exact ih (Nat.lt_of_succ_lt_succ inside)

theorem relatedSet (related : List.Forall₂ R xs ys) {i : Nat} {a : A} {v : B} (here : R (xs.getD i a) v) :
    List.Forall₂ R xs (ys.set i v) := by
  induction related generalizing i with
  | nil => exact .nil
  | cons first rest ih =>
    cases i with
    | zero => exact .cons here rest
    | succ i => exact .cons first (ih here)

theorem relatedWrites (related : List.Forall₂ R xs ys) {a : A} {writes : List (Nat × B)}
    (good : ∀ t ∈ writes, R (xs.getD t.1 a) t.2) : List.Forall₂ R xs (writes.foldl (fun ys t => ys.set t.1 t.2) ys) := by
  induction writes generalizing ys with
  | nil => exact related
  | cons t writes ih =>
    obtain ⟨first,rest⟩ := List.forall_mem_cons.mp good
    exact ih (relatedSet related first) rest

end

def decodePayload (raw : Bytes) : Except ModemError Bytes :=
  if raw.length < 4 then .error (.frame "turbo: payload too short")
  else
    let dataLen := readLe (slice 0 2 raw)
    if raw.length < 2 + dataLen + 2 then .error (.frame "turbo: payload truncated")
    else
      let data := slice 2 dataLen raw
      if (crc16 (slice 0 2 raw ++ data)).toNat ≠ readLe (slice (2 + dataLen) 2 raw) then .error (.frame "turbo: CRC mismatch")
      else .ok data

theorem leReadLe {raw : Bytes} {n : Nat} (length : raw.length = n) : le n (readLe raw) = raw := by
  have back := beReadBe raw.reverse
  rw [List.length_reverse, length] at back
  rw [le, readLe, back, List.reverse_reverse]

theorem readLeBounded {width value : Nat} (bound : value < 256 ^ width) : readLe (le width value) = value := by
  rw [readLe, le, List.reverse_reverse, readBeBounded bound]

theorem decodeBuilt {data : Bytes} (short : data.length < 65536) (rest : Bytes) :
    decodePayload (buildPayload data ++ rest) = .ok data := by
  have whole : buildPayload data ++ rest = le 2 data.length ++ (data ++ (le 2 (crc16 (headed data)).toNat ++ rest)) := by
    rw [buildPayload, headed, List.append_assoc, List.append_assoc]
  have length : (buildPayload data ++ rest).length = data.length + 4 + rest.length := by rw [List.length_append, payloadLength]
  have first : slice 0 2 (buildPayload data ++ rest) = le 2 data.length := sliceAt [] _ _ whole rfl (leLength ..)
  have second : slice 2 data.length (buildPayload data ++ rest) = data := sliceAt _ _ _ whole (leLength ..) rfl
  have third : slice (2 + data.length) 2 (buildPayload data ++ rest) = le 2 (crc16 (headed data)).toNat := by
    refine sliceAt (headed data) _ rest (List.append_assoc ..) ?_ (leLength ..)
    rw [headed, List.length_append, leLength]
  have size : readLe (le 2 data.length) = data.length := readLeBounded (by omega)
  have checked : readLe (le 2 (crc16 (headed data)).toNat) = (crc16 (headed data)).toNat := readLeBounded (crc16 (headed data)).toNat_lt
  rw [decodePayload, if_neg (by omega), first, size]
  simp only [second, third, checked]
  rw [if_neg (by omega), if_neg fun differ => differ rfl]

theorem decodedBuilt {raw data : Bytes} (ok : decodePayload raw = .ok data) : buildPayload data <+: raw := by
  rw [decodePayload] at ok
  split at ok
  · cases ok
  · rename_i four
    simp only at ok
    split at ok
    · cases ok
    · rename_i fits
      split at ok
      · cases ok
      · rename_i checked
        rw [not_not] at checked
        obtain rfl := Except.ok.inj ok
        have first : le 2 (readLe (slice 0 2 raw)) = slice 0 2 raw := leReadLe (by simp only [slice, List.length_take, List.length_drop]; omega)
        have size : (slice 2 (readLe (slice 0 2 raw)) raw).length = readLe (slice 0 2 raw) := by
          simp only [slice, List.length_take, List.length_drop] at fits ⊢
          omega
        have third : le 2 (readLe (slice (2 + readLe (slice 0 2 raw)) 2 raw)) = slice (2 + readLe (slice 0 2 raw)) 2 raw :=
          leReadLe (by simp only [slice, List.length_take, List.length_drop] at fits ⊢; omega)
        rw [buildPayload, headed, size, first, checked, third]
        have taken : slice 0 2 raw ++ slice 2 (readLe (slice 0 2 raw)) raw ++ slice (2 + readLe (slice 0 2 raw)) 2 raw =
            raw.take (2 + readLe (slice 0 2 raw) + 2) := by
          rw [List.take_add, List.take_add]
          rfl
        rw [taken]
        exact List.take_prefix ..

def block (q : Qpp) (data : Bytes) : List Bool := (bytesToBits (buildPayload data)).rightpad q.k false

theorem parityLength (bits : List Bool) : (rscParity bits).length = bits.length := by
  have from' : ∀ s : Fin 4, (parityFrom s bits).length = bits.length := by
    induction bits with
    | nil => exact fun _ => rfl
    | cons c bits ih => exact fun s => congrArg (· + 1) (ih _)
  exact from' 0

theorem permutedLength (q : Qpp) (bits : List Bool) : (permuted q bits).length = q.k := by
  rw [permuted, List.length_map, List.length_range]

theorem encodeOf {data : Bytes} {q : Qpp} (selected : qppParams (rawLength data.length) = some q) :
    encode data = .ok (packBits (block q data) (rscParity (block q data)) (rscParity (permuted q (block q data)))) := by
  rw [encode, streamsOf selected]
  rfl

theorem encodeRefuses (data : Bytes) : (∃ e, encode data = .error e) ↔ turboMaxInfoBytes < data.length := by
  constructor
  · rintro ⟨e,refused⟩
    by_contra fits
    obtain ⟨q,found,-⟩ := selected (Nat.not_lt.mp fits)
    rw [encodeOf found] at refused
    cases refused
  · intro long
    have largest : ∀ q ∈ qppTable, q.k ≤ 6144 := by decide
    have none : qppParams (rawLength data.length) = none := by
      refine List.find?_eq_none.mpr fun q member holds => ?_
      have small := largest q member
      have room : rawLength data.length ≤ q.k := of_decide_eq_true holds
      unfold rawLength turboMaxInfoBytes at *
      omega
    rw [encode, streams]
    simp only [rawBits, none]
    exact ⟨_,rfl⟩

theorem tableWhole : ∀ q ∈ qppTable, ((qppParams q.k).filter (·.k == q.k)).or (qppTable.find? (·.k == q.k)) = some q ∧ 8 ∣ q.k := by
  decide +kernel

theorem unpackZeros (n : Nat) : unpack .leastSignificant (List.replicate n 0) = List.replicate (8 * n) false := by
  have byte : (List.range 8).map (bitAt .leastSignificant 0) = List.replicate 8 false := by decide
  induction n with
  | zero => rfl
  | succ n ih =>
    rw [List.replicate_succ, unpack, List.flatMap_cons, byte, Nat.mul_succ, Nat.add_comm, ← List.replicate_append_replicate,
      ← ih, unpack]

theorem blockBytes {data : Bytes} {q : Qpp} (selected : qppParams (rawLength data.length) = some q) :
    ∃ rest, bitsToBytes (block q data) = buildPayload data ++ rest := by
  obtain ⟨fits,member⟩ := paramsFits selected
  obtain ⟨m,whole⟩ := (tableWhole q member).2
  unfold rawLength at fits
  have pad : block q data = unpack .leastSignificant (buildPayload data ++ List.replicate (m - (data.length + 4)) 0) := by
    rw [block, List.rightpad, rawBits, unpack, List.flatMap_append]
    refine congrArg (bytesToBits (buildPayload data) ++ ·) ?_
    refine Eq.trans ?_ (unpackZeros _).symm
    rw [rawLength]
    exact congrArg (List.replicate · false) (by omega)
  exact ⟨_,by rw [bitsToBytes, pad, packUnpack]⟩

theorem streamBits {data : Bytes} {q : Qpp} (selected : qppParams (rawLength data.length) = some q) :
    bytesToBits (packBits (block q data) (rscParity (block q data)) (rscParity (permuted q (block q data)))) =
      block q data ++ rscParity (block q data) ++ rscParity (permuted q (block q data)) := by
  obtain ⟨m,whole⟩ := (tableWhole q (paramsFits selected).2).2
  refine unpackPackWhole .leastSignificant _ (3 * m) ?_
  have size : (block q data).length = q.k := blockLength selected
  rw [List.length_append, List.length_append, parityLength, parityLength, permutedLength, size]
  omega

structure Received (F : Type) where
  q : Qpp
  sys : List F
  par1 : List F
  par2 : List F

def received {F : Type} (llrs : List F) : Except ModemError (Received F) :=
  if llrs.length % 3 ≠ 0 then .error (.frame "turbo: LLR count not divisible by 3")
  else
    let k := llrs.length / 3
    match ((qppParams k).filter (·.k == k)).or (qppTable.find? (·.k == k)) with
    | none => .error (.frame s!"turbo: unsupported block size {k}")
    | some q => .ok ⟨q,llrs.take k,(llrs.drop k).take k,(llrs.drop (2 * k)).take k⟩

theorem receivedBlock {F : Type} {q : Qpp} (member : q ∈ qppTable) {llrs : List F} (length : llrs.length = 3 * q.k) :
    received llrs = .ok ⟨q,llrs.take q.k,(llrs.drop q.k).take q.k,(llrs.drop (2 * q.k)).take q.k⟩ := by
  have third : llrs.length / 3 = q.k := by omega
  have whole : ¬ llrs.length % 3 ≠ 0 := by omega
  rw [received, if_neg whole, third]
  simp only [(tableWhole q member).1]

namespace Received
variable {F : Type}

def pi (r : Received F) : List Nat := (List.range r.q.k).map fun i => qppPermute i r.q.f1 r.q.f2 r.q.k

theorem piInside (r : Received F) {p : Nat} (member : p ∈ r.pi) : p < r.q.k := by
  obtain ⟨i,inside,rfl⟩ := List.mem_map.mp member
  exact Nat.mod_lt _ (Nat.zero_lt_of_lt (List.mem_range.mp inside))

theorem permutedPi (r : Received F) (bits : List Bool) : permuted r.q bits = r.pi.map (bits.getD · false) := by
  rw [pi, List.map_map]
  rfl

theorem relatedPi {R : Bool → F → Prop} {r : Received F} {bits : List Bool} (length : bits.length = r.q.k) {llrs : List F}
    (related : List.Forall₂ R bits llrs) (zero : F) : List.Forall₂ R (permuted r.q bits) (r.pi.map (llrs.getD · zero)) := by
  rw [permutedPi, List.forall₂_map_left_iff, List.forall₂_map_right_iff, List.forall₂_same]
  intro p member
  exact relatedGet related (length ▸ r.piInside member) false zero

end Received

section
variable {F : Type} [Field F] [LinearOrder F]

def negInf : F := -(10 ^ 30)

structure Llrs (F : Type) where
  sys : F
  par : F
  prior : F

def contribution (bit : Bool) (llr : F) : F := if bit then -(1 / 2) * llr else 1 / 2 * llr

local instance fourStates : NeZero 4 := ⟨by decide⟩

def edges : List (Fin 4 × Bool) := [(0,false),(0,true),(1,false),(1,true),(2,false),(2,true),(3,false),(3,true)]

def next (e : Fin 4 × Bool) : Fin 4 := (trellis e.1 e.2).1
def parity (e : Fin 4 × Bool) : Bool := (trellis e.1 e.2).2

def gamma (l : Llrs F) (e : Fin 4 × Bool) : F := contribution e.2 (l.sys + l.prior) + contribution (parity e) l.par

def forward (alpha : Fin 4 → F) (l : Llrs F) : Fin 4 → F :=
  bestOf (fun e => alpha e.1 == negInf) next (fun e => alpha e.1 + gamma l e) (fun _ => negInf) edges

def backward (l : Llrs F) (beta : Fin 4 → F) : Fin 4 → F :=
  bestOf (fun e => beta (next e) == negInf) Prod.fst (fun e => beta (next e) + gamma l e) (fun _ => negInf) edges

def merits (alpha : Fin 4 → F) (l : Llrs F) (beta : Fin 4 → F) : Bool → F :=
  bestOf (fun e => alpha e.1 == negInf || beta (next e) == negInf) Prod.snd
    (fun e => alpha e.1 + contribution (parity e) l.par + beta (next e)) (fun _ => negInf) edges

def extrinsic (alpha : Fin 4 → F) (l : Llrs F) (beta : Fin 4 → F) : F :=
  let best := merits alpha l beta
  if best false = negInf ∨ best true = negInf then 0 else best false - best true

def bcjrFrom (start : Fin 4 → F) (ls : List (Llrs F)) : List F :=
  let alpha := ls.scanl forward start
  let beta := ls.scanr backward fun _ => 0
  ((alpha.zip ls).zip beta.tail).map fun t => extrinsic t.1.1 t.1.2 t.2

def together (sys par prior : List F) : List (Llrs F) := (sys.zip (par.zip prior)).map fun t => ⟨t.1,t.2.1,t.2.2⟩

def bcjrPass (sys par prior : List F) : List F :=
  bcjrFrom (Function.update (fun _ => negInf) 0 0) (together sys par prior)

namespace Received

def passes (r : Received F) (deint : List F) : List F × List F :=
  let ext1 := bcjrPass r.sys r.par1 deint
  let ext2 := bcjrPass (r.pi.map (r.sys.getD · 0)) r.par2 (r.pi.map (ext1.getD · 0))
  (ext1,(r.pi.zip ext2).foldl (fun deint t => deint.set t.1 t.2) deint)

def hardBits (r : Received F) (deint : List F) : List Bool :=
  let (ext1,deint') := r.passes deint
  (r.sys.zip (ext1.zip deint')).map fun t => t.1 + t.2.1 + t.2.2 < 0

def hardBytes (r : Received F) (deint : List F) : Bytes := bitsToBytes (r.hardBits deint)

def attempts (r : Received F) : Nat → List F → Bytes → Except ModemError Bytes
  | 0, _, last => (decodePayload last).mapError fun _ => .frame "turbo: CRC check failed after all iterations"
  | n + 1, deint, _ =>
    match decodePayload (r.hardBytes deint) with
    | .ok data => .ok data
    | .error _ => r.attempts n (r.passes deint).2 (r.hardBytes deint)

def deintAt (r : Received F) (i : Nat) : List F := (fun deint => (r.passes deint).2)^[i] (List.replicate r.q.k 0)

def decision (r : Received F) (i : Nat) : Bytes := r.hardBytes (r.deintAt i)

theorem deintSucc (r : Received F) (i : Nat) : r.deintAt (i + 1) = (r.passes (r.deintAt i)).2 :=
  Function.iterate_succ_apply' (fun deint => (r.passes deint).2) i _

theorem attemptsFrom {r : Received F} {n i : Nat} {last data : Bytes} (ok : r.attempts n (r.deintAt i) last = .ok data)
    (lastFails : n = 0 → ∃ e, decodePayload last = .error e) : ∃ j, i ≤ j ∧ j < i + n ∧ decodePayload (r.decision j) = .ok data := by
  induction n generalizing i last with
  | zero =>
    obtain ⟨e,fails⟩ := lastFails rfl
    rw [attempts, fails] at ok
    cases ok
  | succ n ih =>
    rw [attempts] at ok
    cases first : decodePayload (r.hardBytes (r.deintAt i)) with
    | ok found =>
      rw [first] at ok
      exact ⟨i,Nat.le_refl i,by omega,first.trans ok⟩
    | error e =>
      rw [first] at ok
      simp only [← deintSucc] at ok
      obtain ⟨j,from',until',found⟩ := ih ok fun _ => ⟨e,first⟩
      exact ⟨j,by omega,by omega,found⟩

end Received

def maxIter : Nat := 8

def decode (llrs : List F) : Except ModemError Bytes := do
  let r ← received llrs
  r.attempts maxIter (List.replicate r.q.k 0) []

def Speaks (bit : Bool) (llr : F) : Prop := if bit then llr < 0 else 0 < llr
def Leans (bit : Bool) (llr : F) : Prop := if bit then llr ≤ 0 else 0 ≤ llr

theorem Speaks.leans {bit : Bool} {llr : F} (speaks : Speaks bit llr) : Leans bit llr := by
  cases bit with
  | false => exact le_of_lt (show 0 < llr from speaks)
  | true => exact le_of_lt (show llr < 0 from speaks)

theorem leansZero (bit : Bool) : Leans bit (0 : F) := by cases bit <;> exact le_refl (0 : F)

theorem leansZeros (bits : List Bool) : List.Forall₂ Leans bits (List.replicate bits.length (0 : F)) := by
  induction bits with
  | nil => exact .nil
  | cons c bits ih => exact .cons (leansZero c) ih

theorem speaksHard {bit : Bool} {x : F} (speaks : Speaks bit x) : decide (x < 0) = bit := by
  cases bit with
  | false => exact decide_eq_false (not_lt.mpr (le_of_lt speaks))
  | true => exact decide_eq_true speaks

structure Fitting (l : Llrs F) (e : Fin 4 × Bool) : Prop where
  sys : Speaks e.2 l.sys
  par : Speaks (parity e) l.par
  prior : Leans e.2 l.prior

inductive Carries : Fin 4 → List Bool → List (Llrs F) → Prop where
  | nil {s} : Carries s [] []
  | cons {s c bits l ls} (fitting : Fitting l (s,c)) (rest : Carries (next (s,c)) bits ls) : Carries s (c::bits) (l::ls)

theorem bcjrCons (start : Fin 4 → F) (l : Llrs F) (ls : List (Llrs F)) :
    bcjrFrom start (l::ls) = extrinsic start l (ls.foldr backward fun _ => 0) :: bcjrFrom (forward start l) ls := by
  cases ls <;> simp [bcjrFrom]

theorem carriesTogether {s : Fin 4} {bits : List Bool} {sys par prior : List F} (first : List.Forall₂ Speaks bits sys)
    (second : List.Forall₂ Speaks (parityFrom s bits) par) (third : List.Forall₂ Leans bits prior) :
    Carries s bits (together sys par prior) := by
  induction bits generalizing s sys par prior with
  | nil =>
    cases first
    exact .nil
  | cons c bits ih =>
    cases first with
    | cons sys' first =>
      cases second with
      | cons par' second =>
        cases third with
        | cons prior' third => exact .cons ⟨sys',par',prior'⟩ (ih first second third)

structure Received.Hears (r : Received F) (bits : List Bool) : Prop where
  length : bits.length = r.q.k
  sys : List.Forall₂ Speaks bits r.sys
  par1 : List.Forall₂ Speaks (rscParity bits) r.par1
  par2 : List.Forall₂ Speaks (rscParity (permuted r.q bits)) r.par2

theorem hearsCoded {data coded : Bytes} {q : Qpp} (selected : qppParams (rawLength data.length) = some q)
    (ok : encode data = .ok coded) {llrs : List F} (speak : List.Forall₂ Speaks (bytesToBits coded) llrs) :
    ∃ r : Received F, received llrs = .ok r ∧ r.Hears (block q data) := by
  obtain rfl := Except.ok.inj (ok.symm.trans (encodeOf selected))
  have size : (block q data).length = q.k := blockLength selected
  rw [streamBits selected] at speak
  have length := speak.length_eq
  rw [List.length_append, List.length_append, parityLength, parityLength, permutedLength, size] at length
  refine ⟨_,receivedBlock (paramsFits selected).2 (by omega),size,?_,?_,?_⟩
  · have first := List.forall₂_take q.k speak
    rwa [List.append_assoc, List.take_left' size] at first
  · have second := List.forall₂_take q.k (List.forall₂_drop q.k speak)
    rwa [List.append_assoc, List.drop_left' size, List.take_left' (by rw [parityLength, size])] at second
  · have third := List.forall₂_take q.k (List.forall₂_drop (2 * q.k) speak)
    rwa [List.drop_left' (by rw [List.length_append, parityLength, size]; omega),
      List.take_of_length_le (by rw [parityLength, permutedLength])] at third

variable [IsStrictOrderedRing F]

theorem Leans.add {bit : Bool} {x y : F} (left : Leans bit x) (right : Leans bit y) : Leans bit (x + y) := by
  cases bit with
  | false => exact add_nonneg left right
  | true => exact add_nonpos left right

theorem Speaks.add {bit : Bool} {x y : F} (left : Speaks bit x) (right : Leans bit y) : Speaks bit (x + y) := by
  cases bit with
  | false => exact add_pos_of_pos_of_nonneg left right
  | true => exact add_neg_of_neg_of_nonpos left right

theorem halfHigh : (0 : F) ≤ 1 / 2 := one_div_nonneg.mpr zero_le_two

theorem Leans.contributes {bit : Bool} {x : F} (leans : Leans bit x) : 0 ≤ contribution bit x := by
  cases bit with
  | false =>
    have positive : 0 ≤ x := leans
    exact mul_nonneg halfHigh positive
  | true =>
    have negative : x ≤ 0 := leans
    exact mul_nonneg_of_nonpos_of_nonpos (neg_nonpos.mpr halfHigh) negative

theorem Leans.most {bit : Bool} {x : F} (leans : Leans bit x) (d : Bool) : contribution d x ≤ contribution bit x := by
  have opposite : ∀ b, contribution (!b) x = -contribution b x := by
    intro b
    cases b with
    | false => exact neg_mul (1 / 2 : F) x
    | true => simp [contribution]
  by_cases same : d = bit
  · rw [same]
  · obtain rfl : d = !bit := by cases d <;> cases bit <;> simp_all
    rw [opposite]
    exact le_trans (neg_nonpos.mpr leans.contributes) leans.contributes

theorem reached {x : F} (high : 0 ≤ x) : (x == negInf) = false := by
  have low : (negInf : F) < 0 := neg_lt_zero.mpr (pow_pos (by norm_num) 30)
  exact beq_false_of_ne (ne_of_gt (lt_of_lt_of_le low high))

theorem negInfBelow {x : F} (high : 0 ≤ x) : negInf ≤ x :=
  le_trans (neg_nonpos.mpr (pow_nonneg (by norm_num) 30)) high

theorem everyEdge (e : Fin 4 × Bool) : e ∈ edges := by
  have every : ∀ s d, (s,d) ∈ edges := by decide
  exact every e.1 e.2

structure Peak (row : Fin 4 → F) (s : Fin 4) (top : F) : Prop where
  here : row s = top
  below : ∀ q, row q ≤ top
  high : 0 ≤ top

theorem Fitting.most {l : Llrs F} {e : Fin 4 × Bool} (fitting : Fitting l e) (other : Fin 4 × Bool) : gamma l other ≤ gamma l e :=
  add_le_add ((fitting.sys.leans.add fitting.prior).most other.2) (fitting.par.leans.most (parity other))

theorem Fitting.high {l : Llrs F} {e : Fin 4 × Bool} (fitting : Fitting l e) : 0 ≤ gamma l e :=
  add_nonneg (fitting.sys.leans.add fitting.prior).contributes fitting.par.leans.contributes

theorem forwardPeak {alpha : Fin 4 → F} {l : Llrs F} {e : Fin 4 × Bool} {top : F} (peak : Peak alpha e.1 top)
    (fitting : Fitting l e) : Peak (forward alpha l) (next e) (top + gamma l e) := by
  have high : 0 ≤ top + gamma l e := add_nonneg peak.high fitting.high
  have bound : ∀ other ∈ edges, (alpha other.1 == negInf) = false → alpha other.1 + gamma l other ≤ top + gamma l e :=
    fun other _ _ => add_le_add (peak.below other.1) (fitting.most other)
  have floor : ∀ q : Fin 4, (fun _ => negInf : Fin 4 → F) q ≤ top + gamma l e := fun _ => negInfBelow high
  have counts : (alpha e.1 == negInf) = false := by rw [peak.here, reached peak.high]
  exact ⟨bestIs floor bound (everyEdge e) counts (by rw [peak.here]),bestBound floor bound,high⟩

theorem backwardPeak {beta : Fin 4 → F} {l : Llrs F} {e : Fin 4 × Bool} {top : F} (peak : Peak beta (next e) top)
    (fitting : Fitting l e) : Peak (backward l beta) e.1 (top + gamma l e) := by
  have high : 0 ≤ top + gamma l e := add_nonneg peak.high fitting.high
  have bound : ∀ other ∈ edges, (beta (next other) == negInf) = false → beta (next other) + gamma l other ≤ top + gamma l e :=
    fun other _ _ => add_le_add (peak.below (next other)) (fitting.most other)
  have floor : ∀ q : Fin 4, (fun _ => negInf : Fin 4 → F) q ≤ top + gamma l e := fun _ => negInfBelow high
  have counts : (beta (next e) == negInf) = false := by rw [peak.here, reached peak.high]
  exact ⟨bestIs floor bound (everyEdge e) counts (by rw [peak.here]),bestBound floor bound,high⟩

theorem extrinsicLeans {alpha beta : Fin 4 → F} {l : Llrs F} {e : Fin 4 × Bool} {before after : F} (left : Peak alpha e.1 before)
    (right : Peak beta (next e) after) (fitting : Fitting l e) : Leans e.2 (extrinsic alpha l beta) := by
  have high : 0 ≤ before + contribution (parity e) l.par + after :=
    add_nonneg (add_nonneg left.high fitting.par.leans.contributes) right.high
  have bound : ∀ other ∈ edges, (alpha other.1 == negInf || beta (next other) == negInf) = false →
      alpha other.1 + contribution (parity other) l.par + beta (next other) ≤ before + contribution (parity e) l.par + after :=
    fun other _ _ => add_le_add (add_le_add (left.below other.1) (fitting.par.leans.most (parity other))) (right.below (next other))
  have floor : ∀ d : Bool, (fun _ => negInf : Bool → F) d ≤ before + contribution (parity e) l.par + after :=
    fun _ => negInfBelow high
  have counts : (alpha e.1 == negInf || beta (next e) == negInf) = false := by
    rw [left.here, right.here, reached left.high, reached right.high, Bool.or_false]
  have best : merits alpha l beta e.2 = before + contribution (parity e) l.par + after :=
    bestIs floor bound (everyEdge e) counts (by rw [left.here, right.here])
  have least : ∀ d, merits alpha l beta d ≤ merits alpha l beta e.2 := fun d => best ▸ bestBound floor bound d
  unfold extrinsic
  simp only
  split
  · exact leansZero e.2
  · cases bit : e.2 with
    | false => exact sub_nonneg.mpr (bit ▸ least true)
    | true => exact sub_nonpos.mpr (bit ▸ least false)

theorem carriesPeak {s : Fin 4} {bits : List Bool} {ls : List (Llrs F)} (carries : Carries s bits ls) :
    ∃ top, Peak (ls.foldr backward fun _ => 0) s top := by
  induction carries with
  | nil => exact ⟨0,rfl,fun _ => le_refl 0,le_refl 0⟩
  | cons fitting rest ih =>
    obtain ⟨top,peak⟩ := ih
    exact ⟨_,backwardPeak peak fitting⟩

theorem bcjrLeans {s : Fin 4} {bits : List Bool} {ls : List (Llrs F)} (carries : Carries s bits ls) {alpha : Fin 4 → F} {top : F}
    (peak : Peak alpha s top) : List.Forall₂ Leans bits (bcjrFrom alpha ls) := by
  induction carries generalizing alpha top with
  | nil => exact .nil
  | cons fitting rest ih =>
    obtain ⟨after,behind⟩ := carriesPeak rest
    rw [bcjrCons]
    exact .cons (extrinsicLeans peak behind fitting) (ih (forwardPeak peak fitting))

theorem passLeans {bits : List Bool} {sys par prior : List F} (first : List.Forall₂ Speaks bits sys)
    (second : List.Forall₂ Speaks (rscParity bits) par) (third : List.Forall₂ Leans bits prior) :
    List.Forall₂ Leans bits (bcjrPass sys par prior) := by
  have start : Peak (Function.update (fun _ => negInf) 0 0) (0 : Fin 4) (0 : F) := by
    refine ⟨Function.update_self ..,fun q => ?_,le_refl 0⟩
    by_cases zero : q = 0
    · rw [zero, Function.update_self]
    · rw [Function.update_of_ne zero]
      exact negInfBelow (le_refl 0)
  exact bcjrLeans (carriesTogether first second third) start

theorem hardSums {bits : List Bool} {xs ys zs : List F} (first : List.Forall₂ Speaks bits xs) (second : List.Forall₂ Leans bits ys)
    (third : List.Forall₂ Leans bits zs) : ((xs.zip (ys.zip zs)).map fun t => decide (t.1 + t.2.1 + t.2.2 < 0)) = bits := by
  induction first generalizing ys zs with
  | nil => rfl
  | cons x first ih =>
    cases second with
    | cons y second =>
      cases third with
      | cons z third => exact congrArg₂ List.cons (speaksHard ((x.add y).add z)) (ih second third)

namespace Received

variable {r : Received F} {bits : List Bool}

theorem Hears.passes (hears : r.Hears bits) {deint : List F} (leans : List.Forall₂ Leans bits deint) :
    List.Forall₂ Leans bits (r.passes deint).1 ∧ List.Forall₂ Leans bits (r.passes deint).2 := by
  have first := passLeans hears.sys hears.par1 leans
  have second := passLeans (relatedPi hears.length hears.sys 0) hears.par2 (relatedPi hears.length first 0)
  rw [permutedPi, List.forall₂_map_left_iff] at second
  exact ⟨first,relatedWrites leans fun _ member => List.forall₂_zip second member⟩

theorem Hears.hardBits (hears : r.Hears bits) {deint : List F} (leans : List.Forall₂ Leans bits deint) : r.hardBits deint = bits := by
  obtain ⟨first,second⟩ := hears.passes leans
  exact hardSums hears.sys first second

theorem Hears.decision (hears : r.Hears bits) : r.decision 0 = bitsToBytes bits :=
  congrArg bitsToBytes (hears.hardBits (by rw [deintAt, ← hears.length]; exact leansZeros bits))

end Received

/-- A coded block heard with the right signs is read at once, and what is read stands in a decision. -/
theorem turboRoundTrip :
    (∀ data : Bytes, data.length ≤ turboMaxInfoBytes → ∃ coded, encode data = .ok coded ∧
      ∀ llrs : List F, List.Forall₂ Speaks (bytesToBits coded) llrs →
        ∃ r, received llrs = .ok r ∧ decodePayload (r.decision 0) = .ok data ∧ decode llrs = .ok data) ∧
    (∀ data, (∃ e, encode data = .error e) ↔ turboMaxInfoBytes < data.length) ∧
    ∀ (llrs : List F) (data : Bytes), decode llrs = .ok data →
      ∃ r, received llrs = .ok r ∧ ∃ i < maxIter, buildPayload data <+: r.decision i := by
  refine ⟨fun data fits => ?_,encodeRefuses,fun llrs data ok => ?_⟩
  · obtain ⟨q,found,-⟩ := selected fits
    refine ⟨_,encodeOf found,fun llrs speak => ?_⟩
    obtain ⟨r,heard,hears⟩ := hearsCoded found (encodeOf found) speak
    obtain ⟨rest,whole⟩ := blockBytes found
    have short : data.length < 65536 := Nat.lt_of_le_of_lt fits (by decide)
    have first : decodePayload (r.decision 0) = .ok data := by rw [hears.decision, whole, decodeBuilt short]
    refine ⟨r,heard,first,?_⟩
    have start : r.attempts maxIter (r.deintAt 0) [] = .ok data := by
      rw [maxIter, Received.attempts]
      simp only [Received.decision] at first
      rw [first]
    rw [decode, heard]
    exact start
  · rw [decode] at ok
    cases heard : received llrs with
    | error e =>
      rw [heard] at ok
      cases ok
    | ok r =>
      rw [heard] at ok
      obtain ⟨i,-,few,found⟩ := Received.attemptsFrom (i := 0) ok fun none => absurd none (by decide)
      exact ⟨r,rfl,i,by omega,decodedBuilt found⟩

end

theorem turboRoundTripRational : ∃ coded, encode [72,105] = .ok coded ∧
    decode ((bytesToBits coded).map fun bit => if bit then (-5 : ℚ) else 5) = .ok [72,105] := by
  obtain ⟨coded,ok,read⟩ := (turboRoundTrip (F := ℚ)).1 [72,105] (by decide)
  have speak : List.Forall₂ Speaks (bytesToBits coded) ((bytesToBits coded).map fun bit => if bit then (-5 : ℚ) else 5) := by
    rw [List.forall₂_map_right_iff, List.forall₂_same]
    intro bit _
    cases bit <;> norm_num [Speaks]
  obtain ⟨r,-,-,decoded⟩ := read _ speak
  exact ⟨coded,ok,decoded⟩

end OpenPulse.Turbo
