import OpenPulse.Fec
import OpenPulse.Strides

/-! The stride interleaver, `Interleaver` of `openpulse-core/src/fec.rs`, and what it
makes of a burst before the Reed-Solomon layer sees it. -/
namespace OpenPulse.Interleave
open ByteCodec Engine ReedSolomon Strides Fec

def defaultInterleaverDepth : Nat := 5 * 20

structure Interleaver where
  depth : Nat
  /-- `new` asserts it. -/
  positive : 0 < depth

/- The loop over the output positions: `p` is the source position, `s` the fill
pointer. The sum is the source's `usize`. -/
def permutationFrom (n depth : Nat) : Nat → Nat → Nat → List Nat
  | 0, _, _ => []
  | left + 1, p, s =>
    let next := (p + depth) % 2 ^ 64
    p::(if n ≤ next then permutationFrom n depth left s (s + 1) else permutationFrom n depth left next s)

def permutation (n depth : Nat) : List Nat := permutationFrom n depth n 0 1

def Interleaver.interleave (self : Interleaver) (data : Bytes) : Bytes :=
  (permutation data.length self.depth).map (fun src => data.getD src 0)

def Interleaver.deinterleave (self : Interleaver) (data : Bytes) : Bytes :=
  ((permutation data.length self.depth).zip data).foldl (fun out step => out.set step.1 step.2) (List.replicate data.length 0)

theorem permutationFromStride {n depth left p s : Nat} (room : n + depth ≤ 2 ^ 64)
    (inside : ∀ x ∈ stride n depth left p s, x < n) : permutationFrom n depth left p s = stride n depth left p s := by
  induction left generalizing p s with
  | zero => rfl
  | succ left ih =>
    rw [stride, List.forall_mem_cons] at inside
    have sum : (p + depth) % 2 ^ 64 = p + depth := Nat.mod_eq_of_lt (by omega)
    rw [permutationFrom, stride, sum]
    split
    · next last =>
      rw [if_pos last] at inside
      rw [ih inside.2]
    · next more =>
      rw [if_neg more] at inside
      rw [ih inside.2]

theorem permutationStride {n depth : Nat} (positive : 0 < depth) (room : n + depth ≤ 2 ^ 64) :
    permutation n depth = stride n depth n 0 1 := permutationFromStride room (strideAll positive n).2

theorem permutationPerm {n depth : Nat} (positive : 0 < depth) (room : n + depth ≤ 2 ^ 64) :
    (permutation n depth).Perm (List.range n) := by
  rw [permutationStride positive room]
  exact stridePerm positive n

section Scatter
variable {α : Type}

theorem scatterOther {steps : List (Nat × α)} {out : List α} {x : Nat} (apart : ∀ step ∈ steps, step.1 ≠ x) :
    (steps.foldl (fun out step => out.set step.1 step.2) out)[x]? = out[x]? := by
  induction steps generalizing out with
  | nil => rfl
  | cons step steps ih =>
    obtain ⟨here,rest⟩ := List.forall_mem_cons.mp apart
    rw [List.foldl_cons, ih rest, List.getElem?_set_ne here]

theorem scatterHere {steps : List (Nat × α)} (apart : (steps.map Prod.fst).Nodup) {out : List α} {x : Nat} {v : α}
    (member : (x,v) ∈ steps) (inside : x < out.length) :
    (steps.foldl (fun out step => out.set step.1 step.2) out)[x]? = some v := by
  induction steps generalizing out with
  | nil => cases member
  | cons step steps ih =>
    rw [List.map_cons, List.nodup_cons] at apart
    rw [List.foldl_cons]
    cases List.mem_cons.mp member with
    | inl here =>
      subst here
      rw [scatterOther (fun step later same => apart.1 (List.mem_map.mpr ⟨step,later,same⟩)), List.getElem?_set_self inside]
    | inr later => exact ih apart.2 later (by rwa [List.length_set])

theorem scatterLength (steps : List (Nat × α)) (out : List α) :
    (steps.foldl (fun out step => out.set step.1 step.2) out).length = out.length := by
  induction steps generalizing out with
  | nil => rfl
  | cons step steps ih => rw [List.foldl_cons, ih, List.length_set]

end Scatter

namespace Interleaver
variable (self : Interleaver)

theorem deinterleaveLength (data : Bytes) : (self.deinterleave data).length = data.length := by
  rw [deinterleave, scatterLength, List.length_replicate]

variable {data : Bytes} (room : data.length + self.depth ≤ 2 ^ 64)
include room

theorem interleavePerm : (self.interleave data).Perm data := by
  have mapped := (permutationPerm self.positive room).map (fun src => data.getD src 0)
  have all : (List.range data.length).map (fun src => data.getD src 0) = data := by
    refine List.ext_getElem? (fun i => ?_)
    by_cases inside : i < data.length
    · rw [List.getElem?_map, List.getElem?_range inside, Option.map_some, List.getD_eq_getElem?_getD, List.getElem?_eq_getElem inside,
        Option.getD_some]
    · rw [List.getElem?_eq_none (by simpa using inside), List.getElem?_eq_none (Nat.not_lt.mp inside)]
  rw [all] at mapped
  exact mapped

theorem interleaveGet {x : Nat} (inside : x < data.length) : (self.interleave data)[rank data.length self.depth x]? = data[x]? := by
  rw [interleave, permutationStride self.positive room, List.getElem?_map, strideAt self.positive inside, Option.map_some,
    List.getD_eq_getElem?_getD, List.getElem?_eq_getElem inside, Option.getD_some]

theorem deinterleaveGet {x : Nat} (inside : x < data.length) :
    (self.deinterleave data)[x]? = data[rank data.length self.depth x]? := by
  have place := rankLt self.positive inside
  have source := strideAt self.positive inside
  have apart : (((permutation data.length self.depth).zip data).map Prod.fst).Nodup := by
    rw [List.map_fst_zip (by rw [(permutationPerm self.positive room).length_eq, List.length_range])]
    exact (permutationPerm self.positive room).nodup_iff.mpr List.nodup_range
  rw [List.getElem?_eq_getElem place]
  refine scatterHere apart (List.mem_of_getElem? (i := rank data.length self.depth x) ?_) (by rwa [List.length_replicate])
  rw [permutationStride self.positive room, List.getElem?_zip_eq_some]
  exact ⟨source,List.getElem?_eq_getElem place⟩

theorem deinterleaveInterleave : self.deinterleave (self.interleave data) = data := by
  have length : (self.interleave data).length = data.length := (self.interleavePerm room).length_eq
  refine List.ext_getElem? (fun x => ?_)
  by_cases inside : x < data.length
  · rw [self.deinterleaveGet (by rwa [length]) (by rwa [length]), length, self.interleaveGet room inside]
  · rw [List.getElem?_eq_none (by rw [deinterleaveLength, length]; omega), List.getElem?_eq_none (by omega)]

theorem wrongPlace {got : Bytes} {first count : Nat} (length : got.length = data.length)
    (outside : ∀ i, i < first ∨ first + count ≤ i → got[i]? = (self.interleave data)[i]?) {b j : Nat}
    (wrong : j ∈ wrongPlaces (blockAt data b) (blockAt (self.deinterleave got) b)) :
    j < blockTotal ∧ b * blockTotal + j < data.length ∧ first ≤ rank data.length self.depth (b * blockTotal + j) ∧
      rank data.length self.depth (b * blockTotal + j) < first + count := by
  obtain ⟨bound,differ⟩ := Finset.mem_filter.mp wrong
  have inside := Finset.mem_range.mp bound
  rw [blockAt, slice, List.length_take, List.length_drop] at inside
  have source : b * blockTotal + j < data.length := by omega
  rw [blockGet data b (by omega), blockGet _ b (by omega), self.deinterleaveGet (by rwa [length]) (by rwa [length]), length,
    ← self.interleaveGet room source] at differ
  refine ⟨by omega,source,?_⟩
  by_contra away
  exact differ (outside _ (by omega)).symm

theorem burstErrors {got : Bytes} {first count s : Nat} (length : got.length = data.length)
    (outside : ∀ i, i < first ∨ first + count ≤ i → got[i]? = (self.interleave data)[i]?)
    (short : count ≤ s * (data.length / self.depth)) (deep : 1 < self.depth) (b : Nat) :
    errors (blockAt data b) (blockAt (self.deinterleave got) b) ≤ s * ((blockTotal - 1) / (self.depth - 1) + 1) := by
  have cells : (Finset.range s ×ˢ Finset.range ((blockTotal - 1) / (self.depth - 1) + 1)).card =
      s * ((blockTotal - 1) / (self.depth - 1) + 1) := by
    rw [Finset.card_product, Finset.card_range, Finset.card_range]
  rw [← cells]
  refine Finset.card_le_card_of_injOn (fun j => ((rank data.length self.depth (b * blockTotal + j) - first) / (data.length / self.depth),
    j / (self.depth - 1))) (fun j member => ?_) (fun i left j right same => ?_)
  · obtain ⟨bound,_,low,high⟩ := self.wrongPlace room length outside (Finset.mem_coe.mp member)
    refine Finset.mem_coe.mpr (Finset.mem_product.mpr ⟨Finset.mem_range.mpr ?_,Finset.mem_range.mpr ?_⟩)
    · refine Nat.div_lt_of_lt_mul (Nat.lt_of_lt_of_le ?_ (Nat.le_trans short (Nat.le_of_eq (Nat.mul_comm _ _))))
      omega
    · exact Nat.lt_succ_of_le (Nat.div_le_div_right (by omega))
  · obtain ⟨_,sourceI,lowI,high⟩ := self.wrongPlace room length outside (Finset.mem_coe.mp left)
    obtain ⟨_,sourceJ,lowJ,_⟩ := self.wrongPlace room length outside (Finset.mem_coe.mp right)
    have some : 0 < data.length / self.depth := by
      refine Nat.pos_of_ne_zero (fun none => ?_)
      rw [none, Nat.mul_zero] at short
      omega
    obtain ⟨stretch,part⟩ := Prod.ext_iff.mp same
    have near := quotientNear (q := self.depth - 1) (by omega) part
    have back := quotientNear (q := self.depth - 1) (by omega) part.symm
    have spread := stretchSpread some sourceI sourceJ lowI lowJ stretch
    omega

end Interleaver

/-- A burst over at most this many consecutive bytes; it may write anything there. -/
structure Burst (longest : Nat) (sent got : Bytes) : Prop where
  length : got.length = sent.length
  window : ∃ first count, count ≤ longest ∧ ∀ i, i < first ∨ first + count ≤ i → got[i]? = sent[i]?

theorem Interleaver.burstDamage (self : Interleaver) {data got : Bytes} (room : data.length + self.depth ≤ 2 ^ 64) {s : Nat}
    (burst : Burst (s * (data.length / self.depth)) (self.interleave data) got) (deep : 1 < self.depth) :
    Damaged (s * ((blockTotal - 1) / (self.depth - 1) + 1)) data (self.deinterleave got) := by
  have length : got.length = data.length := burst.length.trans (self.interleavePerm room).length_eq
  obtain ⟨first,count,short,outside⟩ := burst.window
  exact ⟨(self.deinterleaveLength got).trans length,self.burstErrors room length outside short deep⟩

theorem permutationGet {n depth i x : Nat} (positive : 0 < depth) (room : n + depth ≤ 2 ^ 64)
    (here : (permutation n depth)[i]? = some x) : x < n ∧ rank n depth x = i := by
  rw [permutationStride positive room] at here
  have inside := (List.getElem?_eq_some_iff.mp here).1
  rw [(stridePerm positive n).length_eq, List.length_range] at inside
  obtain ⟨y,found,below,place⟩ := strideGet positive inside
  cases Option.some.inj (here.symm.trans found)
  exact ⟨below,place⟩

structure Interleaves (il : Interleaver) (data : Bytes) : Prop where
  sources : (permutation data.length il.depth).Perm (List.range data.length)
  permuted : (il.interleave data).Perm data
  inverse : il.deinterleave (il.interleave data) = data
  spread : ∀ i j x y, i < j → j < i + data.length / il.depth → (permutation data.length il.depth)[i]? = some x →
    (permutation data.length il.depth)[j]? = some y → x + (il.depth - 1) ≤ y ∨ y + (il.depth - 1) ≤ x

theorem interleaves (il : Interleaver) {data : Bytes} (room : data.length + il.depth ≤ 2 ^ 64) : Interleaves il data := by
  refine ⟨permutationPerm il.positive room,il.interleavePerm room,il.deinterleaveInterleave room,?_⟩
  intro i j x y before near first second
  obtain ⟨belowX,rankX⟩ := permutationGet il.positive room first
  obtain ⟨belowY,rankY⟩ := permutationGet il.positive room second
  exact rankSpread belowX belowY (by omega) (by omega)

def standard : Interleaver := ⟨defaultInterleaverDepth,by decide⟩

theorem encodeRoom {codec : FecCodec} (kind : codec.eccLen = fecEccLen) {data : Bytes} (short : data.length ≤ 2 ^ 32) :
    (codec.encode data).length + standard.depth ≤ 2 ^ 64 := by
  have room : codec.eccLen < blockTotal := by
    rw [kind]
    decide
  have size : codec.blockData = 223 := by
    rw [FecCodec.blockData, kind]
    rfl
  have count := (divCeilCovers (a := prefixLen + data.length) (FecCodec.dataPositive room)).2
  rw [FecCodec.encodeLength room, FecCodec.blockCount]
  rw [size] at count ⊢
  unfold prefixLen at count ⊢
  change _ * 255 + 100 ≤ 2 ^ 64
  omega

theorem burstCorrected (library : ∀ eccLen, RsCodec eccLen) :
    let codec := FecCodec.new library
    (codec.rs.Corrects → ∀ data : Bytes, data.length < 2 ^ 32 → ∀ got,
      Burst (5 * ((standard.interleave (codec.encode data)).length / 100)) (standard.interleave (codec.encode data)) got →
      codec.decode (standard.deinterleave got) = some (.ok data)) ∧
    ∀ (il : Interleaver) (data : Bytes), data.length + il.depth ≤ 2 ^ 64 → Interleaves il data := by
  intro codec
  refine ⟨fun corrects data short got burst => ?_,fun il data room => interleaves il room⟩
  have room : (codec.encode data).length + standard.depth ≤ 2 ^ 64 := encodeRoom rfl (Nat.le_of_lt short)
  rw [(standard.interleavePerm room).length_eq] at burst
  have damaged := standard.burstDamage room burst (by decide)
  -- three bytes of a block for each of the five stretches
  have few : 5 * ((blockTotal - 1) / (standard.depth - 1) + 1) ≤ fecEccLen / 2 := by decide
  have room : codec.eccLen < blockTotal := by
    show fecEccLen < blockTotal
    decide
  exact FecCodec.decodeCorrected room short (FecCodec.correctedOf room corrects ⟨damaged.length,fun b => Nat.le_trans (damaged.few b) few⟩)

def windowStruck (first count : Nat) : Bytes → Bytes := struck fun i => first ≤ i ∧ i < first + count

theorem burstCorrectedStruck :
    (FecCodec.new interpolating).decode (standard.deinterleave (windowStruck 100 25
      (standard.interleave ((FecCodec.new interpolating).encode (List.replicate 300 0xA5))))) = some (.ok (List.replicate 300 0xA5)) ∧
      Interleaves ⟨7,by decide⟩ [3,1,4,1,5,9,2,6] := by
  refine ⟨(burstCorrected interpolating).1 (interpolatingCorrects _) _ (by rw [List.length_replicate]; decide) _ ?_,
    (burstCorrected interpolating).2 _ _ (by decide)⟩
  have room : ((FecCodec.new interpolating).encode (List.replicate 300 0xA5)).length + standard.depth ≤ 2 ^ 64 :=
    encodeRoom rfl (by rw [List.length_replicate]; decide)
  have length : (standard.interleave ((FecCodec.new interpolating).encode (List.replicate 300 0xA5))).length = 510 := by
    rw [(standard.interleavePerm room).length_eq, FecCodec.encodeLength (by decide), FecCodec.blockCount, List.length_replicate]
    rfl
  refine ⟨struckLength _ _,100,25,by rw [length],fun i away => struckElsewhere (decide_eq_false (by omega)) _⟩

theorem burstNotForAll : (FecCodec.new interpolating).rs.Corrects ∧
    (FecCodec.new interpolating).decode (standard.deinterleave (standard.interleave
      ((FecCodec.new interpolating).encode (List.replicate (2 ^ 32) 0)))) ≠ some (.ok (List.replicate (2 ^ 32) 0)) ∧
    ¬ (permutation 3 (2 ^ 64 - 1)).Perm (List.range 3) := by
  refine ⟨interpolatingCorrects _,?_,by decide⟩
  have length : (List.replicate (2 ^ 32) (0 : UInt8)).length = 2 ^ 32 := List.length_replicate
  generalize List.replicate (2 ^ 32) (0 : UInt8) = data at length ⊢
  rw [standard.deinterleaveInterleave (encodeRoom rfl (Nat.le_of_eq length)), FecCodec.decodeWrapped (by decide) (interpolatingCorrects _) length]
  intro same
  rw [← Except.ok.inj (Option.some.inj same)] at length
  exact absurd length (by decide)

end OpenPulse.Interleave
