import OpenPulse.Ldpc174

/-! The 79 tones of a JS8 frame: `plugins/js8/src/tones.rs`, with the sync arrays of
`costas.rs` and the layout of `submode.rs`. A data tone is three bits of the codeword. -/
namespace OpenPulse.Js8
open Patches

def numSymbols : Nat := 79
def costasBlockStarts : List Nat := [0,36,72]

def original : List Nat := [4,2,5,6,1,3,0]

def modified : List (List Nat) := [
  [0,6,2,3,5,4,1],
  [1,5,0,2,3,6,4],
  [2,5,0,6,4,1,3]]

inductive CostasKind where
  | original
  | modified
  deriving DecidableEq

def CostasKind.block : CostasKind → Nat → List Nat
  | .original, _ => Js8.original
  | .modified, block => Js8.modified.getD (block % 3) []

def dataPositions : List Nat := List.range' 7 29 ++ List.range' 43 29

def syncTones (costas : CostasKind) : List Nat :=
  overwriteAll (List.replicate numSymbols 0) (costasBlockStarts.zipIdx.map fun x => ⟨x.1,costas.block x.2⟩)

def tone (codeword : List Bool) (j : Nat) : Nat :=
  (codeword.getD (3 * j) false).toNat * 4 + (codeword.getD (3 * j + 1) false).toNat * 2 + (codeword.getD (3 * j + 2) false).toNat

def codewordToTones (codeword : Word 174) (costas : CostasKind) : List Nat :=
  placeAll (syncTones costas) (dataPositions.zip ((List.range 58).map (tone codeword.val)))

def toneBits (t : Nat) : List Bool := [t.testBit 2,t.testBit 1,t.testBit 0]

theorem toneBitsLength (itone : List Nat) : (dataPositions.flatMap fun pos => toneBits (itone.getD pos 0)).length = 174 := by
  simp [List.length_flatMap, toneBits, dataPositions]

def tonesToCodeword (itone : List Nat) : Word 174 :=
  ⟨dataPositions.flatMap fun pos => toneBits (itone.getD pos 0),toneBitsLength itone⟩

def messageToTones (info : Word 87) (costas : CostasKind) : List Nat := codewordToTones (encode174 info) costas

theorem syncTonesLength (costas : CostasKind) : (syncTones costas).length = 79 := by
  cases costas <;> decide

theorem dataPositionsOnce : dataPositions.Nodup := by decide

theorem dataPositionsInside : ∀ pos ∈ dataPositions, pos < 79 := by decide

theorem toneBack (codeword : List Bool) (j : Nat) : toneBits (tone codeword j) =
    [codeword.getD (3 * j) false,codeword.getD (3 * j + 1) false,codeword.getD (3 * j + 2) false] := by
  unfold tone
  generalize codeword.getD (3 * j) false = a
  generalize codeword.getD (3 * j + 1) false = b
  generalize codeword.getD (3 * j + 2) false = c
  revert a b c
  decide

theorem threes (n : Nat) {word : List Bool} (length : word.length = 3 * n) :
    ((List.range n).flatMap fun j => [word.getD (3 * j) false,word.getD (3 * j + 1) false,word.getD (3 * j + 2) false]) = word := by
  induction n generalizing word with
  | zero => exact (List.eq_nil_of_length_eq_zero length).symm
  | succ n ih =>
    rcases word with _ | ⟨a,_ | ⟨b,_ | ⟨c,rest⟩⟩⟩
    iterate 3 (simp only [List.length_cons, List.length_nil] at length; omega)
    have rest' : rest.length = 3 * n := by
      simp only [List.length_cons] at length
      omega
    rw [List.range_succ_eq_map, List.flatMap_cons, List.flatMap_map]
    have later : ∀ j : Nat, [(a::b::c::rest).getD (3 * j.succ) false,(a::b::c::rest).getD (3 * j.succ + 1) false,
        (a::b::c::rest).getD (3 * j.succ + 2) false] =
        [rest.getD (3 * j) false,rest.getD (3 * j + 1) false,rest.getD (3 * j + 2) false] := by
      intro j
      simp only [show 3 * j.succ = 3 * j + 1 + 1 + 1 by omega, List.getD_cons_succ]
    simp only [later, ih rest']
    rfl

theorem dataPositionsIndexed : dataPositions = (List.range 58).map fun j => dataPositions.getD j 0 := by decide

theorem toneAt (codeword : Word 174) (costas : CostasKind) {j : Nat} (inside : j < 58) :
    (codewordToTones codeword costas).getD (dataPositions.getD j 0) 0 = tone codeword.val j := by
  have same : dataPositions.length = ((List.range 58).map (tone codeword.val)).length := by
    rw [List.length_map, List.length_range]
    rfl
  have room : ∀ pos ∈ dataPositions, pos < (syncTones costas).length := by
    rw [syncTonesLength]
    exact dataPositionsInside
  rw [codewordToTones, placeAllOrder dataPositionsOnce same room inside, List.getD_eq_getElem?_getD, List.getElem?_map,
    List.getElem?_range inside]
  rfl

theorem tonesBack (codeword : Word 174) (costas : CostasKind) : tonesToCodeword (codewordToTones codeword costas) = codeword := by
  have read : (dataPositions.flatMap fun pos => toneBits ((codewordToTones codeword costas).getD pos 0)) = codeword.val := by
    rw [dataPositionsIndexed, List.flatMap_map]
    refine (List.flatMap_congr fun j member => ?_).trans (threes 58 codeword.property)
    rw [toneAt codeword costas (List.mem_range.mp member), toneBack]
  exact Subtype.ext read

/-- A frame comes back from its tones, and the checks on a word hold of the codewords only. -/
theorem linkPipeline :
    (∀ (payload9 : Payload) (flag : Fin 8) (costas : CostasKind),
      checkInfoCrc (infoOf (tonesToCodeword (messageToTones (js8InfoBits payload9 (UInt8.ofNat flag)) costas))) =
        some (payload9,UInt8.ofNat flag)) ∧
    (∀ message : Word 87, paritySyndrome (encode174 message) = List.replicate 87 false) ∧
    ∀ word : Word 174, paritySyndrome word = List.replicate 87 false ↔ encode174 (infoOf word) = word := by
  refine ⟨fun payload9 flag costas => ?_,encodeSyndrome,syndromeIff⟩
  have low : UInt8.ofNat flag &&& 7 = UInt8.ofNat flag := by
    revert flag
    decide
  rw [messageToTones, tonesBack, infoEncode, checkInfo, low]

end OpenPulse.Js8
