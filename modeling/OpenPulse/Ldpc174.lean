import Mathlib.Data.List.Perm.Subperm
import OpenPulse.BinaryLinear
import OpenPulse.Js8Message
import OpenPulse.Patches

/-! The LDPC(174,87) code of JS8: `plugins/js8/src/ldpc174.rs`. The rows that make the
parity bits and the checks on a codeword come from two tables; that they describe one code
is a matter of these numbers, and checked by sums of rows. -/
namespace OpenPulse.Js8
open BinaryLinear Patches

/- A row has 88 bits, the first column highest and the last bit unused. -/
def gHex : List Nat := [
  0x23bba830e23b6b6f50982e,0x1f8e55da218c5df3309052,0xca7b3217cd92bd59a5ae20,0x56f78313537d0f4382964e,
  0x29c29dba9c545e267762fe,0x6be396b5e2e819e373340c,0x293548a138858328af4210,0xcb6c6afcdc28bb3f7c6e86,
  0x3f2a86f5c5bd225c961150,0x849dd2d63673481860f62c,0x56cdaec6e7ae14b43feeee,0x04ef5cfa3766ba778f45a4,
  0xc525ae4bd4f627320a3974,0xfe37802941d66dde02b99c,0x41fd9520b2e4abeb2f989c,0x40907b01280f03c0323946,
  0x7fb36c24085a34d8c1dbc4,0x40fc3e44bb7d2bb2756e44,0xd38ab0a1d2e52a8ec3bc76,0x3d0f929ef3949bd84d4734,
  0x45d3814f504064f80549ae,0xf14dbf263825d0bd04b05e,0xf08a91fb2e1f78290619a8,0x7a8dec79a51e8ac5388022,
  0xca4186dd44c3121565cf5c,0xdb714f8f64e8ac7af1a76e,0x8d0274de71e7c1a8055eb0,0x51f81573dd4049b082de14,
  0xd037db825175d851f3af00,0xd8f937f31822e57c562370,0x1bf1490607c54032660ede,0x1616d78018d0b4745ca0f2,
  0xa9fa8e50bcb032c85e3304,0x83f640f1a48a8ebc0443ea,0xeca9afa0f6b01d92305edc,0x3776af54ccfbae916afde6,
  0x6abb212d9739dfc02580f2,0x05209a0abb530b9e7e34b0,0x612f63acc025b6ab476f7c,0x0af7723161ec223080be86,
  0xa8fc906976c35669e79ce0,0x45b7ab6242b77474d9f11a,0xb274db8abd3c6f396ea356,0x9059dfa2bb20ef7ef73ad4,
  0x3d188ea477f6fa41317a4e,0x8d9071b7e7a6a2eed6965e,0xa377253773ea678367c3f6,0xecbd7c73b9cd34c3720c8a,
  0xb6537f417e61d1a7085336,0x6c280d2a0523d9c4bc5946,0xd36d662a69ae24b74dcbd8,0xd747bfc5fd65ef70fbd9bc,
  0xa9fa2eefa6f8796a355772,0xcc9da55fe046d0cb3a770c,0xf6ad4824b87c80ebfce466,0xcc6de59755420925f90ed2,
  0x164cc861bdd803c547f2ac,0xc0fc3ec4fb7d2bb2756644,0x0dbd816fba1543f721dc72,0xa0c0033a52ab6299802fd2,
  0xbf4f56e073271f6ab4bf80,0x57da6d13cb96a7689b2790,0x81cfc6f18c35b1e1f17114,0x481a2a0df8a23583f82d6c,
  0x1ac4672b549cd6dba79bcc,0xc87af9a5d5206abca532a8,0x97d4169cb33e7435718d90,0xa6573f3dc8b16c9d19f746,
  0x2c4142bf42b01e71076acc,0x081c29a10d468ccdbcecb6,0x5b0f7742bca86b8012609a,0x012dee2198eba82b19a1da,
  0xf1627701a2d692fd9449e6,0x35ad3fb0faeb5f1b0c30dc,0xb1ca4ea2e3d173bad4379c,0x37d8e0af9258b9e8c5f9b2,
  0xcd921fdf59e882683763f6,0x6114e08483043fd3f38a8a,0x2e547dd7a05f6597aac516,0x95e45ecd0135aca9d6e6ae,
  0xb33ec97be83ce413f9acc8,0xc8b5dffc335095dcdcaf2a,0x3dd01a59d86310743ec752,0x14cd0f642fc0c5fe3a65ca,
  0x3a0a1dfd7eee29c2e827e0,0x8abdb889efbe39a510a118,0x3f231f212055371cf3e2a2]

def colorder : List Nat := [
  0,1,2,3,30,4,5,6,7,8,9,10,11,32,12,40,13,14,15,16,17,18,37,45,29,19,20,21,41,
  22,42,31,33,34,44,35,47,51,50,43,36,52,63,46,25,55,27,24,23,53,39,49,59,38,48,61,60,57,
  28,62,56,58,65,66,26,70,64,69,68,67,74,71,54,76,72,75,78,77,80,79,73,83,84,81,82,85,86,
  87,88,89,90,91,92,93,94,95,96,97,98,99,100,101,102,103,104,105,106,107,108,109,110,111,112,113,114,115,
  116,117,118,119,120,121,122,123,124,125,126,127,128,129,130,131,132,133,134,135,136,137,138,139,140,141,142,143,144,
  145,146,147,148,149,150,151,152,153,154,155,156,157,158,159,160,161,162,163,164,165,166,167,168,169,170,171,172,173]

/- Places from one; a check uses as many as `nrw` says. -/
def nm : List (List Nat) := [
  [1,30,60,89,118,147,0],[2,31,61,90,119,147,0],[3,32,62,91,120,148,0],[4,33,63,92,121,149,0],
  [2,34,64,93,122,150,0],[5,33,65,94,123,148,0],[6,34,66,95,124,151,0],[7,35,67,96,120,152,0],
  [8,36,68,97,125,153,0],[9,37,69,98,126,152,0],[10,38,70,99,127,154,0],[11,39,71,100,126,155,0],
  [12,40,61,101,128,145,0],[10,33,60,95,128,156,0],[13,41,72,97,126,157,0],[13,42,73,90,129,156,0],
  [14,39,74,99,130,158,0],[15,43,75,102,131,159,0],[16,43,71,103,118,160,0],[17,44,76,98,130,156,0],
  [18,45,60,96,132,161,0],[19,46,73,83,133,162,0],[12,38,77,102,134,163,0],[19,47,78,104,135,147,0],
  [1,32,77,105,136,164,0],[20,48,73,106,123,163,0],[21,41,79,107,137,165,0],[22,42,66,108,138,152,0],
  [18,42,80,109,139,154,0],[23,49,81,110,135,166,0],[16,50,82,91,129,158,0],[3,48,63,107,124,167,0],
  [6,51,67,111,134,155,0],[24,35,77,100,122,162,0],[20,45,76,112,140,157,0],[21,36,64,92,130,159,0],
  [8,52,83,111,118,166,0],[21,53,84,113,138,168,0],[25,51,79,89,122,158,0],[22,44,75,107,133,155,172],
  [9,54,84,90,141,169,0],[22,54,85,110,136,161,0],[8,37,65,102,129,170,0],[19,39,85,114,139,150,0],
  [26,55,71,93,142,167,0],[27,56,65,96,133,160,174],[28,31,86,100,117,171,0],[28,52,70,104,132,144,0],
  [24,57,68,95,137,142,0],[7,30,72,110,143,151,0],[4,51,76,115,127,168,0],[16,45,87,114,125,172,0],
  [15,30,86,115,123,150,0],[23,46,64,91,144,173,0],[23,35,75,113,145,153,0],[14,41,87,108,117,149,170],
  [25,40,85,94,124,159,0],[25,58,69,116,143,174,0],[29,43,61,116,132,162,0],[15,58,88,112,121,164,0],
  [4,59,72,114,119,163,173],[27,47,86,98,134,153,0],[5,44,78,109,141,0,0],[10,46,69,103,136,165,0],
  [9,50,59,93,128,164,0],[14,57,58,109,120,166,0],[17,55,62,116,125,154,0],[3,54,70,101,140,170,0],
  [1,36,82,108,127,174,0],[5,53,81,105,140,0,0],[29,53,67,99,142,173,0],[18,49,74,97,115,167,0],
  [2,57,63,103,138,157,0],[26,38,79,112,135,171,0],[11,52,66,88,119,148,0],[20,40,68,117,141,160,0],
  [11,48,81,89,146,169,0],[29,47,80,92,146,172,0],[6,32,87,104,145,169,0],[27,34,74,106,131,165,0],
  [12,56,84,88,139,0,0],[13,56,62,111,146,171,0],[26,37,80,105,144,151,0],[17,31,82,113,121,161,0],
  [28,49,59,94,137,0,0],[7,55,83,101,131,168,0],[24,50,78,106,143,149,0]]

def nrw : List Nat := [
  6,6,6,6,6,6,6,6,6,6,6,6,6,6,6,6,6,6,6,6,6,6,6,6,6,6,6,6,6,
  6,6,6,6,6,6,6,6,6,6,7,6,6,6,6,6,7,6,6,6,6,6,6,6,6,6,7,6,6,
  6,6,7,6,5,6,6,6,6,6,6,5,6,6,6,6,6,6,6,6,6,6,5,6,6,6,5,6,6]

def genBit (row col : Nat) : Bool := (gHex.getD row 0).testBit (87 - col)

def systematic (message : List Bool) : List Bool := (List.range 87).map (fun i => dot (genBit i) message) ++ message

def encode174 (message : Word 87) : Word 174 :=
  ⟨placeAll (List.replicate 174 false) (colorder.zip (systematic message.val)),by
    rw [placeAllLength, List.length_replicate]⟩

def checkPlaces (i : Nat) : List Nat := ((nm.getD i []).take (nrw.getD i 0)).map (· - 1)

def paritySyndrome (codeword : Word 174) : List Bool := (List.range 87).map fun i => sumAt codeword.val (checkPlaces i)

theorem colorderLength : colorder.length = 174 := by decide +kernel

def infoOf (cw : Word 174) : Word 87 := ⟨(colorder.map fun v => cw.val.getD v false).drop 87,by
  rw [List.length_drop, List.length_map, colorderLength]⟩

theorem colorderMask : maskOf colorder = 2 ^ 174 - 1 := by decide +kernel

theorem colorderAll {d : Nat} (inside : d < 174) : d ∈ colorder := by
  refine maskMem ?_
  rw [colorderMask, Nat.testBit_two_pow_sub_one]
  exact decide_eq_true inside

theorem colorderPerm : (List.range 174).Perm colorder := by
  refine (List.subperm_of_subset List.nodup_range fun d member => colorderAll (List.mem_range.mp member)).perm_of_length_le ?_
  rw [colorderLength, List.length_range]

theorem colorderOnce : colorder.Nodup := colorderPerm.nodup_iff.mp List.nodup_range

theorem colorderInside : ∀ d ∈ colorder, d < 174 := fun _ member => List.mem_range.mp (colorderPerm.mem_iff.mpr member)

theorem systematicLength (message : Word 87) : (systematic message.val).length = 174 := by
  rw [systematic, List.length_append, List.length_map, List.length_range, message.property]

theorem encodeAt (message : Word 87) {i : Nat} (inside : i < 174) :
    (encode174 message).val.getD (colorder.getD i 0) false = (systematic message.val).getD i false := by
  have laid : (encode174 message).val = placeAll (List.replicate 174 false) (colorder.zip (systematic message.val)) := by
    rw [encode174]
  have room : ∀ p ∈ colorder, p < (List.replicate 174 false).length := by
    rw [List.length_replicate]
    exact colorderInside
  have place : i < colorder.length := by rwa [colorderLength]
  rw [laid]
  exact placeAllOrder colorderOnce (colorderLength.trans (systematicLength message).symm) room place 0 false

def column (i : Nat) : Nat := if i < 87 then gHex.getD i 0 else 1 <<< (174 - i)

theorem parityCount (message : List Bool) : ((List.range 87).map fun i => dot (genBit i) message).length = 87 := by
  rw [List.length_map, List.length_range]

theorem systematicParity (message : List Bool) {i : Nat} (low : i < 87) :
    (systematic message).getD i false = dot (genBit i) message := by
  rw [systematic, List.getD_append _ _ _ _ (low.trans_eq (parityCount message).symm), List.getD_eq_getElem?_getD,
    List.getElem?_map, List.getElem?_range low]
  rfl

theorem systematicInfo (message : List Bool) (c : Nat) : (systematic message).getD (87 + c) false = message.getD c false := by
  rw [systematic, List.getD_append_right _ _ _ _ (by rw [parityCount]; omega), parityCount, Nat.add_sub_cancel_left]

theorem systematicColumn (message : Word 87) (i : Nat) :
    (systematic message.val).getD i false = dot (fun j => (column i).testBit (87 - j)) message.val := by
  rcases Nat.lt_or_ge i 87 with low | high
  · rw [systematicParity _ low, column, if_pos low]
    rfl
  · obtain ⟨c,rfl⟩ := Nat.exists_eq_add_of_le high
    rw [systematicInfo, ← dotUnit, column, if_neg (by omega)]
    refine dotCongr (fun j bound => ?_)
    rw [message.property] at bound
    rw [Nat.one_shiftLeft, Nat.testBit_two_pow, Bool.beq_eq_decide_eq, decide_eq_decide]
    omega

theorem placeIndex {d : Nat} (inside : d < 174) : ∃ i < 174, colorder.getD i 0 = d := by
  have known := List.idxOf_lt_length_iff.mpr (colorderAll inside)
  exact ⟨colorder.idxOf d,known.trans_eq colorderLength,by rw [List.getD_eq_getElem _ _ known, List.getElem_idxOf]⟩

def rowChecks : List Nat := [
  0x40e5a9ff5f09bdbb641d90,0x652fe571dd2750ab5fc885,0x40f785f429d40c360cc76e,0x2c075e8d9ac9691174fa5c,
  0x091625f01034b0cde6e20d,0x5928dbe815ae399a29325b,0x66becd9a52e5efa8f8b11a,0x64a91a6c701e82c2653531,
  0x20cd157ae7c44ac6ef3e67,0x79f5b70ce2a02a90e2e467,0x6c1386c230c4d3f9072cf5,0x49a75d90fbfe201dd7239c,
  0x767e5cf0286136e50857fa,0x30b753a2549b6c7a370499,0x560390318d6c44d3c1d106,0x2eebf6c2c424c429f0b1ca,
  0x55047cb5beb9ca7d9a3aa4,0x2c9a96e3adcc9fbd860cec,0x6bda99314ed9d22ad88945,0x47d632a36fcca1dc9955bf,
  0x4c91c626d81b63fd920a47,0x62cdedd42f2e11ab5c9e11,0x2b8ab2e2df106aa3be701e,0x5cb4ac7e7491e64f14c217,
  0x1c417c9f3b5602385415fd,0x3ca727a7224730ef45f835,0x3243207b2d77afa6e65386,0x01149971cae9c9e49110fb,
  0x36e33f4d48ad7de3cb9090,0x68d222a95917ed43e93bb3,0x46ca09d096ea9f1473b3b6,0x1d1147eda878e1fc923a74,
  0x51496ba6d0a15ba7a23131,0x0282bd9a2231edea1e84e9,0x10351346bc44dc7eb2022b,0x0625aeac20f1acaa1baa22,
  0x5c4788dbe78609dd4f39a3,0x7e54fbac79ba94128da3f7,0x00956a6c00ca8180830042,0x6b440642f1cf494d66afa1,
  0x49529d30a6f51f26f10885,0x4cd82ea309d6105ab12864,0x34668ed70d860b0cfdf9a4,0x50a1303ecb4f617c9303eb,
  0x3720645b36430128a89252,0x09e552280cc0a9195f2c18,0x39cdcf8c96ee2d4834fb1c,0x1c3dbcd5e999aa0b95e20e,
  0x5f765388d540b3ace8a30d,0x076eb9d4c600b56cb59f85,0x1a479c71e572d683b16d70,0x2d1a8e623121c37ba73ef7,
  0x5ca4d560645fbf8330086c,0x64b7cd7123cd6d2378116f,0x7d22f7e2456fc4a371218c,0x5de6c21981acedca9efd1e,
  0x6c39c081cd13e066b92a8a,0x2c9a96ebadcc9fbd860cec,0x2af3c9555bf97f72ca993c,0x1cb00d2fce52056b43fecd,
  0x799ee85e137555c01c3648,0x54ef386ed381e9eb45da90,0x37f7a63c8244b40f5a806b,0x662ba7f6522f6f287bb158,
  0x607ada624dd5fcf9411afa,0x2d1090e1d8334d3eaf3af3,0x699f884a413555e01e36e2,0x47993420efd4b95ab958eb,
  0x30a72a3c445535b613eee2,0x26e8bbd6c735e66cf49545,0x6a509f333b2600a9f7bf5a,0x78e866f3494880fa3120cc,
  0x1a30f4baee604c1607a8a1,0x5df4ee12f7715c46f627e4,0x60e0af7cc5c139300ac196,0x2c9234e19e03e891f7fa1e,
  0x1ca8d6b9e9536b8b16e24c,0x326cddeae46170d74f9dfa,0x15f0d54b1c7829c0981a3f,0x7a72f96b90b61e0e599ad7,
  0x31b3b1c49d74a75ee32bcb,0x7e9b0ed824a19ffc577be2,0x067a20a50ceb7c88248f7e,0x46c017537ff811117fb7b2,
  0x5e99eed69e7eced4629d90,0x30dbea7c869a9d85d21911,0x7bef8a77fa9d0e546a8b6e]

def rowPlaces (i : Nat) : List Nat := colorder.getD i 0 :: chosen (genBit i) (colorder.drop 87)

def checkMasks : List Nat := (List.range 87).map fun k => maskOf (checkPlaces k)

/- The tables fit: the columns at the places of a check cancel, and a row is the sum of the checks that
`rowChecks` names. -/
theorem tablesAgree :
    (∀ k < 87, (∀ d ∈ checkPlaces k, d < 174) ∧ total ((checkPlaces k).map fun d => column (colorder.idxOf d)) = 0) ∧
      ∀ i < 87, maskOf (rowPlaces i) = total (chosen (rowChecks.getD i 0).testBit checkMasks) := by decide +kernel

theorem encodeSyndrome (message : Word 87) : paritySyndrome (encode174 message) = List.replicate 87 false := by
  refine List.eq_replicate_iff.mpr ⟨by rw [paritySyndrome, List.length_map, List.length_range],fun b member => ?_⟩
  obtain ⟨k,bound,rfl⟩ := List.mem_map.mp member
  have inside := List.mem_range.mp bound
  have bit : ∀ d ∈ checkPlaces k, (encode174 message).val.getD d false =
      dot (fun j => (column (colorder.idxOf d)).testBit (87 - j)) message.val := by
    intro d check
    obtain ⟨i,place,here⟩ := placeIndex ((tablesAgree.1 k inside).1 d check)
    have index : colorder.idxOf d = i := by
      have bound : i < colorder.length := by rwa [colorderLength]
      rw [List.getD_eq_getElem _ _ bound] at here
      rw [← here, colorderOnce.idxOf_getElem i bound]
    rw [index, ← systematicColumn message i, ← encodeAt message place, here]
  have sum := dotTotal (87 - ·) ((checkPlaces k).map fun d => column (colorder.idxOf d)) message.val
  rw [(tablesAgree.1 k inside).2, List.map_map] at sum
  rw [sumAtMap, List.map_congr_left bit]
  have none' : (fun j => Nat.testBit 0 (87 - j)) = fun _ => false := by
    funext j
    exact Nat.zero_testBit _
  rw [none', dotNone] at sum
  exact sum.symm

theorem infoRead (word : Word 174) : (infoOf word).val = (colorder.drop 87).map fun v => word.val.getD v false := by
  rw [infoOf, List.map_drop]

theorem parityRead {word : Word 174} (clear : paritySyndrome word = List.replicate 87 false) {i : Nat} (inside : i < 87) :
    word.val.getD (colorder.getD i 0) false = dot (genBit i) (infoOf word).val := by
  have quiet : ∀ m ∈ chosen (rowChecks.getD i 0).testBit checkMasks, dot (fun j => m.testBit (id j)) word.val = false := by
    intro m member
    obtain ⟨k,bound,rfl⟩ := List.mem_map.mp (memChosen member)
    have check : sumAt word.val (checkPlaces k) ∈ paritySyndrome word := List.mem_map.mpr ⟨k,bound,rfl⟩
    rw [clear] at check
    exact (dotMask (checkPlaces k) word.val).trans (List.eq_of_mem_replicate check)
  have none' : sumAt word.val (rowPlaces i) = false := by
    rw [← dotMask, tablesAgree.2 i inside]
    exact dotTotalQuiet id quiet
  rw [rowPlaces, sumAtCons, ← dotChosen, ← infoRead] at none'
  simpa using none'

theorem infoGet (word : Word 174) (c : Nat) (inside : c < 87) :
    (infoOf word).val.getD c false = word.val.getD (colorder.getD (87 + c) 0) false := by
  have bound : 87 + c < colorder.length := by
    rw [colorderLength]
    omega
  rw [infoRead, List.getD_eq_getElem?_getD, List.getElem?_map, List.getElem?_drop, List.getElem?_eq_getElem bound,
    List.getD_eq_getElem _ _ bound]
  rfl

theorem wordExt {n : Nat} {a b : Word n} (same : ∀ d < n, a.val.getD d false = b.val.getD d false) : a = b := by
  refine Subtype.ext (List.ext_getElem (a.property.trans b.property.symm) fun d left right => ?_)
  have here := same d (left.trans_eq a.property)
  rwa [List.getD_eq_getElem _ _ left, List.getD_eq_getElem _ _ right] at here

theorem infoEncode (message : Word 87) : infoOf (encode174 message) = message := by
  refine wordExt fun c inside => ?_
  rw [infoGet _ c inside, encodeAt message (by omega), systematicInfo]

theorem syndromeIff (word : Word 174) : paritySyndrome word = List.replicate 87 false ↔ encode174 (infoOf word) = word := by
  constructor
  · intro clear
    refine wordExt fun d inside => ?_
    obtain ⟨i,place,rfl⟩ := placeIndex inside
    rw [encodeAt _ place]
    rcases Nat.lt_or_ge i 87 with low | high
    · rw [systematicParity _ low, parityRead clear low]
    · obtain ⟨c,rfl⟩ := Nat.exists_eq_add_of_le high
      rw [systematicInfo, infoGet _ c (by omega)]
  · intro own
    rw [← own]
    exact encodeSyndrome _

end OpenPulse.Js8
