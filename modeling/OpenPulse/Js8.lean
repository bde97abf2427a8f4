import Mathlib.Algebra.Group.Nat.Defs
import OpenPulse.B2f
import OpenPulse.PrefixCode

/-! JS8 frames as the discovery beacon sends and hears them: `plugins/js8/src/encode.rs`,
`grammar.rs`, `varicode.rs`, `frame.rs` and the frame sequences of `beacon.rs`. A
payload has 72 bits. Texts are lists of characters. The word dictionary behind
compressed data frames is a parameter: no frame built here uses it. -/
namespace OpenPulse.Js8
open ByteCodec
open B2f (trim)

abbrev Payload := Octets 9

def alphanumeric : List Char := "0123456789ABCDEFGHIJKLMNOPQRSTUVWXYZ /@".toList

def alnumIndex (c : Char) : Nat := (alphanumeric.idxOf? c).getD 0

def callsignChar (c : Char) : Bool := c.isUpper || c.isDigit || c == ' ' || c == '/' || c == '@'

def separatedAt (i : Nat) (word : List Char) : List Char :=
  if i < word.length ∧ word.getD i ' ' ≠ '/' then word.insertIdx i ' ' else word

def callsignWord (value : List Char) : List Char :=
  let word := separatedAt 7 (separatedAt 3 (value.filter callsignChar))
  word ++ List.replicate (11 - word.length) ' '

def isSlash (c : Char) : Nat := if c = '/' then 1 else 0

def packAlphanumeric50 (value : List Char) : Nat :=
  let at' (i : Nat) : Char := (callsignWord value).getD i ' '
  (38 * 38 * 38 * 2 * 38 * 38 * 38 * 2 * 38 * 38) * alnumIndex (at' 0) +
    (38 * 38 * 38 * 2 * 38 * 38 * 38 * 2 * 38) * alnumIndex (at' 1) +
    (38 * 38 * 38 * 2 * 38 * 38 * 38 * 2) * alnumIndex (at' 2) +
    (38 * 38 * 38 * 2 * 38 * 38 * 38) * isSlash (at' 3) +
    (38 * 38 * 38 * 2 * 38 * 38) * alnumIndex (at' 4) +
    (38 * 38 * 38 * 2 * 38) * alnumIndex (at' 5) +
    (38 * 38 * 38 * 2) * alnumIndex (at' 6) +
    (38 * 38 * 38) * isSlash (at' 7) +
    (38 * 38) * alnumIndex (at' 8) +
    38 * alnumIndex (at' 9) +
    alnumIndex (at' 10)

def charAt (i : Nat) : Char := alphanumeric.getD i ' '

def slashOr (flag : Nat) : Char := if flag = 1 then '/' else ' '

/- The leading character is read modulo 39, not 38. -/
def unpackAlphanumeric50 (packed : Nat) : List Char :=
  let w10 := charAt (packed % 38)
  let packed := packed / 38
  let w9 := charAt (packed % 38)
  let packed := packed / 38
  let w8 := charAt (packed % 38)
  let packed := packed / 38
  let w7 := slashOr (packed % 2)
  let packed := packed / 2
  let w6 := charAt (packed % 38)
  let packed := packed / 38
  let w5 := charAt (packed % 38)
  let packed := packed / 38
  let w4 := charAt (packed % 38)
  let packed := packed / 38
  let w3 := slashOr (packed % 2)
  let packed := packed / 2
  let w2 := charAt (packed % 38)
  let packed := packed / 38
  let w1 := charAt (packed % 38)
  let packed := packed / 38
  let w0 := charAt (packed % 39)
  [w0,w1,w2,w3,w4,w5,w6,w7,w8,w9,w10].filter (· != ' ')

inductive FrameType where
  | heartbeat | compound | compoundDirected | directed | data
  deriving DecidableEq, Repr

def FrameType.fromFlag : Nat → FrameType
  | 0 => heartbeat
  | 1 => compound
  | 2 => compoundDirected
  | 3 => directed
  | _ => data

structure CompoundFrame where
  frameType : FrameType
  callsign : List Char
  num : UInt16
  deriving DecidableEq, Repr

def compoundFlag : FrameType → Option Nat
  | .heartbeat => some 0
  | .compound => some 1
  | .compoundDirected => some 2
  | .directed | .data => none

def compoundBytes (flag callsign50 : Nat) (num : UInt16) (bits3 : UInt8) : Bytes :=
  be 8 (flag * 2 ^ 61 + callsign50 * 2 ^ 11 + num.toNat / 32 % 2048) ++
    [UInt8.ofNat (num.toNat % 32 * 8 + bits3.toNat % 8)]

theorem compoundLength (flag callsign50 : Nat) (num : UInt16) (bits3 : UInt8) :
    (compoundBytes flag callsign50 num bits3).length = 9 := by
  simp [compoundBytes]

def packCompoundFrame (callsign : List Char) (frameType : FrameType) (num : UInt16) (bits3 : UInt8) : Option Payload :=
  match compoundFlag frameType with
  | none => none
  | some flag =>
    let callsign50 := packAlphanumeric50 callsign
    if callsign50 = 0 then none
    else some ⟨compoundBytes flag callsign50 num bits3,compoundLength flag callsign50 num bits3⟩

def unpackCompoundFrame (payload9 : Payload) : Option CompoundFrame :=
  let value64 := readBe (payload9.val.take 8)
  let packed8 := (payload9.val.getD 8 0).toNat
  let flag := value64 / 2 ^ 61 % 8
  if 3 ≤ flag then none
  else
    let callsign50 := value64 / 2 ^ 11 % 2 ^ 50
    let packed11 := value64 % 2 ^ 11
    let packed5 := packed8 / 8
    some ⟨FrameType.fromFlag flag,unpackAlphanumeric50 callsign50,UInt16.ofNat (packed11 * 32 + packed5)⟩

/- The source computes in floating point on small whole numbers and constants of
halves, fifths and twelfths. No value lies near enough to a whole number for the
rounding to show, so the fractions are kept exactly. -/
def gridInvalid : UInt16 := 32767

def byteHead : Nat → List Char → Option (List Char)
  | 0, _ => some []
  | _, [] => some []
  | room + 1, c::cs =>
    if c.utf8Size ≤ room + 1 then (byteHead (room + 1 - c.utf8Size) cs).map (c :: ·) else none

/- None where the source panics: it slices four bytes off the first four characters. -/
def packGrid (value : List Char) : Option UInt16 :=
  let grid := trim value
  if grid.length < 4 then some gridInvalid
  else (byteHead 4 (grid.take 4)).map fun head =>
    let g (i : Nat) : Int := ((utf8 (String.ofList (head.map Char.toUpper))).getD i 0).toNat
    let nlong := 180 - 20 * (g 0 - 65)
    let n20d := 2 * (g 2 - 48)
    let nlat := -90 + 10 * (g 1 - 65) + (g 3 - 48)
    let ilong := (24 * (nlong - n20d) - 25).tdiv 24 -- the column centre lies 62.5 minutes in
    let ilat := (48 * (nlat + 90) + 25).tdiv 48     -- and the row centre 31.25
    UInt16.ofNat (((ilong + 180).tdiv 2 * 180 + ilat) % 65536).toNat

def nbaseGrid : Nat := 180 * 180

def unpackGrid (value : Nat) : List Char :=
  if nbaseGrid < value then []
  else
    let dlat : Int := (value % 180 : Nat) - 90
    let dlong : Int := (value / 180 : Nat) * 2 - 180 + 2
    let dlong := if 180 < dlong then dlong - 360 else dlong
    let nlong := (12 * (180 - dlong)).toNat
    let nlat := (24 * (dlat + 90)).toNat
    [Char.ofNat (65 + nlong / 240),Char.ofNat (65 + nlat / 240),Char.ofNat (48 + nlong % 240 / 24),
      Char.ofNat (48 + nlat % 240 / 24)]

def bitString (s : String) : List Bool := s.toList.map (· == '1')

def huffTable : PrefixCode.Table Char := [
  (' ',bitString "01"),
  ('E',bitString "100"),
  ('T',bitString "1101"),
  ('A',bitString "0011"),
  ('O',bitString "11111"),
  ('I',bitString "11100"),
  ('N',bitString "10111"),
  ('S',bitString "10100"),
  ('H',bitString "00011"),
  ('R',bitString "00000"),
  ('D',bitString "111011"),
  ('L',bitString "110011"),
  ('C',bitString "110001"),
  ('U',bitString "101101"),
  ('M',bitString "101011"),
  ('W',bitString "001011"),
  ('F',bitString "001001"),
  ('G',bitString "000101"),
  ('Y',bitString "000011"),
  ('P',bitString "1111011"),
  ('B',bitString "1111001"),
  ('.',bitString "1110100"),
  ('V',bitString "1100101"),
  ('K',bitString "1100100"),
  ('-',bitString "1100001"),
  ('+',bitString "1100000"),
  ('?',bitString "1011001"),
  ('!',bitString "1011000"),
  ('"',bitString "1010101"),
  ('X',bitString "1010100"),
  ('0',bitString "0010101"),
  ('J',bitString "0010100"),
  ('1',bitString "0010001"),
  ('Q',bitString "0010000"),
  ('2',bitString "0001001"),
  ('Z',bitString "0001000"),
  ('3',bitString "0000101"),
  ('5',bitString "0000100"),
  ('4',bitString "11110101"),
  ('9',bitString "11110100"),
  ('8',bitString "11110001"),
  ('6',bitString "11110000"),
  ('7',bitString "11101011"),
  ('/',bitString "11101010")]

def byteBits (b : UInt8) : List Bool := [7,6,5,4,3,2,1,0].map fun k => b.toNat.testBit k

def bitsByte (bits : List Bool) : UInt8 := UInt8.ofNat (bits.foldl (fun n b => 2 * n + b.toNat) 0)

def bitsBytes : Nat → List Bool → Bytes
  | 0, _ => []
  | n + 1, bits => bitsByte (bits.take 8) :: bitsBytes n (bits.drop 8)

theorem bitsBytesLength (n : Nat) (bits : List Bool) : (bitsBytes n bits).length = n := by
  induction n generalizing bits with
  | zero => rfl
  | succ n ih => simp [bitsBytes, ih]

def bits72 (p : Payload) : List Bool := p.val.flatMap byteBits

def frameSize : Nat := 72

def huffRow (ch : Char) : Option (Char × List Bool) := huffTable.find? fun row => row.1 == ch.toUpper

def fillBits : List Bool → List Char → List Bool × Nat
  | bits, [] => (bits,0)
  | bits, ch::text =>
    match huffRow ch with
    | none => (bits,0)
    | some row =>
      if frameSize ≤ bits.length + row.2.length then (bits,0)
      else ((fillBits (bits ++ row.2) text).1,(fillBits (bits ++ row.2) text).2 + 1)

def padBits (bits : List Bool) : List Bool := bits ++ (List.range (frameSize - bits.length)).map (· != 0)

def packHuffFrame (text : List Char) : Payload × Nat :=
  let filled := fillBits [true,false] text
  (⟨bitsBytes 9 (padBits filled.1),bitsBytesLength 9 _⟩,filled.2)

def unpackDataMessage (jscDecompress : List Bool → List Char) (p : Payload) : Option (List Char) :=
  match bits72 p with
  | true::b71 =>
    -- everything up to the last zero; the ones behind it are padding
    match b71.reverse.dropWhile id with
    | [] => none
    | _::front =>
      let content := front.reverse.drop 1
      some (if b71.headD false then jscDecompress content else PrefixCode.decode huffTable content)
  | _ => none

structure BeaconFrame where
  payload : Payload
  i3bit : UInt8
  deriving DecidableEq

/- The free text takes at most one frame a character. -/
def dataFrames : Nat → List Char → List Payload
  | 0, _ => []
  | fuel + 1, rest =>
    if rest.isEmpty then []
    else if (packHuffFrame rest).2 = 0 then []
    else (packHuffFrame rest).1 :: dataFrames fuel (rest.drop (packHuffFrame rest).2)

def flagLast : List BeaconFrame → List BeaconFrame
  | [] => []
  | [last] => [{ last with i3bit := 2 }]
  | f::fs => f :: flagLast fs

def flagFirst : List BeaconFrame → List BeaconFrame
  | [] => []
  | first::fs => { first with i3bit := 1 } :: fs

def buildOver (sender grid target freeText : List Char) : Option (List BeaconFrame) :=
  (packGrid grid).map fun num =>
    match packCompoundFrame sender .compound num 0, packCompoundFrame target .compoundDirected 0 0 with
    | some senderFrame, some targetFrame =>
      flagLast (flagFirst ((senderFrame :: targetFrame :: dataFrames freeText.length freeText).map (⟨·,0⟩)))
    | _, _ => []

def opulseHint (sender grid freeText : List Char) : Option (List BeaconFrame) :=
  buildOver sender grid "@OPULSE".toList freeText

def directed (sender grid target freeText : List Char) : Option (List BeaconFrame) := buildOver sender grid target freeText

end OpenPulse.Js8
