import Mathlib.Data.List.GetD
import OpenPulse.B2fFrames
import OpenPulse.FxCodec
import OpenPulse.Reads
import OpenPulse.StationId

/-! UI frames of AX.25: `openpulse-kiss/src/ax25.rs`, and the callsign gate before the
transmitter of `bridge.rs`. On the wire a callsign is shifted by one bit, which leaves room
for seven; the eighth bit of a byte is lost. -/
namespace OpenPulse.Ax25
open ByteCodec Utf8Cuts
open B2f (isWhitespace trimEnd digitsValue)
open Reads (dropIndex)

structure Ax25Addr where
  callsign : Octets 6
  ssid : UInt8
  deriving DecidableEq

structure Ax25UiFrame where
  dest : Ax25Addr
  src : Ax25Addr
  info : Bytes
  deriving DecidableEq

inductive Ax25Error where
  | tooShort
  | badFrame
  | invalidCallsign
  | invalidSsid (ssid : UInt8)
  deriving DecidableEq

def parseU8 (cs : List Char) : Option UInt8 :=
  let ds := match cs with | '+'::ds => ds | ds => ds
  if ds ≠ [] ∧ ds.all Char.isDigit ∧ digitsValue ds < 256 then some (UInt8.ofNat (digitsValue ds)) else none

def toAsciiUppercase (b : UInt8) : UInt8 := if 97 ≤ b ∧ b ≤ 122 then b - 32 else b

def callPart (s : String) : List Char := s.toList.takeWhile (· != '-')

def ssidOf (s : String) : Option UInt8 :=
  match s.toList.dropWhile (· != '-') with
  | [] => some 0
  | _::digits => parseU8 digits

def padded (call : Bytes) : Bytes := call.map toAsciiUppercase ++ List.replicate (6 - call.length) 0x20

theorem paddedLength {call : Bytes} (fits : call.length ≤ 6) : (padded call).length = 6 := by
  rw [padded, List.length_append, List.length_map, List.length_replicate]
  omega

def ssidByte (ssid : UInt8) (last : Bool) : UInt8 := (0x60 : UInt8) ||| ((ssid &&& (0x0F : UInt8)) <<< (1 : UInt8)) ||| last.toUInt8

def ssidField (b : UInt8) : UInt8 := (b >>> (1 : UInt8)) &&& (0x0F : UInt8)

namespace Ax25Addr

def parse (s : String) : Except Ax25Error Ax25Addr :=
  match ssidOf s with
  | none => .error .invalidCallsign
  | some ssid =>
    if fits : (encoded (callPart s)).length ≤ 6 then
      if 15 < ssid then .error .invalidCallsign else .ok ⟨⟨padded (encoded (callPart s)),paddedLength fits⟩,ssid⟩
    else .error .invalidCallsign

def toWire (self : Ax25Addr) (last : Bool) : Bytes :=
  self.callsign.val.map (fun b : UInt8 => b <<< 1) ++ [ssidByte self.ssid last]

def validate (self : Ax25Addr) : Except Ax25Error Unit := if 15 < self.ssid then .error (.invalidSsid self.ssid) else .ok ()

def fromWire (raw : Octets 7) : Ax25Addr :=
  ⟨⟨(raw.val.take 6).map (fun b : UInt8 => b >>> 1),by rw [List.length_map, List.length_take, raw.property]; rfl⟩,ssidField (raw.val.getD 6 0)⟩

def sourceFromFrame (frame : Bytes) : Option Ax25Addr := if 14 ≤ frame.length then (octets 7 7 frame).map fromWire else none

def callsignStr (self : Ax25Addr) : String :=
  String.ofList (trimEnd isWhitespace ((fromUtf8 self.callsign.val).getD "").toList)

end Ax25Addr

namespace Ax25UiFrame

def encode (f : Ax25UiFrame) : Except Ax25Error Bytes := do
  f.dest.validate
  f.src.validate
  return f.dest.toWire false ++ (f.src.toWire true ++ 0x03::0xF0::f.info)

def decode (data : Bytes) : Except Ax25Error Ax25UiFrame :=
  if data.length < 16 then .error .tooShort
  else
    match octets 7 0 data, octets 7 7 data with
    | some dest, some src =>
      if data.getD 14 0 ≠ 0x03 then .error .badFrame
      else if data.getD 15 0 ≠ 0xF0 then .error .badFrame
      else .ok ⟨.fromWire dest,.fromWire src,data.drop 16⟩
    | _, _ => .error .tooShort

end Ax25UiFrame

def txSourceCallsign (frame : Bytes) : Option String := do
  let call := (← Ax25Addr.sourceFromFrame frame).callsignStr
  if StationId.callsignIsValid call then some call else none

theorem byteChecked (b : UInt8) : (b < 128 → b <<< 1 >>> 1 = b) ∧ (b >>> 1 <<< 1 = b ↔ b &&& 1 = 0) ∧
    (¬ 15 < b → ∀ last, ssidField (ssidByte b last) = b) ∧
    (∀ last : Bool, b &&& 1 = last.toUInt8 → (ssidByte (ssidField b) last = b ↔ b >>> 5 = 3)) ∧ ¬ 15 < ssidField b := by
  obtain ⟨n,rfl⟩ : ∃ n, b = UInt8.ofFin n := ⟨b.toFin,(UInt8.ofFin_toFin b).symm⟩
  revert n
  decide +kernel

theorem shiftedBack {b : UInt8} (seven : b < 128) : b <<< 1 >>> 1 = b := (byteChecked b).1 seven

theorem shiftedOn {b : UInt8} : b >>> 1 <<< 1 = b ↔ b &&& 1 = 0 := (byteChecked b).2.1

theorem ssidBack {ssid : UInt8} (small : ¬ 15 < ssid) (last : Bool) : ssidField (ssidByte ssid last) = ssid :=
  (byteChecked ssid).2.2.1 small last

theorem ssidOn {b : UInt8} {last : Bool} (low : b &&& 1 = last.toUInt8) : ssidByte (ssidField b) last = b ↔ b >>> 5 = 3 :=
  (byteChecked b).2.2.2.1 last low

theorem ssidSmall (b : UInt8) : ¬ 15 < ssidField b := (byteChecked b).2.2.2.2

namespace Ax25Addr

structure Wired (addr : Ax25Addr) : Prop where
  seven : ∀ b ∈ addr.callsign.val, b < 128
  ssid : ¬ 15 < addr.ssid

theorem toWireLength (addr : Ax25Addr) (last : Bool) : (addr.toWire last).length = 7 := by
  rw [toWire, List.length_append, List.length_map, addr.callsign.property]
  rfl

def wire (addr : Ax25Addr) (last : Bool) : Octets 7 := ⟨addr.toWire last,addr.toWireLength last⟩

theorem toWireLast (addr : Ax25Addr) (last : Bool) : (addr.toWire last).getD 6 0 = ssidByte addr.ssid last := by
  have six : (addr.callsign.val.map (fun b : UInt8 => b <<< 1)).length = 6 := by rw [List.length_map, addr.callsign.property]
  rw [toWire, List.getD_eq_getElem?_getD, List.getElem?_append_right (by omega), six]
  rfl

theorem toWireFront (addr : Ax25Addr) (last : Bool) : (addr.toWire last).take 6 = addr.callsign.val.map (fun b : UInt8 => b <<< 1) :=
  List.take_left' (by rw [List.length_map, addr.callsign.property])

theorem Wired.fromWire {addr : Ax25Addr} (wired : addr.Wired) (last : Bool) : fromWire (addr.wire last) = addr := by
  have front : ((addr.toWire last).take 6).map (fun b : UInt8 => b >>> 1) = addr.callsign.val := by
    rw [toWireFront, List.map_map]
    exact (List.map_congr_left fun b member => shiftedBack (wired.seven b member)).trans (List.map_id _)
  have back : ssidField ((addr.toWire last).getD 6 0) = addr.ssid := by rw [toWireLast, ssidBack wired.ssid]
  exact congrArg₂ Ax25Addr.mk (Subtype.ext front) back

theorem toWireFromWire {raw : Octets 7} {last : Bool} (low : ∀ b ∈ raw.val.take 6, b &&& 1 = 0)
    (lowLast : raw.val.getD 6 0 &&& 1 = last.toUInt8) :
    (fromWire raw).toWire last = raw.val ↔ raw.val.getD 6 0 >>> 5 = 3 := by
  have front : ((raw.val.take 6).map (fun b : UInt8 => b >>> 1)).map (fun b : UInt8 => b <<< 1) = raw.val.take 6 := by
    rw [List.map_map]
    exact (List.map_congr_left fun b member => shiftedOn.mpr (low b member)).trans (List.map_id _)
  have inside : 6 < raw.val.length := by rw [raw.property]; decide
  have whole : raw.val = raw.val.take 6 ++ [raw.val.getD 6 0] := by
    have rest : raw.val.drop 6 = [raw.val.getD 6 0] := by
      rw [List.drop_eq_getElem_cons inside, List.drop_of_length_le (by rw [raw.property]), List.getD_eq_getElem _ _ inside]
    rw [← rest, List.take_append_drop]
  have written : (fromWire raw).toWire last = raw.val.take 6 ++ [ssidByte (ssidField (raw.val.getD 6 0)) last] := by
    rw [toWire, Ax25Addr.fromWire, front]
  rw [written, ← ssidOn lowLast]
  constructor
  · intro same
    have last' := List.append_inj_right (same.trans whole) rfl
    exact List.singleton_inj.mp last'
  · intro same
    rw [same, ← whole]

end Ax25Addr

namespace Ax25UiFrame

theorem encodeOf {f : Ax25UiFrame} (dest : ¬ 15 < f.dest.ssid) (src : ¬ 15 < f.src.ssid) :
    encode f = .ok (f.dest.toWire false ++ (f.src.toWire true ++ 0x03::0xF0::f.info)) := by
  have first : f.dest.validate = .ok () := if_neg dest
  have second : f.src.validate = .ok () := if_neg src
  rw [encode, first, second]
  rfl

theorem decodeWire (dest src : Octets 7) (info : Bytes) :
    decode (dest.val ++ (src.val ++ 0x03::0xF0::info)) = .ok ⟨.fromWire dest,.fromWire src,info⟩ := by
  have left : octets 7 0 (dest.val ++ (src.val ++ 0x03::0xF0::info)) = some dest := octetsAt [] dest _ rfl rfl
  have right : octets 7 7 (dest.val ++ (src.val ++ 0x03::0xF0::info)) = some src := octetsAt dest.val src _ rfl dest.property
  have behind : (dest.val ++ (src.val ++ 0x03::0xF0::info)).drop 14 = 0x03::0xF0::info := by
    rw [← List.append_assoc]
    exact List.drop_left' (by rw [List.length_append, dest.property, src.property])
  have size : (dest.val ++ (src.val ++ 0x03::0xF0::info)).length = info.length + 16 := by
    rw [List.length_append, List.length_append, dest.property, src.property, List.length_cons, List.length_cons]
    omega
  have place : ∀ i, (dest.val ++ (src.val ++ 0x03::0xF0::info)).getD (14 + i) 0 = (0x03::0xF0::info).getD i 0 := by
    intro i
    rw [List.getD_eq_getElem?_getD, ← List.getElem?_drop, behind, List.getD_eq_getElem?_getD]
  have control : (dest.val ++ (src.val ++ 0x03::0xF0::info)).getD 14 0 = 0x03 := place 0
  have pid : (dest.val ++ (src.val ++ 0x03::0xF0::info)).getD 15 0 = 0xF0 := place 1
  have rest : (dest.val ++ (src.val ++ 0x03::0xF0::info)).drop 16 = info := by
    rw [← List.drop_drop (i := 2) (j := 14), behind]
    rfl
  rw [decode, if_neg (by omega), left, right]
  simp only
  rw [control, pid, if_neg (fun differ => differ rfl), if_neg (fun differ => differ rfl), rest]

theorem decodedWire {data : Bytes} {f : Ax25UiFrame} (ok : decode data = .ok f) : ∃ dest src : Octets 7,
    f.dest = .fromWire dest ∧ f.src = .fromWire src ∧ data = dest.val ++ (src.val ++ 0x03::0xF0::f.info) := by
  rw [decode] at ok
  split at ok
  · cases ok
  · rename_i long
    have first : (slice 0 7 data).length = 7 := by simp only [slice, List.length_take, List.length_drop]; omega
    have second : (slice 7 7 data).length = 7 := by simp only [slice, List.length_take, List.length_drop]; omega
    rw [octets, dif_pos first, octets, dif_pos second] at ok
    simp only at ok
    split at ok
    · cases ok
    · rename_i control
      split at ok
      · cases ok
      · rename_i pid
        cases ok
        refine ⟨_,_,rfl,rfl,?_⟩
        have behind : data.drop 14 = 0x03::0xF0::data.drop 16 := by
          rw [dropIndex (by omega), dropIndex (by omega), not_not.mp control, not_not.mp pid]
        have middle : slice 7 7 data ++ data.drop 14 = data.drop 7 := by
          rw [slice, show data.drop 14 = (data.drop 7).drop 7 by rw [List.drop_drop], List.take_append_drop]
        rw [← behind]
        exact (List.take_append_drop 7 data).symm.trans (congrArg (data.take 7 ++ ·) middle.symm)

def LowBits (data : Bytes) : Prop := (∀ i < 13, data.getD i 0 &&& 1 = 0) ∧ data.getD 13 0 &&& 1 = 1

theorem inFront (raw : Octets 7) {b : UInt8} (member : b ∈ raw.val.take 6) : ∃ i < 6, raw.val.getD i 0 = b := by
  obtain ⟨i,inside,rfl⟩ := List.getElem_of_mem member
  rw [List.length_take, raw.property] at inside
  refine ⟨i,by omega,?_⟩
  rw [List.getElem_take, List.getD_eq_getElem]

theorem reencode {data : Bytes} {f : Ax25UiFrame} (ok : decode data = .ok f) (low : LowBits data) :
    encode f = .ok data ↔ data.getD 6 0 >>> 5 = 3 ∧ data.getD 13 0 >>> 5 = 3 := by
  obtain ⟨dest,src,left,right,whole⟩ := decodedWire ok
  have first : ∀ i < 7, dest.val.getD i 0 = data.getD i 0 := by
    intro i inside
    rw [whole, List.getD_eq_getElem?_getD, List.getD_eq_getElem?_getD, List.getElem?_append_left (by rw [dest.property]; exact inside)]
  have second : ∀ i < 7, src.val.getD i 0 = data.getD (7 + i) 0 := by
    intro i inside
    rw [whole, List.getD_eq_getElem?_getD, List.getD_eq_getElem?_getD, List.getElem?_append_right (by rw [dest.property]; omega),
      dest.property, Nat.add_sub_cancel_left, List.getElem?_append_left (by rw [src.property]; exact inside)]
  have destLow : ∀ b ∈ dest.val.take 6, b &&& 1 = 0 := by
    intro b member
    obtain ⟨i,inside,rfl⟩ := inFront dest member
    rw [first i (by omega), low.1 i (by omega)]
  have srcLow : ∀ b ∈ src.val.take 6, b &&& 1 = 0 := by
    intro b member
    obtain ⟨i,inside,rfl⟩ := inFront src member
    rw [second i (by omega), low.1 (7 + i) (by omega)]
  have destLast : dest.val.getD 6 0 &&& 1 = false.toUInt8 := by rw [first 6 (by decide), low.1 6 (by decide)]; rfl
  have srcLast : src.val.getD 6 0 &&& 1 = true.toUInt8 := by rw [second 6 (by decide), low.2]; rfl
  rw [← first 6 (by decide), ← second 6 (by decide), ← Ax25Addr.toWireFromWire destLow destLast,
    ← Ax25Addr.toWireFromWire srcLow srcLast, encodeOf (left ▸ ssidSmall _) (right ▸ ssidSmall _), Except.ok.injEq, left, right]
  have sized : ∀ (addr : Ax25Addr) (last : Bool) (raw : Octets 7), (addr.toWire last).length = raw.val.length :=
    fun addr last raw => (addr.toWireLength last).trans raw.property.symm
  constructor
  · intro same
    obtain ⟨front,rest⟩ := List.append_inj (same.trans whole) (sized _ _ _)
    exact ⟨front,(List.append_inj rest (sized _ _ _)).1⟩
  · rintro ⟨front,middle⟩
    rw [front, middle, ← whole]

end Ax25UiFrame

def Ascii (cs : List Char) : Prop := ∀ c ∈ cs, c.toNat < 128

theorem asciiChecked : ∀ n < 128, String.utf8EncodeChar (Char.ofNat n) = [UInt8.ofNat n] ∧
    toAsciiUppercase (UInt8.ofNat n) = UInt8.ofNat (Char.ofNat n).toUpper.toNat ∧ (Char.ofNat n).toUpper.toNat < 128 := by decide +kernel

theorem asciiByte {c : Char} (ascii : c.toNat < 128) : String.utf8EncodeChar c = [UInt8.ofNat c.toNat] := by
  have every := (asciiChecked c.toNat ascii).1
  rwa [Char.ofNat_toNat] at every

theorem upperByte {c : Char} (ascii : c.toNat < 128) :
    toAsciiUppercase (UInt8.ofNat c.toNat) = UInt8.ofNat c.toUpper.toNat ∧ c.toUpper.toNat < 128 := by
  have every := (asciiChecked c.toNat ascii).2
  rwa [Char.ofNat_toNat] at every

theorem asciiEncoded {cs : List Char} (ascii : Ascii cs) : encoded cs = cs.map fun c => UInt8.ofNat c.toNat := by
  induction cs with
  | nil => rfl
  | cons c cs ih =>
    obtain ⟨first,rest⟩ := List.forall_mem_cons.mp ascii
    rw [encodedCons, asciiByte first, ih rest]
    rfl

theorem asciiSeven {cs : List Char} (ascii : Ascii cs) : ∀ b ∈ encoded cs, b < 128 := by
  intro b member
  rw [asciiEncoded ascii] at member
  obtain ⟨c,there,rfl⟩ := List.mem_map.mp member
  have small := ascii c there
  rw [UInt8.lt_iff_toNat_lt, UInt8.toNat_ofNat', Nat.mod_eq_of_lt (by omega)]
  exact small

def upper (call : List Char) : List Char := call.map Char.toUpper ++ List.replicate (6 - call.length) ' '

theorem upperAscii {call : List Char} (ascii : Ascii call) : Ascii (upper call) := by
  intro c member
  rcases List.mem_append.mp member with letter | blank
  · obtain ⟨d,there,rfl⟩ := List.mem_map.mp letter
    exact (upperByte (ascii d there)).2
  · rw [(List.mem_replicate.mp blank).2]
    decide

theorem paddedUpper {call : List Char} (ascii : Ascii call) : padded (encoded call) = encoded (upper call) := by
  have letters : (encoded call).map toAsciiUppercase = (call.map Char.toUpper).map fun c => UInt8.ofNat c.toNat := by
    rw [asciiEncoded ascii, List.map_map, List.map_map]
    exact List.map_congr_left fun c member => (upperByte (ascii c member)).1
  rw [asciiEncoded (upperAscii ascii), upper, List.map_append, ← letters, padded, asciiEncoded ascii, List.length_map,
    List.map_replicate]
  rfl

theorem trimBlanks (cs : List Char) (n : Nat) : trimEnd isWhitespace (cs ++ List.replicate n ' ') = trimEnd isWhitespace cs := by
  induction n with
  | zero => rw [List.replicate_zero, List.append_nil]
  | succ n ih => rw [List.replicate_succ', ← List.append_assoc, B2f.trimEndDrops rfl, ih]

theorem parsed {s : String} {addr : Ax25Addr} (ok : Ax25Addr.parse s = .ok addr) :
    addr.callsign.val = padded (encoded (callPart s)) ∧ ¬ 15 < addr.ssid := by
  rw [Ax25Addr.parse] at ok
  split at ok
  · cases ok
  · split at ok
    · split at ok
      · cases ok
      · rename_i small
        cases ok
        exact ⟨rfl,small⟩
    · cases ok

theorem parsedWired {s : String} {addr : Ax25Addr} (ok : Ax25Addr.parse s = .ok addr) (ascii : Ascii (callPart s)) : addr.Wired := by
  obtain ⟨call,small⟩ := parsed ok
  refine ⟨?_,small⟩
  rw [call, paddedUpper ascii]
  exact asciiSeven (upperAscii ascii)

theorem parsedCallsign {s : String} {addr : Ax25Addr} (ok : Ax25Addr.parse s = .ok addr) (ascii : Ascii (callPart s)) :
    addr.callsignStr = String.ofList (trimEnd isWhitespace ((callPart s).map Char.toUpper)) := by
  have text : encoded (upper (callPart s)) = utf8 (String.ofList (upper (callPart s))) := by
    rw [FxWire.utf8Encoded, String.toList_ofList]
  rw [Ax25Addr.callsignStr, (parsed ok).1, paddedUpper ascii, text, fromUtf8Utf8, Option.getD_some, String.toList_ofList, upper,
    trimBlanks]

theorem sourceOf (dest src : Octets 7) (rest : Bytes) :
    Ax25Addr.sourceFromFrame (dest.val ++ (src.val ++ rest)) = some (.fromWire src) := by
  have long : 14 ≤ (dest.val ++ (src.val ++ rest)).length := by
    rw [List.length_append, List.length_append, dest.property, src.property]
    omega
  have here : octets 7 7 (dest.val ++ (src.val ++ rest)) = some src := octetsAt dest.val src rest rfl dest.property
  rw [Ax25Addr.sourceFromFrame, if_pos long, here]
  rfl

theorem txSourceParsed {s : String} {src : Ax25Addr} (ok : Ax25Addr.parse s = .ok src) (ascii : Ascii (callPart s)) (dest : Octets 7)
    (rest : Bytes) : txSourceCallsign (dest.val ++ ((src.wire true).val ++ rest)) =
      if StationId.callsignIsValid src.callsignStr then some src.callsignStr else none := by
  rw [txSourceCallsign, sourceOf, (parsedWired ok ascii).fromWire, Option.bind_eq_bind, Option.bind_some]

/-- A frame of two parsed addresses is always written; with callsigns of seven bits it is read back whole. -/
theorem frameRoundTrip :
    (∀ (d s : String) (dest src : Ax25Addr) (info : Bytes), Ax25Addr.parse d = .ok dest → Ax25Addr.parse s = .ok src →
      ∃ wire, Ax25UiFrame.encode ⟨dest,src,info⟩ = .ok wire ∧
        (Ascii (callPart d) → Ascii (callPart s) → Ax25UiFrame.decode wire = .ok ⟨dest,src,info⟩) ∧
        (Ascii (callPart s) → Ax25Addr.sourceFromFrame wire = some src ∧
          src.callsignStr = String.ofList (trimEnd isWhitespace ((callPart s).map Char.toUpper)))) ∧
    ∀ (data : Bytes) (f : Ax25UiFrame), Ax25UiFrame.decode data = .ok f → Ax25UiFrame.LowBits data →
      (f.encode = .ok data ↔ data.getD 6 0 >>> 5 = 3 ∧ data.getD 13 0 >>> 5 = 3) := by
  refine ⟨fun d s dest src info left right => ?_,fun data f ok low => Ax25UiFrame.reencode ok low⟩
  refine ⟨_,Ax25UiFrame.encodeOf (parsed left).2 (parsed right).2,fun destAscii srcAscii => ?_,fun srcAscii => ⟨?_,?_⟩⟩
  · refine (Ax25UiFrame.decodeWire (dest.wire false) (src.wire true) info).trans ?_
    rw [(parsedWired left destAscii).fromWire, (parsedWired right srcAscii).fromWire]
  · refine (sourceOf (dest.wire false) (src.wire true) _).trans ?_
    rw [(parsedWired right srcAscii).fromWire]
  · exact parsedCallsign right srcAscii

def beacon : Ax25Addr := ⟨⟨[0x41,0x50,0x52,0x53,0x20,0x20],rfl⟩,0⟩
def station : Ax25Addr := ⟨⟨[0x57,0x31,0x41,0x57,0x20,0x20],rfl⟩,9⟩

theorem frameRoundTripStation : ∃ wire, Ax25UiFrame.encode ⟨beacon,station,[1,2]⟩ = .ok wire ∧
    Ax25UiFrame.decode wire = .ok ⟨beacon,station,[1,2]⟩ := by
  obtain ⟨wire,written,read,-⟩ := frameRoundTrip.1 "APRS" "w1aw-9" beacon station [1,2] (by decide +kernel) (by decide +kernel)
  refine ⟨wire,written,read ?_ ?_⟩
  · exact fun c member => of_decide_eq_true (List.all_eq_true.mp (by decide +kernel : (callPart "APRS").all (·.toNat < 128) = true) c member)
  · exact fun c member => of_decide_eq_true (List.all_eq_true.mp (by decide +kernel : (callPart "w1aw-9").all (·.toNat < 128) = true) c member)

/-- A letter of two bytes, a tab behind a callsign, and a frame with the command bit set. -/
def accented : Ax25Addr := ⟨⟨[0xC3,0x89,0x20,0x20,0x20,0x20],rfl⟩,0⟩
def tabbed : Ax25Addr := ⟨⟨[0x41,0x42,0x09,0x20,0x20,0x20],rfl⟩,0⟩
def command : Bytes := [0x82,0xA0,0xA4,0xA6,0x40,0x40,0xE0,0xAE,0x62,0x82,0xAE,0x40,0x40,0x61,0x03,0xF0]

theorem frameRoundTripBreaks :
    (Ax25Addr.parse "É" = .ok accented ∧ ∃ wire, Ax25UiFrame.encode ⟨accented,accented,[]⟩ = .ok wire ∧
      Ax25UiFrame.decode wire ≠ .ok ⟨accented,accented,[]⟩) ∧
    (Ax25Addr.parse "AB\t" = .ok tabbed ∧ tabbed.callsignStr ≠ "AB\t") ∧
    ∃ f, Ax25UiFrame.decode command = .ok f ∧ Ax25UiFrame.LowBits command ∧ f.encode ≠ .ok command := by
  have parsedTab : Ax25Addr.parse "AB\t" = .ok tabbed := by decide +kernel
  have asciiTab : Ascii (callPart "AB\t") := fun c member =>
    of_decide_eq_true (List.all_eq_true.mp (by decide +kernel : (callPart "AB\t").all (·.toNat < 128) = true) c member)
  refine ⟨⟨by decide +kernel,_,Ax25UiFrame.encodeOf (by decide) (by decide),by decide +kernel⟩,⟨parsedTab,?_⟩,?_⟩
  · have trimmed : String.ofList (trimEnd isWhitespace ((callPart "AB\t").map Char.toUpper)) ≠ "AB\t" := by decide +kernel
    rwa [parsedCallsign parsedTab asciiTab]
  · refine ⟨⟨beacon,⟨⟨[0x57,0x31,0x41,0x57,0x20,0x20],rfl⟩,0⟩,[]⟩,by decide +kernel,⟨by decide,by decide⟩,?_⟩
    rw [Ax25UiFrame.encodeOf (by decide) (by decide)]
    decide +kernel

end OpenPulse.Ax25
