import OpenPulse.Hex
import OpenPulse.Bodies
import OpenPulse.Reads
import OpenPulse.Signing

/-! The byte level of the handshake frames: `openpulse-core/src/handshake_wire.rs`.
A frame is its magic, the wire version, the length of the body and the body, which is
what gets signed, and then the signatures. -/
namespace OpenPulse.HandshakeWire
open ByteCodec Signing Reads Bodies

def magicConreq : Bytes := [0x48,0x53,0x43,0x51] -- HSCQ
def magicConack : Bytes := [0x48,0x53,0x41,0x4B] -- HSAK
def magicPqConreq : Bytes := [0x48,0x50,0x43,0x51] -- HPCQ
def magicPqConack : Bytes := [0x48,0x50,0x41,0x4B] -- HPAK

def wireVersion : UInt8 := 0x01
def headerLen : Nat := 7
def sigLen : Nat := 64
def fragmentCapacity : Nat := 251

namespace Caps

def stationId : Nat := 18
def grid : Nat := 8
def profileName : Nat := 24
def signingModes : Nat := 4

end Caps

def pubkeyLen : Nat := 32
def kexPubkeyLen : Nat := 32
def conreqHashLen : Nat := 32

def hexByte (b : UInt8) : String := "0x" ++ String.ofList (Hex.padded 2 b.toNat)

inductive WireError where
  | fieldOverCap (field : String) (len cap : Nat)
  | fieldLength (field : String) (len expected : Nat)
  | truncated (field : String) (need remain : Nat)
  | declaredOverCap (field : String) (len cap : Nat)
  | notUtf8 (field : String)
  | trailing (what : String) (count : Nat)
  | tooShort (what : String) (len minimum : Nat)
  | noHeader (what : String) (len : Nat)
  | magic (what : String)
  | version (what : String) (got : UInt8)
  | bodyShort (what : String) (declared follow : Nat)
  | frameLength (what : String) (declared expectedTotal len : Nat)
  | bodyLength
  | dstStationEmpty
  | dstStationOmitted
  | stationIdEmpty
  | modesOffered (count : Nat)
  | modesDeclared (what : String) (count : Nat)
  | unknownMode (byte : UInt8)
  | signing (error : SigningError)
  deriving DecidableEq, Repr

def signingMessage : SigningError → String
  | .missingInBandTag domain =>
    "message for signing domain " ++ (fromUtf8 domain.tag).getD "" ++ " does not begin with its in-band tag"
  | .wrongPlacement domain expected =>
    "signing domain " ++ (fromUtf8 domain.tag).getD "" ++ " uses " ++
      (match expected with | .inBand => "InBand" | .prepended => "Prepended") ++ " placement; wrong entry point called"

def WireError.message : WireError → String
  | fieldOverCap field len cap =>
    "handshake field `" ++ field ++ "` is " ++ toString len ++ " bytes, over its " ++ toString cap ++ "-byte cap"
  | fieldLength field len expected =>
    "handshake field `" ++ field ++ "` is " ++ toString len ++ " bytes, must be exactly " ++ toString expected
  | truncated field need remain =>
    "handshake truncated reading `" ++ field ++ "`: need " ++ toString need ++ " bytes, " ++ toString remain ++ " remain"
  | declaredOverCap field len cap =>
    "handshake field `" ++ field ++ "` declares " ++ toString len ++ " bytes, over its " ++ toString cap ++ "-byte cap"
  | notUtf8 field => "handshake field `" ++ field ++ "` is not UTF-8"
  | trailing what count => what ++ " body has " ++ toString count ++ " trailing bytes"
  | tooShort what len minimum => what ++ " too short: " ++ toString len ++ " bytes, minimum " ++ toString minimum
  | noHeader what len =>
    what ++ " too short: " ++ toString len ++ " bytes, minimum " ++ toString headerLen ++ " for a header"
  | magic what => "invalid " ++ what ++ " magic"
  | version what got =>
    what ++ " wire version " ++ hexByte got ++ " is not supported (this build speaks " ++ hexByte wireVersion ++
      " only; there is no dual decode)"
  | bodyShort what declared follow =>
    what ++ " declares a " ++ toString declared ++ "-byte body but only " ++ toString follow ++ " bytes follow the header"
  | frameLength what declared expectedTotal len =>
    what ++ " declares a " ++ toString declared ++ "-byte body, so the frame must be " ++ toString expectedTotal ++
      " bytes, but it is " ++ toString len
  | bodyLength => "handshake body exceeds u16 length"
  | dstStationEmpty => "CONREQ dst_station is empty; use \"*\" for a broadcast request (#1178)"
  | dstStationOmitted => "CONREQ dst_station is empty; unaddressed cannot be spelled by omission"
  | stationIdEmpty => "CONREQ station_id is empty; an unnamed station cannot be a verified peer"
  | modesOffered count =>
    "CONREQ offers " ++ toString count ++ " signing modes, over the " ++ toString Caps.signingModes ++ " cap"
  | modesDeclared what count =>
    what ++ " declares " ++ toString count ++ " signing modes, over the " ++ toString Caps.signingModes ++ " cap"
  | unknownMode byte => "CONACK selects unknown signing mode " ++ hexByte byte
  | signing error => signingMessage error

def WireError.display (e : WireError) : String := "frame encoding/decoding error: " ++ e.message

abbrev BodyWriter := ByteWriter WireError Unit

namespace BodyWriter

def strCapped (field value : String) (cap : Nat) : BodyWriter :=
  let bytes := utf8 value
  if cap < bytes.length then throw (.fieldOverCap field bytes.length cap) else push (bytes.length.toUInt8 :: bytes)

def fixed (field : String) (value : Bytes) (len : Nat) : BodyWriter :=
  if value.length ≠ len then throw (.fieldLength field value.length len) else push value

def u8 (v : UInt8) : BodyWriter := push [v]

def u64 (v : UInt64) : BodyWriter := push (be 8 v.toNat)

end BodyWriter

abbrev BodyReader := ByteReader WireError

namespace BodyReader

/-- The position never passes the length of the buffer, so its sum with a field's length cannot overflow. -/
def array (n : Nat) (field : String) : BodyReader (Octets n) := Bodies.take n (.truncated field n)

def take (n : Nat) (field : String) : BodyReader Bytes := do return (← array n field).val

def fixed (field : String) (len : Nat) : BodyReader Bytes := take len field

def u8 (field : String) : BodyReader UInt8 := do return (← take 1 field).getD 0 0

def u64 (field : String) : BodyReader UInt64 := do return UInt64.ofNat (readBe (← take 8 field))

def strCapped (field : String) (cap : Nat) : BodyReader String := do
  let len := (← u8 field).toNat
  if cap < len then throw (.declaredOverCap field len cap)
  else match fromUtf8 (← take len field) with
    | some s => return s
    | none => throw (.notUtf8 field)

def finish (what : String) : BodyReader Unit := done (.trailing what)

end BodyReader

structure FrameSpans where
  signedPrefix : Bytes
  body : Bytes
  signature : Bytes
  deriving DecidableEq, Repr

def splitFrameVariable (bytes magic : Bytes) (what : String) : Except WireError (FrameSpans × Bytes) :=
  if bytes.length < headerLen then .error (.noHeader what bytes.length)
  else if bytes.take 4 ≠ magic then .error (.magic what)
  else
    let version := bytes.getD 4 0
    if version ≠ wireVersion then .error (.version what version)
    else
      let declared := readBe (slice 5 2 bytes)
      let bodyEnd := headerLen + declared
      if bytes.length < bodyEnd then .error (.bodyShort what declared (bytes.length - headerLen))
      else .ok (⟨bytes.take bodyEnd,slice headerLen declared bytes,[]⟩,bytes.drop bodyEnd)

def signedPrefixWithMagic (magic body : Bytes) : Except WireError Bytes :=
  if 65535 < body.length then .error .bodyLength
  else .ok (magic ++ (wireVersion :: (be 2 body.length ++ body)))

def splitFrame (bytes magic : Bytes) (what : String) : Except WireError FrameSpans :=
  if bytes.length < headerLen + sigLen then .error (.tooShort what bytes.length (headerLen + sigLen))
  else if bytes.take 4 ≠ magic then .error (.magic what)
  else
    let version := bytes.getD 4 0
    if version ≠ wireVersion then .error (.version what version)
    else
      let declared := readBe (slice 5 2 bytes)
      let expectedTotal := headerLen + declared + sigLen
      if bytes.length ≠ expectedTotal then .error (.frameLength what declared expectedTotal bytes.length)
      else .ok ⟨bytes.take (headerLen + declared),slice headerLen declared bytes,bytes.drop (headerLen + declared)⟩

def text (value : String) : Bytes := (utf8 value).length.toUInt8 :: utf8 value

theorem writesStrCapped (field value : String) (cap : Nat) :
    Writes (BodyWriter.strCapped field value cap) ((utf8 value).length ≤ cap) (text value) := by
  have writes := @writesUnless WireError (cap < (utf8 value).length) _
    (.fieldOverCap field (utf8 value).length cap) (text value)
  rwa [Nat.not_lt] at writes

theorem writesFixed (field : String) (value : Bytes) (len : Nat) :
    Writes (BodyWriter.fixed field value len) (value.length = len) value := by
  have writes := @writesUnless WireError (value.length ≠ len) _ (.fieldLength field value.length len) value
  rwa [not_not] at writes

theorem readsFixed (field : String) {len : Nat} {value : Bytes} (size : value.length = len) :
    Reads (BodyReader.fixed field len) value value :=
  readsMap (readsTake _ ⟨value,size⟩) Subtype.val

theorem readsU8 (field : String) (v : UInt8) : Reads (BodyReader.u8 field) [v] v :=
  readsMap (@readsFixed field 1 [v] rfl) fun raw => raw.getD 0 0

theorem readsU64 (field : String) (v : UInt64) : Reads (BodyReader.u64 field) (be 8 v.toNat) v := by
  have read := readsMap (readsFixed field (beLength 8 v.toNat)) fun raw => UInt64.ofNat (readBe raw)
  rw [readBeBounded v.toNat_lt, UInt64.ofNat_toNat] at read
  exact read

theorem spendsU8 (field : String) : Spends (BodyReader.u8 field) 1 := spendsMap (spendsMap (spendsTake 1 _) _) _

theorem spendsU64 (field : String) : Spends (BodyReader.u64 field) 8 := spendsMap (spendsMap (spendsTake 8 _) _) _

theorem readsStrCapped (field value : String) {cap : Nat} (fits : (utf8 value).length ≤ cap) (small : cap < 256) :
    Reads (BodyReader.strCapped field cap) (text value) value := by
  have len : (utf8 value).length.toUInt8.toNat = (utf8 value).length := by
    rw [Nat.toUInt8_eq, UInt8.toNat_ofNat']
    omega
  refine @readsThen _ _ _ _ _ [_] _ _ _ (readsU8 field _) ?_
  rw [len, if_neg (Nat.not_lt.mpr fits)]
  intro after
  have read : BodyReader.take (utf8 value).length field (utf8 value ++ after) = .ok (utf8 value,after) :=
    @readsFixed field _ (utf8 value) rfl after
  change (BodyReader.take (utf8 value).length field >>= _) (utf8 value ++ after) = _
  rw [readThen read, fromUtf8Utf8]
  rfl

def framed (magic body : Bytes) : Bytes := magic ++ (wireVersion :: (be 2 body.length ++ body))

theorem signedPrefixIff {magic body out : Bytes} :
    signedPrefixWithMagic magic body = .ok out ↔ body.length < 65536 ∧ out = framed magic body := by
  unfold signedPrefixWithMagic
  split
  · exact ⟨nofun,fun ⟨small,_⟩ => by omega⟩
  · rw [Except.ok.injEq]
    exact ⟨fun same => ⟨by omega,same.symm⟩,fun h => h.2.symm⟩

theorem framedLength {magic : Bytes} (four : magic.length = 4) (body : Bytes) :
    (framed magic body).length = headerLen + body.length := by
  simp only [framed, List.length_append, List.length_cons, beLength, headerLen, four]
  omega

structure Header (bytes magic : Bytes) (declared : Nat) : Prop where
  magic : bytes.take 4 = magic
  version : bytes.getD 4 0 = wireVersion
  declared : readBe (slice 5 2 bytes) = declared

theorem framedHeader {magic : Bytes} (four : magic.length = 4) {body : Bytes} (small : body.length < 65536) (rest : Bytes) :
    Header (framed magic body ++ rest) magic body.length where
  magic := by
    rw [framed, List.append_assoc, List.take_append_of_le_length (Nat.le_of_eq four.symm), ← four, List.take_length]
  version := by simp [framed, four]
  declared := by
    have found : slice 5 2 (framed magic body ++ rest) = be 2 body.length :=
      sliceAt (magic ++ [wireVersion]) (be 2 body.length) (body ++ rest) (by simp [framed])
        (by simp [four]) (beLength ..)
    rw [found, readBeBounded small]

theorem headerFramed {bytes magic : Bytes} {declared : Nat} (header : Header bytes magic declared)
    (inside : headerLen + declared ≤ bytes.length) :
    bytes.take (headerLen + declared) = framed magic (slice headerLen declared bytes) ∧ declared < 65536 := by
  have size : (slice 5 2 bytes).length = 2 := sliceLength (by unfold headerLen at inside; omega)
  have length : be 2 declared = slice 5 2 bytes := by
    have back := beReadBe (slice 5 2 bytes)
    rwa [size, header.declared] at back
  have small : declared < 65536 := by
    have bound := readBeSmall (slice 5 2 bytes)
    rwa [header.declared, size] at bound
  have front : bytes.take 7 = magic ++ (wireVersion :: be 2 declared) := by
    have whole : bytes.take 4 ++ (bytes.getD 4 0 :: slice 5 2 bytes) ++ bytes.drop 7 = bytes := by
      rw [List.append_assoc, List.cons_append, ← dropSlice 5 2 bytes, ← dropIndex (by unfold headerLen at inside; omega),
        List.take_append_drop]
    rw [header.magic, header.version, ← length] at whole
    have four : magic.length = 4 := by
      rw [← header.magic, List.length_take]
      unfold headerLen at inside
      omega
    rw [← whole, List.take_left' (by simp [four])]
  have body : (slice headerLen declared bytes).length = declared := sliceLength inside
  refine ⟨?_,small⟩
  rw [List.take_add, framed, body, headerLen, front, List.append_assoc]
  rfl

theorem splitFrameVariableIff {bytes magic trailer : Bytes} {what : String} {spans : FrameSpans} (four : magic.length = 4) :
    splitFrameVariable bytes magic what = .ok (spans,trailer) ↔
      ∃ body, body.length < 65536 ∧ bytes = framed magic body ++ trailer ∧ spans = ⟨framed magic body,body,[]⟩ := by
  constructor
  · intro ok
    simp only [splitFrameVariable] at ok
    split at ok
    · cases ok
    split at ok
    · cases ok
    split at ok
    · cases ok
    split at ok
    · cases ok
    rename_i magicOk versionOk inside
    obtain ⟨whole,small⟩ := headerFramed ⟨not_not.mp magicOk,not_not.mp versionOk,rfl⟩ (Nat.not_lt.mp inside)
    rw [Except.ok.injEq, Prod.mk.injEq, whole] at ok
    refine ⟨_,?_,?_,ok.1.symm⟩
    · rw [sliceLength (Nat.not_lt.mp inside)]
      exact small
    · rw [← whole, ← ok.2, List.take_append_drop]
  · rintro ⟨body,small,rfl,rfl⟩
    have header := framedHeader four small trailer
    have length := framedLength four body
    have total : (framed magic body ++ trailer).length = headerLen + body.length + trailer.length := by
      rw [List.length_append, length]
    have cut : slice headerLen body.length (framed magic body ++ trailer) = body :=
      sliceAt (magic ++ (wireVersion :: be 2 body.length)) body trailer (by simp [framed]) (by simp [four, headerLen]) rfl
    simp only [splitFrameVariable, header.magic, header.version, header.declared, total, cut]
    rw [if_neg (by omega), if_neg (not_not.mpr rfl), if_neg (not_not.mpr rfl), if_neg (by omega), ← length, List.take_left,
      List.drop_left]

theorem splitFrameIff {bytes magic : Bytes} {what : String} {spans : FrameSpans} (four : magic.length = 4) :
    splitFrame bytes magic what = .ok spans ↔ ∃ (body : Bytes) (sig : Octets 64), body.length < 65536 ∧
      bytes = framed magic body ++ sig.val ∧ spans = ⟨framed magic body,body,sig.val⟩ := by
  constructor
  · intro ok
    simp only [splitFrame] at ok
    split at ok
    · cases ok
    split at ok
    · cases ok
    split at ok
    · cases ok
    split at ok
    · cases ok
    rename_i magicOk versionOk total
    have inside : headerLen + readBe (slice 5 2 bytes) ≤ bytes.length := by omega
    obtain ⟨whole,small⟩ := headerFramed ⟨not_not.mp magicOk,not_not.mp versionOk,rfl⟩ inside
    rw [Except.ok.injEq, whole] at ok
    refine ⟨_,⟨bytes.drop (headerLen + readBe (slice 5 2 bytes)),?_⟩,?_,?_,ok.symm⟩
    · rw [List.length_drop, not_not.mp total, Nat.add_sub_cancel_left]
      rfl
    · rw [sliceLength inside]
      exact small
    · rw [← whole, List.take_append_drop]
  · rintro ⟨body,sig,small,rfl,rfl⟩
    have header := framedHeader four small sig.val
    have length := framedLength four body
    have total : (framed magic body ++ sig.val).length = headerLen + body.length + sigLen := by
      rw [List.length_append, length, sig.property]
      rfl
    have cut : slice headerLen body.length (framed magic body ++ sig.val) = body :=
      sliceAt (magic ++ (wireVersion :: be 2 body.length)) body sig.val (by simp [framed]) (by simp [four, headerLen]) rfl
    simp only [splitFrame, header.magic, header.version, header.declared, total, cut]
    rw [if_neg (by omega), if_neg (not_not.mpr rfl), if_neg (not_not.mpr rfl), if_neg (not_not.mpr rfl), ← length,
      List.take_left, List.drop_left]

/- The declared length fixes where a frame ends: of two frames one is never a proper
part of the other's front. -/
theorem splitFrameAlone {a b magic : Bytes} {what : String} {spans spans' : FrameSpans} (four : magic.length = 4)
    (left : splitFrame a magic what = .ok spans) (right : splitFrame b magic what = .ok spans') (front : a <+: b) : a = b := by
  obtain ⟨body,sig,small,rfl,-⟩ := (splitFrameIff four).mp left
  obtain ⟨other,sig',small',rfl,-⟩ := (splitFrameIff four).mp right
  obtain ⟨rest,whole⟩ := front
  have here := (framedHeader four small (sig.val ++ rest)).declared
  rw [← List.append_assoc, whole, (framedHeader four small' sig'.val).declared] at here
  have none : rest.length = 0 := by
    have total := congrArg List.length whole
    simp only [List.length_append, framedLength four, sig.property, sig'.property] at total
    omega
  rw [← whole, List.length_eq_zero_iff.mp none, List.append_nil]

end OpenPulse.HandshakeWire
