import OpenPulse.CrcRegisters
import OpenPulse.OtaSend

/-! The acknowledgement on the wire, five bytes: `openpulse-core/src/ack.rs`. Which words are accepted and as what,
with the check byte and with the keyed tag, and which errors the check byte sees. -/
namespace OpenPulse.AckWire
open ByteCodec (wordValue)
open CrcRegisters
open OtaRate (AckType SpeedLevel)
open OtaSend (AckFrame)

structure Wire where
  b0 : UInt8
  b1 : UInt8
  b2 : UInt8
  b3 : UInt8
  b4 : UInt8
  deriving DecidableEq, Repr

inductive AckError where
  | crcMismatch (expected got : UInt8)
  | reservedBitsSet (bits : UInt8)
  | invalidAckType (v : UInt8)
  | invalidSpeedLevel (code : UInt8)
  | macMismatch
  deriving DecidableEq, Repr

def code : AckType → UInt8
  | .ackOk => 0
  | .ackUp => 1
  | .ackDown => 2
  | .nack => 3
  | .break => 4
  | .req => 5
  | .qrt => 6
  | .abort => 7

def ackTypes : List AckType := [.ackOk,.ackUp,.ackDown,.nack,.break,.req,.qrt,.abort]

def typeFromU8 (v : UInt8) : Except AckError AckType :=
  match ackTypes.find? (fun t => code t = v) with
  | some t => .ok t
  | none => .error (.invalidAckType v)

def asU8 (l : SpeedLevel) : UInt8 := UInt8.ofNat l.discriminant

def levels : List SpeedLevel :=
  [.sl1,.sl2,.sl3,.sl4,.sl5,.sl6,.sl7,.sl8,.sl9,.sl10,.sl11,.sl12,.sl13,.sl14,.sl15,.sl16,.sl17,.sl18,.sl19,.sl20]

def levelFromU8 (v : UInt8) : Except AckError SpeedLevel :=
  match levels.find? (fun l => asU8 l = v) with
  | some l => .ok l
  | none => .error (.invalidSpeedLevel v)

def flag (b : Bool) : UInt8 := if b then 1 else 0

def headByte (t : AckType) (hasRev hasRec : Bool) : UInt8 := code t ||| (flag hasRev <<< 3) ||| (flag hasRec <<< 4)

def packed (level reverse : UInt8) : UInt8 := (level <<< 3) ||| reverse

def content (f : AckFrame) : UInt8 × UInt8 :=
  (headByte f.ackType f.reverseAck.isSome f.recommendedLevel.isSome,
    packed ((f.recommendedLevel.elim 0 asU8) &&& 0x1F) ((f.reverseAck.elim 0 code) &&& 0x07))

def checkB0Reserved (b0 : UInt8) : Except AckError Unit :=
  if (b0 &&& 0xE0) >>> 5 ≠ 0 then .error (.reservedBitsSet ((b0 &&& 0xE0) >>> 5)) else .ok ()

def claimed {α : Type} (has : Bool) (read : Except AckError α) : Except AckError (Option α) :=
  if has then read.map some else .ok none

def readContent (sessionHash : UInt16) (b0 b3 : UInt8) : Except AckError AckFrame := do
  checkB0Reserved b0
  let ackType ← typeFromU8 (b0 &&& 0x07)
  let reverseAck ← claimed ((b0 >>> 3) &&& 1 ≠ 0) (typeFromU8 (b3 &&& 0x07))
  let recommendedLevel ← claimed ((b0 >>> 4) &&& 1 ≠ 0) (levelFromU8 ((b3 >>> 3) &&& 0x1F))
  return ⟨ackType,sessionHash,reverseAck,recommendedLevel⟩

def crcBit (c : UInt8) : UInt8 := if c &&& 0x80 ≠ 0 then (c <<< 1) ^^^ 0x07 else c <<< 1

def crc8 (data : List UInt8) : UInt8 := data.foldl (fun crc b => crcBit^[8] (crc ^^^ b)) 0

def encode (f : AckFrame) : Wire :=
  let sh := f.sessionHash
  ⟨(content f).1,(sh >>> 8).toUInt8,sh.toUInt8,(content f).2,crc8 [(content f).1,(sh >>> 8).toUInt8,sh.toUInt8,(content f).2]⟩

def decode (b : Wire) : Except AckError AckFrame :=
  let expected := crc8 [b.b0,b.b1,b.b2,b.b3]
  if b.b4 ≠ expected then .error (.crcMismatch expected b.b4)
  else readContent ((b.b1.toUInt16 <<< 8) ||| b.b2.toUInt16) b.b0 b.b3

variable {Key : Type} (mac24 : Key → UInt8 → UInt8 → UInt8 × UInt8 × UInt8)

def encodeAuthenticated (key : Key) (f : AckFrame) : Wire :=
  let tag := mac24 key (content f).1 (content f).2
  ⟨(content f).1,tag.1,tag.2.1,(content f).2,tag.2.2⟩

def decodeAuthenticated (key : Key) (b : Wire) : Except AckError AckFrame :=
  if (b.b1,b.b2,b.b4) ≠ mac24 key b.b0 b.b3 then .error .macMismatch else readContent 0 b.b0 b.b3

def encodeMaybeAuthenticated (key : Option Key) (f : AckFrame) : Wire :=
  match key with
  | some k => encodeAuthenticated mac24 k f
  | none => encode f

def decodeMaybeAuthenticated (key : Option Key) (b : Wire) : Except AckError AckFrame :=
  match key with
  | some k => decodeAuthenticated mac24 k b
  | none => decode b

theorem typeIff {v : UInt8} {t : AckType} : typeFromU8 v = .ok t ↔ v = code t := by
  have back : ∀ t, typeFromU8 (code t) = .ok t := fun t => by cases t <;> decide
  constructor
  · intro read
    unfold typeFromU8 at read
    split at read
    · next found =>
      cases read
      exact (by simpa using List.find?_some found : code t = v).symm
    · cases read
  · rintro rfl
    exact back t

theorem levelIff {v : UInt8} {l : SpeedLevel} : levelFromU8 v = .ok l ↔ v = asU8 l := by
  have back : ∀ l, levelFromU8 (asU8 l) = .ok l := fun l => by cases l <;> decide
  constructor
  · intro read
    unfold levelFromU8 at read
    split at read
    · next found =>
      cases read
      exact (by simpa using List.find?_some found : asU8 l = v).symm
    · cases read
  · rintro rfl
    exact back l

theorem headRead (t : AckType) (hasRev hasRec : Bool) : ((headByte t hasRev hasRec) &&& 0xE0) >>> 5 = 0 ∧
    (headByte t hasRev hasRec) &&& 0x07 = code t ∧ ((headByte t hasRev hasRec >>> 3) &&& 1 ≠ 0 ↔ hasRev = true) ∧
    ((headByte t hasRev hasRec >>> 4) &&& 1 ≠ 0 ↔ hasRec = true) := by
  cases t <;> cases hasRev <;> cases hasRec <;> decide

theorem fieldTables : (∀ n : Fin 256, ((UInt8.ofFin n &&& 0xE0) >>> 5 = 0 → UInt8.ofFin n = (UInt8.ofFin n &&& (0x07 : UInt8)) |||
      (flag (decide ((UInt8.ofFin n >>> 3) &&& 1 ≠ 0)) <<< 3) ||| (flag (decide ((UInt8.ofFin n >>> 4) &&& 1 ≠ 0)) <<< 4)) ∧
      UInt8.ofFin n = packed ((UInt8.ofFin n >>> 3) &&& 0x1F) (UInt8.ofFin n &&& 0x07) ∧
      (UInt8.ofFin n >>> 3) &&& 0x1F < 32 ∧ UInt8.ofFin n &&& 0x07 < 8) ∧
    ∀ (m : Fin 32) (n : Fin 8), (packed (UInt8.ofNat m.val) (UInt8.ofNat n.val) >>> 3) &&& 0x1F = UInt8.ofNat m.val ∧
      packed (UInt8.ofNat m.val) (UInt8.ofNat n.val) &&& 0x07 = UInt8.ofNat n.val := by decide +kernel

theorem headBack {b0 : UInt8} {t : AckType} (free : (b0 &&& 0xE0) >>> 5 = 0) (read : b0 &&& 0x07 = code t) :
    b0 = headByte t (decide ((b0 >>> 3) &&& 1 ≠ 0)) (decide ((b0 >>> 4) &&& 1 ≠ 0)) := by
  rw [headByte, ← read]
  exact (fieldTables.1 b0.toFin).1 free

theorem packedRead {level reverse : UInt8} (narrow : level < 32) (low : reverse < 8) :
    (packed level reverse >>> 3) &&& 0x1F = level ∧ packed level reverse &&& 0x07 = reverse := by
  have both := fieldTables.2 ⟨level.toNat,narrow⟩ ⟨reverse.toNat,low⟩
  rwa [UInt8.ofNat_toNat, UInt8.ofNat_toNat] at both

theorem packedBack (b3 : UInt8) : b3 = packed ((b3 >>> 3) &&& 0x1F) (b3 &&& 0x07) ∧ (b3 >>> 3) &&& 0x1F < 32 ∧ b3 &&& 0x07 < 8 :=
  (fieldTables.1 b3.toFin).2

/-- Bytes 0 and 3 of a frame, with what a sender may leave in the fields of byte 3 that its flags do not claim. -/
def spared (level reverse : UInt8) (f : AckFrame) : UInt8 × UInt8 :=
  (headByte f.ackType f.reverseAck.isSome f.recommendedLevel.isSome,packed (f.recommendedLevel.elim level asU8) (f.reverseAck.elim reverse code))

theorem contentSpared (f : AckFrame) : content f = spared 0 0 f := by
  have levels : ∀ l, asU8 l &&& 0x1F = asU8 l := fun l => by cases l <;> decide
  have types : ∀ t, code t &&& 0x07 = code t := fun t => by cases t <;> decide
  obtain ⟨t,hash,rev,rec⟩ := f
  cases rev <;> cases rec <;> simp [content, spared, levels, types]

theorem bindOk {α β : Type} {x : Except AckError α} {f : α → Except AckError β} {b : β} :
    x >>= f = .ok b ↔ ∃ a, x = .ok a ∧ f a = .ok b := by
  cases x with
  | error e =>
    constructor
    · intro same
      cases same
    · rintro ⟨_,same,-⟩
      cases same
  | ok a =>
    constructor
    · exact fun same => ⟨a,rfl,same⟩
    · rintro ⟨_,same,rest⟩
      cases same
      exact rest

theorem claimedIff {α : Type} {has : Bool} {read : Except AckError α} {o : Option α} :
    claimed has read = .ok o ↔ has = o.isSome ∧ ∀ a, o = some a → read = .ok a := by
  cases has with
  | false => cases o <;> simp [claimed]
  | true => cases read <;> cases o <;> simp [claimed, Except.map]

theorem freeIff {b0 : UInt8} {u : Unit} : checkB0Reserved b0 = .ok u ↔ (b0 &&& 0xE0) >>> 5 = 0 := by
  unfold checkB0Reserved
  split <;> simp_all

theorem readIff {hash : UInt16} {b0 b3 : UInt8} {f : AckFrame} : readContent hash b0 b3 = .ok f ↔
    f.sessionHash = hash ∧ ∃ level reverse, level < 32 ∧ reverse < 8 ∧ (b0,b3) = spared level reverse f := by
  constructor
  · intro read
    obtain ⟨_,free,read⟩ := bindOk.mp read
    obtain ⟨t,readType,read⟩ := bindOk.mp read
    obtain ⟨rev,readRev,read⟩ := bindOk.mp read
    obtain ⟨rec,readRec,read⟩ := bindOk.mp read
    cases read
    obtain ⟨hasRev,reverseRead⟩ := claimedIff.mp readRev
    obtain ⟨hasRec,levelRead⟩ := claimedIff.mp readRec
    obtain ⟨whole,narrow,low⟩ := packedBack b3
    refine ⟨rfl,(b3 >>> 3) &&& 0x1F,b3 &&& 0x07,narrow,low,Prod.ext ?_ ?_⟩
    · rw [spared, ← hasRev, ← hasRec]
      exact headBack (freeIff.mp free) (typeIff.mp readType)
    · have reverse : rev.elim (b3 &&& 0x07) code = b3 &&& 0x07 := by
        cases rev with
        | none => rfl
        | some r => exact (typeIff.mp (reverseRead r rfl)).symm
      have level : rec.elim ((b3 >>> 3) &&& 0x1F) asU8 = (b3 >>> 3) &&& 0x1F := by
        cases rec with
        | none => rfl
        | some l => exact (levelIff.mp (levelRead l rfl)).symm
      rw [spared, reverse, level]
      exact whole
  · rintro ⟨rfl,level,reverse,narrow,low,same⟩
    obtain ⟨rfl,rfl⟩ := Prod.mk.inj same
    obtain ⟨t,hash,rev,rec⟩ := f
    obtain ⟨free,readType,hasRev,hasRec⟩ := headRead t rev.isSome rec.isSome
    have types : ∀ t, code t < 8 := fun t => by cases t <;> decide
    have levels : ∀ l, asU8 l < 32 := fun l => by cases l <;> decide
    have inLevel : rec.elim level asU8 < 32 := by cases rec with
      | none => exact narrow
      | some l => exact levels l
    have inReverse : rev.elim reverse code < 8 := by cases rev with
      | none => exact low
      | some r => exact types r
    obtain ⟨levelBack,reverseBack⟩ := packedRead inLevel inReverse
    refine bindOk.mpr ⟨(),freeIff.mpr free,bindOk.mpr ⟨t,typeIff.mpr readType,bindOk.mpr ⟨rev,?_,bindOk.mpr ⟨rec,?_,rfl⟩⟩⟩⟩
    · refine claimedIff.mpr ⟨by rw [Bool.eq_iff_iff, decide_eq_true_iff]; exact hasRev,?_⟩
      rintro r rfl
      exact typeIff.mpr reverseBack
    · refine claimedIff.mpr ⟨by rw [Bool.eq_iff_iff, decide_eq_true_iff]; exact hasRec,?_⟩
      rintro l rfl
      exact levelIff.mpr levelBack

def plainWord (hash : UInt16) (c : UInt8 × UInt8) : Wire :=
  ⟨c.1,(hash >>> 8).toUInt8,hash.toUInt8,c.2,crc8 [c.1,(hash >>> 8).toUInt8,hash.toUInt8,c.2]⟩

def taggedWord (key : Key) (c : UInt8 × UInt8) : Wire :=
  ⟨c.1,(mac24 key c.1 c.2).1,(mac24 key c.1 c.2).2.1,c.2,(mac24 key c.1 c.2).2.2⟩

def wordOf (key : Option Key) (hash : UInt16) (c : UInt8 × UInt8) : Wire :=
  match key with
  | some k => taggedWord mac24 k c
  | none => plainWord hash c

theorem encodeWord (key : Option Key) (f : AckFrame) :
    encodeMaybeAuthenticated mac24 key f = wordOf mac24 key f.sessionHash (spared 0 0 f) := by
  rw [← contentSpared]
  cases key <;> rfl

theorem highByte (hash : UInt16) : (hash >>> 8).toUInt8.toNat = hash.toNat / 256 := by
  have small := hash.toNat_lt
  simp [UInt16.toNat_shiftRight, Nat.shiftRight_eq_div_pow]
  omega

theorem hashBytes (hi lo : UInt8) : (((hi.toUInt16 <<< 8) ||| lo.toUInt16) >>> 8).toUInt8 = hi ∧
    ((hi.toUInt16 <<< 8) ||| lo.toUInt16).toUInt8 = lo := by
  have small := hi.toNat_lt
  have low := lo.toNat_lt
  constructor
  · apply UInt8.toNat_inj.mp
    rw [highByte, wordValue]
    omega
  · apply UInt8.toNat_inj.mp
    rw [UInt16.toNat_toUInt8, wordValue]
    omega

theorem hashWhole (hash : UInt16) : ((hash >>> 8).toUInt8.toUInt16 <<< 8) ||| hash.toUInt8.toUInt16 = hash := by
  have small := hash.toNat_lt
  apply UInt16.toNat_inj.mp
  rw [wordValue, highByte, UInt16.toNat_toUInt8]
  omega

theorem decodeIff {b : Wire} {f : AckFrame} : decode b = .ok f ↔
    ∃ level reverse, level < 32 ∧ reverse < 8 ∧ b = plainWord f.sessionHash (spared level reverse f) := by
  obtain ⟨b0,b1,b2,b3,b4⟩ := b
  constructor
  · intro read
    unfold decode at read
    dsimp only at read
    split at read
    · cases read
    · next checked =>
      obtain ⟨hash,level,reverse,narrow,low,same⟩ := readIff.mp read
      refine ⟨level,reverse,narrow,low,?_⟩
      rw [← same, hash, plainWord, (hashBytes b1 b2).1, (hashBytes b1 b2).2, ← not_not.mp checked]
  · rintro ⟨level,reverse,narrow,low,same⟩
    rw [same, decode, plainWord, if_neg (not_not.mpr rfl)]
    exact readIff.mpr ⟨(hashWhole _).symm,level,reverse,narrow,low,rfl⟩

theorem decodeTaggedIff {key : Key} {b : Wire} {f : AckFrame} : decodeAuthenticated mac24 key b = .ok f ↔ f.sessionHash = 0 ∧
    ∃ level reverse, level < 32 ∧ reverse < 8 ∧ b = taggedWord mac24 key (spared level reverse f) := by
  obtain ⟨b0,b1,b2,b3,b4⟩ := b
  constructor
  · intro read
    unfold decodeAuthenticated at read
    dsimp only at read
    split at read
    · cases read
    · next tagged =>
      obtain ⟨hash,level,reverse,narrow,low,same⟩ := readIff.mp read
      refine ⟨hash,level,reverse,narrow,low,?_⟩
      rw [← same, taggedWord, ← not_not.mp tagged]
  · rintro ⟨hash,level,reverse,narrow,low,same⟩
    rw [same, decodeAuthenticated, taggedWord, if_neg (not_not.mpr rfl)]
    exact readIff.mpr ⟨hash,level,reverse,narrow,low,rfl⟩

/-- Exactly the words of the encoders are accepted, up to what stands in the fields of byte 3 that byte 0 does not claim; and a
frame is read back as it was sent, but for the session hash, which the tagged form does not carry. -/
theorem acceptedIff (key : Option Key) :
    (∀ b f, decodeMaybeAuthenticated mac24 key b = .ok f ↔ (key.isSome → f.sessionHash = 0) ∧
      ∃ level reverse, level < 32 ∧ reverse < 8 ∧ b = wordOf mac24 key f.sessionHash (spared level reverse f)) ∧
    ∀ f, encodeMaybeAuthenticated mac24 key f = wordOf mac24 key f.sessionHash (spared 0 0 f) ∧
      decodeMaybeAuthenticated mac24 key (encodeMaybeAuthenticated mac24 key f) =
        .ok ⟨f.ackType,if key.isSome then 0 else f.sessionHash,f.reverseAck,f.recommendedLevel⟩ := by
  have accepted : ∀ b f, decodeMaybeAuthenticated mac24 key b = .ok f ↔ (key.isSome → f.sessionHash = 0) ∧
      ∃ level reverse, level < 32 ∧ reverse < 8 ∧ b = wordOf mac24 key f.sessionHash (spared level reverse f) := by
    intro b f
    cases key with
    | none => simpa [decodeMaybeAuthenticated, wordOf] using decodeIff
    | some k => simpa [decodeMaybeAuthenticated, wordOf] using decodeTaggedIff mac24
  refine ⟨accepted,fun f => ⟨encodeWord mac24 key f,(accepted _ _).mpr ⟨fun tagged => if_pos tagged,0,0,by decide,by decide,?_⟩⟩⟩
  rw [encodeWord]
  cases key <;> rfl

def poly : BitVec 8 := 0x07

def bits (b : Wire) : List Bool := [b.b0,b.b1,b.b2,b.b3,b.b4].flatMap fun x => places x.toBitVec

def damaged (b e : Wire) : Wire := ⟨b.b0 ^^^ e.b0,b.b1 ^^^ e.b1,b.b2 ^^^ e.b2,b.b3 ^^^ e.b3,b.b4 ^^^ e.b4⟩

theorem topBit (c : UInt8) : c &&& 0x80 ≠ 0 ↔ c.toBitVec.msb = true := by
  have masked : (c &&& 0x80).toBitVec = if c.toBitVec.getLsbD 7 then BitVec.twoPow 8 7 else 0 := by
    rw [UInt8.toBitVec_and]
    exact BitVec.and_twoPow c.toBitVec 7
  rw [BitVec.msb_eq_getLsbD_last, ne_eq, ← UInt8.toBitVec_inj, masked]
  cases c.toBitVec.getLsbD 7 <;> simp

theorem crcBitStep (c : UInt8) : (crcBit c).toBitVec = step poly c.toBitVec false := by
  unfold crcBit step
  simp only [topBit]
  cases c.toBitVec.msb <;> simp [poly]

theorem crcByteFeed (crc b : UInt8) : (crcBit^[8] (crc ^^^ b)).toBitVec = feed poly crc.toBitVec (places b.toBitVec) := by
  rw [← List.take_of_length_le (Nat.le_of_eq (placesLength b.toBitVec)), feedPlaces poly _ _ (Nat.le_refl 8), feedShifts,
    BitVec.shiftLeft_eq_zero (Nat.le_refl 8), BitVec.zero_xor]
  have steps : Function.Semiconj UInt8.toBitVec crcBit fun r => step poly r false := crcBitStep
  exact steps.iterate_right 8 (crc ^^^ b)

theorem crc8Feed (data : List UInt8) : (crc8 data).toBitVec = feed poly 0 (data.flatMap fun x => places x.toBitVec) := by
  have from_ : ∀ (data : List UInt8) (crc : UInt8), (data.foldl (fun crc b => crcBit^[8] (crc ^^^ b)) crc).toBitVec =
      feed poly crc.toBitVec (data.flatMap fun x => places x.toBitVec) := by
    intro data
    induction data with
    | nil => exact fun _ => rfl
    | cons b data ih =>
      intro crc
      rw [List.foldl_cons, ih, crcByteFeed, List.flatMap_cons, feedAppend]
  exact from_ data 0

theorem checksIff (b : Wire) : b.b4 = crc8 [b.b0,b.b1,b.b2,b.b3] ↔ feed poly 0 (bits b) = 0 := by
  have split : bits b = ([b.b0,b.b1,b.b2,b.b3].flatMap fun x => places x.toBitVec) ++ places b.b4.toBitVec := by
    simp [bits]
  rw [split, feedAppend, ← crc8Feed, feedCheck poly (by decide) (by decide), UInt8.toBitVec_inj]
  exact eq_comm

theorem bitsDamaged (b e : Wire) : bits (damaged b e) = added (bits b) (bits e) := by
  have joined : ∀ (xs ys : List Bool) (x y : UInt8), added (places x.toBitVec ++ xs) (places y.toBitVec ++ ys) =
      places (x ^^^ y).toBitVec ++ added xs ys := by
    intro xs ys x y
    rw [added, List.zipWith_append (by rw [placesLength, placesLength]), UInt8.toBitVec_xor, placesXor]
    rfl
  simp only [bits, damaged, List.flatMap_cons, joined]
  rfl

theorem bitsLength (b : Wire) : (bits b).length = 40 := by simp [bits, placesLength]

/-- Flips of one word that the check byte is there for: an odd number, two, or some within eight places next to each other. -/
def Sees (e : Wire) : Prop :=
  (bits e).count true % 2 = 1 ∨ (bits e).count true = 2 ∨
    ∃ before burst after, bits e = List.replicate before false ++ burst ++ List.replicate after false ∧ burst.length ≤ 8 ∧ true ∈ burst

theorem errorSeen {e : Wire} (sees : Sees e) : feed poly 0 (bits e) ≠ 0 := by
  obtain uneven | two | ⟨before,burst,after,whole,short,hit⟩ := sees
  · exact oddSeen poly (by decide) (by decide) uneven
  · exact pairSeen poly (by decide) (by decide) (n := 40) (by decide) (bitsLength e).le two
  · rw [whole]
    exact burstSeen (by decide) (by decide) short ⟨true,hit,rfl⟩ before after

theorem damagedRefused {b e : Wire} {f : AckFrame} (read : decode b = .ok f) (sees : Sees e) :
    ∃ expected, decode (damaged b e) = .error (.crcMismatch expected (b.b4 ^^^ e.b4)) := by
  have good : feed poly 0 (bits b) = 0 := by
    refine (checksIff b).mp ?_
    obtain ⟨level,reverse,-,-,rfl⟩ := decodeIff.mp read
    rfl
  have bad : (damaged b e).b4 ≠ crc8 [(damaged b e).b0,(damaged b e).b1,(damaged b e).b2,(damaged b e).b3] := by
    intro same
    have zero := (checksIff _).mp same
    have sum := feedXor poly (show (bits b).length = (bits e).length by rw [bitsLength, bitsLength]) 0 0
    have added : feed poly (0 ^^^ 0) (bits (damaged b e)) = 0 := zero
    rw [bitsDamaged, sum, good] at added
    exact errorSeen sees (BitVec.zero_xor.symm.trans added)
  exact ⟨_,if_pos bad⟩

theorem damagedRefusedPair : ∃ expected, decode (damaged (encode ⟨.ackUp,0xBEEF,some .nack,some .sl9⟩) ⟨1,0,0,0,1⟩) =
    .error (.crcMismatch expected ((encode ⟨.ackUp,0xBEEF,some .nack,some .sl9⟩).b4 ^^^ 1)) :=
  damagedRefused (decodeIff.mpr ⟨0,0,by decide,by decide,congrArg (plainWord _) (contentSpared _)⟩) (.inr (.inl (by decide)))

end OpenPulse.AckWire
