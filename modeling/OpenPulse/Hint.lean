import OpenPulse.RendezvousOver

/-! The capability hint of the discovery beacon: the codec of `openpulse-discovery/src/hint.rs`. -/
namespace OpenPulse.Hint
open ByteCodec Js8 Words Rendezvous
open B2f (isWhitespace trim)

structure HintPayload where
  caps : UInt16
  prefChannel : UInt8
  listenSubmode : UInt8
  deriving DecidableEq, Repr

def HintPayload.Fits (p : HintPayload) : Prop := p.prefChannel ≤ 63 ∧ p.listenSubmode ≤ 7

instance (p : HintPayload) : Decidable p.Fits := by unfold HintPayload.Fits; infer_instance

def opulseGroup : List Char := "OPULSE".toList

def base36 : List Char := "0123456789ABCDEFGHIJKLMNOPQRSTUVWXYZ".toList

def payloadChars : Nat := 8

def crcShift (crc : UInt8) : UInt8 := if crc &&& 0x80 ≠ 0 then (crc <<< 1) ^^^ 0x07 else crc <<< 1

def crcFeed (crc b : UInt8) : UInt8 := Nat.repeat crcShift 8 (crc ^^^ b)

def crc8Salted (data : Bytes) (salt : List Char) : UInt8 :=
  (data ++ utf8 (String.ofList (toUpper (trim salt)))).foldl crcFeed 0

def HintPayload.body (p : HintPayload) : UInt32 :=
  p.caps.toUInt32 ||| ((p.prefChannel.toUInt32 &&& 0x3f) <<< 16) ||| ((p.listenSubmode.toUInt32 &&& 0x7) <<< 22)

def payloadValue (p : HintPayload) (callsign : List Char) : Nat :=
  let check := crc8Salted (le 4 p.body.toNat) callsign
  p.body.toNat ||| (check.toNat <<< 32)

def toBase36 : Nat → Nat → List Char
  | 0, _ => []
  | width + 1, value => toBase36 width (value / 36) ++ [base36.getD (value % 36) '0']

def base36Digit (c : Char) : Option Nat := base36.idxOf? c.toUpper

def fromBase36 (s : List Char) : Option Nat :=
  if byteLen s ≠ payloadChars then none
  else s.foldlM (fun value c => (base36Digit c).map (value * 36 + ·)) 0

def encodeHint (p : HintPayload) (callsign : List Char) : List Char :=
  wireToken ++ ' ' :: toBase36 payloadChars (payloadValue p callsign)

def decodePayload (value : Nat) (callsign : List Char) : Option HintPayload :=
  let body := UInt32.ofNat value
  let check := UInt8.ofNat (value >>> 32)
  if crc8Salted (le 4 body.toNat) callsign ≠ check then none
  else some ⟨body.toUInt16,((body >>> 16) &&& 0x3f).toUInt8,((body >>> 22) &&& 0x7).toUInt8⟩

def decodeHint (text callsign : List Char) : Option HintPayload :=
  match words isWhitespace text with
  | tok::payload::_ => if spoken tok then (fromBase36 payload).bind (decodePayload · callsign) else none
  | _ => none

theorem base36Facts : ∀ k < 36, Plain (base36.getD k '0') ∧ base36Digit (base36.getD k '0') = some k := by
  unfold Plain
  decide

theorem base36Length (width value : Nat) : (toBase36 width value).length = width := by
  induction width generalizing value with
  | zero => rfl
  | succ width ih => rw [toBase36, List.length_append, ih, List.length_singleton]

theorem base36Plain (width value : Nat) : ∀ c ∈ toBase36 width value, Plain c := by
  induction width generalizing value with
  | zero => simp [toBase36]
  | succ width ih =>
    intro c member
    rw [toBase36, List.mem_append, List.mem_singleton] at member
    rcases member with front | rfl
    · exact ih (value / 36) c front
    · exact (base36Facts (value % 36) (Nat.mod_lt _ (by decide))).1

theorem base36Back {width value : Nat} (small : value < 36 ^ width) :
    (toBase36 width value).foldlM (fun value c => (base36Digit c).map (value * 36 + ·)) 0 = some value := by
  induction width generalizing value with
  | zero =>
    have zero : value = 0 := by simpa using small
    rw [zero]
    rfl
  | succ width ih =>
    have front : value / 36 < 36 ^ width := Nat.div_lt_of_lt_mul (by rwa [Nat.pow_succ, Nat.mul_comm] at small)
    have last := (base36Facts (value % 36) (Nat.mod_lt _ (by decide))).2
    have joined : value / 36 * 36 + value % 36 = value := Nat.div_add_mod' value 36
    rw [toBase36, List.foldlM_append, ih front, Option.bind_eq_bind, Option.bind_some, List.foldlM_cons, last, Option.map_some,
      joined]
    rfl

theorem plainByte {c : Char} (plain : Plain c) : c.utf8Size = 1 :=
  Char.utf8Size_eq_one_iff.mpr (UInt32.le_iff_toNat_le.mpr (Nat.le_of_lt_succ (plainBelow plain)))

theorem plainBytes {cs : List Char} (plain : ∀ c ∈ cs, Plain c) : byteLen cs = cs.length := by
  induction cs with
  | nil => rfl
  | cons c cs ih =>
    have first := plainByte (plain c (by simp))
    have rest := ih fun d member => plain d (List.mem_cons_of_mem c member)
    rw [List.length_cons, ← rest, Nat.add_comm, ← first]
    rfl

theorem fromToBase36 {value : Nat} (small : value < 36 ^ payloadChars) :
    fromBase36 (toBase36 payloadChars value) = some value := by
  have bytes : byteLen (toBase36 payloadChars value) = payloadChars := by
    rw [plainBytes (base36Plain _ _), base36Length]
  rw [fromBase36, if_neg (by simp [bytes])]
  exact base36Back small

theorem HintPayload.Fits.bodyValue {p : HintPayload} (fits : p.Fits) :
    p.body.toNat = p.listenSubmode.toNat * 2 ^ 22 + (p.prefChannel.toNat * 2 ^ 16 + p.caps.toNat) := by
  have channel : p.prefChannel.toNat ≤ 63 := UInt8.le_iff_toNat_le.mp fits.1
  have submode : p.listenSubmode.toNat ≤ 7 := UInt8.le_iff_toNat_le.mp fits.2
  have caps := p.caps.toNat_lt
  have low := Nat.shiftLeft_add_eq_or_of_lt caps p.prefChannel.toNat
  have lower : p.prefChannel.toNat <<< 16 + p.caps.toNat < 2 ^ 22 := by
    rw [Nat.shiftLeft_eq]
    omega
  have whole := Nat.shiftLeft_add_eq_or_of_lt lower p.listenSubmode.toNat
  have six : p.prefChannel.toNat &&& 63 = p.prefChannel.toNat := by
    rw [show 63 = 2 ^ 6 - 1 from rfl, Nat.and_two_pow_sub_one_eq_mod]
    omega
  have three : p.listenSubmode.toNat &&& 7 = p.listenSubmode.toNat := by
    rw [show 7 = 2 ^ 3 - 1 from rfl, Nat.and_two_pow_sub_one_eq_mod]
    omega
  have value : p.body.toNat = p.listenSubmode.toNat <<< 22 ||| (p.prefChannel.toNat <<< 16 ||| p.caps.toNat) := by
    have channelFits : p.prefChannel.toNat <<< 16 % 2 ^ 32 = p.prefChannel.toNat <<< 16 := by
      rw [Nat.shiftLeft_eq]
      omega
    have submodeFits : p.listenSubmode.toNat <<< 22 % 2 ^ 32 = p.listenSubmode.toNat <<< 22 := by
      rw [Nat.shiftLeft_eq]
      omega
    simp only [HintPayload.body, UInt32.toNat_or, UInt32.toNat_shiftLeft, UInt32.toNat_and, UInt16.toNat_toUInt32,
      UInt8.toNat_toUInt32, UInt32.toNat_ofNat, Nat.reducePow, Nat.reduceMod, six, three] at channelFits submodeFits ⊢
    rw [channelFits, submodeFits, Nat.or_comm, Nat.or_comm p.caps.toNat]
  rw [value, ← low, ← whole, Nat.shiftLeft_eq, Nat.shiftLeft_eq]

theorem payloadValueParts (p : HintPayload) (callsign : List Char) : payloadValue p callsign =
    (crc8Salted (le 4 p.body.toNat) callsign).toNat * 2 ^ 32 + p.body.toNat := by
  rw [payloadValue, Nat.or_comm, ← Nat.shiftLeft_add_eq_or_of_lt p.body.toNat_lt, Nat.shiftLeft_eq]

theorem payloadValueSmall (p : HintPayload) (callsign : List Char) : payloadValue p callsign < 36 ^ payloadChars := by
  have check := (crc8Salted (le 4 p.body.toNat) callsign).toNat_lt
  have body := p.body.toNat_lt
  rw [payloadValueParts, payloadChars]
  omega

theorem HintPayload.Fits.decodePayload {p : HintPayload} (fits : p.Fits) (callsign : List Char) :
    Hint.decodePayload (payloadValue p callsign) callsign = some p := by
  have channel : p.prefChannel.toNat ≤ 63 := UInt8.le_iff_toNat_le.mp fits.1
  have submode : p.listenSubmode.toNat ≤ 7 := UInt8.le_iff_toNat_le.mp fits.2
  have caps := p.caps.toNat_lt
  have fields := fits.bodyValue
  have small := p.body.toNat_lt
  have body : UInt32.ofNat (payloadValue p callsign) = p.body := by
    apply UInt32.toNat_inj.mp
    rw [UInt32.toNat_ofNat', payloadValueParts]
    omega
  have check : UInt8.ofNat (payloadValue p callsign >>> 32) = crc8Salted (le 4 p.body.toNat) callsign := by
    have byte := (crc8Salted (le 4 p.body.toNat) callsign).toNat_lt
    apply UInt8.toNat_inj.mp
    rw [UInt8.toNat_ofNat', Nat.shiftRight_eq_div_pow, payloadValueParts]
    omega
  have capsBack : p.body.toUInt16 = p.caps := by
    apply UInt16.toNat_inj.mp
    rw [UInt32.toNat_toUInt16, fields]
    omega
  have channelBack : ((p.body >>> 16) &&& 0x3f).toUInt8 = p.prefChannel := by
    apply UInt8.toNat_inj.mp
    simp only [UInt32.toNat_toUInt8, UInt32.toNat_and, UInt32.toNat_shiftRight, UInt32.reduceToNat, Nat.reduceMod,
      Nat.shiftRight_eq_div_pow]
    rw [show 63 = 2 ^ 6 - 1 from rfl, Nat.and_two_pow_sub_one_eq_mod, fields]
    omega
  have submodeBack : ((p.body >>> 22) &&& 0x7).toUInt8 = p.listenSubmode := by
    apply UInt8.toNat_inj.mp
    simp only [UInt32.toNat_toUInt8, UInt32.toNat_and, UInt32.toNat_shiftRight, UInt32.reduceToNat, Nat.reduceMod,
      Nat.shiftRight_eq_div_pow]
    rw [show 7 = 2 ^ 3 - 1 from rfl, Nat.and_two_pow_sub_one_eq_mod, fields]
    omega
  simp only [Hint.decodePayload, body, check, ne_eq, not_true_eq_false, if_false, capsBack, channelBack, submodeBack]

theorem hintCoded (p : HintPayload) (callsign : List Char) : ∀ c ∈ encodeHint p callsign, Coded c := by
  have wire : ∀ c ∈ wireToken, Coded c := everyChar (by decide)
  intro c member
  rcases List.mem_append.mp member with front | back
  · exact wire c front
  rcases List.mem_cons.mp back with rfl | digit
  · exact (by decide : Coded ' ')
  · exact (plainFacts (base36Plain _ _ c digit)).2.1

theorem hintRoom (p : HintPayload) (callsign : List Char) : byteLen (encodeHint p callsign) ≤ maxTextLen := by
  have wire : byteLen (wireToken ++ [' ']) = 6 := by decide
  rw [encodeHint, List.append_cons, byteLenAppend, wire, plainBytes (base36Plain _ _), base36Length]
  decide

theorem wireWhole : ∀ c ∈ wireToken, isWhitespace c = false := everyChar (by decide)

theorem hintWords {digits : List Char} (some' : digits ≠ []) (plain : ∀ c ∈ digits, Plain c) :
    words isWhitespace (wireToken ++ ' '::digits) = [wireToken,digits] := by
  rw [wordsFirst (by decide) wireWhole (blankApart digits), wordsAfter blankBreaks, wordsOne some' (wordPlain plain)]

theorem decodeHintFew {text : List Char} (few : (words isWhitespace text).length < 2) (salt : List Char) :
    decodeHint text salt = none := by
  unfold decodeHint
  split
  · rename_i tok payload more split
    rw [split] at few
    exact absurd few (by simp)
  · rfl

theorem decodeEncodeHint {p : HintPayload} (fits : p.Fits) (callsign : List Char) :
    decodeHint (encodeHint p callsign) callsign = some p := by
  have some' : toBase36 payloadChars (payloadValue p callsign) ≠ [] := by
    rw [Ne, ← List.length_eq_zero_iff, base36Length]
    decide
  rw [decodeHint, encodeHint, hintWords some' (base36Plain _ _)]
  simp only [spokenWire, if_true, fromToBase36 (payloadValueSmall p callsign), Option.bind_some, fits.decodePayload callsign]

/- A hint that has only begun is none: its payload is too short. -/
theorem hintBegun {p : HintPayload} {callsign heard : List Char} (begins : heard <+: encodeHint p callsign)
    (short : heard ≠ encodeHint p callsign) (salt : List Char) : decodeHint heard salt = none := by
  have oneWord : ∀ word : List Char, (∀ c ∈ word, isWhitespace c = false) → decodeHint word salt = none := by
    intro word whole
    have blanks : word.countP isWhitespace = 0 := List.countP_eq_zero.mpr fun c member => by simp [whole c member]
    have count := @Words.wordsCount Char isWhitespace word
    exact decodeHintFew (by omega) salt
  rcases List.prefix_or_prefix_of_prefix begins (List.prefix_append wireToken _) with inside | ⟨tail,rfl⟩
  · exact oneWord heard fun c member => wireWhole c (inside.subset member)
  -- behind the token
  have rest := (List.prefix_append_right_inj wireToken).mp begins
  cases tail with
  | nil =>
    rw [List.append_nil]
    exact oneWord wireToken wireWhole
  | cons blank digits =>
    obtain ⟨rfl,begun⟩ := List.cons_prefix_cons.mp rest
    have plain : ∀ c ∈ digits, Plain c := fun c member => base36Plain _ _ c (begun.subset member)
    by_cases none' : digits = []
    · rw [none']
      exact decodeHintFew (by decide) salt
    · have fewer : digits.length < payloadChars := by
        have room := begun.length_le
        rw [base36Length] at room
        refine Nat.lt_of_le_of_ne room fun full => short ?_
        rw [encodeHint, begun.eq_of_length (by rw [base36Length, full])]
      have unread : fromBase36 digits = none := by
        rw [fromBase36, if_pos]
        rw [plainBytes plain]
        exact Nat.ne_of_lt fewer
      rw [decodeHint, hintWords none' plain]
      simp only [unread, Option.bind_none, ite_self]

end OpenPulse.Hint
