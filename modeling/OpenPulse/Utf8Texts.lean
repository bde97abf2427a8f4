import OpenPulse.ByteCodec
import OpenPulse.Utf8Cuts

/-! The bytes of a text: they decode to nothing but the text, and a low byte is a character. -/
namespace OpenPulse.Utf8Texts
open ByteCodec Utf8Cuts

theorem utf8OfList (cs : List Char) : utf8 (String.ofList cs) = encoded cs := by
  rw [utf8, String.toUTF8_eq_toByteArray, String.toByteArray_ofList]
  simp [List.utf8Encode, encoded]

theorem utf8ToList (s : String) : utf8 s = encoded s.toList := by
  rw [← utf8OfList, String.ofList_toList]

theorem utf8Read {raw : Bytes} {s : String} (read : fromUtf8 raw = some s) : utf8 s = raw := by
  rw [fromUtf8, String.fromUTF8?] at read
  split at read
  · cases Option.some.inj read
    rfl
  · cases read

theorem encodedInj {cs ds : List Char} (same : encoded cs = encoded ds) : cs = ds := by
  rw [← utf8OfList, ← utf8OfList] at same
  exact String.ofList_injective (utf8Inj same)

inductive Shape (v : Nat) : List UInt8 → Prop where
  | one (low : v < 0x80) : Shape v [UInt8.ofNat v]
  | two (least : 0x80 ≤ v) (most : v < 0x800) : Shape v [UInt8.ofNat (v / 64 + 0xC0),UInt8.ofNat (v % 64 + 0x80)]
  | three (least : 0x800 ≤ v) (most : v < 0x10000) (plain : v < 0xD800 ∨ 0xDFFF < v) :
      Shape v [UInt8.ofNat (v / 4096 + 0xE0),UInt8.ofNat (v / 64 % 64 + 0x80),UInt8.ofNat (v % 64 + 0x80)]
  | four (least : 0x10000 ≤ v) (most : v < 0x110000) :
      Shape v [UInt8.ofNat (v / 262144 + 0xF0),UInt8.ofNat (v / 4096 % 64 + 0x80),UInt8.ofNat (v / 64 % 64 + 0x80),
        UInt8.ofNat (v % 64 + 0x80)]

theorem charShape (c : Char) : Shape c.toNat (String.utf8EncodeChar c) := by
  have valid : c.toNat < 0xD800 ∨ 0xDFFF < c.toNat ∧ c.toNat < 0x110000 := c.valid
  have value : c.val.toNat = c.toNat := rfl
  unfold String.utf8EncodeChar
  dsimp only
  rw [value]
  split_ifs with one two three
  · exact .one (by omega)
  · rw [Nat.mod_eq_of_lt (by omega : c.toNat / 64 < 32)]
    exact .two (by omega) (by omega)
  · rw [Nat.mod_eq_of_lt (by omega : c.toNat / 4096 < 16)]
    exact .three (by omega) (by omega) (by omega)
  · rw [Nat.mod_eq_of_lt (by omega : c.toNat / 262144 < 8)]
    exact .four (by omega) (by omega)

theorem byteValue {n : Nat} (small : n < 256) : (UInt8.ofNat n).toNat = n := by
  rw [UInt8.toNat_ofNat', Nat.mod_eq_of_lt (by omega)]

theorem lowByte {v : Nat} {raw : List UInt8} {b : UInt8} (shape : Shape v raw) (member : b ∈ raw) (low : b.toNat < 128) :
    v = b.toNat := by
  cases shape <;> simp only [List.mem_cons, List.not_mem_nil, or_false] at member
  case one small => rw [member, byteValue (by omega)]
  case two => rcases member with rfl | rfl <;> rw [byteValue (by omega)] at low <;> omega
  case three => rcases member with rfl | rfl | rfl <;> rw [byteValue (by omega)] at low <;> omega
  case four => rcases member with rfl | rfl | rfl | rfl <;> rw [byteValue (by omega)] at low <;> omega

theorem lowAbsent {c : Char} (low : c.toNat < 128) {cs : List Char} (absent : c ∉ cs) : UInt8.ofNat c.toNat ∉ encoded cs := by
  intro member
  obtain ⟨d,there,byte⟩ := List.mem_flatMap.mp member
  have small := byteValue (show c.toNat < 256 by omega)
  have same := lowByte (charShape d) byte (by omega)
  rw [small] at same
  exact absent (Char.toNat_inj.mp same ▸ there)

end OpenPulse.Utf8Texts
