import Mathlib.Data.Nat.Basic

/-! Bytes as text in the standard alphabet of base64, padded. Three bytes are four letters; the
last two letters of a shorter group are padding, and the bits that the padding stands for
are zero, so a text that is read is the text of the bytes read. -/
namespace OpenPulse.Base64

def letter (v : Nat) : Char :=
  if v < 26 then Char.ofNat (v + 65)
  else if v < 52 then Char.ofNat (v + 71)
  else if v < 62 then Char.ofNat (v - 4)
  else if v = 62 then '+' else '/'

def value (c : Char) : Option Nat :=
  if 65 ≤ c.toNat ∧ c.toNat ≤ 90 then some (c.toNat - 65)
  else if 97 ≤ c.toNat ∧ c.toNat ≤ 122 then some (c.toNat - 71)
  else if 48 ≤ c.toNat ∧ c.toNat ≤ 57 then some (c.toNat + 4)
  else if c = '+' then some 62
  else if c = '/' then some 63
  else none

def encode : List UInt8 → List Char
  | [] => []
  | [a] => [letter (a.toNat / 4),letter (a.toNat % 4 * 16),'=','=']
  | [a,b] => [letter (a.toNat / 4),letter (a.toNat % 4 * 16 + b.toNat / 16),letter (b.toNat % 16 * 4),'=']
  | a::b::c::rest =>
    letter (a.toNat / 4) :: letter (a.toNat % 4 * 16 + b.toNat / 16) :: letter (b.toNat % 16 * 4 + c.toNat / 64) ::
      letter (c.toNat % 64) :: encode rest

theorem encodeOne (a : UInt8) : encode [a] = [letter (a.toNat / 4),letter (a.toNat % 4 * 16),'=','='] := rfl

theorem encodeTwo (a b : UInt8) :
    encode [a,b] = [letter (a.toNat / 4),letter (a.toNat % 4 * 16 + b.toNat / 16),letter (b.toNat % 16 * 4),'='] := rfl

theorem encodeThree (a b c : UInt8) (rest : List UInt8) : encode (a::b::c::rest) =
    letter (a.toNat / 4) :: letter (a.toNat % 4 * 16 + b.toNat / 16) :: letter (b.toNat % 16 * 4 + c.toNat / 64) ::
      letter (c.toNat % 64) :: encode rest := rfl

def firstByte (v w : Nat) : UInt8 := UInt8.ofNat (v * 4 + w / 16)
def secondByte (w x : Nat) : UInt8 := UInt8.ofNat (w % 16 * 16 + x / 4)
def thirdByte (x y : Nat) : UInt8 := UInt8.ofNat (x % 4 * 64 + y)

def decodeLast (p q r : Char) : Option (List UInt8) := do
  let v ← value p
  let w ← value q
  if r = '=' then if w % 16 = 0 then some [firstByte v w] else none
  else do
    let x ← value r
    if x % 4 = 0 then some [firstByte v w,secondByte w x] else none

def decode : List Char → Option (List UInt8)
  | [] => some []
  | p::q::r::s::rest =>
    if s = '=' then if rest = [] then decodeLast p q r else none
    else do
      let v ← value p
      let w ← value q
      let x ← value r
      let y ← value s
      let bytes ← decode rest
      some (firstByte v w :: secondByte w x :: thirdByte x y :: bytes)
  | _ => none

theorem valueLetter : ∀ v < 64, value (letter v) = some v := by decide

theorem letterPlain : ∀ v < 64, letter v ≠ '=' := by decide

theorem letterValue {c : Char} {v : Nat} (read : value c = some v) : v < 64 ∧ letter v = c := by
  have named : ∀ n, c.toNat = n → Char.ofNat n = c := fun n same => by rw [← same, Char.ofNat_toNat]
  unfold value at read
  split_ifs at read with upper lower digit plus slash
  · cases read
    refine ⟨by omega,?_⟩
    rw [letter, if_pos (by omega)]
    exact named _ (by omega)
  · cases read
    refine ⟨by omega,?_⟩
    rw [letter, if_neg (by omega), if_pos (by omega)]
    exact named _ (by omega)
  · cases read
    refine ⟨by omega,?_⟩
    rw [letter, if_neg (by omega), if_neg (by omega), if_pos (by omega)]
    exact named _ (by omega)
  · cases read
    exact ⟨by decide,plus.symm⟩
  · cases read
    exact ⟨by decide,slash.symm⟩

theorem byteBack (a : UInt8) {n : Nat} (same : n = a.toNat) : UInt8.ofNat n = a := by
  rw [same, UInt8.ofNat_toNat]

theorem decodeEncode (bytes : List UInt8) : decode (encode bytes) = some bytes := by
  induction bytes using encode.induct with
  | case1 => rfl
  | case2 a =>
    have below := a.toNat_lt
    have first : firstByte (a.toNat / 4) (a.toNat % 4 * 16) = a := byteBack a (by omega)
    have clear : a.toNat % 4 * 16 % 16 = 0 := by omega
    rw [encodeOne, decode, if_pos rfl, if_pos rfl, decodeLast, valueLetter _ (by omega), valueLetter _ (by omega)]
    simp [clear, first]
  | case3 a b =>
    have below := a.toNat_lt
    have below' := b.toNat_lt
    have first : firstByte (a.toNat / 4) (a.toNat % 4 * 16 + b.toNat / 16) = a := byteBack a (by omega)
    have second : secondByte (a.toNat % 4 * 16 + b.toNat / 16) (b.toNat % 16 * 4) = b := byteBack b (by omega)
    have clear : b.toNat % 16 * 4 % 4 = 0 := by omega
    have plain := letterPlain (b.toNat % 16 * 4) (by omega)
    rw [encodeTwo, decode, if_pos rfl, if_pos rfl, decodeLast, valueLetter _ (by omega), valueLetter _ (by omega),
      valueLetter _ (by omega)]
    simp [plain, clear, first, second]
  | case4 a b c rest ih =>
    have below := a.toNat_lt
    have below' := b.toNat_lt
    have below'' := c.toNat_lt
    have first : firstByte (a.toNat / 4) (a.toNat % 4 * 16 + b.toNat / 16) = a := byteBack a (by omega)
    have second : secondByte (a.toNat % 4 * 16 + b.toNat / 16) (b.toNat % 16 * 4 + c.toNat / 64) = b := byteBack b (by omega)
    have third : thirdByte (b.toNat % 16 * 4 + c.toNat / 64) (c.toNat % 64) = c := byteBack c (by omega)
    rw [encodeThree, decode, if_neg (letterPlain _ (by omega)), valueLetter _ (by omega), valueLetter _ (by omega),
      valueLetter _ (by omega), valueLetter _ (by omega), ih]
    simp [first, second, third]

theorem firstBack {v w : Nat} (v' : v < 64) (w' : w < 64) : (firstByte v w).toNat = v * 4 + w / 16 :=
  UInt8.toNat_ofNat_of_lt' (show v * 4 + w / 16 < 256 by omega)

theorem secondBack {w x : Nat} (x' : x < 64) : (secondByte w x).toNat = w % 16 * 16 + x / 4 :=
  UInt8.toNat_ofNat_of_lt' (show w % 16 * 16 + x / 4 < 256 by omega)

theorem thirdBack {x y : Nat} (y' : y < 64) : (thirdByte x y).toNat = x % 4 * 64 + y :=
  UInt8.toNat_ofNat_of_lt' (show x % 4 * 64 + y < 256 by omega)

theorem encodeDecodeLast {p q r : Char} {bytes : List UInt8} (read : decodeLast p q r = some bytes) : encode bytes = [p,q,r,'='] := by
  unfold decodeLast at read
  simp only [bind, Option.bind_eq_some_iff] at read
  obtain ⟨v,first,w,second,read⟩ := read
  obtain ⟨v',rfl⟩ := letterValue first
  obtain ⟨w',rfl⟩ := letterValue second
  split at read
  next padded =>
    split at read
    next clear =>
      cases read
      rw [encodeOne, firstBack v' w', padded, show (v * 4 + w / 16) / 4 = v by omega,
        show (v * 4 + w / 16) % 4 * 16 = w by omega]
    next => cases read
  next =>
    simp only [Option.bind_eq_some_iff] at read
    obtain ⟨x,third,read⟩ := read
    obtain ⟨x',rfl⟩ := letterValue third
    split at read
    next clear =>
      cases read
      rw [encodeTwo, firstBack v' w', secondBack x', show (v * 4 + w / 16) / 4 = v by omega,
        show (v * 4 + w / 16) % 4 * 16 + (w % 16 * 16 + x / 4) / 16 = w by omega, show (w % 16 * 16 + x / 4) % 16 * 4 = x by omega]
    next => cases read

theorem encodeDecode {text : List Char} {bytes : List UInt8} (read : decode text = some bytes) : encode bytes = text := by
  induction text using decode.induct generalizing bytes with
  | case1 =>
    cases read
    rfl
  | case2 p q r =>
    rw [decode, if_pos rfl, if_pos rfl] at read
    exact encodeDecodeLast read
  | case3 p q r rest more =>
    rw [decode, if_pos rfl, if_neg more] at read
    cases read
  | case4 p q r s rest plain ih =>
    rw [decode, if_neg plain] at read
    simp only [bind, Option.bind_eq_some_iff] at read
    obtain ⟨v,first,w,second,x,third,y,fourth,behind,later,read⟩ := read
    cases read
    obtain ⟨v',rfl⟩ := letterValue first
    obtain ⟨w',rfl⟩ := letterValue second
    obtain ⟨x',rfl⟩ := letterValue third
    obtain ⟨y',rfl⟩ := letterValue fourth
    rw [encodeThree, firstBack v' w', secondBack x', thirdBack y', ih later, show (v * 4 + w / 16) / 4 = v by omega,
      show (v * 4 + w / 16) % 4 * 16 + (w % 16 * 16 + x / 4) / 16 = w by omega,
      show (w % 16 * 16 + x / 4) % 16 * 4 + (x % 4 * 64 + y) / 64 = x by omega, show (x % 4 * 64 + y) % 64 = y by omega]
  | case5 text none' some' =>
    rw [decode] at read
    · cases read
    · exact none'
    · exact some'

def inAlphabet (c : Char) : Bool := (value c).isSome || c == '='

theorem letterInside {v : Nat} (small : v < 64) : inAlphabet (letter v) = true := by
  rw [inAlphabet, valueLetter v small]
  rfl

theorem insidePlain {c : Char} (inside : inAlphabet c = true) : c.utf8Size = 1 := by
  have plain : ∀ v < 64, (letter v).utf8Size = 1 := by decide
  rw [inAlphabet, Bool.or_eq_true] at inside
  rcases inside with some' | padding
  · obtain ⟨v,read⟩ := Option.isSome_iff_exists.mp some'
    obtain ⟨small,rfl⟩ := letterValue read
    exact plain v small
  · rw [eq_of_beq padding]
    rfl

theorem encodeInside (bytes : List UInt8) : ∀ c ∈ encode bytes, inAlphabet c = true := by
  have padding : ∀ c ∈ ['='], inAlphabet c = true := List.forall_mem_singleton.mpr rfl
  induction bytes using encode.induct with
  | case1 => exact fun c member => absurd member List.not_mem_nil
  | case2 a =>
    have below := a.toNat_lt
    rw [encodeOne]
    exact List.forall_mem_cons.mpr ⟨letterInside (by omega),List.forall_mem_cons.mpr ⟨letterInside (by omega),
      List.forall_mem_cons.mpr ⟨rfl,padding⟩⟩⟩
  | case3 a b =>
    have below := a.toNat_lt
    have below' := b.toNat_lt
    rw [encodeTwo]
    exact List.forall_mem_cons.mpr ⟨letterInside (by omega),List.forall_mem_cons.mpr ⟨letterInside (by omega),
      List.forall_mem_cons.mpr ⟨letterInside (by omega),padding⟩⟩⟩
  | case4 a b c rest ih =>
    have below := a.toNat_lt
    have below' := b.toNat_lt
    have below'' := c.toNat_lt
    rw [encodeThree]
    exact List.forall_mem_cons.mpr ⟨letterInside (by omega),List.forall_mem_cons.mpr ⟨letterInside (by omega),
      List.forall_mem_cons.mpr ⟨letterInside (by omega),List.forall_mem_cons.mpr ⟨letterInside (by omega),ih⟩⟩⟩⟩

theorem encodeLength (bytes : List UInt8) : (encode bytes).length = (bytes.length + 2) / 3 * 4 := by
  induction bytes using encode.induct with
  | case1 => rfl
  | case2 a => simp [encodeOne]
  | case3 a b => simp [encodeTwo]
  | case4 a b c rest ih =>
    rw [encodeThree, List.length_cons, List.length_cons, List.length_cons, List.length_cons, ih, List.length_cons, List.length_cons,
      List.length_cons]
    omega

end OpenPulse.Base64
