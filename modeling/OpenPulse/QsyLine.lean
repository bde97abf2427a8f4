import OpenPulse.Handshake
import OpenPulse.Qsy
import OpenPulse.WlMessages
import OpenPulse.Words
import OpenPulse.Base64

/-! The text lines of the QSY negotiation: `openpulse-qsy/src/frame.rs`. A line carries the wire token,
a verb, the token of the negotiation, a timestamp and what belongs to the verb, and its
signature behind `|SIG:`. How an f32 is printed and parsed and the base64 engine are
parameters, as the Ed25519 primitives are. -/
namespace OpenPulse.QsyLine
open ByteCodec Signing Handshake Lines Utf8Cuts B2f Words
open Qsy (QsyFrame)

/- `{:.2}` and `str::parse`. -/
structure F32 (Snr : Type) where
  print : Snr → List Char
  parse : List Char → Option Snr

structure Base64Engine (E : Type) where
  encode : Bytes → List Char
  decode : List Char → Except E Bytes

inductive Fault where
  | emptyLine
  | missingWireToken
  | unparsableVersion (digits : List Char)
  | missingToken
  | tokenTooLong (bytes : Nat)
  | missingTimestamp
  | unparsableTimestamp
  | badCandidates (rest : List Char)
  | badFreq (rest : List Char)
  | missingOffset
  | badOffset (rest : List Char)
  | unknownVerb (verb : List Char)
  | badFreqInPair (token : List Char)
  | missingSnrInPair (token : List Char)
  | badSnrInPair (token : List Char)
  | signingFailed (e : SigningError)
  | missingSig
  | lineTooLong (bytes : Nat)
  | notFresh (e : HandshakeError)
  deriving DecidableEq, Repr

def maxTokenBytes : Nat := 64
def maxQsyLineBytes : Nat := 255

def Fault.message (debug : List Char → String) : Fault → String
  | emptyLine => "empty line"
  | missingWireToken => "missing QSY wire token"
  | unparsableVersion digits => "unparsable version " ++ debug digits
  | missingToken => "missing token"
  | tokenTooLong bytes => "token too long: " ++ toString bytes ++ " bytes (max 64)"
  | missingTimestamp => "missing timestamp"
  | unparsableTimestamp => "unparsable timestamp"
  | badCandidates rest => "bad n_candidates: " ++ String.ofList rest
  | badFreq rest => "bad freq: " ++ String.ofList rest
  | missingOffset => "missing switchover offset"
  | badOffset rest => "bad offset: " ++ String.ofList rest
  | unknownVerb verb => "unknown verb: " ++ String.ofList verb
  | badFreqInPair token => "bad freq in pair: " ++ String.ofList token
  | missingSnrInPair token => "missing snr in pair: " ++ String.ofList token
  | badSnrInPair token => "bad snr in pair: " ++ String.ofList token
  | signingFailed e => "QSY line signing failed: " ++ HandshakeWire.signingMessage e
  | missingSig => "missing |SIG: field"
  | lineTooLong bytes =>
    "QSY line is " ++ toString bytes ++ " bytes, over the " ++ toString maxQsyLineBytes ++
      "-byte single-frame budget — reduce [qsy] candidate_freqs_hz"
  | notFresh e => "stale or future-dated QSY line: " ++ e.message

inductive QsyFrameError (E : Type) where
  | malformed (fault : Fault)
  | unsupportedVersion (got expected : UInt8)
  | invalidSignature
  | base64 (e : E)
  | signatureLength
  deriving DecidableEq, Repr

def QsyFrameError.message {E : Type} (debug : List Char → String) (text : E → String) : QsyFrameError E → String
  | malformed fault => "unknown or malformed QSY frame: " ++ fault.message debug
  | unsupportedVersion got expected =>
    "unsupported QSY version " ++ toString got.toNat ++ " (this build speaks " ++ toString expected.toNat ++ ")"
  | invalidSignature => "invalid signature"
  | base64 e => "base64 decode error: " ++ text e
  | signatureLength => "signature bytes wrong length"

section
variable {Snr E : Type} (f32 : F32 Snr)

def decimal (n : Nat) : List Char := (toString n).toList

def magic : List Char := ((fromUtf8 SigningDomain.qsyLine.tag).getD "OPQS").toList

def wirePrefix : List Char := magic ++ decimal SigningDomain.qsyLine.version.toNat

def wireLine (verb token : String) (timestampMs : UInt64) (rest : List Char) : List Char :=
  wirePrefix ++ ' '::(verb.toList ++ ' '::(token.toList ++ ' '::(decimal timestampMs.toNat ++ ' '::rest)))

def pairText (p : UInt64 × Snr) : List Char := decimal p.1.toNat ++ ','::f32.print p.2

def joined : List (List Char) → List Char
  | [] => []
  | [w] => w
  | w::v::ws => w ++ ' '::joined (v::ws)

def encodeUnsigned (frame : QsyFrame Snr) (timestampMs : UInt64) : List Char :=
  match frame with
  | .req token nCandidates => wireLine "QSY_REQ" token timestampMs (decimal nCandidates.toNat)
  | .list token candidates => wireLine "QSY_LIST" token timestampMs (joined (candidates.map (pairText f32)))
  | .vote token votes => wireLine "QSY_VOTE" token timestampMs (joined (votes.map (pairText f32)))
  | .ack token agreedFreqHz switchoverOffsetS =>
    wireLine "QSY_ACK" token timestampMs (decimal agreedFreqHz.toNat ++ ' '::decimal switchoverOffsetS.toNat)
  | .reject token reason => wireLine "QSY_REJECT" token timestampMs reason.toList

def orMalformed {A : Type} (fault : Fault) : Option A → Except (QsyFrameError E) A
  | some a => .ok a
  | none => .error (.malformed fault)

def stripPrefix (p cs : List Char) : Option (List Char) := if p.isPrefixOf cs then some (cs.drop p.length) else none

def parsePair (token : List Char) : Except (QsyFrameError E) (UInt64 × Snr) := do
  let it := splitN ',' 2 token
  let freq ← orMalformed (.badFreqInPair token) (parseBelow (2 ^ 64) (it.getD 0 []))
  let snrStr ← orMalformed (.missingSnrInPair token) it[1]?
  let snr ← orMalformed (.badSnrInPair token) (f32.parse snrStr)
  return (UInt64.ofNat freq,snr)

def parsePairs (s : List Char) : Except (QsyFrameError E) (List (UInt64 × Snr)) := (words isWhitespace s).mapM (parsePair f32)

def decodeVerb (verb : List Char) (token : String) (rest : List Char) : Except (QsyFrameError E) (QsyFrame Snr) :=
  if verb = "QSY_REQ".toList then do
    let n ← orMalformed (.badCandidates rest) (parseBelow (2 ^ 32) rest)
    return .req token (UInt32.ofNat n)
  else if verb = "QSY_LIST".toList then do
    let candidates ← parsePairs f32 rest
    return .list token candidates
  else if verb = "QSY_VOTE".toList then do
    let votes ← parsePairs f32 rest
    return .vote token votes
  else if verb = "QSY_ACK".toList then do
    let it := splitN ' ' 2 rest
    let freq ← orMalformed (.badFreq rest) (parseBelow (2 ^ 64) (it.getD 0 []))
    let text ← orMalformed .missingOffset it[1]?
    let offset ← orMalformed (.badOffset rest) (parseBelow (2 ^ 32) text)
    return .ack token (UInt64.ofNat freq) (UInt32.ofNat offset)
  else if verb = "QSY_REJECT".toList then .ok (.reject token (String.ofList rest))
  else .error (.malformed (.unknownVerb verb))

def decodeParts (parts : List (List Char)) : Except (QsyFrameError E) (QsyFrame Snr × UInt64) := do
  let verb ← orMalformed .emptyLine parts[0]?
  let token ← orMalformed .missingToken parts[1]?
  if maxTokenBytes < (encoded token).length then .error (.malformed (.tokenTooLong (encoded token).length))
  else
    let text ← orMalformed .missingTimestamp parts[2]?
    let timestampMs ← orMalformed .unparsableTimestamp (parseBelow (2 ^ 64) text)
    let frame ← decodeVerb f32 verb (String.ofList token) (trim (parts.getD 3 []))
    return (frame,UInt64.ofNat timestampMs)

def decodeUnsigned (line : List Char) : Except (QsyFrameError E) (QsyFrame Snr × UInt64) := do
  let line := trimEnd (· == '\n') (trimEnd (· == '\r') line)
  let (head,rest) ← orMalformed .emptyLine (splitOnce ' ' line)
  let digits ← orMalformed .missingWireToken (stripPrefix magic head)
  let got ← orMalformed (.unparsableVersion digits) (parseBelow (2 ^ 8) digits)
  if UInt8.ofNat got ≠ SigningDomain.qsyLine.version then
    .error (.unsupportedVersion (UInt8.ofNat got) SigningDomain.qsyLine.version)
  else decodeParts f32 (splitN ' ' 4 rest)

variable (ed : Ed25519) (standard : Base64Engine E)

def sigMark : List Char := ['|','S','I','G',':']

def signLine (line : List Char) (seed : Seed) : Except (QsyFrameError E) (List Char) :=
  match signInBand ed .qsyLine seed (encoded line) with
  | .ok sig => .ok (line ++ (sigMark ++ standard.encode sig.val))
  | .error e => .error (.malformed (.signingFailed e))

def verifyLine (line : List Char) (pubkey : PeerId) : Except (QsyFrameError E) (List Char) :=
  match rsplitOnce sigMark (trimEnd isLineEnd line) with
  | none => .error (.malformed .missingSig)
  | some (payload,sigB64) =>
    match standard.decode sigB64 with
    | .error e => .error (.base64 e)
    | .ok sigBytes =>
      if size : sigBytes.length = 64 then
        if verifyInBand ed .qsyLine pubkey (encoded payload) ⟨sigBytes,size⟩ then .ok payload else .error .invalidSignature
      else .error .signatureLength

def encodeSigned (frame : QsyFrame Snr) (timestampMs : UInt64) (seed : Seed) : Except (QsyFrameError E) (List Char) := do
  let line ← signLine ed standard (encodeUnsigned f32 frame timestampMs) seed
  if maxQsyLineBytes < (encoded line).length then .error (.malformed (.lineTooLong (encoded line).length)) else return line

def decodeSigned (line : List Char) (pubkey : PeerId) (freshness : Freshness) : Except (QsyFrameError E) (QsyFrame Snr) := do
  let payload ← verifyLine ed standard line pubkey
  let (frame,timestampMs) ← decodeUnsigned f32 payload
  match freshness.check timestampMs with
  | .ok () => return frame
  | .error e => .error (.malformed (.notFresh e))

end

def Solid (w : List Char) : Prop := w ≠ [] ∧ ∀ c ∈ w, isWhitespace c = false

theorem Solid.bare {w : List Char} (solid : Solid w) : Bare w :=
  ⟨fun c first => solid.2 c (List.mem_of_head? first),fun c last => solid.2 c (List.mem_of_getLast? last)⟩

theorem bareJoin {v w : List Char} (left : Solid v) (some' : w ≠ []) (right : Bare w) : Bare (v ++ ' '::w) := by
  constructor
  · rw [List.head?_append_of_ne_nil v left.1]
    exact left.bare.1
  · rw [List.getLast?_append_of_ne_nil v (List.cons_ne_nil ' ' w), List.getLast?_cons_of_ne_nil some']
    exact right.2

theorem joinedSome {w : List Char} {ws : List (List Char)} (some' : w ≠ []) : joined (w::ws) ≠ [] := by
  cases ws with
  | nil => exact some'
  | cons v ws => exact List.append_ne_nil_of_left_ne_nil some' _

theorem joinedBare {ws : List (List Char)} (solid : ∀ w ∈ ws, Solid w) : Bare (joined ws) := by
  induction ws with
  | nil => exact ⟨fun _ none' => (Option.not_mem_none _ none').elim,fun _ none' => (Option.not_mem_none _ none').elim⟩
  | cons w ws ih =>
    obtain ⟨first,rest⟩ := List.forall_mem_cons.mp solid
    cases ws with
    | nil => exact first.bare
    | cons v ws => exact bareJoin first (joinedSome (rest v List.mem_cons_self).1) (ih rest)

theorem wordsJoined {ws : List (List Char)} (solid : ∀ w ∈ ws, Solid w) : words isWhitespace (joined ws) = ws := by
  induction ws with
  | nil => exact wordsNil
  | cons w ws ih =>
    obtain ⟨first,rest⟩ := List.forall_mem_cons.mp solid
    cases ws with
    | nil => exact wordsOne first.1 first.2
    | cons v ws =>
      have blank : isWhitespace ' ' = true := rfl
      rw [joined, wordsBreak blank, wordsOne first.1 first.2, ih rest]
      rfl

theorem decimalSolid (n : Nat) : Solid (decimal n) := by
  refine ⟨?_,fun c member => (digitPlain (digitOf member)).1⟩
  have digits : decimal n = Nat.toDigits 10 n := Nat.toList_repr
  rw [digits]
  exact Nat.toDigits_ne_nil

theorem decimalWord {c : Char} (other : c.isDigit = false) (n : Nat) : c ∉ decimal n := fun member => by
  rw [digitOf member] at other
  cases other

theorem parseDecimal {limit n : Nat} (small : n < limit) : parseBelow limit (decimal n) = some n := by
  have digits : decimal n = Nat.toDigits 10 n := Nat.toList_repr
  rw [digits]
  exact parseToDigits small

section
variable {Snr E : Type} {f32 : F32 Snr}

structure F32.Exact (f32 : F32 Snr) (s : Snr) : Prop where
  back : f32.parse (f32.print s) = some s
  word : ∀ c ∈ f32.print s, isWhitespace c = false

theorem pairSolid {p : UInt64 × Snr} (exact' : f32.Exact p.2) : Solid (pairText f32 p) := by
  refine ⟨List.append_ne_nil_of_left_ne_nil (decimalSolid _).1 _,fun c member => ?_⟩
  rcases List.mem_append.mp member with freq | rest
  · exact (decimalSolid _).2 c freq
  · rcases List.mem_cons.mp rest with rfl | snr
    · rfl
    · exact exact'.word c snr

theorem parsePairBack {p : UInt64 × Snr} (exact' : f32.Exact p.2) : parsePair f32 (E := E) (pairText f32 p) = .ok p := by
  have cut : splitN ',' 2 (pairText f32 p) = [decimal p.1.toNat,f32.print p.2] := splitNCons (decimalWord rfl _) 0 _
  have freq : parseBelow (2 ^ 64) (decimal p.1.toNat) = some p.1.toNat := parseDecimal p.1.toNat_lt
  rw [parsePair, cut, List.getD_cons_zero, freq, List.getElem?_cons_succ, List.getElem?_cons_zero]
  dsimp only [orMalformed, bind, Except.bind]
  rw [exact'.back]
  exact congrArg (fun freq => Except.ok (freq,p.2)) (UInt64.ofNat_toNat)

theorem parsePairsBack {ps : List (UInt64 × Snr)} (exact' : ∀ p ∈ ps, f32.Exact p.2) :
    parsePairs f32 (E := E) (joined (ps.map (pairText f32))) = .ok ps := by
  have solid : ∀ w ∈ ps.map (pairText f32), Solid w := List.forall_mem_map.mpr fun p member => pairSolid (exact' p member)
  rw [parsePairs, wordsJoined solid]
  clear solid
  induction ps with
  | nil => rfl
  | cons p ps ih =>
    obtain ⟨first,rest⟩ := List.forall_mem_cons.mp exact'
    rw [List.map_cons, List.mapM_cons, parsePairBack first, ih rest]
    rfl

def verbOf : QsyFrame Snr → String
  | .req _ _ => "QSY_REQ"
  | .list _ _ => "QSY_LIST"
  | .vote _ _ => "QSY_VOTE"
  | .ack _ _ _ => "QSY_ACK"
  | .reject _ _ => "QSY_REJECT"

variable (f32) in
def restOf : QsyFrame Snr → List Char
  | .req _ nCandidates => decimal nCandidates.toNat
  | .list _ ps | .vote _ ps => joined (ps.map (pairText f32))
  | .ack _ agreedFreqHz switchoverOffsetS => decimal agreedFreqHz.toNat ++ ' '::decimal switchoverOffsetS.toNat
  | .reject _ reason => reason.toList

theorem encodeParts (frame : QsyFrame Snr) (timestampMs : UInt64) :
    encodeUnsigned f32 frame timestampMs = wireLine (verbOf frame) frame.token timestampMs (restOf f32 frame) := by
  cases frame <;> rfl

def ratios : QsyFrame Snr → List (UInt64 × Snr)
  | .list _ ps | .vote _ ps => ps
  | _ => []

/-- What a line can carry: a token that is one word of the line and not too long, a reason without
white space around it, and ratios that are printed exactly. -/
structure Carried (f32 : F32 Snr) (frame : QsyFrame Snr) : Prop where
  token : ' ' ∉ frame.token.toList
  short : (encoded frame.token.toList).length ≤ maxTokenBytes
  reason : ∀ token reason, frame = .reject token reason → Bare reason.toList
  exact' : ∀ p ∈ ratios frame, f32.Exact p.2

theorem restBare {frame : QsyFrame Snr} (carried : Carried f32 frame) : Bare (restOf f32 frame) := by
  cases frame with
  | req token n => exact (decimalSolid _).bare
  | list token ps => exact joinedBare (List.forall_mem_map.mpr fun p member => pairSolid (carried.exact' p member))
  | vote token ps => exact joinedBare (List.forall_mem_map.mpr fun p member => pairSolid (carried.exact' p member))
  | ack token freq offset => exact bareJoin (decimalSolid _) (decimalSolid _).1 (decimalSolid _).bare
  | reject token reason => exact carried.reason token reason rfl

theorem decodeVerbBack {frame : QsyFrame Snr} (carried : Carried f32 frame) :
    decodeVerb f32 (E := E) (verbOf frame).toList frame.token (restOf f32 frame) = .ok frame := by
  unfold decodeVerb
  cases frame with
  | req token n =>
    have count : parseBelow (2 ^ 32) (decimal n.toNat) = some n.toNat := parseDecimal n.toNat_lt
    rw [verbOf, restOf, if_pos rfl, count]
    exact congrArg (fun n => Except.ok (QsyFrame.req token n)) UInt32.ofNat_toNat
  | list token ps =>
    have pairs : parsePairs f32 (E := E) (joined (ps.map (pairText f32))) = .ok ps := parsePairsBack carried.exact'
    rw [verbOf, restOf, if_neg (by decide), if_pos rfl, pairs]
    rfl
  | vote token ps =>
    have pairs : parsePairs f32 (E := E) (joined (ps.map (pairText f32))) = .ok ps := parsePairsBack carried.exact'
    rw [verbOf, restOf, if_neg (by decide), if_neg (by decide), if_pos rfl, pairs]
    rfl
  | ack token freq offset =>
    have cut : splitN ' ' 2 (decimal freq.toNat ++ ' '::decimal offset.toNat) = [decimal freq.toNat,decimal offset.toNat] :=
      splitNCons (decimalWord rfl _) 0 _
    have freq' : parseBelow (2 ^ 64) (decimal freq.toNat) = some freq.toNat := parseDecimal freq.toNat_lt
    have offset' : parseBelow (2 ^ 32) (decimal offset.toNat) = some offset.toNat := parseDecimal offset.toNat_lt
    rw [verbOf, restOf, if_neg (by decide), if_neg (by decide), if_neg (by decide), if_pos rfl, cut]
    dsimp only
    rw [List.getD_cons_zero, freq', List.getElem?_cons_succ, List.getElem?_cons_zero]
    dsimp only [orMalformed, bind, Except.bind]
    rw [offset', UInt64.ofNat_toNat]
    exact congrArg (fun offset => Except.ok (QsyFrame.ack token freq offset)) UInt32.ofNat_toNat
  | reject token reason =>
    rw [verbOf, restOf, if_neg (by decide), if_neg (by decide), if_neg (by decide), if_neg (by decide), if_pos rfl,
      String.ofList_toList]
    rfl

theorem magicText : magic = ['O','P','Q','S'] := by
  have tag : SigningDomain.qsyLine.tag = utf8 "OPQS" := rfl
  rw [magic, tag, fromUtf8Utf8]
  rfl

theorem wirePrefixText : wirePrefix = ['O','P','Q','S','2'] := by
  rw [wirePrefix, magicText]
  rfl

theorem trimEndBare {p : Char → Bool} (blank : ∀ c, p c = true → isWhitespace c = true) {cs : List Char} (bare : Bare cs) :
    trimEnd p cs = cs := by
  rcases List.eq_nil_or_concat cs with rfl | ⟨begin',last,rfl⟩
  · rfl
  · have kept : p last = false := Bool.eq_false_iff.mpr fun dropped => by
      have white := blank last dropped
      rw [bare.2 last (by simp)] at white
      cases white
    rw [List.concat_eq_append]
    exact trimEndAfter kept begin' []

theorem verbWord (frame : QsyFrame Snr) : ' ' ∉ (verbOf frame).toList := by
  cases frame <;> rw [verbOf] <;> decide

theorem decodePartsBack {frame : QsyFrame Snr} (carried : Carried f32 frame) (timestampMs : UInt64) :
    decodeParts f32 (E := E) [(verbOf frame).toList,frame.token.toList,decimal timestampMs.toNat,restOf f32 frame] =
      .ok (frame,timestampMs) := by
  have stamp : parseBelow (2 ^ 64) (decimal timestampMs.toNat) = some timestampMs.toNat := parseDecimal timestampMs.toNat_lt
  have bare : trim ([(verbOf frame).toList,frame.token.toList,decimal timestampMs.toNat,restOf f32 frame].getD 3 []) = restOf f32 frame :=
    trimBare (restBare carried)
  unfold decodeParts
  dsimp only [List.getElem?_cons_zero, List.getElem?_cons_succ, orMalformed, bind, Except.bind]
  rw [if_neg (Nat.not_lt.mpr carried.short), stamp]
  dsimp only
  rw [bare, String.ofList_toList, decodeVerbBack carried]
  exact congrArg (fun stamp => Except.ok (frame,stamp)) UInt64.ofNat_toNat

theorem decodeUnsignedParts {verb token : String} (verbWord : ' ' ∉ verb.toList) (tokenWord : ' ' ∉ token.toList) (timestampMs : UInt64)
    {rest : List Char} (noReturn : trimEnd (· == '\r') rest = rest) (noFeed : trimEnd (· == '\n') rest = rest) :
    decodeUnsigned f32 (E := E) (wireLine verb token timestampMs rest) =
      decodeParts f32 [verb.toList,token.toList,decimal timestampMs.toNat,rest] := by
  have kept : ∀ {p : Char → Bool}, p ' ' = false → trimEnd p rest = rest →
      trimEnd p (wireLine verb token timestampMs rest) = wireLine verb token timestampMs rest := fun blank same => by
    rw [wireLine, trimEndAfter blank, trimEndAfter blank, trimEndAfter blank, trimEndAfter blank, same]
  have head : ' ' ∉ wirePrefix := by
    rw [wirePrefixText]
    decide
  have digits : stripPrefix magic wirePrefix = some ['2'] := by
    rw [magicText, wirePrefixText]
    rfl
  have version : parseBelow (2 ^ 8) ['2'] = some 2 := by decide
  have parts : splitN ' ' 4 (verb.toList ++ ' '::(token.toList ++ ' '::(decimal timestampMs.toNat ++ ' '::rest))) =
      [verb.toList,token.toList,decimal timestampMs.toNat,rest] := by
    rw [splitNCons verbWord, splitNCons tokenWord, splitNCons (decimalWord rfl _)]
    rfl
  rw [decodeUnsigned, kept rfl noReturn, kept rfl noFeed, wireLine]
  dsimp only
  rw [splitOnceAt head]
  dsimp only [orMalformed, bind, Except.bind]
  rw [digits]
  dsimp only
  rw [version]
  dsimp only
  rw [if_neg (by decide), parts]

theorem decodeUnsignedBack {frame : QsyFrame Snr} (carried : Carried f32 frame) (timestampMs : UInt64) :
    decodeUnsigned f32 (E := E) (encodeUnsigned f32 frame timestampMs) = .ok (frame,timestampMs) := by
  have white : ∀ {x : Char}, isWhitespace x = true → trimEnd (· == x) (restOf f32 frame) = restOf f32 frame := fun holds =>
    trimEndBare (fun c same => by rwa [eq_of_beq same]) (restBare carried)
  rw [encodeParts, decodeUnsignedParts (verbWord frame) carried.token timestampMs (white rfl) (white rfl)]
  exact decodePartsBack carried timestampMs

end

/-- What the engine documents: only the padded text of some bytes is read, and as these. -/
structure Base64Engine.Canonical {E : Type} (standard : Base64Engine E) : Prop where
  back : ∀ bytes, standard.decode (standard.encode bytes) = .ok bytes
  only : ∀ text bytes, standard.decode text = .ok bytes → standard.encode bytes = text
  length : ∀ bytes, (standard.encode bytes).length = (bytes.length + 2) / 3 * 4
  alphabet : ∀ bytes, ∀ c ∈ standard.encode bytes, Base64.inAlphabet c = true

section
variable {Snr E : Type} {f32 : F32 Snr} {ed : Ed25519} {standard : Base64Engine E} {seed : Seed}

def sigText (ed : Ed25519) (standard : Base64Engine E) (seed : Seed) (payload : List Char) : List Char :=
  standard.encode (ed.sign seed (encoded payload)).val

theorem sigOutside (canonical : standard.Canonical) {c : Char} (other : Base64.inAlphabet c = false) (payload : List Char) :
    c ∉ sigText ed standard seed payload := fun member => by
  rw [canonical.alphabet _ c member] at other
  cases other

theorem sigLength (canonical : standard.Canonical) (payload : List Char) : (sigText ed standard seed payload).length = 88 := by
  rw [sigText, canonical.length, (ed.sign seed (encoded payload)).property]

theorem sigSize (canonical : standard.Canonical) (payload : List Char) : (encoded (sigText ed standard seed payload)).length = 88 := by
  have plain : ∀ c ∈ sigText ed standard seed payload, c.utf8Size = 1 := fun c member =>
    Base64.insidePlain (canonical.alphabet _ c member)
  rw [encodedPlain plain, sigLength canonical]

theorem encodedInj {a b : List Char} (same : encoded a = encoded b) : a = b := by
  rw [← String.toList_ofList (l := a), ← String.toList_ofList (l := b), ← FxWire.utf8Encoded, ← FxWire.utf8Encoded] at same
  exact String.ofList_injective (utf8Inj same)

variable (ed seed) in
theorem sigTrimmed (canonical : standard.Canonical) (payload before : List Char) {tail : List Char} (breaks : ∀ c ∈ tail, isLineEnd c = true) :
    trimEnd isLineEnd (before ++ (sigText ed standard seed payload ++ tail)) = before ++ sigText ed standard seed payload := by
  have dropped : trimEnd isLineEnd tail = [] := by
    rw [trimEnd, List.dropWhile_eq_nil_iff.mpr fun c member => breaks c (List.mem_reverse.mp member)]
    rfl
  have length : (sigText ed standard seed payload).length = 88 := sigLength canonical payload
  rcases List.eq_nil_or_concat (sigText ed standard seed payload) with empty | ⟨begin',last,whole⟩
  · rw [empty] at length
    cases length
  · have inside : Base64.inAlphabet last = true := canonical.alphabet _ last (by
      rw [← sigText, whole]
      simp)
    have kept : isLineEnd last = false := Bool.eq_false_iff.mpr fun ends => by
      rcases (Bool.or_eq_true _ _).mp ends with same | same
      · rw [eq_of_beq same] at inside
        cases inside
      · rw [eq_of_beq same] at inside
        cases inside
    rw [whole, List.concat_eq_append, List.append_assoc, ← List.append_assoc, List.singleton_append, trimEndAfter kept, dropped,
      ← List.append_assoc]

theorem payloadTagged (frame : QsyFrame Snr) (timestampMs : UInt64) :
    SigningDomain.qsyLine.tag <+: encoded (encodeUnsigned f32 frame timestampMs) := by
  rw [encodeParts, wireLine, wirePrefixText]
  exact ⟨_,rfl⟩

theorem signLineOf (frame : QsyFrame Snr) (timestampMs : UInt64) :
    signLine ed standard (encodeUnsigned f32 frame timestampMs) seed =
      .ok (encodeUnsigned f32 frame timestampMs ++ (sigMark ++ sigText ed standard seed (encodeUnsigned f32 frame timestampMs))) := by
  rw [signLine, signInBandOk ed rfl seed (payloadTagged frame timestampMs)]
  rfl

theorem verifyLineBack (canonical : standard.Canonical) (correct : ed.Correct) {payload : List Char}
    (tagged : SigningDomain.qsyLine.tag <+: encoded payload) :
    verifyLine ed standard (payload ++ (sigMark ++ sigText ed standard seed payload)) (ed.verifyingKey seed) = .ok payload := by
  have trimmed : trimEnd isLineEnd (payload ++ (sigMark ++ sigText ed standard seed payload)) =
      payload ++ (sigMark ++ sigText ed standard seed payload) := by
    have bare := sigTrimmed ed seed canonical payload (payload ++ sigMark) (List.forall_mem_nil _)
    rwa [List.append_nil, List.append_assoc] at bare
  have cut : rsplitOnce sigMark (payload ++ (sigMark ++ sigText ed standard seed payload)) =
      some (payload,sigText ed standard seed payload) := rsplitOnceAt (by decide) (sigOutside canonical rfl payload) payload
  have read : standard.decode (sigText ed standard seed payload) = .ok (ed.sign seed (encoded payload)).val := canonical.back _
  have verified : verifyInBand ed .qsyLine (ed.verifyingKey seed) (encoded payload) (ed.sign seed (encoded payload)) = true :=
    (verifyInBandIff ed rfl).mpr ⟨tagged,correct seed (encoded payload)⟩
  rw [verifyLine, trimmed, cut]
  dsimp only
  rw [read]
  dsimp only
  rw [dif_pos (ed.sign seed (encoded payload)).property, if_pos verified]

theorem verifyLineRejects (canonical : standard.Canonical) {payload : List Char} (binds : ed.Binds seed (encoded payload))
    {before tail : List Char} (changed : before ≠ payload ++ sigMark) (breaks : ∀ c ∈ tail, isLineEnd c = true) :
    ∃ e, verifyLine ed standard (before ++ (sigText ed standard seed payload ++ tail)) (ed.verifyingKey seed) = .error e := by
  rw [verifyLine, sigTrimmed ed seed canonical payload before breaks]
  cases cut : rsplitOnce sigMark (before ++ sigText ed standard seed payload) with
  | none => exact ⟨_,rfl⟩
  | some parts =>
    obtain ⟨other,sigB64⟩ := parts
    have whole := rsplitOnceSome cut
    dsimp only
    cases read : standard.decode sigB64 with
    | error e => exact ⟨_,rfl⟩
    | ok bytes =>
      dsimp only
      by_cases size : bytes.length = 64
      · -- as long as the signature, so it is the signature
        have same : sigB64.length = (sigText ed standard seed payload).length := by
          rw [← canonical.only _ _ read, canonical.length, size, sigLength canonical]
        rw [← List.append_assoc] at whole
        obtain ⟨front,back⟩ := List.append_inj' whole same.symm
        have sig : bytes = (ed.sign seed (encoded payload)).val := by
          rw [← back, sigText, canonical.back] at read
          exact (Except.ok.inj read).symm
        have refused : verifyInBand ed .qsyLine (ed.verifyingKey seed) (encoded other) ⟨bytes,size⟩ ≠ true := by
          intro accepted
          obtain ⟨-,-,verified⟩ := (verifyInBandIff ed rfl).mp accepted
          have own : (⟨bytes,size⟩ : Signature) = ed.sign seed (encoded payload) := Subtype.ext sig
          rw [own] at verified
          have equal := encodedInj (binds _ verified)
          exact changed (by rw [front, equal])
        rw [dif_pos size, if_neg refused]
        exact ⟨_,rfl⟩
      · rw [dif_neg size]
        exact ⟨_,rfl⟩

variable (f32 ed seed) in
theorem encodeSignedOf (canonical : standard.Canonical) (frame : QsyFrame Snr) (timestampMs : UInt64) :
    encodeSigned f32 ed standard frame timestampMs seed =
      if maxQsyLineBytes < (encoded (encodeUnsigned f32 frame timestampMs)).length + 93 then
        .error (.malformed (.lineTooLong ((encoded (encodeUnsigned f32 frame timestampMs)).length + 93)))
      else .ok (encodeUnsigned f32 frame timestampMs ++ (sigMark ++ sigText ed standard seed (encodeUnsigned f32 frame timestampMs))) := by
  have mark : (encoded sigMark).length = 5 := rfl
  have size : (encoded (encodeUnsigned f32 frame timestampMs ++ (sigMark ++ sigText ed standard seed (encodeUnsigned f32 frame timestampMs)))).length =
      (encoded (encodeUnsigned f32 frame timestampMs)).length + 93 := by
    rw [encodedAppend, encodedAppend, List.length_append, List.length_append, sigSize canonical, mark]
  rw [encodeSigned, signLineOf, ← size]
  rfl

variable (f32 seed) in
theorem decodeSignedOf (canonical : standard.Canonical) (correct : ed.Correct) (frame : QsyFrame Snr) (timestampMs : UInt64)
    (freshness : Freshness) :
    decodeSigned f32 ed standard
        (encodeUnsigned f32 frame timestampMs ++ (sigMark ++ sigText ed standard seed (encodeUnsigned f32 frame timestampMs)))
        (ed.verifyingKey seed) freshness =
      (decodeUnsigned f32 (encodeUnsigned f32 frame timestampMs)).bind fun read =>
        match freshness.check read.2 with
        | .ok () => .ok read.1
        | .error e => .error (.malformed (.notFresh e)) := by
  rw [decodeSigned, verifyLineBack canonical correct (payloadTagged frame timestampMs)]
  rfl

/-- A frame that a line can carry is back from its signed line, and its timestamp with it. Before
the same signature nothing else is accepted. -/
theorem signedLineBack (f32 : F32 Snr) {ed : Ed25519} (correct : ed.Correct) {standard : Base64Engine E} (canonical : standard.Canonical)
    {frame : QsyFrame Snr} (carried : Carried f32 frame) (timestampMs : UInt64) (seed : Seed)
    (binds : ed.Binds seed (encoded (encodeUnsigned f32 frame timestampMs))) :
    ((∃ line, encodeSigned f32 ed standard frame timestampMs seed = .ok line) ↔
      (encoded (encodeUnsigned f32 frame timestampMs)).length + 93 ≤ maxQsyLineBytes) ∧
    ∀ line, encodeSigned f32 ed standard frame timestampMs seed = .ok line →
      verifyLine ed standard line (ed.verifyingKey seed) = .ok (encodeUnsigned f32 frame timestampMs) ∧
      decodeUnsigned f32 (E := E) (encodeUnsigned f32 frame timestampMs) = .ok (frame,timestampMs) ∧
      (∀ freshness, freshness.check timestampMs = .ok () →
        decodeSigned f32 ed standard line (ed.verifyingKey seed) freshness = .ok frame) ∧
      (∀ freshness e, freshness.check timestampMs = .error e →
        decodeSigned f32 ed standard line (ed.verifyingKey seed) freshness = .error (.malformed (.notFresh e))) ∧
      ∃ sig, line = (encodeUnsigned f32 frame timestampMs ++ sigMark) ++ sig ∧ sig.length = 88 ∧
        ∀ before tail freshness, before ≠ encodeUnsigned f32 frame timestampMs ++ sigMark → (∀ c ∈ tail, isLineEnd c = true) →
          ∃ e, decodeSigned f32 ed standard (before ++ (sig ++ tail)) (ed.verifyingKey seed) freshness = .error e := by
  have made := encodeSignedOf f32 ed seed canonical frame timestampMs
  have back := decodeUnsignedBack (E := E) carried timestampMs
  have signed := decodeSignedOf f32 seed canonical correct frame timestampMs
  rw [back] at signed
  refine ⟨?_,fun line encoded' => ?_⟩
  · rw [made]
    split
    next long =>
      constructor
      · rintro ⟨line,none'⟩
        cases none'
      · exact fun fits => absurd long (Nat.not_lt.mpr fits)
    next fits => exact ⟨fun _ => Nat.le_of_not_lt fits,fun _ => ⟨_,rfl⟩⟩
  · rw [made] at encoded'
    split at encoded'
    · cases encoded'
    cases encoded'
    refine ⟨verifyLineBack canonical correct (payloadTagged frame timestampMs),back,?_,?_,
      sigText ed standard seed (encodeUnsigned f32 frame timestampMs),(List.append_assoc _ _ _).symm,sigLength canonical _,?_⟩
    · intro freshness fresh
      rw [signed, Except.bind, fresh]
    · intro freshness e stale
      rw [signed, Except.bind, stale]
    · intro before tail freshness changed breaks
      obtain ⟨e,refused⟩ := verifyLineRejects canonical binds changed breaks
      exact ⟨e,by rw [decodeSigned, refused]; rfl⟩

end

def marksOnly (marked : Bytes) : Ed25519 where
  verifyingKey := id
  fromBytes := fun _ => true
  sign := fun seed message => ⟨seed.val ++ List.replicate 32 (if message = marked then 1 else 0),by simp [seed.property]⟩
  verifyStrict := fun pubkey message sig => sig.val = pubkey.val ++ List.replicate 32 (if message = marked then 1 else 0)

theorem marksOnlyCorrect (marked : Bytes) : (marksOnly marked).Correct := fun _ _ => ⟨rfl,decide_eq_true rfl⟩

theorem marksOnlyBinds (marked : Bytes) (seed : Seed) : (marksOnly marked).Binds seed marked := by
  intro other verified
  by_contra differs
  have same := List.append_cancel_left (of_decide_eq_true verified)
  rw [if_pos rfl, if_neg differs] at same
  cases same

def orUnread : Option Bytes → Except Unit Bytes
  | some bytes => .ok bytes
  | none => .error ()

def standardEngine : Base64Engine Unit where
  encode := Base64.encode
  decode := fun text => orUnread (Base64.decode text)

theorem standardCanonical : standardEngine.Canonical where
  back bytes := congrArg orUnread (Base64.decodeEncode bytes)
  only text bytes read := by
    dsimp only [standardEngine] at read
    cases found : Base64.decode text with
    | none =>
      rw [found] at read
      cases read
    | some b =>
      rw [found] at read
      cases read
      exact Base64.encodeDecode found
  length := Base64.encodeLength
  alphabet := Base64.encodeInside

def hundredths : F32 Nat where
  print := fun n => decimal (n / 100) ++ '.'::[Nat.digitChar (n / 10 % 10),Nat.digitChar (n % 10)]
  parse := fun text => do
    let (whole,part) ← splitOnce '.' text
    let whole ← parseBelow (2 ^ 64) whole
    let part ← if part.length = 2 then parseBelow 100 part else none
    return whole * 100 + part

def stamp : UInt64 := 1760000000000

def listFrame : QsyFrame Nat := .list "4f2a" [(14074000,950),(7040000,1205)]

def scheme (frame : QsyFrame Nat) (timestampMs : UInt64) : Ed25519 := marksOnly (encoded (encodeUnsigned hundredths frame timestampMs))

theorem listCarried : Carried hundredths listFrame where
  token := by decide
  short := by decide
  reason _ _ other := by cases other
  exact' := by
    have first : hundredths.Exact 950 := ⟨by decide,everyChar rfl⟩
    have second : hundredths.Exact 1205 := ⟨by decide,everyChar rfl⟩
    exact List.forall_mem_cons.mpr ⟨first,List.forall_mem_singleton.mpr second⟩

theorem listShort : (encoded (encodeUnsigned hundredths listFrame stamp)).length + 93 ≤ maxQsyLineBytes := by
  rw [encodeParts, wireLine, wirePrefixText]
  decide

theorem signedListBack : ∃ line,
    encodeSigned hundredths (scheme listFrame stamp) standardEngine listFrame stamp (zeros 32) = .ok line ∧
    decodeSigned hundredths (scheme listFrame stamp) standardEngine line (zeros 32) ⟨stamp,120000⟩ = .ok listFrame ∧
    ∃ e, decodeSigned hundredths (scheme listFrame stamp) standardEngine ('x'::line) (zeros 32) ⟨stamp,120000⟩ = .error e := by
  obtain ⟨fits,back⟩ := signedLineBack hundredths (marksOnlyCorrect _) standardCanonical listCarried stamp (zeros 32) (marksOnlyBinds _ _)
  obtain ⟨line,made⟩ := fits.mpr listShort
  obtain ⟨-,-,fresh,-,sig,whole,-,rejects⟩ := back line made
  obtain ⟨e,refused⟩ := rejects ('x'::(encodeUnsigned hundredths listFrame stamp ++ sigMark)) [] ⟨stamp,120000⟩
    (List.cons_ne_self _ _) (List.forall_mem_nil _)
  refine ⟨line,made,fresh _ rfl,e,?_⟩
  rw [List.append_nil, List.cons_append, ← whole] at refused
  exact refused

def carriedOver (frame : QsyFrame Nat) (timestampMs : UInt64) (freshness : Freshness) : Except (QsyFrameError Unit) (QsyFrame Nat) := do
  let line ← encodeSigned hundredths (scheme frame timestampMs) standardEngine frame timestampMs (zeros 32)
  decodeSigned hundredths (scheme frame timestampMs) standardEngine line (zeros 32) freshness

theorem carriedOverShort {frame : QsyFrame Nat} {timestampMs : UInt64} {freshness : Freshness}
    (short : (encoded (encodeUnsigned hundredths frame timestampMs)).length + 93 ≤ maxQsyLineBytes) :
    carriedOver frame timestampMs freshness = (decodeUnsigned hundredths (encodeUnsigned hundredths frame timestampMs)).bind fun read =>
      match freshness.check read.2 with
      | .ok () => .ok read.1
      | .error e => .error (.malformed (.notFresh e)) := by
  rw [carriedOver, encodeSignedOf hundredths _ _ standardCanonical, if_neg (Nat.not_lt.mpr short)]
  exact decodeSignedOf hundredths (zeros 32) standardCanonical (marksOnlyCorrect _) frame timestampMs freshness

def longToken : String := String.ofList (List.replicate 65 'a')

def longReason : String := String.ofList (List.replicate 150 'a')

theorem shortBy {frame : QsyFrame Nat} {timestampMs : UInt64} {token : List Char} (letters : frame.token.toList = token)
    (fits : (encoded (['O','P','Q','S','2'] ++ ' '::((verbOf frame).toList ++ ' '::(token ++
      ' '::(decimal timestampMs.toNat ++ ' '::restOf hundredths frame))))).length + 93 ≤ maxQsyLineBytes) :
    (encoded (encodeUnsigned hundredths frame timestampMs)).length + 93 ≤ maxQsyLineBytes := by
  rwa [encodeParts, wireLine, wirePrefixText, letters]

/- A token of 65 letters, a reason that is a tab, a reason of 150 letters, and a frame of the time 0. -/
theorem carriedOverOtherwise :
    carriedOver (.req longToken 1) 1 ⟨1,0⟩ = .error (.malformed (.tokenTooLong 65)) ∧
    carriedOver (.reject "t" "\t") 1 ⟨1,0⟩ = .ok (.reject "t" "") ∧
    carriedOver (.reject "t" longReason) 1 ⟨1,0⟩ = .error (.malformed (.lineTooLong 264)) ∧
    carriedOver (.req "t" 1) 0 ⟨0,0⟩ = .error (.malformed (.notFresh .missingTimestamp)) := by
  have letters : longToken.toList = List.replicate 65 'a' := String.toList_ofList
  have single : "t".toList = ['t'] := rfl
  refine ⟨?_,?_,?_,?_⟩
  · have word : ' ' ∉ longToken.toList := by
      rw [letters]
      decide
    have short : (encoded (encodeUnsigned hundredths (.req longToken 1) 1)).length + 93 ≤ maxQsyLineBytes := shortBy letters (by decide)
    rw [carriedOverShort short, encodeParts, QsyFrame.token, decodeUnsignedParts (by decide) word _ (by decide) (by decide), letters]
    rfl
  · have short : (encoded (encodeUnsigned hundredths (.reject "t" "\t") 1)).length + 93 ≤ maxQsyLineBytes := shortBy single (by decide)
    rw [carriedOverShort short, encodeParts, decodeUnsignedParts (by decide) (by decide) _ (by decide) (by decide)]
    rfl
  · have reason : restOf hundredths (.reject "t" longReason) = List.replicate 150 'a' := String.toList_ofList
    have long : (encoded (encodeUnsigned hundredths (.reject "t" longReason) 1)).length = 171 := by
      rw [encodeParts, wireLine, wirePrefixText, reason]
      decide +kernel
    rw [carriedOver, encodeSignedOf hundredths _ _ standardCanonical, long]
    rfl
  · have short : (encoded (encodeUnsigned hundredths (.req "t" 1) 0)).length + 93 ≤ maxQsyLineBytes := shortBy single (by decide)
    rw [carriedOverShort short, encodeParts, decodeUnsignedParts (by decide) (by decide) _ (by decide) (by decide)]
    rfl

end OpenPulse.QsyLine
