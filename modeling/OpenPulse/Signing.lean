import OpenPulse.ByteCodec

/-! The one place where the station identity key signs and verifies:
`openpulse-core/src/signing.rs` and `signing_domain.rs`. The Ed25519 primitives
are a parameter; what is assumed of them is said where it is used. -/
namespace OpenPulse.Signing
open ByteCodec

abbrev PeerId := Octets 32
abbrev Signature := Octets 64
abbrev Seed := Octets 32

/-- The Ed25519 primitives; `fromBytes` tells whether a point decodes. -/
structure Ed25519 where
  verifyingKey : Seed → PeerId
  fromBytes : PeerId → Bool
  sign : Seed → Bytes → Signature
  verifyStrict : PeerId → Bytes → Signature → Bool

def Ed25519.Correct (ed : Ed25519) : Prop :=
  ∀ seed msg, ed.fromBytes (ed.verifyingKey seed) = true ∧
    ed.verifyStrict (ed.verifyingKey seed) msg (ed.sign seed msg) = true

/-- A stand-in that is correct: the key and the last bytes of the message. -/
def tagScheme : Ed25519 where
  verifyingKey := id
  fromBytes := fun _ => true
  sign := fun seed msg => ⟨seed.val ++ be 32 (readBe msg),by simp [seed.property]⟩
  verifyStrict := fun pubkey msg sig => sig.val = pubkey.val ++ be 32 (readBe msg)

theorem tagSchemeCorrect : tagScheme.Correct := fun _ _ => ⟨rfl,decide_eq_true rfl⟩

inductive TagPlacement where
  | inBand | prepended
  deriving DecidableEq, Repr

inductive SigningDomain where
  | conReq | conAck | pqConReq | pqConAck | wireEnvelope | manifest | peerDescriptor
  | routeResponse | routeUpdate | fileOffer | rigCtrlCmd | qsyLine | authBeacon
  deriving DecidableEq, Repr

namespace SigningDomain

def all : List SigningDomain :=
  [conReq,conAck,pqConReq,pqConAck,wireEnvelope,manifest,peerDescriptor,routeResponse,routeUpdate,fileOffer,
    rigCtrlCmd,qsyLine,authBeacon]

def tag : SigningDomain → Bytes
  | conReq => [0x48,0x53,0x43,0x51] -- HSCQ
  | conAck => [0x48,0x53,0x41,0x4B] -- HSAK
  | pqConReq => [0x48,0x50,0x43,0x51] -- HPCQ
  | pqConAck => [0x48,0x50,0x41,0x4B] -- HPAK
  | wireEnvelope => [0x4F,0x50,0x48,0x46] -- OPHF
  | manifest => [0x4F,0x50,0x4D,0x46] -- OPMF
  | peerDescriptor => [0x4F,0x50,0x50,0x44] -- OPPD
  | routeResponse => [0x4F,0x50,0x52,0x52] -- OPRR
  | routeUpdate => [0x4F,0x50,0x52,0x55] -- OPRU
  | fileOffer => [0x4F,0x50,0x46,0x4F] -- OPFO
  | rigCtrlCmd => [0x4F,0x50,0x52,0x43] -- OPRC
  | qsyLine => [0x4F,0x50,0x51,0x53] -- OPQS
  | authBeacon => [0x4F,0x50,0x41,0x42] -- OPAB

def placement : SigningDomain → TagPlacement
  | conReq | conAck | pqConReq | pqConAck | wireEnvelope | qsyLine | authBeacon => .inBand
  | manifest | peerDescriptor | routeResponse | routeUpdate | fileOffer | rigCtrlCmd => .prepended

def version : SigningDomain → UInt8
  | conReq | conAck | pqConReq | pqConAck => 0x01
  | wireEnvelope => 0x02
  | manifest | peerDescriptor | routeResponse | routeUpdate | fileOffer | rigCtrlCmd => 0x01
  | authBeacon => 0x01
  | qsyLine => 0x02

end SigningDomain

inductive SigningError where
  | missingInBandTag (domain : SigningDomain)
  | wrongPlacement (domain : SigningDomain) (expected : TagPlacement)
  deriving DecidableEq, Repr

def prependDomain (domain : SigningDomain) (payload : Bytes) : Except SigningError Bytes :=
  if domain.placement = .prepended then .ok (domain.tag ++ domain.version :: payload)
  else .error (.wrongPlacement domain domain.placement)

def checkInBand (domain : SigningDomain) (message : Bytes) : Except SigningError Unit :=
  if domain.placement = .inBand then
    if domain.tag.isPrefixOf message then .ok () else .error (.missingInBandTag domain)
  else .error (.wrongPlacement domain domain.placement)

variable (ed : Ed25519)

def rawSign (seed : Seed) (message : Bytes) : Signature := ed.sign seed message

def rawVerify (pubkey : PeerId) (message : Bytes) (signature : Signature) : Bool :=
  ed.fromBytes pubkey && ed.verifyStrict pubkey message signature

def signInDomain (domain : SigningDomain) (seed : Seed) (payload : Bytes) : Except SigningError Signature :=
  match prependDomain domain payload with
  | .error e => .error e
  | .ok message => .ok (rawSign ed seed message)

def verifyInDomain (domain : SigningDomain) (pubkey : PeerId) (payload : Bytes) (signature : Signature) : Bool :=
  match prependDomain domain payload with
  | .ok message => rawVerify ed pubkey message signature
  | .error _ => false

def signInBand (domain : SigningDomain) (seed : Seed) (message : Bytes) : Except SigningError Signature :=
  match checkInBand domain message with
  | .error e => .error e
  | .ok () => .ok (rawSign ed seed message)

def verifyInBand (domain : SigningDomain) (pubkey : PeerId) (message : Bytes) (signature : Signature) : Bool :=
  match checkInBand domain message with
  | .ok () => rawVerify ed pubkey message signature
  | .error _ => false

theorem verifyInBandIff {domain : SigningDomain} (inBand : domain.placement = .inBand) {pubkey : PeerId}
    {message : Bytes} {signature : Signature} : verifyInBand ed domain pubkey message signature = true ↔
      domain.tag <+: message ∧ ed.fromBytes pubkey = true ∧ ed.verifyStrict pubkey message signature = true := by
  unfold verifyInBand checkInBand
  rw [if_pos inBand]
  by_cases tagged : domain.tag.isPrefixOf message = true
  · simp [tagged, rawVerify, List.isPrefixOf_iff_prefix.mp tagged]
  · have untagged : ¬ domain.tag <+: message := fun h => tagged (List.isPrefixOf_iff_prefix.mpr h)
    simp [tagged, untagged]

theorem signInBandOk {domain : SigningDomain} (inBand : domain.placement = .inBand) (seed : Seed) {message : Bytes}
    (tagged : domain.tag <+: message) : signInBand ed domain seed message = .ok (ed.sign seed message) := by
  simp [signInBand, checkInBand, inBand, List.isPrefixOf_iff_prefix.mpr tagged, rawSign]

inductive EntryPoint where
  | inDomain | inBand
  deriving DecidableEq, Repr

namespace EntryPoint

/- What an entry point hands to the primitive: the transmitted message itself, or
the payload behind a tag and a version that are never transmitted. -/
def message : EntryPoint → SigningDomain → Bytes → Except SigningError Bytes
  | inDomain, domain, payload => prependDomain domain payload
  | inBand, domain, message => (checkInBand domain message).map fun _ => message

def sign : EntryPoint → SigningDomain → Seed → Bytes → Except SigningError Signature
  | inDomain => signInDomain ed
  | inBand => signInBand ed

def verify : EntryPoint → SigningDomain → PeerId → Bytes → Signature → Bool
  | inDomain => verifyInDomain ed
  | inBand => verifyInBand ed

end EntryPoint

def OfDomain (domain : SigningDomain) (message : Bytes) : Prop :=
  match domain.placement with
  | .inBand => domain.tag <+: message
  | .prepended => domain.tag ++ [domain.version] <+: message

theorem tagLength (domain : SigningDomain) : domain.tag.length = 4 := by
  cases domain <;> rfl

theorem tagInj {a b : SigningDomain} (same : a.tag = b.tag) : a = b := by
  cases a <;> cases b <;> first | rfl | exact absurd same (by decide)

theorem tagsMeet {a b : SigningDomain} {message : Bytes} (left : a.tag <+: message) (right : b.tag <+: message) : a = b := by
  have length := (tagLength a).trans (tagLength b).symm
  have ordered := List.prefix_of_prefix_length_le left right (Nat.le_of_eq length)
  exact tagInj (ordered.eq_of_length length)

theorem ofDomainTag {domain : SigningDomain} {message : Bytes} (inside : OfDomain domain message) :
    domain.tag <+: message := by
  unfold OfDomain at inside
  split at inside
  · exact inside
  · exact (List.prefix_append _ _).trans inside

theorem domainsDisjoint {a b : SigningDomain} {message : Bytes} (left : OfDomain a message)
    (right : OfDomain b message) : a = b := tagsMeet (ofDomainTag left) (ofDomainTag right)

theorem messageOfDomain {entry : EntryPoint} {domain : SigningDomain} {input message : Bytes}
    (ok : entry.message domain input = .ok message) : OfDomain domain message := by
  cases entry with
  | inDomain =>
    simp only [EntryPoint.message, prependDomain] at ok
    split at ok
    · rename_i prepended
      cases ok
      simp [OfDomain, prepended]
    · cases ok
  | inBand =>
    simp only [EntryPoint.message, checkInBand] at ok
    by_cases inBand : domain.placement = .inBand
    · rw [if_pos inBand] at ok
      split at ok
      · rename_i tagged
        cases ok
        simpa [OfDomain, inBand] using List.isPrefixOf_iff_prefix.mp tagged
      · cases ok
    · rw [if_neg inBand] at ok
      cases ok

theorem signHands (entry : EntryPoint) (domain : SigningDomain) (seed : Seed) (input : Bytes) :
    entry.sign ed domain seed input = (entry.message domain input).map (ed.sign seed) := by
  cases entry with
  | inDomain =>
    simp only [EntryPoint.sign, EntryPoint.message, signInDomain]
    cases prependDomain domain input <;> rfl
  | inBand =>
    simp only [EntryPoint.sign, EntryPoint.message, signInBand]
    cases checkInBand domain input <;> rfl

theorem verifyHands (entry : EntryPoint) (domain : SigningDomain) (pubkey : PeerId) (input : Bytes)
    (signature : Signature) : entry.verify ed domain pubkey input signature = true ↔
      ∃ message, entry.message domain input = .ok message ∧ rawVerify ed pubkey message signature = true := by
  cases entry with
  | inDomain =>
    simp only [EntryPoint.verify, EntryPoint.message, verifyInDomain]
    cases prependDomain domain input <;> simp
  | inBand =>
    simp only [EntryPoint.verify, EntryPoint.message, verifyInBand]
    cases checkInBand domain input <;> simp [Except.map]

/- What is asked of an ideal scheme: a signature the holder made over a message
verifies over no other. -/
def Ed25519.Binds (seed : Seed) (message : Bytes) : Prop :=
  ∀ other, ed.verifyStrict (ed.verifyingKey seed) other (ed.sign seed message) = true → other = message

theorem domainsSeparate {a b : SigningDomain} (distinct : a ≠ b) (p q : EntryPoint) (x y : Bytes) (seed : Seed) :
    (∀ m n, p.message a x = .ok m → q.message b y = .ok n → m ≠ n) ∧
    p.sign ed a seed x = (p.message a x).map (ed.sign seed) ∧
    (∀ pubkey sig, q.verify ed b pubkey y sig = true →
      ∃ n, q.message b y = .ok n ∧ OfDomain b n ∧ ¬ OfDomain a n ∧ rawVerify ed pubkey n sig = true) ∧
    (∀ m, p.message a x = .ok m → ed.Binds seed m → ∃ sig, p.sign ed a seed x = .ok sig ∧
      q.verify ed b (ed.verifyingKey seed) y sig = false) := by
  refine ⟨?_,signHands ed p a seed x,?_,?_⟩
  · intro m n left right same
    subst same
    exact distinct (domainsDisjoint (messageOfDomain left) (messageOfDomain right))
  · intro pubkey sig accepted
    obtain ⟨n,handed,verified⟩ := (verifyHands ed q b pubkey y sig).mp accepted
    have inside := messageOfDomain handed
    exact ⟨n,handed,inside,fun other => distinct (domainsDisjoint other inside),verified⟩
  · intro m handed binds
    have made : p.sign ed a seed x = .ok (ed.sign seed m) := by rw [signHands, handed]; rfl
    refine ⟨ed.sign seed m,made,?_⟩
    rw [Bool.eq_false_iff]
    intro accepted
    obtain ⟨n,found,verified⟩ := (verifyHands ed q b _ y _).mp accepted
    rw [rawVerify, Bool.and_eq_true] at verified
    have same := binds n verified.2
    exact distinct (domainsDisjoint (messageOfDomain handed) (messageOfDomain (same ▸ found)))

def signsOnly (signed : Bytes) : Ed25519 where
  verifyingKey := id
  fromBytes := fun _ => true
  sign := fun _ message => if message = signed then filled 64 1 else zeros 64
  verifyStrict := fun _ message sig => message = signed && sig = filled 64 1

theorem signsOnlyBinds (signed : Bytes) (seed : Seed) : (signsOnly signed).Binds seed signed := by
  intro other verified
  have both := (Bool.and_eq_true _ _).mp verified
  exact of_decide_eq_true both.1

theorem requestNotManifest : ∃ sig,
    signInBand (signsOnly [0x48,0x53,0x43,0x51,1]) .conReq (zeros 32) [0x48,0x53,0x43,0x51,1] = .ok sig ∧
    verifyInDomain (signsOnly [0x48,0x53,0x43,0x51,1]) .manifest (zeros 32) [0x48,0x53,0x43,0x51,1] sig = false :=
  (domainsSeparate (signsOnly [0x48,0x53,0x43,0x51,1]) (by decide : SigningDomain.conReq ≠ .manifest) .inBand .inDomain
    [0x48,0x53,0x43,0x51,1] [0x48,0x53,0x43,0x51,1] (zeros 32)).2.2.2 _ rfl (signsOnlyBinds _ _)

end OpenPulse.Signing
