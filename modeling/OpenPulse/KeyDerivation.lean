import OpenPulse.ByteCodec
import OpenPulse.Trust

/-! Keys of a session out of an X25519 exchange: `derive_session_keys` of
`openpulse-core/src/trust.rs`, and `openpulse-core/src/session_key.rs`. The curve,
the hash and HKDF are the crates' and stay parameters. -/
namespace OpenPulse.KeyDerivation
open ByteCodec Trust

structure Primitives where
  publicKey : Octets 32 → Octets 32
  diffieHellman : Octets 32 → Octets 32 → Octets 32
  sha256 : Bytes → Octets 32
  hkdf : Option Bytes → Bytes → Bytes → (n : Nat) → Option (Octets n)

/- What the crates document: the exchange commutes, and HKDF expands to any length up
to 255 blocks of the hash. -/
structure Primitives.Documented (p : Primitives) : Prop where
  commutes : ∀ a b, p.diffieHellman a (p.publicKey b) = p.diffieHellman b (p.publicKey a)
  expands : ∀ salt ikm info n, n ≤ 255 * 32 → ∃ okm, p.hkdf salt ikm info n = some okm

/- A hash to 32 bytes is injective on no infinite set; what is meant is that the two
messages compared are not a collision. -/
def Primitives.Injective (p : Primitives) (x y : Bytes) : Prop := p.sha256 x = p.sha256 y → x = y

structure SessionKeys where
  hmacKey : Octets 32
  keyConfirmationTag : Octets 16
  transcriptHash : Octets 32
  deriving DecidableEq

def sessionInfo : Bytes := utf8 "openpulsehf/session-v1"

def transcript (sessionId : UInt64) (localPeerId remotePeerId : String) (selectedMode : SigningMode) : Bytes :=
  be 8 sessionId.toNat ++ (utf8 localPeerId ++ (utf8 remotePeerId ++ utf8 selectedMode.debug))

def splitOkm (okm : Octets 48) (transcriptHash : Octets 32) : SessionKeys :=
  ⟨⟨okm.val.take 32, by rw [List.length_take, okm.property]; rfl⟩,
    ⟨okm.val.drop 32, by rw [List.length_drop, okm.property]⟩,transcriptHash⟩

def deriveSessionKeys (p : Primitives) (localPrivateKey remotePublicKey : Octets 32) (sessionId : UInt64)
    (localPeerId remotePeerId : String) (selectedMode : SigningMode) : Except TrustError SessionKeys :=
  let sharedSecret := p.diffieHellman localPrivateKey remotePublicKey
  let transcriptHash := p.sha256 (transcript sessionId localPeerId remotePeerId selectedMode)
  match p.hkdf (some transcriptHash.val) sharedSecret.val sessionInfo 48 with
  | none => .error .keyDerivationFailed
  | some okm => .ok (splitOkm okm transcriptHash)

def ackKeyInfo : Bytes := utf8 "openpulse-ota-ack-key-v1"

def deriveAckKey (p : Primitives) (mySecret peerPublic : Octets 32) : Option (Octets 32) :=
  p.hkdf none (p.diffieHellman mySecret peerPublic).val ackKeyInfo 32

theorem utf8AppendInj {a b c d : String} : utf8 a ++ utf8 b = utf8 c ++ utf8 d ↔ a ++ b = c ++ d := by
  rw [← utf8Append, ← utf8Append]
  exact ⟨utf8Inj, congrArg utf8⟩

theorem debugSuffix {m n : SigningMode} (ends : utf8 m.debug <:+ utf8 n.debug) : m = n := by
  revert ends
  cases m <;> cases n <;> decide +kernel

theorem modeRead {x y : Bytes} {m n : SigningMode} (same : x ++ utf8 m.debug = y ++ utf8 n.debug) : x = y ∧ m = n := by
  have left : utf8 m.debug <:+ x ++ utf8 m.debug := List.suffix_append _ _
  have right : utf8 n.debug <:+ x ++ utf8 m.debug := same ▸ List.suffix_append _ _
  have mode : m = n := by
    rcases List.suffix_or_suffix_of_suffix left right with ends | ends
    · exact debugSuffix ends
    · exact (debugSuffix ends).symm
  subst mode
  exact ⟨List.append_cancel_right same,rfl⟩

theorem transcriptIff {i j : UInt64} {a b c d : String} {m n : SigningMode} :
    transcript i a b m = transcript j c d n ↔ i = j ∧ a ++ b = c ++ d ∧ m = n := by
  constructor
  · intro same
    obtain ⟨ids,rest⟩ := List.append_inj same (by rw [beLength, beLength])
    rw [← List.append_assoc, ← List.append_assoc] at rest
    obtain ⟨peers,mode⟩ := modeRead rest
    exact ⟨be64Inj ids,utf8AppendInj.mp peers,mode⟩
  · rintro ⟨rfl,peers,rfl⟩
    rw [transcript, transcript, ← List.append_assoc (utf8 a), ← List.append_assoc (utf8 c), utf8AppendInj.mpr peers]

theorem hashSeparates {p : Primitives} {x y : Bytes} (injective : p.Injective x y) : p.sha256 x = p.sha256 y ↔ x = y :=
  ⟨injective,congrArg p.sha256⟩

theorem derived {p : Primitives} (crates : p.Documented) (private' public' : Octets 32) (i : UInt64) (a b : String)
    (m : SigningMode) : ∃ okm, p.hkdf (some (p.sha256 (transcript i a b m)).val) (p.diffieHellman private' public').val
        sessionInfo 48 = some okm ∧
      deriveSessionKeys p private' public' i a b m = .ok (splitOkm okm (p.sha256 (transcript i a b m))) := by
  obtain ⟨okm,expanded⟩ := crates.expands (some (p.sha256 (transcript i a b m)).val)
    (p.diffieHellman private' public').val sessionInfo 48 (by omega)
  refine ⟨okm,expanded,?_⟩
  rw [deriveSessionKeys]
  simp only [expanded]

def Agree (p : Primitives) (x y : Octets 32) (i : UInt64) (a b : String) (m : SigningMode) : Prop :=
  ∃ keys, deriveSessionKeys p x (p.publicKey y) i a b m = .ok keys ∧
    deriveSessionKeys p y (p.publicKey x) i b a m = .ok keys

theorem agreeIff {p : Primitives} (crates : p.Documented) (x y : Octets 32) (i : UInt64) (a b : String) (m : SigningMode) :
    Agree p x y i a b m ↔ p.sha256 (transcript i a b m) = p.sha256 (transcript i b a m) := by
  obtain ⟨okm,expanded,left⟩ := derived crates x (p.publicKey y) i a b m
  obtain ⟨okm',expanded',right⟩ := derived crates y (p.publicKey x) i b a m
  constructor
  · rintro ⟨keys,mine,theirs⟩
    have one := Except.ok.inj (left.symm.trans mine)
    have two := Except.ok.inj (right.symm.trans theirs)
    exact congrArg SessionKeys.transcriptHash (one.trans two.symm)
  · intro same
    rw [crates.commutes x y, same, expanded'] at expanded
    cases Option.some.inj expanded
    rw [← same] at right
    exact ⟨_,left,right⟩

theorem ackKeysAgree {p : Primitives} (crates : p.Documented) (x y : Octets 32) :
    ∃ key, deriveAckKey p x (p.publicKey y) = some key ∧ deriveAckKey p y (p.publicKey x) = some key := by
  obtain ⟨key,expanded⟩ := crates.expands none (p.diffieHellman x (p.publicKey y)).val ackKeyInfo 32 (by omega)
  exact ⟨key,expanded,by rw [deriveAckKey, ← crates.commutes x y]; exact expanded⟩

structure Context where
  sessionId : UInt64
  localPeerId : String
  remotePeerId : String
  selectedMode : SigningMode
  deriving DecidableEq, Repr

def Context.SamePair (c d : Context) : Prop :=
  (c.localPeerId = d.localPeerId ∧ c.remotePeerId = d.remotePeerId) ∨
    (c.localPeerId = d.remotePeerId ∧ c.remotePeerId = d.localPeerId)

def Context.Differ (c d : Context) : Prop :=
  c.sessionId ≠ d.sessionId ∨ ¬ c.SamePair d ∨ c.selectedMode ≠ d.selectedMode

def Context.transcript (c : Context) : Bytes :=
  KeyDerivation.transcript c.sessionId c.localPeerId c.remotePeerId c.selectedMode

def Context.derive (c : Context) (p : Primitives) (localPrivateKey remotePublicKey : Octets 32) :
    Except TrustError SessionKeys :=
  deriveSessionKeys p localPrivateKey remotePublicKey c.sessionId c.localPeerId c.remotePeerId c.selectedMode

def Separate (p : Primitives) (c d : Context) (x y x' y' : Octets 32) : Prop :=
  ∀ keys keys', c.derive p x y = .ok keys → d.derive p x' y' = .ok keys' → keys.transcriptHash ≠ keys'.transcriptHash

theorem separateIff {p : Primitives} (crates : p.Documented) (c d : Context) (x y x' y' : Octets 32) :
    Separate p c d x y x' y' ↔ p.sha256 c.transcript ≠ p.sha256 d.transcript := by
  obtain ⟨okm,_,left⟩ := derived crates x y c.sessionId c.localPeerId c.remotePeerId c.selectedMode
  obtain ⟨okm',_,right⟩ := derived crates x' y' d.sessionId d.localPeerId d.remotePeerId d.selectedMode
  constructor
  · intro separate
    exact separate _ _ left right
  · intro differ keys keys' mine theirs
    cases Except.ok.inj (left.symm.trans mine)
    cases Except.ok.inj (right.symm.trans theirs)
    exact differ

/- Both halves at once. The ids are hashed in the caller's order, so the two ends agree only
where the order does not show; and they are hashed without a length or a separator, so two
pairs of ids that join to one text are one context. The session id has a fixed width and no
mode's name ends in another's, so these two are always told apart. -/
theorem sessionKeysAgreeAndSeparateIff (p : Primitives) (crates : p.Documented) :
    (∀ x y i a b m, p.Injective (transcript i a b m) (transcript i b a m) →
      (Agree p x y i a b m ↔ a ++ b = b ++ a)) ∧
    (∀ (c d : Context) x y x' y', p.diffieHellman x y = p.diffieHellman x' y' → c.Differ d →
      p.Injective c.transcript d.transcript →
      (Separate p c d x y x' y' ↔ c.sessionId ≠ d.sessionId ∨ c.selectedMode ≠ d.selectedMode ∨
        c.localPeerId ++ c.remotePeerId ≠ d.localPeerId ++ d.remotePeerId)) := by
  constructor
  · intro x y i a b m injective
    rw [agreeIff crates, hashSeparates injective, transcriptIff]
    simp
  · intro c d x y x' y' _ _ injective
    rw [separateIff crates, Ne, hashSeparates injective, Context.transcript, Context.transcript, transcriptIff]
    simp only [not_and_or, ne_eq]
    tauto

/- Stand-ins for the crates on short messages: the exchange is a sum, hash and HKDF keep the
first bytes. -/
def fitted (n : Nat) (raw : Bytes) : Octets n :=
  ⟨(raw ++ List.replicate n 0).take n,by rw [List.length_take, List.length_append, List.length_replicate]; omega⟩

def shortMessages : Primitives where
  publicKey key := key
  diffieHellman a b := fitted 32 (List.zipWith (· + ·) a.val b.val)
  sha256 raw := fitted 32 raw
  hkdf salt ikm info n := some (fitted n (salt.getD [] ++ ikm ++ info))

theorem shortMessagesDocumented : shortMessages.Documented where
  commutes _ _ := congrArg (fitted 32) (List.zipWith_comm_of_comm UInt8.add_comm)
  expands _ _ _ _ _ := ⟨_,rfl⟩

def stationOne : Octets 32 := filled 32 7
def stationTwo : Octets 32 := filled 32 9

theorem sessionKeysAgreeAndSeparateIffShort :
    (Agree shortMessages stationOne stationTwo 1 "A" "A" .normal ↔ "A" ++ "A" = "A" ++ "A") ∧
    (Separate shortMessages ⟨1,"A","B",.normal⟩ ⟨2,"A","B",.normal⟩ stationOne stationTwo stationOne stationTwo ↔
      (1 : UInt64) ≠ 2 ∨ SigningMode.normal ≠ .normal ∨ "A" ++ "B" ≠ "A" ++ "B") :=
  ⟨(sessionKeysAgreeAndSeparateIff shortMessages shortMessagesDocumented).1 _ _ _ _ _ _ (fun _ => rfl),
    (sessionKeysAgreeAndSeparateIff shortMessages shortMessagesDocumented).2 ⟨1,"A","B",.normal⟩ ⟨2,"A","B",.normal⟩
      _ _ _ _ rfl (Or.inl (by decide)) (fun same => by revert same; decide +kernel)⟩

/- Stations A and B of session 1 do not agree; and A with BC is taken for AB with C. -/
theorem endsDisagreeAndPairsCollide :
    (shortMessages.Documented ∧ shortMessages.Injective (transcript 1 "A" "B" .normal) (transcript 1 "B" "A" .normal) ∧
      ¬ Agree shortMessages stationOne stationTwo 1 "A" "B" .normal) ∧
    ((⟨1,"AB","C",.normal⟩ : Context).Differ ⟨1,"A","BC",.normal⟩ ∧
      ¬ Separate shortMessages ⟨1,"AB","C",.normal⟩ ⟨1,"A","BC",.normal⟩ stationOne stationTwo stationOne stationTwo) := by
  have different : shortMessages.sha256 (transcript 1 "A" "B" .normal) ≠ shortMessages.sha256 (transcript 1 "B" "A" .normal) := by
    decide +kernel
  refine ⟨⟨shortMessagesDocumented,fun same => absurd same different,?_⟩,?_,?_⟩
  · rw [agreeIff shortMessagesDocumented]
    exact different
  · exact Or.inr (Or.inl (by simp [Context.SamePair]))
  · rw [separateIff shortMessagesDocumented, not_not, Context.transcript, Context.transcript, transcriptIff.mpr]
    exact ⟨rfl,rfl,rfl⟩

end OpenPulse.KeyDerivation
