import OpenPulse.PqCodec
import OpenPulse.HandshakeAgreement

/-! Whether an accepted post-quantum frame is bound to the key the trust store holds
for its station. The store holds an Ed25519 key, the ML-DSA key is the frame's own, and
a frame whose modes are post-quantum only carries no Ed25519 signature. -/
namespace OpenPulse.PqHandshake
open ByteCodec Signing Trust Bodies HandshakeWire Handshake

theorem boundClassicalKey {store : TrustStore} {station : String} {key : PeerId} {pubkey : Bytes}
    (stored : store.pubkeyFor station = some key) (bound : bindClassicalKey store station pubkey = .ok ()) :
    pubkey = key.val := by
  simp only [bindClassicalKey, stored] at bound
  have checked := unlessOk.mp (unlessOk.mp bound).2
  exact not_not.mp checked.1

theorem verifyPqConreqIff {ed : Ed25519} {dsa : MlDsa44} {kem : MlKem768} {bytes : Bytes} {store : TrustStore}
    {policy : PolicyProfile} {min : SigningMode} {freshness : Option Freshness} {req : PqConReq} {decision : HandshakeDecision} :
    verifyPqConreq ed dsa kem bytes store policy min freshness = .ok (req,decision) ↔ ∃ spans trailer,
      splitFrameVariable bytes magicPqConreq "PQ CONREQ" = .ok (spans,trailer) ∧ decodePqConreq bytes = .ok req ∧
      mlDsaVerify dsa req.pqPubkey spans.signedPrefix req.pqSignature = .ok () ∧
      (isPqOnly req.signingModes = false →
        verifyEd25519 ed .pqConReq req.classicalPubkey spans.signedPrefix req.classicalSignature = true) ∧
      freshPq freshness req.timestampMs = .ok () ∧ bindClassicalKey store req.stationId req.classicalPubkey = .ok () ∧
      (∃ ek, encapsulationKey kem req.kemPubkey = .ok ek) ∧
      evaluatePeer store policy min req.stationId req.signingModes = .ok decision := by
  simp only [verifyPqConreq, thenOk, mapErrorOk, unlessOk, not_and, Bool.not_eq_false]
  constructor
  · rintro ⟨⟨spans,trailer⟩,split,req',decoded,⟨⟩,pq,classical,⟨⟩,fresh,⟨⟩,bound,ek,formed,decision',evaluated,last⟩
    cases last
    exact ⟨spans,trailer,split,decoded,pq,classical,fresh,bound,⟨ek,formed⟩,evaluated⟩
  · rintro ⟨spans,trailer,split,decoded,pq,classical,fresh,bound,⟨ek,formed⟩,evaluated⟩
    exact ⟨(spans,trailer),split,req,decoded,(),pq,classical,(),fresh,(),bound,ek,formed,decision,evaluated,rfl⟩

theorem verifyPqConackIff {ed : Ed25519} {dsa : MlDsa44} {sha256 : Bytes → Octets 32} {bytes conreq : Bytes}
    {offered : List SigningMode} {store : TrustStore} {policy : PolicyProfile} {min : SigningMode}
    {freshness : Option Freshness} {ack : PqConAck} {decision : HandshakeDecision} :
    verifyPqConack ed dsa sha256 bytes conreq offered store policy min freshness = .ok (ack,decision) ↔ ∃ spans trailer,
      splitFrameVariable bytes magicPqConack "PQ CONACK" = .ok (spans,trailer) ∧ decodePqConack bytes = .ok ack ∧
      ack.conreqHash = sha256 conreq ∧ ack.selectedMode ∈ offered ∧
      mlDsaVerify dsa ack.pqPubkey spans.signedPrefix ack.pqSignature = .ok () ∧
      (ack.selectedMode ≠ .pq →
        verifyEd25519 ed .pqConAck ack.classicalPubkey spans.signedPrefix ack.classicalSignature = true) ∧
      freshPq freshness ack.timestampMs = .ok () ∧ bindClassicalKey store ack.stationId ack.classicalPubkey = .ok () ∧
      evaluatePeer store policy min ack.stationId [ack.selectedMode] = .ok decision := by
  simp only [verifyPqConack, thenOk, mapErrorOk, unlessOk, not_and, Bool.not_eq_false, not_not]
  constructor
  · rintro ⟨⟨spans,trailer⟩,split,ack',decoded,hash,offer,⟨⟩,pq,classical,⟨⟩,fresh,⟨⟩,bound,decision',evaluated,last⟩
    cases last
    exact ⟨spans,trailer,split,decoded,hash,offer,pq,classical,fresh,bound,evaluated⟩
  · rintro ⟨spans,trailer,split,decoded,hash,offer,pq,classical,fresh,bound,evaluated⟩
    exact ⟨(spans,trailer),split,ack,decoded,hash,offer,(),pq,classical,(),fresh,(),bound,decision,evaluated,rfl⟩

def Ideal (ed : Ed25519) (key : PeerId) (signed : Bytes → Prop) : Prop :=
  ∀ message sig, ed.verifyStrict key message sig = true → signed message

/- The request is accepted for a station with this key only when the holder of the key
signed its prefix, whatever ideal scheme the key belongs to and whatever its holder signed. -/
def RequestBinds (dsa : MlDsa44) (kem : MlKem768) (bytes : Bytes) (store : TrustStore) (policy : PolicyProfile)
    (min : SigningMode) (freshness : Option Freshness) (key : PeerId) : Prop :=
  ∀ ed signed, Ideal ed key signed → ∀ req decision, store.pubkeyFor req.stationId = some key →
    verifyPqConreq ed dsa kem bytes store policy min freshness = .ok (req,decision) →
    ∀ spans trailer, splitFrameVariable bytes magicPqConreq "PQ CONREQ" = .ok (spans,trailer) → signed spans.signedPrefix

def AnswerBinds (dsa : MlDsa44) (sha256 : Bytes → Octets 32) (bytes conreq : Bytes) (offered : List SigningMode)
    (store : TrustStore) (policy : PolicyProfile) (min : SigningMode) (freshness : Option Freshness) (key : PeerId) : Prop :=
  ∀ ed signed, Ideal ed key signed → ∀ ack decision, store.pubkeyFor ack.stationId = some key →
    verifyPqConack ed dsa sha256 bytes conreq offered store policy min freshness = .ok (ack,decision) →
    ∀ spans trailer, splitFrameVariable bytes magicPqConack "PQ CONACK" = .ok (spans,trailer) → signed spans.signedPrefix

theorem signedBy {ed : Ed25519} {key : PeerId} {signed : Bytes → Prop} (ideal : Ideal ed key signed) {domain : SigningDomain}
    (inBand : domain.placement = .inBand) {message sig : Bytes} (verified : verifyEd25519 ed domain key.val message sig = true) :
    signed message := by
  obtain ⟨key',sig',sameKey,_,accepted⟩ := verifyEd25519Iff.mp verified
  obtain ⟨_,_,strict⟩ := (verifyInBandIff ed inBand).mp accepted
  rw [← Subtype.ext sameKey] at strict
  exact ideal _ _ strict

def silent : Ed25519 where
  verifyingKey := id
  fromBytes := fun _ => true
  sign := fun _ _ => zeros 64
  verifyStrict := fun _ _ _ => false

theorem silentIdeal (key : PeerId) : Ideal silent key (fun _ => False) := nofun

theorem pqBindsIff (dsa : MlDsa44) (kem : MlKem768) (sha256 : Bytes → Octets 32) (store : TrustStore)
    (policy : PolicyProfile) (min : SigningMode) (freshness : Option Freshness) (key : PeerId) :
    (∀ bytes req decision, store.pubkeyFor req.stationId = some key →
      (∃ ed, verifyPqConreq ed dsa kem bytes store policy min freshness = .ok (req,decision)) →
      (RequestBinds dsa kem bytes store policy min freshness key ↔ isPqOnly req.signingModes = false)) ∧
    (∀ bytes conreq offered ack decision, store.pubkeyFor ack.stationId = some key →
      (∃ ed, verifyPqConack ed dsa sha256 bytes conreq offered store policy min freshness = .ok (ack,decision)) →
      (AnswerBinds dsa sha256 bytes conreq offered store policy min freshness key ↔ ack.selectedMode ≠ .pq)) := by
  constructor
  · rintro bytes req decision stored ⟨ed,accepted⟩
    obtain ⟨spans,trailer,split,decoded,pq,_,fresh,bound,formed,evaluated⟩ := verifyPqConreqIff.mp accepted
    constructor
    · intro binds
      refine Bool.eq_false_iff.mpr fun only => ?_
      have again := (@verifyPqConreqIff silent).mpr ⟨spans,trailer,split,decoded,pq,
        fun mixed => absurd only (Bool.eq_false_iff.mp mixed),fresh,bound,formed,evaluated⟩
      exact binds silent _ (silentIdeal key) req decision stored again spans trailer split
    · intro mixed ed' signed ideal req' decision' stored' accepted' spans' trailer' split'
      obtain ⟨here,_,splitHere,decodedHere,_,classical,_,boundHere,_⟩ := verifyPqConreqIff.mp accepted'
      cases decoded.symm.trans decodedHere
      cases splitHere.symm.trans split'
      have verified := classical mixed
      rw [boundClassicalKey stored' boundHere] at verified
      exact signedBy ideal rfl verified
  · rintro bytes conreq offered ack decision stored ⟨ed,accepted⟩
    obtain ⟨spans,trailer,split,decoded,hash,offer,pq,_,fresh,bound,evaluated⟩ := verifyPqConackIff.mp accepted
    constructor
    · intro binds only
      have again := (@verifyPqConackIff silent).mpr ⟨spans,trailer,split,decoded,hash,offer,pq,
        fun mixed => absurd only mixed,fresh,bound,evaluated⟩
      exact binds silent _ (silentIdeal key) ack decision stored again spans trailer split
    · intro mixed ed' signed ideal ack' decision' stored' accepted' spans' trailer' split'
      obtain ⟨here,_,splitHere,decodedHere,_,_,_,classical,_,boundHere,_⟩ := verifyPqConackIff.mp accepted'
      cases decoded.symm.trans decodedHere
      cases splitHere.symm.trans split'
      have verified := classical mixed
      rw [boundClassicalKey stored' boundHere] at verified
      exact signedBy ideal rfl verified

/- A request in the name of a fully trusted station, once signed by that station and
once made by somebody who knows no more of it than its public key. -/
namespace Impostor

def key : PeerId := filled 32 8

def ownKey : Octets mlDsa44PubkeySize := filled mlDsa44PubkeySize 2

def store : TrustStore where
  pubkeyFor := fun station => if station = "W1AW" then some key else none
  trustLevel := fun station => if station = "W1AW" then .full else .unknown

def offer (modes : List SigningMode) : Offer := ⟨"W1AW","DC0SK",key,ownKey,filled mlKem768EkSize 3,modes,7,1000⟩

def message (modes : List SigningMode) : Bytes := framed magicPqConreq (offer modes).layout

def dsa (signed : Bytes) : MlDsa44 where
  verifyingKey := fun _ => ownKey
  sign := fun _ _ => filled mlDsa44SigSize 4
  wellFormed := fun _ => true
  verify := fun vk message sig => decide (vk = ownKey) && decide (message = signed) && decide (sig = filled mlDsa44SigSize 4)

def frame (modes : List SigningMode) (classical : Signature) : Bytes := (offer modes).frame classical (filled mlDsa44SigSize 4)

theorem sendable {modes : List SigningMode} (few : modes.length ≤ Caps.signingModes) : (offer modes).Sendable := by
  have named : (utf8 "W1AW").length ≤ Caps.stationId := by decide
  have addressed : "DC0SK" ≠ "" ∧ (utf8 "DC0SK").length ≤ Caps.stationId := by decide
  have short : (utf8 "W1AW").length + (utf8 "DC0SK").length ≤ 9 := by decide
  have small : modes.length ≤ 4 := few
  refine ⟨addressed.1,named,addressed.2,?_⟩
  rw [Offer.layoutLength]
  change (utf8 "W1AW").length + (utf8 "DC0SK").length + modes.length + 2548 < 65536
  omega

theorem dsaVerified (modes : List SigningMode) :
    mlDsaVerify (dsa (message modes)) ownKey.val (message modes) (filled mlDsa44SigSize 4).val = .ok () := by
  rw [mlDsaVerify, dif_pos ownKey.property, dif_pos (filled mlDsa44SigSize 4).property]
  simp [dsa]

theorem accepted {ed : Ed25519} {modes : List SigningMode} {classical : Signature} {decision : HandshakeDecision}
    (few : modes.length ≤ Caps.signingModes)
    (signed : isPqOnly modes = false → verifyEd25519 ed .pqConReq key.val (message modes) classical.val = true)
    (evaluated : evaluatePeer store .balanced .normal "W1AW" modes = .ok decision) :
    verifyPqConreq ed (dsa (message modes)) plainKem (frame modes classical) store .balanced .normal none =
      .ok ((offer modes).fields (if (offer modes).hasClassical then classical.val else []) (filled mlDsa44SigSize 4).val,
        decision) := by
  refine verifyPqConreqIff.mpr ⟨_,_,Offer.framedSplits (sendable few) _,Offer.frameDecodes (sendable few) few _ _,
    dsaVerified modes,?_,rfl,rfl,⟨filled mlKem768EkSize 3,encapsulationKeyIff.mpr ⟨rfl,rfl⟩⟩,evaluated⟩
  intro mixed
  have here : (offer modes).hasClassical = true := (Bool.not_eq_true' _).mpr mixed
  rw [here]
  exact signed mixed

def decision (mode : SigningMode) : HandshakeDecision := ⟨mode,classifyConnectionTrust .full .outOfBand false,.balanced⟩

theorem hybridBinds : RequestBinds (dsa (message [.hybrid])) plainKem
    (frame [.hybrid] (tagScheme.sign key (message [.hybrid]))) store .balanced .normal none key := by
  have signed : verifyEd25519 tagScheme .pqConReq key.val (message [.hybrid])
      (tagScheme.sign key (message [.hybrid])).val = true :=
    verifyEd25519Iff.mpr ⟨key,_,rfl,rfl,(verifyInBandIff tagScheme rfl).mpr ⟨framedTag .pqConReq _,tagSchemeCorrect key _⟩⟩
  have evaluated : evaluatePeer store .balanced .normal "W1AW" [.hybrid] = .ok (decision .hybrid) := by decide
  exact ((pqBindsIff _ plainKem (fun _ => zeros 32) store .balanced .normal none key).1 _ _ _ rfl
    ⟨tagScheme,accepted (by decide) (fun _ => signed) evaluated⟩).mpr (by decide)

theorem impostorAccepted : Ideal silent key (fun _ => False) ∧
    (∀ vk m sig, (dsa (message [.pq])).verify vk m sig = true → vk = ownKey ∧ m = message [.pq]) ∧
    store.pubkeyFor "W1AW" = some key ∧
    ∃ req, verifyPqConreq silent (dsa (message [.pq])) plainKem (frame [.pq] (zeros 64)) store .balanced .normal none =
      .ok (req,decision .pq) ∧ req.stationId = "W1AW" ∧ (decision .pq).trust.decision = .verified := by
  refine ⟨silentIdeal key,?_,rfl,_,accepted (by decide) (fun mixed => absurd mixed (by decide)) (by decide),rfl,rfl⟩
  intro vk m sig verified
  have both := (Bool.and_eq_true _ _).mp ((Bool.and_eq_true _ _).mp verified).1
  exact ⟨of_decide_eq_true both.1,of_decide_eq_true both.2⟩

end Impostor

end OpenPulse.PqHandshake
