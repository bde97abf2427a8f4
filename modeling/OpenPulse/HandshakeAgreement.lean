import OpenPulse.HandshakeCodec

/-! What the initiator and the responder may conclude from an accepted frame. The
holder of a key is what it has signed; the signature scheme is ideal for that key when
nothing else verifies under it. -/
namespace OpenPulse.Handshake
open ByteCodec Signing Trust Bodies HandshakeWire

theorem verifyEd25519Iff {ed : Ed25519} {domain : SigningDomain} {pubkey message sig : Bytes} :
    verifyEd25519 ed domain pubkey message sig = true ↔ ∃ (key : PeerId) (signature : Signature),
      pubkey = key.val ∧ sig = signature.val ∧ verifyInBand ed domain key message signature = true := by
  constructor
  · intro verified
    unfold verifyEd25519 at verified
    split at verified
    · split at verified
      · exact ⟨_,_,rfl,rfl,verified⟩
      · cases verified
    · cases verified
  · rintro ⟨key,signature,rfl,rfl,verified⟩
    rw [verifyEd25519, dif_pos key.property, dif_pos signature.property]
    exact verified

theorem boundKey {store : TrustStore} {station : String} {key : PeerId} {pubkey : Bytes}
    (stored : store.pubkeyFor station = some key) (bound : bindFrameKey store station pubkey = .ok ()) : pubkey = key.val := by
  simp only [bindFrameKey, stored] at bound
  have checked := unlessOk.mp (unlessOk.mp bound).2
  exact not_not.mp checked.1

theorem verifyConreqIff {ed : Ed25519} {bytes : Bytes} {store : TrustStore} {policy : PolicyProfile} {min : SigningMode}
    {freshness : Option Freshness} {req : ConReq} {decision : HandshakeDecision} :
    verifyConreq ed bytes store policy min freshness = .ok (req,decision) ↔ ∃ spans,
      splitFrame bytes magicConreq "CONREQ" = .ok spans ∧ ConReq.decode bytes = .ok req ∧
      verifyEd25519 ed .conReq req.pubkey spans.signedPrefix spans.signature = true ∧
      checkFreshness freshness req.timestampMs = .ok () ∧ bindFrameKey store req.stationId req.pubkey = .ok () ∧
      evaluatePeer store policy min req.stationId req.signingModes = .ok decision := by
  simp only [verifyConreq, thenOk, mapErrorOk, unlessOk, Bool.not_eq_false]
  constructor
  · rintro ⟨spans,split,req',decoded,verified,⟨⟩,fresh,⟨⟩,bound,decision',evaluated,last⟩
    cases last
    exact ⟨spans,split,decoded,verified,fresh,bound,evaluated⟩
  · rintro ⟨spans,split,decoded,verified,fresh,bound,evaluated⟩
    exact ⟨spans,split,req,decoded,verified,(),fresh,(),bound,decision,evaluated,rfl⟩

theorem verifyConackIff {ed : Ed25519} {sha256 : Bytes → Octets 32} {bytes conreq : Bytes} {offered : List SigningMode}
    {store : TrustStore} {policy : PolicyProfile} {min : SigningMode} {freshness : Option Freshness} {ack : ConAck}
    {decision : HandshakeDecision} :
    verifyConack ed sha256 bytes conreq offered store policy min freshness = .ok (ack,decision) ↔ ∃ spans,
      splitFrame bytes magicConack "CONACK" = .ok spans ∧ ConAck.decode bytes = .ok ack ∧
      verifyEd25519 ed .conAck ack.pubkey spans.signedPrefix spans.signature = true ∧
      ack.conreqHash = sha256 conreq ∧ ack.selectedMode ∈ offered ∧ checkFreshness freshness ack.timestampMs = .ok () ∧
      bindFrameKey store ack.stationId ack.pubkey = .ok () ∧
      evaluatePeer store policy min ack.stationId [ack.selectedMode] = .ok decision := by
  simp only [verifyConack, thenOk, mapErrorOk, unlessOk, Bool.not_eq_false, not_not]
  constructor
  · rintro ⟨spans,split,ack',decoded,verified,hash,offer,⟨⟩,fresh,⟨⟩,bound,decision',evaluated,last⟩
    cases last
    exact ⟨spans,split,decoded,verified,hash,offer,fresh,bound,evaluated⟩
  · rintro ⟨spans,split,decoded,verified,hash,offer,fresh,bound,evaluated⟩
    exact ⟨spans,split,ack,decoded,verified,hash,offer,(),fresh,(),bound,decision,evaluated,rfl⟩

/- The timestamp is there and within the skew of the clock, in either direction. -/
def Freshness.Admits (f : Freshness) (timestampMs : UInt64) : Prop :=
  timestampMs ≠ 0 ∧ f.nowMs.toNat ≤ timestampMs.toNat + f.maxSkewMs.toNat ∧
    timestampMs.toNat ≤ f.nowMs.toNat + f.maxSkewMs.toNat

theorem absDiffLe (a b d : UInt64) : absDiff a b ≤ d ↔ a.toNat ≤ b.toNat + d.toNat ∧ b.toNat ≤ a.toNat + d.toNat := by
  unfold absDiff
  split
  · rename_i less
    rw [UInt64.lt_iff_toNat_lt] at less
    rw [UInt64.le_iff_toNat_le, UInt64.toNat_sub_of_le _ _ (UInt64.le_iff_toNat_le.mpr (by omega))]
    omega
  · rename_i more
    rw [UInt64.lt_iff_toNat_lt] at more
    rw [UInt64.le_iff_toNat_le, UInt64.toNat_sub_of_le _ _ (UInt64.le_iff_toNat_le.mpr (by omega))]
    omega

theorem freshnessIff (freshness : Option Freshness) (timestampMs : UInt64) :
    checkFreshness freshness timestampMs = .ok () ↔ ∀ f, freshness = some f → f.Admits timestampMs := by
  cases freshness with
  | none => exact ⟨nofun,fun _ => rfl⟩
  | some f =>
    simp only [checkFreshness, Freshness.check, Option.some.injEq, forall_eq', Freshness.Admits, ← absDiffLe]
    by_cases missing : timestampMs = 0
    · simp [missing]
    · by_cases stale : f.maxSkewMs < absDiff f.nowMs timestampMs
      · simp [missing, stale]
      · simp [missing, stale, UInt64.not_lt.mp stale]

/-- One signature a station made. Requests and acknowledgements are signed by their builders only. -/
inductive Signed where
  | request (params : ConReqParams)
  | answer (params : ConAckParams)
  | other (entry : EntryPoint) (domain : SigningDomain) (input : Bytes)

def Signed.Made (ed : Ed25519) (seed : Seed) : Signed → Bytes → Signature → Prop
  | .request params, message, sig => ConReq.create ed params seed = .ok (message ++ sig.val)
  | .answer params, message, sig => ConAck.create ed params seed = .ok (message ++ sig.val)
  | .other entry domain input, message, sig => domain ≠ .conReq ∧ domain ≠ .conAck ∧
    entry.message domain input = .ok message ∧ entry.sign ed domain seed input = .ok sig

/- Strong unforgeability for one key: what verifies, with this very signature, is in the log. -/
def Unforgeable (ed : Ed25519) (seed : Seed) (log : List Signed) : Prop :=
  ∀ message sig, ed.verifyStrict (ed.verifyingKey seed) message sig = true → ∃ s ∈ log, s.Made ed seed message sig

theorem createdTag (ed : Ed25519) {domain : SigningDomain} {seed : Seed} {body message : Bytes} {sig : Signature}
    (whole : message ++ sig.val = signedFrame ed domain.tag seed body) : domain.tag <+: message ++ sig.val := by
  rw [whole]
  exact (framedTag domain body).trans (List.prefix_append _ _)

theorem requestMade {ed : Ed25519} {seed : Seed} {s : Signed} {message : Bytes} {sig : Signature}
    (made : s.Made ed seed message sig) (tagged : SigningDomain.conReq.tag <+: message) : ∃ p, s = .request p := by
  cases s with
  | request p => exact ⟨p,rfl⟩
  | answer p =>
    have front := @createdTag ed .conAck _ _ _ _ ((p.createIff ed seed _).mp made).2
    exact absurd (tagsMeet front (tagged.trans (List.prefix_append _ _))) (by decide)
  | other entry domain input => exact absurd (tagsMeet (ofDomainTag (messageOfDomain made.2.2.1)) tagged) made.1

theorem answerMade {ed : Ed25519} {seed : Seed} {s : Signed} {message : Bytes} {sig : Signature}
    (made : s.Made ed seed message sig) (tagged : SigningDomain.conAck.tag <+: message) : ∃ p, s = .answer p := by
  cases s with
  | request p =>
    have front := @createdTag ed .conReq _ _ _ _ ((p.createIff ed seed _).mp made).2
    exact absurd (tagsMeet front (tagged.trans (List.prefix_append _ _))) (by decide)
  | answer p => exact ⟨p,rfl⟩
  | other entry domain input => exact absurd (tagsMeet (ofDomainTag (messageOfDomain made.2.2.1)) tagged) made.2.1

theorem frameInLog {ed : Ed25519} {seed : Seed} {log : List Signed} (ideal : Unforgeable ed seed log) {domain : SigningDomain}
    (inBand : domain.placement = .inBand) {bytes : Bytes} {what : String} {spans : FrameSpans}
    (split : splitFrame bytes domain.tag what = .ok spans)
    (verified : verifyEd25519 ed domain (ed.verifyingKey seed).val spans.signedPrefix spans.signature = true) :
    ∃ s ∈ log, ∃ message sig, s.Made ed seed message sig ∧ domain.tag <+: message ∧ bytes = message ++ sig.val := by
  obtain ⟨body,_,_,rfl,rfl⟩ := (splitFrameIff (tagLength domain)).mp split
  obtain ⟨key,sig,sameKey,sameSig,accepted⟩ := verifyEd25519Iff.mp verified
  obtain ⟨tagged,_,strict⟩ := (verifyInBandIff ed inBand).mp accepted
  rw [← Subtype.ext sameKey] at strict
  obtain ⟨s,logged,made⟩ := ideal _ _ strict
  exact ⟨s,logged,_,sig,made,tagged,by rw [← sameSig]⟩

theorem handshakeAgrees {ed : Ed25519} {seed : Seed} {log : List Signed} (ideal : Unforgeable ed seed log)
    (sha256 : Bytes → Octets 32) (store : TrustStore) (policy : PolicyProfile) (min : SigningMode)
    (freshness : Option Freshness) :
    (∀ bytes conreq offered ack decision, (∀ seen, sha256 seen = sha256 conreq → seen = conreq) →
      store.pubkeyFor ack.stationId = some (ed.verifyingKey seed) →
      verifyConack ed sha256 bytes conreq offered store policy min freshness = .ok (ack,decision) →
      ∃ p sig, Signed.answer p ∈ log ∧ ConAck.create ed p seed = .ok bytes ∧ ack = p.fields (ed.verifyingKey seed) sig ∧
        p.conreqHash = sha256 conreq ∧ (∀ seen, sha256 seen = p.conreqHash → seen = conreq) ∧ p.selectedMode ∈ offered ∧
        ∀ f, freshness = some f → f.Admits p.timestampMs) ∧
    (∀ bytes req decision, store.pubkeyFor req.stationId = some (ed.verifyingKey seed) →
      verifyConreq ed bytes store policy min freshness = .ok (req,decision) →
      ∃ p sig, Signed.request p ∈ log ∧ ConReq.create ed p seed = .ok bytes ∧ req = p.fields (ed.verifyingKey seed) sig ∧
        ∀ f, freshness = some f → f.Admits p.timestampMs) := by
  constructor
  · intro bytes conreq offered ack decision injective stored accepted
    obtain ⟨spans,split,decoded,verified,hash,offer,fresh,bound,_⟩ := verifyConackIff.mp accepted
    rw [boundKey stored bound] at verified
    obtain ⟨s,logged,message,sig,made,tagged,rfl⟩ := @frameInLog _ _ _ ideal .conAck rfl _ _ _ split verified
    obtain ⟨p,rfl⟩ := answerMade made tagged
    obtain ⟨fine,whole⟩ := (p.createIff ed seed _).mp made
    rw [whole, signedFrame, ConAckParams.layoutDecodes fine, Except.ok.injEq] at decoded
    subst decoded
    refine ⟨p,_,logged,made,rfl,hash,?_,offer,(freshnessIff _ _).mp fresh⟩
    intro seen same
    exact injective seen (same.trans hash)
  · intro bytes req decision stored accepted
    obtain ⟨spans,split,decoded,verified,fresh,bound,_⟩ := verifyConreqIff.mp accepted
    rw [boundKey stored bound] at verified
    obtain ⟨s,logged,message,sig,made,tagged,rfl⟩ := @frameInLog _ _ _ ideal .conReq rfl _ _ _ split verified
    obtain ⟨p,rfl⟩ := requestMade made tagged
    obtain ⟨fine,whole⟩ := (p.createIff ed seed _).mp made
    rw [whole, signedFrame, ConReqParams.layoutDecodes fine, Except.ok.injEq] at decoded
    subst decoded
    exact ⟨p,_,logged,made,rfl,(freshnessIff _ _).mp fresh⟩

namespace Answering

def request : ConReqParams := ⟨"DC0SK","W1AW",[.normal],77,"JO31","",0,1000,(filled 32 9).val⟩

def requestFrame : Bytes := framed magicConreq (request.layout (filled 32 7)) ++ (filled 64 1).val

def requestHash : Octets 32 :=
  ⟨[0xF6,0x30,0xA5,0x6C,0xF9,0x59,0xE6,0x48,0x30,0x18,0x89,0x3B,0x2F,0x81,0x7B,0x53,0x83,0x54,0x6F,0x0A,0x97,0xC7,0x97,0xC6,
    0x59,0x81,0xD6,0x87,0xB5,0x2C,0x7A,0x8A],rfl⟩

def digest (bytes : Bytes) : Octets 32 := if bytes = requestFrame then requestHash else zeros 32

def reply : ConAckParams := ⟨"W1AW",.normal,requestHash,"FN31","",0,1200,(filled 32 5).val⟩

def call : ConReqParams := ⟨"W1AW","*",[.hybrid,.normal],78,"FN31","",0,1300,(filled 32 6).val⟩

def log : List Signed := [.answer reply,.request call]

def key : Seed := filled 32 8

def messages : List Bytes := [framed magicConack (reply.layout key),framed magicConreq (call.layout key)]

def scheme : Ed25519 where
  verifyingKey := id
  fromBytes := fun _ => true
  sign := fun _ message => if messages.contains message then filled 64 1 else zeros 64
  verifyStrict := fun _ message sig => messages.contains message && decide (sig = filled 64 1)

def store : TrustStore where
  pubkeyFor := fun station => if station = "W1AW" then some key else none
  trustLevel := fun station => if station = "W1AW" then .full else .unknown

def decision (mode : SigningMode) : HandshakeDecision := ⟨mode,classifyConnectionTrust .full .outOfBand false,.balanced⟩

theorem replyAcceptable : reply.Acceptable := ⟨by decide,rfl,by decide,by decide⟩

theorem callAcceptable : call.Acceptable :=
  ⟨by decide,by decide,by decide,by decide,by decide,rfl,by decide,by decide⟩

theorem listedSign {message : Bytes} (listed : message ∈ messages) : scheme.sign key message = filled 64 1 :=
  if_pos (List.contains_iff_mem.mpr listed)

theorem listedVerified {domain : SigningDomain} (inBand : domain.placement = .inBand) {body : Bytes}
    (listed : framed domain.tag body ∈ messages) :
    verifyEd25519 scheme domain key.val (framed domain.tag body) (filled 64 1).val = true := by
  refine verifyEd25519Iff.mpr ⟨key,filled 64 1,rfl,rfl,(verifyInBandIff scheme inBand).mpr ⟨framedTag domain body,rfl,?_⟩⟩
  simp [scheme, listed]

theorem unforgeable : Unforgeable scheme key log := by
  intro message sig verified
  have both := (Bool.and_eq_true _ _).mp verified
  have listed := List.contains_iff_mem.mp both.1
  have same : sig = scheme.sign key message := (of_decide_eq_true both.2).trans (listedSign listed).symm
  subst same
  rcases List.mem_cons.mp listed with rfl | second
  · exact ⟨_,List.mem_cons_self,(reply.createIff scheme key _).mpr ⟨replyAcceptable,rfl⟩⟩
  · cases List.mem_singleton.mp second
    exact ⟨_,List.mem_cons_of_mem _ List.mem_cons_self,(call.createIff scheme key _).mpr ⟨callAcceptable,rfl⟩⟩

theorem digestInjective (seen : Bytes) (same : digest seen = digest requestFrame) : seen = requestFrame := by
  have here : digest requestFrame = requestHash := if_pos rfl
  by_cases equal : seen = requestFrame
  · exact equal
  · have there : digest seen = zeros 32 := if_neg equal
    rw [here, there] at same
    exact absurd (congrArg Subtype.val same) (by decide)

theorem replyAccepted : verifyConack scheme digest (framed magicConack (reply.layout key) ++ (filled 64 1).val) requestFrame
    [.normal] store .balanced .normal (some ⟨1500,600⟩) = .ok (reply.fields key (filled 64 1),decision .normal) := by
  have small : (reply.layout key).length < 65536 :=
    Nat.lt_of_le_of_lt (ConAckParams.layoutLength replyAcceptable key) (by decide)
  refine verifyConackIff.mpr ⟨_,(@splitFrameIff _ magicConack _ _ rfl).mpr ⟨_,filled 64 1,small,rfl,rfl⟩,
    ConAckParams.layoutDecodes replyAcceptable key _,?_,(if_pos rfl).symm,List.mem_cons_self,rfl,by decide,by decide⟩
  exact @listedVerified .conAck rfl _ List.mem_cons_self

theorem callAccepted : verifyConreq scheme (framed magicConreq (call.layout key) ++ (filled 64 1).val) store .balanced
    .normal (some ⟨1500,600⟩) = .ok (call.fields key (filled 64 1),decision .hybrid) := by
  have small : (call.layout key).length < 65536 :=
    Nat.lt_of_le_of_lt (ConReqParams.layoutLength callAcceptable key) (by decide)
  refine verifyConreqIff.mpr ⟨_,(@splitFrameIff _ magicConreq _ _ rfl).mpr ⟨_,filled 64 1,small,rfl,rfl⟩,
    ConReqParams.layoutDecodes callAcceptable key _,?_,rfl,by decide,by decide⟩
  exact @listedVerified .conReq rfl _ (List.mem_cons_of_mem _ List.mem_cons_self)

theorem stationsAgree : (∃ p, Signed.answer p ∈ log ∧
      ConAck.create scheme p key = .ok (framed magicConack (reply.layout key) ++ (filled 64 1).val) ∧
      p.conreqHash = digest requestFrame) ∧
    ∃ p, Signed.request p ∈ log ∧
      ConReq.create scheme p key = .ok (framed magicConreq (call.layout key) ++ (filled 64 1).val) := by
  have agrees := handshakeAgrees unforgeable digest store .balanced .normal (some ⟨1500,600⟩)
  obtain ⟨p,_,logged,made,_,hash,_⟩ := agrees.1 _ _ _ _ _ digestInjective rfl replyAccepted
  obtain ⟨q,_,called,built,_⟩ := agrees.2 _ _ _ rfl callAccepted
  exact ⟨⟨p,logged,made,hash⟩,q,called,built⟩

end Answering

end OpenPulse.Handshake
