import Mathlib.Data.List.Sort

/-! What a station thinks of a peer's key and which signing mode it settles on:
`openpulse-core/src/trust.rs`. -/
namespace OpenPulse.Trust

inductive PublicKeyTrustLevel where
  | full | marginal | unknown | untrusted | revoked
  deriving DecidableEq, Repr

inductive CertificateSource where
  | outOfBand | overAir
  deriving DecidableEq, Repr

inductive ConnectionTrustLevel where
  | rejected | low | unverified | reduced | pskVerified | verified
  deriving DecidableEq, Repr

inductive SigningMode where
  | normal | psk | relaxed | paranoid | pq | hybrid
  deriving DecidableEq, Repr

namespace SigningMode

def toWire : SigningMode → UInt8
  | normal => 0x01
  | psk => 0x02
  | relaxed => 0x03
  | paranoid => 0x04
  | pq => 0x05
  | hybrid => 0x06

def fromWire (v : UInt8) : Option SigningMode :=
  match v with
  | 0x01 => some normal
  | 0x02 => some psk
  | 0x03 => some relaxed
  | 0x04 => some paranoid
  | 0x05 => some pq
  | 0x06 => some hybrid
  | _ => none

@[simp] theorem fromWireToWire (m : SigningMode) : fromWire m.toWire = some m := by cases m <;> rfl

def debug : SigningMode → String
  | normal => "Normal"
  | psk => "Psk"
  | relaxed => "Relaxed"
  | paranoid => "Paranoid"
  | pq => "Pq"
  | hybrid => "Hybrid"

end SigningMode

inductive PolicyProfile where
  | strict | balanced | permissive
  deriving DecidableEq, Repr

structure TrustDecision where
  decision : ConnectionTrustLevel
  reasonCode : String
  certificateSource : CertificateSource
  publicKeyTrust : PublicKeyTrustLevel
  pskValidated : Bool
  deriving DecidableEq, Repr

structure HandshakeDecision where
  selectedMode : SigningMode
  trust : TrustDecision
  policyProfile : PolicyProfile
  deriving DecidableEq, Repr

inductive TrustError where
  | noMutualSigningMode | weakSigningModeRejected | rejectedTrustLevel | keyDerivationFailed
  deriving DecidableEq, Repr

def TrustError.debug : TrustError → String
  | noMutualSigningMode => "NoMutualSigningMode"
  | weakSigningModeRejected => "WeakSigningModeRejected"
  | rejectedTrustLevel => "RejectedTrustLevel"
  | keyDerivationFailed => "KeyDerivationFailed"

def trustDecision (keyTrust : PublicKeyTrustLevel) (certificateSource : CertificateSource) (pskValidated : Bool) :
    ConnectionTrustLevel :=
  match keyTrust, certificateSource with
  | .untrusted, _ | .revoked, _ => .rejected
  | .full, .outOfBand => .verified
  | .full, .overAir => if pskValidated then .pskVerified else .reduced
  | .marginal, .overAir => if pskValidated then .pskVerified else .reduced
  | .marginal, .outOfBand => .reduced
  | .unknown, .outOfBand => .unverified
  | .unknown, .overAir => if pskValidated then .pskVerified else .low

def reasonCode : ConnectionTrustLevel → String
  | .verified => "verified_out_of_band"
  | .pskVerified => "psk_validated_over_air_certificate"
  | .reduced => "over_air_certificate_without_psk"
  | .unverified => "key_trust_unknown"
  | .low => "unknown_key_over_air_certificate_without_psk"
  | .rejected => "policy_rejected"

def classifyConnectionTrust (keyTrust : PublicKeyTrustLevel) (certificateSource : CertificateSource)
    (pskValidated : Bool) : TrustDecision :=
  let decision := trustDecision keyTrust certificateSource pskValidated
  ⟨decision,reasonCode decision,certificateSource,keyTrust,pskValidated⟩

def allowedSigningModes : PolicyProfile → List SigningMode
  | .strict => [.normal,.paranoid,.pq,.hybrid]
  | .balanced | .permissive => [.normal,.psk,.relaxed,.pq,.hybrid]

def modeStrength : SigningMode → Nat
  | .relaxed => 1
  | .psk | .normal => 2
  | .paranoid => 3
  | .pq => 4
  | .hybrid => 5

def mutualModes (profile : PolicyProfile) (peerSupported : List SigningMode) : List SigningMode :=
  (allowedSigningModes profile).filter fun mode => decide (mode ∈ peerSupported)

/-- The strongest mode both sides allow, the earlier of two equally strong ones: the sort is stable. -/
def selectSigningMode (profile : PolicyProfile) (localMinimum : SigningMode) (peerSupported : List SigningMode) :
    Except TrustError SigningMode :=
  match (mutualModes profile peerSupported).insertionSort (fun a b => modeStrength b ≤ modeStrength a) with
  | [] => .error .noMutualSigningMode
  | selected::_ => if modeStrength selected < modeStrength localMinimum then .error .weakSigningModeRejected else .ok selected

def evaluateHandshake (profile : PolicyProfile) (localMinimumMode : SigningMode) (peerSupportedModes : List SigningMode)
    (keyTrust : PublicKeyTrustLevel) (certificateSource : CertificateSource) (pskValidated : Bool) :
    Except TrustError HandshakeDecision := do
  let selectedMode ← selectSigningMode profile localMinimumMode peerSupportedModes
  let trust := classifyConnectionTrust keyTrust certificateSource pskValidated
  if trust.decision = .rejected then throw .rejectedTrustLevel
  else return ⟨selectedMode,trust,profile⟩

theorem selectedModeMutual {profile : PolicyProfile} {localMinimum selected : SigningMode} {peer : List SigningMode}
    (ok : selectSigningMode profile localMinimum peer = .ok selected) :
    selected ∈ allowedSigningModes profile ∧ selected ∈ peer ∧ modeStrength localMinimum ≤ modeStrength selected ∧
      ∀ mode ∈ allowedSigningModes profile, mode ∈ peer → modeStrength mode ≤ modeStrength selected := by
  unfold selectSigningMode at ok
  split at ok
  · cases ok
  · rename_i first rest sorted
    split at ok
    · cases ok
    · rename_i strong
      cases ok
      have members := List.perm_insertionSort (fun a b => modeStrength b ≤ modeStrength a) (mutualModes profile peer)
      rw [sorted] at members
      have here : selected ∈ mutualModes profile peer := members.subset (List.mem_cons_self)
      rw [mutualModes, List.mem_filter, decide_eq_true_eq] at here
      refine ⟨here.1,here.2,Nat.not_lt.mp strong,?_⟩
      intro mode allowed offered
      have inside : mode ∈ selected::rest := by
        refine members.symm.subset ?_
        rw [mutualModes, List.mem_filter, decide_eq_true_eq]
        exact ⟨allowed,offered⟩
      rcases List.mem_cons.mp inside with rfl | later
      · exact Nat.le_refl _
      · have : Std.Total (fun a b : SigningMode => modeStrength b ≤ modeStrength a) :=
          ⟨fun a b => Nat.le_total (modeStrength b) (modeStrength a)⟩
        have : IsTrans SigningMode (fun a b => modeStrength b ≤ modeStrength a) :=
          ⟨fun _ _ _ left right => Nat.le_trans right left⟩
        have order := List.pairwise_insertionSort (fun a b => modeStrength b ≤ modeStrength a) (mutualModes profile peer)
        rw [sorted] at order
        exact List.rel_of_pairwise_cons order later

theorem evaluatedTrust {profile : PolicyProfile} {localMinimum : SigningMode} {peer : List SigningMode}
    {keyTrust : PublicKeyTrustLevel} {source : CertificateSource} {psk : Bool} {decision : HandshakeDecision}
    (ok : evaluateHandshake profile localMinimum peer keyTrust source psk = .ok decision) :
    selectSigningMode profile localMinimum peer = .ok decision.selectedMode ∧
      decision.trust = classifyConnectionTrust keyTrust source psk ∧ decision.trust.decision ≠ .rejected := by
  unfold evaluateHandshake at ok
  cases found : selectSigningMode profile localMinimum peer with
  | error e =>
    rw [found] at ok
    cases ok
  | ok selected =>
    rw [found] at ok
    simp only [bind, Except.bind] at ok
    split at ok
    · cases ok
    · rename_i kept
      cases ok
      exact ⟨rfl,rfl,kept⟩

end OpenPulse.Trust
