import OpenPulse.Peers
import OpenPulse.Wire

/-! The relay: `openpulse-core/src/relay.rs`. The clock is a `u64` of
milliseconds; an entry of the replay table lives while its saturated age is at
most the TTL. -/
namespace OpenPulse.Relay
open ByteCodec Tables Signing Wire Peers

def hexDigit (n : Nat) : Char := ['0','1','2','3','4','5','6','7','8','9','a','b','c','d','e','f'].getD n '0'

def hexPeerId (id : PeerId) : String :=
  String.ofList (id.val.flatMap (fun b => [hexDigit (b.toNat / 16),hexDigit (b.toNat % 16)]))

structure RelayTrustPolicy where
  deniedRelays : List String
  allowedRelays : Option (List String)
  minTrustFilter : TrustFilter
  requireAuthentication : Bool
  deriving DecidableEq, Repr

namespace RelayTrustPolicy

def default : RelayTrustPolicy := ⟨[],none,.any,true⟩

def denyRelays (denied : List String) : RelayTrustPolicy := { default with deniedRelays := denied }

def setAllowList (p : RelayTrustPolicy) (allowed : List String) : RelayTrustPolicy :=
  { p with allowedRelays := if allowed.isEmpty then none else some allowed }

def allows (p : RelayTrustPolicy) (relayPeerId : String) : Bool :=
  !p.deniedRelays.contains relayPeerId && p.allowedRelays.all (fun a => a.contains relayPeerId)

theorem allowsIff (p : RelayTrustPolicy) (relayPeerId : String) :
    p.allows relayPeerId = true ↔ relayPeerId ∉ p.deniedRelays ∧ ∀ a ∈ p.allowedRelays, relayPeerId ∈ a := by
  cases listed : p.allowedRelays <;> simp [allows, listed]

end RelayTrustPolicy

inductive RelayRouteError where
  | emptyRoute
  | loopDetected (peerId : String)
  | tooManyHops (hops maxHops : Nat)
  | trustPolicyRejected (peerId : String)
  | noValidRoute
  deriving DecidableEq, Repr

def firstRepeated (seen : List String) : List String → Option String
  | [] => none
  | peer::rest => if seen.contains peer then some peer else firstRepeated (peer::seen) rest

def validateRouteNoLoops (route : List String) (maxHops : Nat) : Except RelayRouteError Unit :=
  if route.isEmpty then .error .emptyRoute
  else if maxHops < route.length - 1 then .error (.tooManyHops (route.length - 1) maxHops)
  else
    match firstRepeated [] route with
    | some peerId => .error (.loopDetected peerId)
    | none => .ok ()

def intermediates (route : List String) : List String := (route.drop 1).dropLast

def validateRouteWithPolicy (route : List String) (maxHops : Nat) (policy : RelayTrustPolicy) :
    Except RelayRouteError Unit :=
  match validateRouteNoLoops route maxHops with
  | .error e => .error e
  | .ok () =>
    if route.length ≤ 2 then .ok ()
    else
      match (intermediates route).find? (fun relay => !policy.allows relay) with
      | some peerId => .error (.trustPolicyRejected peerId)
      | none => .ok ()

def trustWeight : TrustLevel → UInt32
  | .verified => 4
  | .pskVerified => 3
  | .unknown => 2
  | .reduced => 1

def hopScore (peerId : String) (cache : PeerCache) : UInt32 :=
  ((cache.peek peerId).map (fun r => trustWeight r.trustLevel * r.routeQuality.toUInt32)).getD 0

def scoreRoute (route : List String) (cache : PeerCache) : UInt32 :=
  if route.length ≤ 2 then 0xFFFFFFFF
  else (((intermediates route).map (fun peerId => hopScore peerId cache)).min?).getD 0

def betterRoute (maxHops : Nat) (policy : RelayTrustPolicy) (cache : PeerCache) (best : Option (List String × UInt32))
    (route : List String) : Option (List String × UInt32) :=
  match validateRouteWithPolicy route maxHops policy with
  | .error _ => best
  | .ok () =>
    let score := scoreRoute route cache
    match best with
    | none => some (route, score)
    | some (current, bestScore) =>
      if score > bestScore ∨ (score = bestScore ∧ route.length < current.length) then some (route, score) else best

def selectBestScoredRoute (candidates : List (List String)) (maxHops : Nat) (policy : RelayTrustPolicy)
    (cache : PeerCache) : Except RelayRouteError (List String) :=
  match candidates.foldl (betterRoute maxHops policy cache) none with
  | some (route, _) => .ok route
  | none => .error .noValidRoute

theorem betterRouteValid {maxHops : Nat} {policy : RelayTrustPolicy} {cache : PeerCache}
    {best : Option (List String × UInt32)} (valid : ∀ r ∈ best, validateRouteWithPolicy r.1 maxHops policy = .ok ())
    (route : List String) :
    ∀ r ∈ betterRoute maxHops policy cache best route, validateRouteWithPolicy r.1 maxHops policy = .ok () := by
  intro r chosen
  unfold betterRoute at chosen
  split at chosen
  · exact valid r chosen
  · rename_i checked
    split at chosen
    · cases chosen
      exact checked
    · dsimp only at chosen
      split at chosen
      · cases chosen
        exact checked
      · exact valid r chosen

theorem selectBestScoredRouteValid {candidates : List (List String)} {maxHops : Nat} {policy : RelayTrustPolicy}
    {cache : PeerCache} {route : List String} (ok : selectBestScoredRoute candidates maxHops policy cache = .ok route) :
    validateRouteWithPolicy route maxHops policy = .ok () := by
  have all : ∀ r ∈ candidates.foldl (betterRoute maxHops policy cache) none,
      validateRouteWithPolicy r.1 maxHops policy = .ok () := by
    refine List.foldlRecOn (motive := fun best : Option (List String × UInt32) => ∀ r ∈ best,
      validateRouteWithPolicy r.1 maxHops policy = .ok ()) candidates _ (by simp) ?_
    exact fun best valid route _ => betterRouteValid valid route
  unfold selectBestScoredRoute at ok
  split at ok
  · rename_i score found
    cases ok
    exact all _ found
  · cases ok

theorem validRouteShort {route : List String} {maxHops : Nat} {policy : RelayTrustPolicy}
    (valid : validateRouteWithPolicy route maxHops policy = .ok ()) : route.length - 1 ≤ maxHops := by
  by_contra long
  have filled : ¬ route.isEmpty := by
    rintro empty
    simp [List.isEmpty_iff.mp empty] at long
  simp [validateRouteWithPolicy, validateRouteNoLoops, filled, Nat.not_le.mp long] at valid

theorem hexDigitInj : ∀ m < 16, ∀ n < 16, hexDigit m = hexDigit n → m = n := by decide

theorem hexByteInj {a b : UInt8} (high : hexDigit (a.toNat / 16) = hexDigit (b.toNat / 16))
    (low : hexDigit (a.toNat % 16) = hexDigit (b.toNat % 16)) : a = b := by
  have boundA := a.toNat_lt
  have boundB := b.toNat_lt
  have top := hexDigitInj _ (by omega) _ (by omega) high
  have bottom := hexDigitInj _ (Nat.mod_lt _ (by decide)) _ (Nat.mod_lt _ (by decide)) low
  apply UInt8.toNat_inj.mp
  omega

theorem hexBytesInj {a b : Bytes}
    (same : a.flatMap (fun b => [hexDigit (b.toNat / 16),hexDigit (b.toNat % 16)]) =
      b.flatMap (fun b => [hexDigit (b.toNat / 16),hexDigit (b.toNat % 16)])) : a = b := by
  induction a generalizing b with
  | nil => cases b with
    | nil => rfl
    | cons y b => simp at same
  | cons x a ih => cases b with
    | nil => simp at same
    | cons y b =>
      simp only [List.flatMap_cons, List.cons_append, List.nil_append, List.cons.injEq] at same
      rw [hexByteInj same.1 same.2.1, ih same.2.2]

theorem hexPeerIdInj {a b : PeerId} (same : hexPeerId a = hexPeerId b) : a = b :=
  Subtype.ext (hexBytesInj (String.ofList_inj.mp same))

theorem firstRepeatedNone {seen route : List String} :
    firstRepeated seen route = none ↔ route.Nodup ∧ ∀ peer ∈ route, peer ∉ seen := by
  induction route generalizing seen with
  | nil => simp [firstRepeated]
  | cons peer rest ih =>
    by_cases repeated : peer ∈ seen
    · simp [firstRepeated, repeated]
    · simp only [firstRepeated, List.contains_iff_mem, repeated, if_false, ih, List.nodup_cons, List.mem_cons,
        forall_eq_or_imp, not_or, not_false_eq_true, true_and]
      constructor
      · rintro ⟨nodup,apart⟩
        exact ⟨⟨fun here => (apart peer here).1 rfl,nodup⟩,fun p member => (apart p member).2⟩
      · rintro ⟨⟨fresh,nodup⟩,apart⟩
        exact ⟨nodup,fun p member => ⟨fun same => fresh (same ▸ member),apart p member⟩⟩

theorem validateRouteNoLoopsOk {route : List String} {maxHops : Nat} :
    validateRouteNoLoops route maxHops = .ok () ↔ route ≠ [] ∧ route.length - 1 ≤ maxHops ∧ route.Nodup := by
  unfold validateRouteNoLoops
  by_cases empty : route = []
  · simp [empty]
  · by_cases long : maxHops < route.length - 1
    · have beyond : ¬ route.length - 1 ≤ maxHops := Nat.not_le.mpr long
      simp only [empty, List.isEmpty_iff, long, if_false, if_true, beyond, false_and, and_false, iff_false]
      rintro ⟨⟩
    · cases found : firstRepeated [] route with
      | none => simp [empty, long, Nat.not_lt.mp long, (firstRepeatedNone.mp found).1]
      | some peer =>
        have looped : ¬ route.Nodup := by
          intro nodup
          have none : firstRepeated [] route = none := firstRepeatedNone.mpr ⟨nodup,by simp⟩
          simp [none] at found
        simp [empty, long, looped]

inductive RelayForwardError where
  | hopLimitExceeded (hopIndex hopLimit : UInt8)
  | duplicateDetected
  | policyRejected (srcPeerId : PeerId)
  | capacityExceeded
  | authenticationFailed (srcPeerId : PeerId)
  deriving DecidableEq, Repr

inductive RelayEvent where
  | forwarded (sessionId : UInt64) (hopIndexOut hopLimit : UInt8)
  | hopLimitExceeded (sessionId : UInt64) (hopIndex : UInt8)
  | duplicateSuppressed (sessionId : UInt64) (nonce : Nonce)
  | policyRejected (sessionId : UInt64) (srcPeerId : PeerId)
  | capacityExceeded (sessionId : UInt64)
  | authenticationFailed (sessionId : UInt64) (srcPeerId : PeerId)
  deriving DecidableEq, Repr

def maxSeenEntries : Nat := 4096

structure RelayForwarder where
  policy : RelayTrustPolicy
  seen : Table (UInt64 × Nonce) UInt64
  ttlMs : UInt64
  events : List RelayEvent

def replayKey (e : WireEnvelope) : UInt64 × Nonce := (e.sessionId,e.nonce)

namespace RelayForwarder

def new (ttlMs : UInt64) (policy : RelayTrustPolicy) : RelayForwarder := ⟨policy,∅,ttlMs,[]⟩

def alive (f : RelayForwarder) (nowMs firstSeen : UInt64) : Bool := nowMs.toNat - firstSeen.toNat ≤ f.ttlMs.toNat

def evictExpired (f : RelayForwarder) (nowMs : UInt64) : RelayForwarder :=
  { f with seen := retain (fun _ firstSeen => if f.alive nowMs firstSeen then some firstSeen else none) f.seen }

def report (f : RelayForwarder) (event : RelayEvent) : RelayForwarder := { f with events := f.events ++ [event] }

def drainEvents (f : RelayForwarder) : List RelayEvent × RelayForwarder := (f.events, { f with events := [] })

def forward (ed : Ed25519) (f : RelayForwarder) (e : WireEnvelope) (nowMs : UInt64) :
    Except RelayForwardError WireEnvelope × RelayForwarder :=
  let f := f.evictExpired nowMs
  if e.hopIndex ≥ e.hopLimit then
    (.error (.hopLimitExceeded e.hopIndex e.hopLimit), f.report (.hopLimitExceeded e.sessionId e.hopIndex))
  else if f.policy.requireAuthentication ∧ e.verifyOrigin ed ≠ .ok () then
    (.error (.authenticationFailed e.srcPeerId), f.report (.authenticationFailed e.sessionId e.srcPeerId))
  else if size f.seen ≥ maxSeenEntries then
    (.error .capacityExceeded, f.report (.capacityExceeded e.sessionId))
  else if (f.seen.lookup (replayKey e)).isSome then
    (.error .duplicateDetected, f.report (.duplicateSuppressed e.sessionId e.nonce))
  else if !f.policy.allows (hexPeerId e.srcPeerId) then
    (.error (.policyRejected e.srcPeerId), f.report (.policyRejected e.sessionId e.srcPeerId))
  else
    let out := { e with hopIndex := e.hopIndex + 1 }
    (.ok out,
      { f with seen := f.seen.insert (replayKey e) nowMs }.report (.forwarded out.sessionId out.hopIndex out.hopLimit))

end RelayForwarder

variable {ed : Ed25519} {f : RelayForwarder} {e out : WireEnvelope} {now : UInt64}

@[simp] theorem evictExpiredLookup (f : RelayForwarder) (now : UInt64) (k : UInt64 × Nonce) :
    (f.evictExpired now).seen.lookup k = (f.seen.lookup k).filter (f.alive now) := by
  simp only [RelayForwarder.evictExpired, lookupRetain]
  cases f.seen.lookup k with
  | none => rfl
  | some t => cases here : f.alive now t <;> simp [here, Option.filter]

structure Checked (ed : Ed25519) (f : RelayForwarder) (e : WireEnvelope) (now : UInt64) : Prop where
  hop : e.hopIndex < e.hopLimit
  authentic : f.policy.requireAuthentication = true → e.verifyOrigin ed = .ok ()
  room : size (f.evictExpired now).seen < maxSeenEntries
  fresh : (f.evictExpired now).seen.lookup (replayKey e) = none
  allowed : f.policy.allows (hexPeerId e.srcPeerId) = true

theorem forwardCases (ed : Ed25519) (f : RelayForwarder) (e : WireEnvelope) (now : UInt64) :
    (Checked ed f e now ∧ (f.forward ed e now).1 = .ok { e with hopIndex := e.hopIndex + 1 } ∧
        (f.forward ed e now).2.seen = (f.evictExpired now).seen.insert (replayKey e) now ∨
      ¬ Checked ed f e now ∧ (∃ err, (f.forward ed e now).1 = .error err) ∧
        (f.forward ed e now).2.seen = (f.evictExpired now).seen) ∧
    (f.forward ed e now).2.policy = f.policy ∧ (f.forward ed e now).2.ttlMs = f.ttlMs := by
  unfold RelayForwarder.forward
  dsimp only
  split
  · rename_i spent
    exact ⟨.inr ⟨fun c => absurd c.hop (UInt8.not_lt.mpr spent),⟨_,rfl⟩,rfl⟩,rfl,rfl⟩
  · rename_i hop
    split
    · rename_i forged
      exact ⟨.inr ⟨fun c => forged.2 (c.authentic forged.1),⟨_,rfl⟩,rfl⟩,rfl,rfl⟩
    · rename_i authentic
      split
      · rename_i full
        exact ⟨.inr ⟨fun c => absurd c.room (Nat.not_lt.mpr full),⟨_,rfl⟩,rfl⟩,rfl,rfl⟩
      · rename_i room
        split
        · rename_i known
          exact ⟨.inr ⟨fun c => by simp [c.fresh] at known,⟨_,rfl⟩,rfl⟩,rfl,rfl⟩
        · rename_i fresh
          split
          · rename_i denied
            exact ⟨.inr ⟨fun c => by simp [RelayForwarder.evictExpired, c.allowed] at denied,⟨_,rfl⟩,rfl⟩,rfl,rfl⟩
          · rename_i allowed
            refine ⟨.inl ⟨⟨UInt8.not_le.mp hop,?_,Nat.not_le.mp room,Option.not_isSome_iff_eq_none.mp fresh,?_⟩,rfl,rfl⟩,rfl,rfl⟩
            · intro required
              by_contra forged
              exact authentic ⟨required,forged⟩
            · simpa [RelayForwarder.evictExpired] using allowed

theorem forwardOk (ok : (f.forward ed e now).1 = .ok out) :
    Checked ed f e now ∧ out = { e with hopIndex := e.hopIndex + 1 } ∧
      (f.forward ed e now).2.seen = (f.evictExpired now).seen.insert (replayKey e) now := by
  rcases (forwardCases ed f e now).1 with ⟨checked,result,seen⟩ | ⟨-,⟨err,result⟩,-⟩
  · rw [ok] at result
    exact ⟨checked,Except.ok.inj result,seen⟩
  · rw [ok] at result
    cases result

theorem forwardChecked (checked : Checked ed f e now) :
    (f.forward ed e now).1 = .ok { e with hopIndex := e.hopIndex + 1 } := by
  rcases (forwardCases ed f e now).1 with ⟨-,result,-⟩ | ⟨bad,-⟩
  · exact result
  · exact absurd checked bad

theorem forwardRefused {err : RelayForwardError} (refused : (f.forward ed e now).1 = .error err) :
    (f.forward ed e now).2.seen = (f.evictExpired now).seen := by
  rcases (forwardCases ed f e now).1 with ⟨-,result,-⟩ | ⟨-,-,seen⟩
  · rw [refused] at result
    cases result
  · exact seen

theorem forwardKeeps (ed : Ed25519) (f : RelayForwarder) (e : WireEnvelope) {now t : UInt64} {k : UInt64 × Nonce}
    (found : (f.evictExpired now).seen.lookup k = some t) : (f.forward ed e now).2.seen.lookup k = some t := by
  rcases (forwardCases ed f e now).1 with ⟨checked,-,seen⟩ | ⟨-,-,seen⟩
  · have other : k ≠ replayKey e := by
      rintro rfl
      rw [checked.fresh] at found
      cases found
    rw [seen, lookupInsert, if_neg other]
    exact found
  · rw [seen]
    exact found

@[simp] theorem forwardPolicy : (f.forward ed e now).2.policy = f.policy := (forwardCases ed f e now).2.1

@[simp] theorem forwardTtl : (f.forward ed e now).2.ttlMs = f.ttlMs := (forwardCases ed f e now).2.2

theorem evictExpiredSize (f : RelayForwarder) (now : UInt64) : size (f.evictExpired now).seen ≤ size f.seen :=
  sizeRetain _ _

theorem forwardSize (bounded : size f.seen ≤ maxSeenEntries) : size (f.forward ed e now).2.seen ≤ maxSeenEntries := by
  have evicted := evictExpiredSize f now
  rcases (forwardCases ed f e now).1 with ⟨checked,-,seen⟩ | ⟨-,-,seen⟩
  · rw [seen, sizeInsert _ _ _ checked.fresh]
    exact checked.room
  · rw [seen]
    omega

end OpenPulse.Relay
