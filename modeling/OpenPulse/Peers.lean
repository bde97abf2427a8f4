import OpenPulse.ByteCodec
import OpenPulse.Tables

/-! The cache of observed peers: `openpulse-core/src/peer_cache.rs`. -/
namespace OpenPulse.Peers
open ByteCodec Tables

inductive TrustLevel where
  | unknown | reduced | pskVerified | verified
  deriving DecidableEq, Repr

def TrustLevel.rank : TrustLevel → Nat
  | unknown => 0
  | reduced => 1
  | pskVerified => 2
  | verified => 3

inductive TrustFilter where
  | trustedOnly | trustedOrUnknown | any
  deriving DecidableEq, Repr

def TrustFilter.admits : TrustFilter → TrustLevel → Bool
  | .trustedOnly, level => level = .pskVerified ∨ level = .verified
  | .trustedOrUnknown, level => level ≠ .reduced
  | .any, _ => true

structure PeerRecord where
  peerId : String
  capabilityMask : UInt32
  routeQuality : UInt8
  trustLevel : TrustLevel
  revision : UInt64
  updatedAtMs : UInt64
  callsignHash : Octets 32
  deriving DecidableEq, Repr

structure PeerCache where
  capacity : Nat
  ttlMs : UInt64
  entries : Table String PeerRecord
  lru : List String

namespace PeerCache

def new (capacity : Nat) (ttlMs : UInt64) : PeerCache := ⟨capacity,ttlMs,∅,[]⟩

def len (c : PeerCache) : Nat := size c.entries

def peek (c : PeerCache) (peerId : String) : Option PeerRecord := c.entries.lookup peerId

def evictExpired (c : PeerCache) (nowMs : UInt64) : PeerCache :=
  let entries := retain
    (fun _ r => if nowMs.toNat - r.updatedAtMs.toNat ≤ c.ttlMs.toNat then some r else none) c.entries
  { c with entries, lru := c.lru.filter (fun p => (entries.lookup p).isSome) }

def shouldReplace (existing incoming : PeerRecord) : Bool :=
  if incoming.revision > existing.revision then true
  else if incoming.revision < existing.revision then false
  else if incoming.updatedAtMs > existing.updatedAtMs then true
  else if incoming.updatedAtMs < existing.updatedAtMs then false
  else if incoming.trustLevel.rank > existing.trustLevel.rank then true
  else if incoming.trustLevel.rank < existing.trustLevel.rank then false
  else incoming.routeQuality ≥ existing.routeQuality

def put (c : PeerCache) (r : PeerRecord) : PeerCache :=
  let (entries, lru) := evictOver c.capacity (c.entries.insert r.peerId r) (touch c.lru r.peerId)
  { c with entries, lru }

def upsert (c : PeerCache) (incoming : PeerRecord) (nowMs : UInt64) : Bool × PeerCache :=
  let c := c.evictExpired nowMs
  match c.entries.lookup incoming.peerId with
  | some existing =>
    if !shouldReplace existing incoming then
      if existing.callsignHash = zeros 32 ∧ incoming.callsignHash ≠ zeros 32 then
        (true, { c with
          entries := c.entries.insert incoming.peerId { existing with callsignHash := incoming.callsignHash } })
      else (false, c)
    else
      let callsignHash := if incoming.callsignHash ≠ zeros 32 then incoming.callsignHash else existing.callsignHash
      (true, c.put { incoming with callsignHash })
  | none => (true, c.put incoming)

def get (c : PeerCache) (peerId : String) (nowMs : UInt64) : Option PeerRecord × PeerCache :=
  let c := c.evictExpired nowMs
  let c := if (c.entries.lookup peerId).isSome then { c with lru := touch c.lru peerId } else c
  (c.entries.lookup peerId, c)

/- The source walks a hash map, so peers of equal quality come in no fixed order;
here they come in the order of the table. -/
def query (c : PeerCache) (capabilityMask : UInt32) (minQuality : UInt8) (trustFilter : TrustFilter)
    (maxResults : Nat) (nowMs : UInt64) : List PeerRecord × PeerCache :=
  let c := c.evictExpired nowMs
  let matching := (c.entries.entries.map (fun entry => entry.2)).filter (fun r =>
    (capabilityMask == 0 || r.capabilityMask &&& capabilityMask == capabilityMask) &&
      minQuality ≤ r.routeQuality && trustFilter.admits r.trustLevel)
  ((matching.mergeSort (fun a b => b.routeQuality ≤ a.routeQuality)).take maxResults, c)

end PeerCache

end OpenPulse.Peers
