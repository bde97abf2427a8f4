import Mathlib.Data.Prod.Lex
import OpenPulse.Relay
import OpenPulse.Scans

/-! Path planning by score: the relay picks, among the candidates it may use, the
one whose weakest intermediate relay is strongest. A direct route has no weakest
relay and scores highest. -/
namespace OpenPulse.RouteScores
open Peers Relay Scans

structure Valid (route : List String) (maxHops : Nat) (policy : RelayTrustPolicy) : Prop where
  filled : route ≠ []
  loopFree : route.Nodup
  short : route.length - 1 ≤ maxHops
  allowed : ∀ relay ∈ intermediates route, relay ∉ policy.deniedRelays ∧ ∀ a ∈ policy.allowedRelays, relay ∈ a

variable {route : List String} {maxHops : Nat} {policy : RelayTrustPolicy} {cache : PeerCache}

theorem firstRepeatedIff (seen route : List String) :
    firstRepeated seen route = none ↔ route.Nodup ∧ ∀ peer ∈ route, peer ∉ seen := by
  induction route generalizing seen with
  | nil => simp [firstRepeated]
  | cons peer rest ih =>
    rw [firstRepeated]
    by_cases known : peer ∈ seen
    · simp [known]
    · rw [if_neg (by simpa using known), ih, List.nodup_cons, List.forall_mem_cons]
      constructor
      · rintro ⟨fresh,apart⟩
        exact ⟨⟨fun again => apart peer again List.mem_cons_self,fresh⟩,known,fun other member later =>
          apart other member (List.mem_cons_of_mem _ later)⟩
      · rintro ⟨⟨once,fresh⟩,-,apart⟩
        refine ⟨fresh,fun other member here => ?_⟩
        rcases List.mem_cons.mp here with rfl | seen
        · exact once member
        · exact apart other member seen

theorem intermediatesShort (short : route.length ≤ 2) : intermediates route = [] := by
  rw [← List.length_eq_zero_iff, intermediates, List.length_dropLast, List.length_drop]
  omega

theorem validIff (route : List String) (maxHops : Nat) (policy : RelayTrustPolicy) :
    validateRouteWithPolicy route maxHops policy = .ok () ↔ Valid route maxHops policy := by
  have loops : validateRouteNoLoops route maxHops = .ok () ↔ route ≠ [] ∧ route.length - 1 ≤ maxHops ∧ route.Nodup := by
    unfold validateRouteNoLoops
    by_cases empty : route = []
    · simp [empty]
    · by_cases long : maxHops < route.length - 1
      · simp [empty, long, Nat.not_le.mpr long]
      · have repeated := firstRepeatedIff [] route
        simp only [List.not_mem_nil, not_false_eq_true, implies_true, and_true] at repeated
        rw [if_neg (by simpa using empty), if_neg long]
        cases found : firstRepeated [] route with
        | none => simpa [empty, Nat.not_lt.mp long] using repeated.mp found
        | some peer =>
          have looped : ¬ route.Nodup := fun fresh => by
            rw [repeated.mpr fresh] at found
            cases found
          simp [looped]
  have relays : (∀ relay ∈ intermediates route, relay ∉ policy.deniedRelays ∧ ∀ a ∈ policy.allowedRelays, relay ∈ a) ↔
      (intermediates route).find? (fun relay => !policy.allows relay) = none := by
    simp [RelayTrustPolicy.allowsIff]
  constructor
  · intro ok
    unfold validateRouteWithPolicy at ok
    split at ok
    · cases ok
    · rename_i checked
      obtain ⟨filled,short,loopFree⟩ := loops.mp checked
      refine ⟨filled,loopFree,short,?_⟩
      split at ok
      · rename_i direct
        simp [intermediatesShort direct]
      · split at ok
        · cases ok
        · exact relays.mpr ‹_›
  · intro valid
    unfold validateRouteWithPolicy
    rw [loops.mpr ⟨valid.filled,valid.short,valid.loopFree⟩]
    simp only [relays.mp valid.allowed, ite_self]

instance (route : List String) (maxHops : Nat) (policy : RelayTrustPolicy) : Decidable (Valid route maxHops policy) :=
  decidable_of_iff _ (validIff route maxHops policy)

/-- The higher score first, then the shorter route. -/
def merit (cache : PeerCache) (route : List String) : ℕ ×ₗ ℕᵒᵈ := toLex ((scoreRoute route cache).toNat,.toDual route.length)

theorem meritLt (a b : List String) : merit cache a < merit cache b ↔
    scoreRoute a cache < scoreRoute b cache ∨ scoreRoute b cache = scoreRoute a cache ∧ b.length < a.length := by
  simp only [merit, Prod.Lex.toLex_lt_toLex, OrderDual.toDual_lt_toDual, UInt32.lt_iff_toNat_lt, ← UInt32.toNat_inj]
  rw [eq_comm]

def usable (candidates : List (List String)) (maxHops : Nat) (policy : RelayTrustPolicy) : List (List String) :=
  candidates.filter (fun route => Valid route maxHops policy)

theorem usableSnoc (candidates : List (List String)) (route : List String) (maxHops : Nat) (policy : RelayTrustPolicy) :
    usable (candidates ++ [route]) maxHops policy =
      usable candidates maxHops policy ++ if Valid route maxHops policy then [route] else [] := by
  rw [usable, List.filter_append, ← usable]
  by_cases valid : Valid route maxHops policy <;> simp [valid]

theorem chosenScan (candidates : List (List String)) (maxHops : Nat) (policy : RelayTrustPolicy) (cache : PeerCache) :
    candidates.foldl (betterRoute maxHops policy cache) none =
      (scan (merit cache) (usable candidates maxHops policy)).map (fun route => (route,scoreRoute route cache)) := by
  induction candidates using List.reverseRecOn with
  | nil => rfl
  | append_singleton candidates route ih =>
    rw [List.foldl_append, ih, usableSnoc]
    unfold betterRoute
    by_cases valid : Valid route maxHops policy
    · rw [if_pos valid, scanSnoc]
      simp only [List.foldl_cons, List.foldl_nil, (validIff route maxHops policy).mpr valid]
      cases scan (merit cache) (usable candidates maxHops policy) with
      | none => rfl
      | some best =>
        have better := @meritLt cache best route
        simp only [Option.map_some, keep, better, gt_iff_lt]
        split_ifs <;> rfl
    · have refused : validateRouteWithPolicy route maxHops policy ≠ .ok () := fun ok => valid ((validIff ..).mp ok)
      rw [if_neg valid, List.append_nil]
      simp only [List.foldl_cons, List.foldl_nil]
      cases answer : validateRouteWithPolicy route maxHops policy with
      | error e => rfl
      | ok done => exact absurd answer refused

theorem selectIff (candidates : List (List String)) (maxHops : Nat) (policy : RelayTrustPolicy) (cache : PeerCache) :
    (selectBestScoredRoute candidates maxHops policy cache = .error .noValidRoute ∧
        ∀ c ∈ candidates, ¬ Valid c maxHops policy) ∨
      ∃ route, selectBestScoredRoute candidates maxHops policy cache = .ok route ∧
        FirstBest (merit cache) (usable candidates maxHops policy) route := by
  unfold selectBestScoredRoute
  rw [chosenScan]
  by_cases none : usable candidates maxHops policy = []
  · refine .inl ⟨by rw [none]; rfl,fun c member valid => ?_⟩
    have kept : c ∈ usable candidates maxHops policy := List.mem_filter.mpr ⟨member,by simpa using valid⟩
    rw [none] at kept
    cases kept
  · obtain ⟨route,found,best⟩ := scanBest (merit cache) none
    exact .inr ⟨route,by rw [found]; rfl,best⟩

/-- The best usable candidate by score, then by length, then by its place in the list. -/
def Optimal (candidates : List (List String)) (maxHops : Nat) (policy : RelayTrustPolicy) (cache : PeerCache)
    (route : List String) : Prop :=
  ∃ before after, candidates = before ++ route :: after ∧ Valid route maxHops policy ∧
    (∀ c ∈ candidates, Valid c maxHops policy → scoreRoute c cache ≤ scoreRoute route cache ∧
      (scoreRoute c cache = scoreRoute route cache → route.length ≤ c.length)) ∧
    ∀ c ∈ before, Valid c maxHops policy → ¬ (scoreRoute c cache = scoreRoute route cache ∧ c.length = route.length)

theorem optimalOf {candidates : List (List String)} (best : FirstBest (merit cache) (usable candidates maxHops policy) route) :
    Optimal candidates maxHops policy cache route := by
  have greatest := best.greatest
  obtain ⟨before,after,split,earlier,-⟩ := best
  obtain ⟨front,rest,whole,frontKept,restKept⟩ := List.filter_eq_append_iff.mp split
  obtain ⟨skipped,tail,there,unusable,usable',-⟩ := List.filter_eq_cons_iff.mp restKept
  refine ⟨front ++ skipped,tail,by rw [whole, there, List.append_assoc],by simpa using usable',?_,?_⟩
  · intro c member valid
    have most := not_lt.mpr (greatest c (List.mem_filter.mpr ⟨member,by simpa using valid⟩))
    rw [meritLt, not_or] at most
    exact ⟨UInt32.not_lt.mp most.1,fun same => Nat.not_lt.mp fun shorter => most.2 ⟨same,shorter⟩⟩
  · rintro c member valid ⟨same,even⟩
    rcases List.mem_append.mp member with early | skip
    · have less := earlier c (frontKept ▸ List.mem_filter.mpr ⟨early,by simpa using valid⟩)
      rw [merit, merit, same, even] at less
      exact lt_irrefl _ less
    · exact unusable c skip (by simpa using valid)

theorem scoreExtends {shorter longer : List String} (extends' : ∀ relay ∈ intermediates shorter, relay ∈ intermediates longer)
    (cache : PeerCache) : scoreRoute longer cache ≤ scoreRoute shorter cache := by
  unfold scoreRoute
  by_cases direct : shorter.length ≤ 2
  · rw [if_pos direct]
    exact UInt32.le_iff_toNat_le.mpr (Nat.le_of_lt_succ (UInt32.toNat_lt _))
  · have relays : ∃ relay, relay ∈ intermediates shorter := List.exists_mem_of_length_pos (by
      rw [intermediates, List.length_dropLast, List.length_drop]
      omega)
    have indirect : ¬ longer.length ≤ 2 := by
      intro short
      obtain ⟨relay,member⟩ := relays
      have there := extends' relay member
      rw [intermediatesShort short] at there
      cases there
    rw [if_neg direct, if_neg indirect]
    cases weak : ((intermediates shorter).map (fun peerId => hopScore peerId cache)).min? with
    | none =>
      obtain ⟨relay,member⟩ := relays
      rw [List.min?_eq_none_iff, List.map_eq_nil_iff] at weak
      rw [weak] at member
      cases member
    | some low =>
      obtain ⟨member,-⟩ := List.min?_eq_some_iff.mp weak
      obtain ⟨relay,here,score⟩ := List.mem_map.mp member
      cases weaker : ((intermediates longer).map (fun peerId => hopScore peerId cache)).min? with
      | none => exact UInt32.zero_le
      | some lower =>
        rw [Option.getD_some, Option.getD_some, ← score]
        exact (List.min?_eq_some_iff.mp weaker).2 _ (List.mem_map.mpr ⟨relay,extends' relay here,rfl⟩)

/-- Trust weight times route quality; a peer that the cache does not hold has no strength. -/
def strength (cache : PeerCache) (peerId : String) : ℕ :=
  ((cache.peek peerId).map (fun r => (trustWeight r.trustLevel).toNat * r.routeQuality.toNat)).getD 0

/-- The strength of the weakest relay of a route, the greatest score where there is none. -/
structure Bottleneck (cache : PeerCache) (route : List String) (score : UInt32) : Prop where
  direct : route.length ≤ 2 → score.toNat = 2 ^ 32 - 1
  reached : 2 < route.length → ∃ relay ∈ intermediates route, score.toNat = strength cache relay
  least : 2 < route.length → ∀ relay ∈ intermediates route, score.toNat ≤ strength cache relay

theorem hopScoreStrength (cache : PeerCache) (peerId : String) : (hopScore peerId cache).toNat = strength cache peerId := by
  unfold hopScore strength
  cases cache.peek peerId with
  | none => rfl
  | some r =>
    have quality := r.routeQuality.toNat_lt
    have weight : (trustWeight r.trustLevel).toNat ≤ 4 := by cases r.trustLevel <;> decide
    have small : (trustWeight r.trustLevel).toNat * r.routeQuality.toNat < 2 ^ 32 :=
      lt_of_le_of_lt (Nat.mul_le_mul weight (Nat.le_of_lt quality)) (by decide)
    simpa using Nat.mod_eq_of_lt small

theorem scoreBottleneck (cache : PeerCache) (route : List String) : Bottleneck cache route (scoreRoute route cache) := by
  unfold scoreRoute
  by_cases short : route.length ≤ 2
  · rw [if_pos short]
    exact ⟨fun _ => rfl,fun long => absurd short (Nat.not_le.mpr long),fun long => absurd short (Nat.not_le.mpr long)⟩
  · rw [if_neg short]
    cases weak : ((intermediates route).map (fun peerId => hopScore peerId cache)).min? with
    | none =>
      rw [List.min?_eq_none_iff, List.map_eq_nil_iff, ← List.length_eq_zero_iff, intermediates, List.length_dropLast,
        List.length_drop] at weak
      omega
    | some low =>
      obtain ⟨member,least⟩ := List.min?_eq_some_iff.mp weak
      refine ⟨fun direct => absurd direct short,fun _ => ?_,fun _ relay here => ?_⟩
      · obtain ⟨relay,here,score⟩ := List.mem_map.mp member
        exact ⟨relay,here,by rw [← hopScoreStrength, score, Option.getD_some]⟩
      · rw [← hopScoreStrength]
        exact UInt32.le_iff_toNat_le.mp (least _ (List.mem_map.mpr ⟨relay,here,rfl⟩))

theorem scoredSelection (candidates : List (List String)) (maxHops : Nat) (policy : RelayTrustPolicy) (cache : PeerCache) :
    ((∃ e, selectBestScoredRoute candidates maxHops policy cache = .error e) ↔ ∀ c ∈ candidates, ¬ Valid c maxHops policy) ∧
      (∀ route, selectBestScoredRoute candidates maxHops policy cache = .ok route →
        Optimal candidates maxHops policy cache route) ∧
      (∀ route, Bottleneck cache route (scoreRoute route cache)) ∧
      ∀ shorter longer, (∀ relay ∈ intermediates shorter, relay ∈ intermediates longer) →
        scoreRoute longer cache ≤ scoreRoute shorter cache := by
  obtain ⟨failed,unusable⟩ | ⟨chosen,found,best⟩ := selectIff candidates maxHops policy cache
  · refine ⟨⟨fun _ => unusable,fun _ => ⟨_,failed⟩⟩,fun route ok => ?_,scoreBottleneck cache,
      fun _ _ more => scoreExtends more cache⟩
    rw [failed] at ok
    cases ok
  · have optimal := optimalOf best
    refine ⟨⟨?_,?_⟩,?_,scoreBottleneck cache,fun _ _ more => scoreExtends more cache⟩
    · rintro ⟨e,failed⟩
      rw [found] at failed
      cases failed
    · intro unusable
      obtain ⟨before,after,split,valid,-⟩ := optimal
      exact absurd valid (unusable chosen (by simp [split]))
    · intro route ok
      rw [found] at ok
      cases ok
      exact optimal

end OpenPulse.RouteScores
