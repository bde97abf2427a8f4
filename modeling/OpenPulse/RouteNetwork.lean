import Mathlib.Data.List.Nodup
import Mathlib.Logic.Function.Basic
import OpenPulse.Relay
import OpenPulse.RouteTables
import OpenPulse.Runs

/-! Route discovery in a network of honest nodes. A request is flooded in any
order, so every copy ever sent stays on the air and any node may take it up, its
originator included. Messages are kept decoded; a node stands here for the parts
of the daemon that take part in discovery. -/
namespace OpenPulse.RouteNetwork
open ByteCodec Tables Signing Wire Payloads Relay Routes RouteTables Runs

structure Setup where
  seed : Seed
  hopLimit : UInt8
  capabilityMask : UInt32
  queryTimeoutMs : UInt64
  capacity : Nat
  ttlMs : UInt64
  order : ValueOrder PeerId RouteEntry

structure Node where
  originator : RouteOriginator
  responder : RouteResponder
  table : RouteTable

structure Copy where
  -- a copy of a request; `trail` lists the nodes that have sent it on
  source : PeerId
  hopIndex : UInt8
  hopLimit : UInt8
  request : RouteDiscoveryRequest
  trail : List PeerId
  deriving DecidableEq, Repr

structure Reply where
  -- an answer to the copy `asked`, addressed to its source
  asked : Copy
  answerer : PeerId
  response : RouteDiscoveryResponse
  deriving DecidableEq, Repr

structure Notice where
  emitter : PeerId
  update : RelayRouteUpdate
  deriving DecidableEq, Repr

structure Air where
  requests : List Copy
  replies : List Reply
  notices : List Notice
  deriving DecidableEq, Repr

structure Network (N : Type) where
  nodes : N → Node
  air : Air

inductive Event (N : Type) where
  | originate (n : N) (destination : PeerId) (requiredCapabilityMask : UInt32) (policyFlags : UInt16) (nonce : Nonce)
      (now : UInt64)
  | request (n : N) (i : Nat) (sent relayed : Bool)
  | response (n : N) (i : Nat) (now : UInt64)
  | announce (n : N) (destination : PeerId) (routeChangeReason : UInt16) (replacementHops : List RouteHop)
  | update (n : N) (i : Nat) (now : UInt64)

variable (ed : Ed25519)

def peer (c : Setup) : PeerId := ed.verifyingKey c.seed

def Node.new (c : Setup) : Node :=
  ⟨.new (peer ed c) c.queryTimeoutMs,.new ed c.seed c.capabilityMask,.new c.order c.capacity c.ttlMs⟩

def loweredLimit (c : Setup) (copy : Copy) : UInt8 := if c.hopLimit < copy.hopLimit then c.hopLimit else copy.hopLimit

/- `propagate_route_request`: the daemon lowers the hop limit to its own, and the
forwarder passes a request on while its hop index is below the limit. Policy and
duplicate checks only withhold copies. -/
def forwarded (c : Setup) (copy : Copy) : Option Copy :=
  if loweredLimit c copy ≤ copy.hopIndex then none
  else
    some { copy with
      hopIndex := copy.hopIndex + 1
      hopLimit := loweredLimit c copy
      request := (accumulateForwarder copy.request (peer ed c)).2
      trail := copy.trail ++ [peer ed c] }

variable {N : Type} [DecidableEq N] (setup : N → Setup)

def start : Network N := ⟨fun n => .new ed (setup n),⟨[],[],[]⟩⟩

def originates (s : Network N) (n : N) (destination : PeerId) (requiredCapabilityMask : UInt32) (policyFlags : UInt16)
    (nonce : Nonce) (now : UInt64) : Network N :=
  let node := s.nodes n
  let hopLimit := (setup n).hopLimit
  let out := node.originator.originate destination hopLimit requiredCapabilityMask policyFlags nonce now
  let nodes := Function.update s.nodes n { node with originator := out.2 }
  match out.1 with
  | .error _ => ⟨nodes,s.air⟩
  | .ok (queryId, envelope) =>
    let request : RouteDiscoveryRequest := ⟨queryId,destination,hopLimit,requiredCapabilityMask,policyFlags,[]⟩
    ⟨nodes,{ s.air with requests := s.air.requests ++ [⟨envelope.srcPeerId,envelope.hopIndex,envelope.hopLimit,request,[]⟩] }⟩

def takesUp (s : Network N) (n : N) (copy : Copy) (sent relayed : Bool) : Network N :=
  let node := s.nodes n
  let out := node.responder.answer ed copy.request node.table
  let nodes := Function.update s.nodes n { node with responder := out.2 }
  match out.1, sent with
  | some response, true =>
    ⟨nodes,{ s.air with replies := s.air.replies ++ [⟨copy,node.responder.myPeerId,response⟩] }⟩
  | _, _ =>
    if relayed then ⟨nodes,{ s.air with requests := s.air.requests ++ (forwarded ed (setup n) copy).toList }⟩
    else ⟨nodes,s.air⟩

def learns (s : Network N) (n : N) (reply : Reply) (now : UInt64) : Network N :=
  let node := s.nodes n
  if reply.asked.source = peer ed (setup n) then
    let out := node.originator.applyResponse ed reply.response reply.answerer node.table now
    ⟨Function.update s.nodes n { node with originator := out.2.1, table := out.2.2 },s.air⟩
  else s

def announces (s : Network N) (n : N) (destination : PeerId) (routeChangeReason : UInt16)
    (replacementHops : List RouteHop) : Network N :=
  let node := s.nodes n
  match node.table.bestRoute destination with
  | none => s
  | some entry =>
    let update := node.responder.buildRouteUpdate ed entry.routeId entry.hops.length.toUInt8 routeChangeReason
      replacementHops
    { s with air := { s.air with notices := s.air.notices ++ [⟨peer ed (setup n),update⟩] } }

def updates (s : Network N) (n : N) (notice : Notice) (now : UInt64) : Network N :=
  let node := s.nodes n
  ⟨Function.update s.nodes n
    { node with table := (applyRouteUpdate ed notice.update notice.emitter node.table now).2 },s.air⟩

def step (s : Network N) : Event N → Network N
  | .originate n destination mask flags nonce now => originates setup s n destination mask flags nonce now
  | .request n i sent relayed =>
    match s.air.requests[i]? with
    | some copy => takesUp ed setup s n copy sent relayed
    | none => s
  | .response n i now =>
    match s.air.replies[i]? with
    | some reply => learns ed setup s n reply now
    | none => s
  | .announce n destination reason hops => announces ed setup s n destination reason hops
  | .update n i now =>
    match s.air.notices[i]? with
    | some notice => updates ed s n notice now
    | none => s

def ids (hops : List RouteHop) : List PeerId := hops.map RouteHop.hopPeerId

def Gives (self : PeerId) (entry : RouteEntry) (reply : Reply) : Prop :=
  reply.asked.source = self ∧ reply.response.hops = entry.hops ∧ reply.response.routeId = entry.routeId

structure Usable (s : Network N) (n : N) (destination : PeerId) (entry : RouteEntry) : Prop where
  ends : (ids entry.hops).getLast? = some destination
  distinct : (ids entry.hops).Nodup
  away : peer ed (setup n) ∉ ids entry.hops
  accepted : validateRouteNoLoops ((peer ed (setup n) :: ids entry.hops).map hexPeerId) (setup n).hopLimit.toNat = .ok ()
  traced : (∃ reply ∈ s.air.replies, Gives (peer ed (setup n)) entry reply) ∨
    ∃ notice ∈ s.air.notices, notice.update.replacementHops = entry.hops
  complete : ∀ reply ∈ s.air.replies, Gives (peer ed (setup n)) entry reply →
    reply.answerer ∈ ids entry.hops ∧ ∀ forwarder ∈ reply.asked.trail, forwarder ∈ ids entry.hops

/-- The destination is not on the path of the copy it answers, and the path leaves room for it. A
node that answers with a route it holds is on that path already, and the route brings neither a hop
of the path, nor the originator, nor more hops than the request allows. -/
def Fits (node : Node) (copy : Copy) : Prop :=
  if copy.request.destinationPeerId = node.responder.myPeerId then
    node.responder.myPeerId ∉ copy.request.accumulatedPath ∧
      copy.request.accumulatedPath.length < copy.request.maxHops.toNat
  else
    ∀ entry ∈ node.table.bestRoute copy.request.destinationPeerId,
      node.responder.myPeerId ∈ copy.request.accumulatedPath ∧
      (∀ id ∈ ids entry.hops, id ∉ copy.request.accumulatedPath ∧ id ≠ copy.source) ∧
      copy.request.accumulatedPath.length + entry.hops.length ≤ copy.request.maxHops.toNat

def Handled (c : Setup) (copy : Copy) (sent relayed : Bool) : Prop :=
  sent = true ∨ relayed = true ∧ copy.hopIndex < loweredLimit c copy

instance (c : Setup) (copy : Copy) (sent relayed : Bool) : Decidable (Handled c copy sent relayed) :=
  inferInstanceAs (Decidable (_ ∨ _ ∧ _))

def Sound (s : Network N) : Event N → Prop
  -- a query id is not used again
  | .originate n _ _ _ _ _ =>
    ∀ copy ∈ s.air.requests, copy.source = peer ed (setup n) →
      copy.request.routeQueryId ≠ (s.nodes n).originator.nextQueryId
  | .request n i sent relayed =>
    ∀ copy ∈ s.air.requests[i]?, (Handled (setup n) copy sent relayed → copy.source ≠ peer ed (setup n)) ∧
      (sent = true → Fits (s.nodes n) copy)
  | .response _ _ _ => True
  | .announce _ _ _ _ => True
  -- an update is a route of the node that applies it
  | .update n i _ =>
    ∀ notice ∈ s.air.notices[i]?, (ids notice.update.replacementHops).Nodup ∧
      peer ed (setup n) ∉ ids notice.update.replacementHops ∧
      notice.update.replacementHops.length ≤ (setup n).hopLimit.toNat

theorem idsPath (path : List PeerId) : ids (pathHops path) = path := by
  rw [ids, pathHops, List.map_map]
  exact List.map_id path

structure Flows (copy : Copy) : Prop where
  distinct : copy.request.accumulatedPath.Nodup
  away : copy.source ∉ copy.request.accumulatedPath
  listed : ∀ forwarder ∈ copy.trail, forwarder ∈ copy.request.accumulatedPath
  short : copy.request.accumulatedPath.length ≤ copy.hopIndex.toNat
  bounded : copy.hopLimit.toNat ≤ copy.request.maxHops.toNat

def Akin (a b : Copy) : Prop := a.source = b.source ∧ a.request.routeQueryId = b.request.routeQueryId

def Alike (a b : Copy) : Prop :=
  a.request.destinationPeerId = b.request.destinationPeerId ∧ a.request.maxHops = b.request.maxHops

structure Whole (reply : Reply) : Prop where
  query : reply.response.routeQueryId = reply.asked.request.routeQueryId
  ends : (ids reply.response.hops).getLast? = some reply.asked.request.destinationPeerId
  distinct : (ids reply.response.hops).Nodup
  away : reply.asked.source ∉ ids reply.response.hops
  short : reply.response.hops.length ≤ reply.asked.request.maxHops.toNat
  answered : reply.answerer ∈ ids reply.response.hops
  listed : ∀ forwarder ∈ reply.asked.trail, forwarder ∈ ids reply.response.hops

structure Coherent (air : Air) : Prop where
  flows : ∀ copy ∈ air.requests, Flows copy
  agree : ∀ a ∈ air.requests, ∀ b ∈ air.requests, Akin a b → Alike a b
  whole : ∀ reply ∈ air.replies, reply.asked ∈ air.requests ∧ Whole reply

section
variable {ed} {copy out : Copy} {c : Setup} {air : Air}

theorem forwardedAkin (sent : forwarded ed c copy = some out) : Akin copy out ∧ Alike copy out := by
  obtain ⟨query,destination,maxHops⟩ := accumulateKeeps copy.request (peer ed c)
  unfold forwarded at sent
  split at sent
  · cases sent
  · cases sent
    exact ⟨⟨rfl,query.symm⟩,destination.symm,maxHops.symm⟩

theorem forwardedFlows (flows : Flows copy) (other : copy.hopIndex < loweredLimit c copy → copy.source ≠ peer ed c)
    (sent : forwarded ed c copy = some out) : Flows out := by
  unfold forwarded at sent
  have lower : (loweredLimit c copy).toNat ≤ copy.hopLimit.toNat := by
    unfold loweredLimit
    split
    · rename_i less
      exact Nat.le_of_lt (UInt8.lt_iff_toNat_lt.mp less)
    · exact Nat.le_refl _
  split at sent
  · cases sent
  · rename_i below
    have other := other (UInt8.not_le.mp below)
    have below : copy.hopIndex.toNat < (loweredLimit c copy).toNat :=
      Nat.not_le.mp (fun le => below (UInt8.le_iff_toNat_le.mpr le))
    have next : (copy.hopIndex + 1).toNat = copy.hopIndex.toNat + 1 := by
      have small := (loweredLimit c copy).toNat_lt
      rw [UInt8.toNat_add]
      exact Nat.mod_eq_of_lt (by simp only [UInt8.toNat_ofNat]; omega)
    have short := flows.short
    have bounded := flows.bounded
    have room : copy.request.accumulatedPath.length < copy.request.maxHops.toNat := by omega
    obtain ⟨-,-,maxHops⟩ := accumulateKeeps copy.request (peer ed c)
    cases sent
    obtain ⟨same,member⟩ | ⟨grown,fresh⟩ := accumulateCases copy.request (peer ed c) room
    · refine ⟨?_,?_,?_,?_,?_⟩ <;> simp only [same]
      · exact flows.distinct
      · exact flows.away
      · intro forwarder passed
        rcases List.mem_append.mp passed with before | last
        · exact flows.listed forwarder before
        · rw [List.mem_singleton.mp last]
          exact member
      · omega
      · omega
    · refine ⟨?_,?_,?_,?_,?_⟩ <;> simp only [grown]
      · exact List.nodup_append.mpr ⟨flows.distinct,List.nodup_singleton _,fun a old b new same =>
          fresh (by rw [← List.mem_singleton.mp new, ← same]; exact old)⟩
      · simp only [List.mem_append, List.mem_singleton, not_or]
        exact ⟨flows.away,other⟩
      · intro forwarder passed
        rcases List.mem_append.mp passed with before | last
        · exact List.mem_append_left _ (flows.listed forwarder before)
        · exact List.mem_append_right _ last
      · rw [List.length_append, List.length_singleton]
        omega
      · omega

theorem coherentRequest (coherent : Coherent air) (flows : Flows out)
    (alike : ∀ copy ∈ air.requests, Akin copy out → Alike copy out) :
    Coherent { air with requests := air.requests ++ [out] } := by
  refine ⟨?_,?_,fun reply member => ?_⟩
  · intro copy member
    rcases List.mem_append.mp member with old | new
    · exact coherent.flows copy old
    · rw [List.mem_singleton.mp new]
      exact flows
  · intro a left b right akin
    rcases List.mem_append.mp left with oldA | newA <;> rcases List.mem_append.mp right with oldB | newB
    · exact coherent.agree a oldA b oldB akin
    · rw [List.mem_singleton.mp newB] at akin ⊢
      exact alike a oldA akin
    · rw [List.mem_singleton.mp newA] at akin ⊢
      obtain ⟨destination,maxHops⟩ := alike b oldB ⟨akin.1.symm,akin.2.symm⟩
      exact ⟨destination.symm,maxHops.symm⟩
    · rw [List.mem_singleton.mp newA, List.mem_singleton.mp newB]
      exact ⟨rfl,rfl⟩
  · obtain ⟨asked,whole⟩ := coherent.whole reply member
    exact ⟨List.mem_append_left _ asked,whole⟩

theorem coherentForwarded (coherent : Coherent air) (member : copy ∈ air.requests)
    (other : copy.hopIndex < loweredLimit c copy → copy.source ≠ peer ed c) :
    Coherent { air with requests := air.requests ++ (forwarded ed c copy).toList } := by
  cases sent : forwarded ed c copy with
  | none => simpa using coherent
  | some out =>
    obtain ⟨akin,alike⟩ := forwardedAkin sent
    refine coherentRequest coherent (forwardedFlows (coherent.flows copy member) other sent) ?_
    intro old known again
    obtain ⟨destination,maxHops⟩ :=
      coherent.agree old known copy member ⟨again.1.trans akin.1.symm,again.2.trans akin.2.symm⟩
    exact ⟨destination.trans alike.1,maxHops.trans alike.2⟩

theorem coherentReply {reply : Reply} (coherent : Coherent air) (asked : reply.asked ∈ air.requests) (whole : Whole reply) :
    Coherent { air with replies := air.replies ++ [reply] } := by
  refine ⟨coherent.flows,coherent.agree,fun r member => ?_⟩
  rcases List.mem_append.mp member with old | new
  · exact coherent.whole r old
  · rw [List.mem_singleton.mp new]
    exact ⟨asked,whole⟩

theorem joinedWhole {answerer : PeerId} {response : RouteDiscoveryResponse} (tail : List PeerId) (flows : Flows copy)
    (query : response.routeQueryId = copy.request.routeQueryId)
    (along : ids response.hops = copy.request.accumulatedPath ++ tail)
    (ends : tail.getLast? = some copy.request.destinationPeerId) (distinct : tail.Nodup)
    (apart : ∀ id ∈ tail, id ∉ copy.request.accumulatedPath ∧ id ≠ copy.source)
    (answered : answerer ∈ copy.request.accumulatedPath ++ tail)
    (room : copy.request.accumulatedPath.length + tail.length ≤ copy.request.maxHops.toNat) :
    Whole ⟨copy,answerer,response⟩ := by
  have length := congrArg List.length along
  simp only [ids, List.length_map, List.length_append] at length
  refine ⟨query,?_,?_,?_,?_,?_,?_⟩ <;> simp only [along]
  · rw [List.getLast?_append, ends]
    rfl
  · exact List.nodup_append.mpr ⟨flows.distinct,distinct,fun a old b new same => (apart b new).1 (same ▸ old)⟩
  · simp only [List.mem_append, not_or]
    exact ⟨flows.away,fun here => (apart _ here).2 rfl⟩
  · omega
  · exact answered
  · exact fun forwarder passed => List.mem_append_left _ (flows.listed forwarder passed)

end

def Air.Within (a b : Air) : Prop := a.requests ⊆ b.requests ∧ a.replies ⊆ b.replies ∧ a.notices ⊆ b.notices

structure Stored (air : Air) (home : PeerId) (hopLimit : UInt8) (destination : PeerId) (entry : RouteEntry) : Prop where
  ends : (ids entry.hops).getLast? = some destination
  distinct : (ids entry.hops).Nodup
  away : home ∉ ids entry.hops
  short : entry.hops.length ≤ hopLimit.toNat
  traced : (∃ reply ∈ air.replies, Gives home entry reply) ∨
    ∃ notice ∈ air.notices, notice.update.replacementHops = entry.hops

structure Settled (air : Air) (c : Setup) (node : Node) : Prop where
  own : node.originator.myPeerId = peer ed c ∧ node.responder.myPeerId = peer ed c
  pending : ∀ q p, node.originator.pending.lookup q = some p → ∃ copy ∈ air.requests, copy.source = peer ed c ∧
    copy.request.routeQueryId = q ∧ copy.request.destinationPeerId = p.destinationPeerId ∧
    copy.request.maxHops = c.hopLimit
  stored : ∀ destination entry, node.table.bestRoute destination = some entry →
    Stored air (peer ed c) c.hopLimit destination entry

section
variable {ed} {a b : Air} {self : PeerId} {limit : UInt8} {destination : PeerId} {entry held : RouteEntry} {c : Setup}
  {node : Node}

theorem Stored.within (stored : Stored a self limit destination entry) (grows : a.Within b) :
    Stored b self limit destination entry := by
  refine ⟨stored.ends,stored.distinct,stored.away,stored.short,?_⟩
  rcases stored.traced with ⟨reply,member,gives⟩ | ⟨notice,member,same⟩
  · exact .inl ⟨reply,grows.2.1 member,gives⟩
  · exact .inr ⟨notice,grows.2.2 member,same⟩

theorem Stored.same (stored : Stored a self limit destination held) (same : SameRoute entry held) :
    Stored a self limit destination entry := by
  obtain ⟨hops,routeId⟩ := same
  obtain ⟨ends,distinct,away,short,traced⟩ := stored
  rw [← hops] at ends distinct away short
  refine ⟨ends,distinct,away,short,?_⟩
  rcases traced with ⟨reply,member,source,along,named⟩ | ⟨notice,member,along⟩
  · exact .inl ⟨reply,member,source,along.trans hops.symm,named.trans routeId.symm⟩
  · exact .inr ⟨notice,member,along.trans hops.symm⟩

theorem Settled.within (settled : Settled ed a c node) (grows : a.Within b) : Settled ed b c node := by
  refine ⟨settled.own,fun q p waiting => ?_,fun destination entry held => (settled.stored destination entry held).within grows⟩
  obtain ⟨copy,member,rest⟩ := settled.pending q p waiting
  exact ⟨copy,grows.1 member,rest⟩

theorem answeredWhole {copy : Copy} {response : RouteDiscoveryResponse} (settled : Settled ed a c node) (flows : Flows copy)
    (other : copy.source ≠ peer ed c) (fits : Fits node copy)
    (answered : (node.responder.answer ed copy.request node.table).1 = some response) :
    Whole ⟨copy,node.responder.myPeerId,response⟩ := by
  obtain ⟨query,⟨here,hops⟩ | ⟨elsewhere,entry,held,hops⟩⟩ :=
    answerCases answered
  · rw [Fits, if_pos here] at fits
    refine joinedWhole [node.responder.myPeerId] flows query ?_ (by simp [here]) (by simp) ?_ (by simp) fits.2
    · rw [hops, direct, ids, List.map_append]
      exact congrArg (fun path => path ++ [node.responder.myPeerId]) (idsPath _)
    · intro id last
      rw [List.mem_singleton.mp last]
      exact ⟨fits.1,fun same => other (same.symm.trans settled.own.2)⟩
  · rw [Fits, if_neg elsewhere] at fits
    obtain ⟨listed,apart,room⟩ := fits entry held
    have stored := settled.stored _ entry held
    refine joinedWhole (ids entry.hops) flows query ?_ stored.ends stored.distinct apart
      (List.mem_append_left _ listed) (by simpa [ids] using room)
    rw [hops, ids, List.map_append]
    exact congrArg (fun path => path ++ ids entry.hops) (idsPath _)

end

structure Lawful (s : Network N) : Prop where
  coherent : Coherent s.air
  settled : ∀ n, Settled ed s.air (setup n) (s.nodes n)

section
variable {ed setup} {s : Network N}

omit [DecidableEq N] in
theorem startLawful : Lawful ed setup (start ed setup) := by
  refine ⟨⟨by simp [start],by simp [start],by simp [start]⟩,fun n => ⟨⟨rfl,rfl⟩,?_,?_⟩⟩
  · intro q p waiting
    simp [start, Node.new, RouteOriginator.new] at waiting
  · intro destination entry held
    simp [start, Node.new, RouteTable.new, RouteTable.bestRoute] at held

theorem lawfulNode {air : Air} {n : N} {node : Node} (lawful : Lawful ed setup s) (coherent : Coherent air)
    (grows : s.air.Within air) (settled : Settled ed air (setup n) node) :
    Lawful ed setup ⟨Function.update s.nodes n node,air⟩ := by
  refine ⟨coherent,?_⟩
  exact (Function.forall_update_iff s.nodes fun m node => Settled ed air (setup m) node).mpr
    ⟨settled,fun m _ => (lawful.settled m).within grows⟩

theorem Air.Within.refl (air : Air) : air.Within air := ⟨fun _ => id,fun _ => id,fun _ => id⟩

theorem originatesLawful (lawful : Lawful ed setup s) (n : N) (destination : PeerId) (mask : UInt32) (flags : UInt16)
    (nonce : Nonce) (now : UInt64) (fresh : Sound ed setup s (.originate n destination mask flags nonce now)) :
    Lawful ed setup (originates setup s n destination mask flags nonce now) := by
  have settled := lawful.settled n
  have does := originateCases (s.nodes n).originator destination (setup n).hopLimit mask flags nonce now
  unfold originates
  dsimp only at does ⊢
  generalize (s.nodes n).originator.originate destination (setup n).hopLimit mask flags nonce now = out at does ⊢
  obtain ⟨result,next⟩ := out
  obtain ⟨same,⟨⟨err,rfl⟩,fewer⟩ | ⟨envelope,rfl,source,index,limit,waiting⟩⟩ := does
  · refine lawfulNode lawful lawful.coherent (.refl s.air) ⟨⟨same.trans settled.own.1,settled.own.2⟩,?_,settled.stored⟩
    exact fun q p left => settled.pending q p (fewer q p left)
  · rw [settled.own.1] at source
    have grows : s.air.Within { s.air with requests := s.air.requests ++ [⟨envelope.srcPeerId,envelope.hopIndex,envelope.hopLimit,
        ⟨(s.nodes n).originator.nextQueryId,destination,(setup n).hopLimit,mask,flags,[]⟩,[]⟩] } :=
      ⟨fun _ => List.mem_append_left _,fun _ => id,fun _ => id⟩
    refine lawfulNode lawful (coherentRequest lawful.coherent ?_ ?_) grows ⟨⟨same.trans settled.own.1,settled.own.2⟩,?_,?_⟩
    · exact ⟨by simp,by simp,by simp,by simp,by simp [limit]⟩
    · intro copy known akin
      exact absurd akin.2 (fresh copy known (akin.1.trans source))
    · intro q p left
      obtain ⟨rfl,here⟩ | before := waiting q p left
      · exact ⟨_,List.mem_append_right _ (List.mem_singleton.mpr rfl),source,rfl,here.symm,rfl⟩
      · obtain ⟨copy,member,rest⟩ := settled.pending q p before
        exact ⟨copy,List.mem_append_left _ member,rest⟩
    · exact fun destination entry held => (settled.stored destination entry held).within grows

theorem takesUpLawful (lawful : Lawful ed setup s) (n : N) {copy : Copy} (known : copy ∈ s.air.requests) (sent relayed : Bool)
    (other : Handled (setup n) copy sent relayed → copy.source ≠ peer ed (setup n))
    (fits : sent = true → Fits (s.nodes n) copy) :
    Lawful ed setup (takesUp ed setup s n copy sent relayed) := by
  have settled := lawful.settled n
  have same := answerIdentity ed (s.nodes n).responder copy.request (s.nodes n).table
  have kept : Settled ed s.air (setup n)
      { s.nodes n with responder := ((s.nodes n).responder.answer ed copy.request (s.nodes n).table).2 } :=
    ⟨⟨settled.own.1,same.trans settled.own.2⟩,settled.pending,settled.stored⟩
  unfold takesUp
  dsimp only
  split
  · rename_i response answered
    have whole := answeredWhole settled (lawful.coherent.flows copy known) (other (.inl rfl)) (fits rfl) answered
    have grows : s.air.Within { s.air with replies := s.air.replies ++ [⟨copy,(s.nodes n).responder.myPeerId,response⟩] } :=
      ⟨fun _ => id,fun _ => List.mem_append_left _,fun _ => id⟩
    exact lawfulNode lawful (coherentReply lawful.coherent known whole) grows (kept.within grows)
  · split
    · rename_i relays
      have grows : s.air.Within { s.air with requests := s.air.requests ++ (forwarded ed (setup n) copy).toList } :=
        ⟨fun _ => List.mem_append_left _,fun _ => id,fun _ => id⟩
      have apart := fun below => other (.inr ⟨relays,below⟩)
      exact lawfulNode lawful (coherentForwarded lawful.coherent known apart) grows (kept.within grows)
    · exact lawfulNode lawful lawful.coherent (.refl s.air) kept

omit [DecidableEq N] in
theorem replyStored {n : N} {reply : Reply} {p : PendingQuery} {entry : RouteEntry} (lawful : Lawful ed setup s)
    (known : reply ∈ s.air.replies) (mine : reply.asked.source = peer ed (setup n))
    (waiting : (s.nodes n).originator.pending.lookup reply.response.routeQueryId = some p)
    (hops : entry.hops = reply.response.hops) (named : entry.routeId = reply.response.routeId) :
    Stored s.air (peer ed (setup n)) (setup n).hopLimit p.destinationPeerId entry := by
  obtain ⟨asked,whole⟩ := lawful.coherent.whole reply known
  obtain ⟨copy,member,source,query,destination,maxHops⟩ := (lawful.settled n).pending _ p waiting
  obtain ⟨alikeDestination,alikeHops⟩ :=
    lawful.coherent.agree reply.asked asked copy member ⟨mine.trans source.symm,whole.query.symm.trans query.symm⟩
  refine ⟨?_,?_,?_,?_,.inl ⟨reply,known,mine,hops.symm,named.symm⟩⟩ <;> rw [hops]
  · rw [whole.ends, alikeDestination, destination]
  · exact whole.distinct
  · exact mine ▸ whole.away
  · exact Nat.le_trans whole.short (by rw [alikeHops, maxHops])

theorem learnsLawful (lawful : Lawful ed setup s) (n : N) {reply : Reply} (known : reply ∈ s.air.replies) (now : UInt64) :
    Lawful ed setup (learns ed setup s n reply now) := by
  have settled := lawful.settled n
  unfold learns
  dsimp only
  split
  · rename_i mine
    obtain ⟨same,fewer,table⟩ :=
      applyResponseCases ed (s.nodes n).originator reply.response reply.answerer (s.nodes n).table now
    refine lawfulNode lawful lawful.coherent (.refl s.air) ⟨⟨same.trans settled.own.1,settled.own.2⟩,
      fun q p left => settled.pending q p (fewer q p left),fun destination entry held => ?_⟩
    rcases table with unchanged | ⟨p,waiting,recorded⟩
    · exact settled.stored destination entry (by simpa [unchanged] using held)
    · simp only [recorded] at held
      obtain ⟨rfl,taken⟩ | ⟨before,found,taken⟩ := recordOnly held
      · exact replyStored lawful known mine waiting taken.1 taken.2
      · exact (settled.stored destination before found).same taken
  · exact lawful

theorem updatesLawful (lawful : Lawful ed setup s) (n : N) {notice : Notice} (known : notice ∈ s.air.notices) (now : UInt64)
    (distinct : (ids notice.update.replacementHops).Nodup)
    (away : peer ed (setup n) ∉ ids notice.update.replacementHops)
    (short : notice.update.replacementHops.length ≤ (setup n).hopLimit.toNat) :
    Lawful ed setup (updates ed s n notice now) := by
  have settled := lawful.settled n
  refine lawfulNode lawful lawful.coherent (.refl s.air) ⟨settled.own,settled.pending,fun destination entry held => ?_⟩
  rcases applyRouteUpdateCases ed notice.update notice.emitter (s.nodes n).table now with
    unchanged | ⟨last,final,applied⟩
  · exact settled.stored destination entry (by simpa [unchanged] using held)
  · simp only [applied] at held
    obtain ⟨rfl,taken⟩ | ⟨before,found,taken⟩ := applyUpdateOnly held
    · have hops : entry.hops = notice.update.replacementHops := taken.1
      refine ⟨?_,?_,?_,?_,.inr ⟨notice,known,hops.symm⟩⟩ <;> rw [hops]
      · rw [ids, List.getLast?_map, final]
        rfl
      · exact distinct
      · exact away
      · exact short
    · exact (settled.stored destination before found).same taken

omit [DecidableEq N] in
theorem announcesLawful (lawful : Lawful ed setup s) (n : N) (destination : PeerId) (reason : UInt16) (hops : List RouteHop) :
    Lawful ed setup (announces ed setup s n destination reason hops) := by
  unfold announces
  dsimp only
  split
  · exact lawful
  · refine ⟨⟨lawful.coherent.flows,lawful.coherent.agree,lawful.coherent.whole⟩,fun m => ?_⟩
    exact (lawful.settled m).within ⟨fun _ => id,fun _ => id,fun _ => List.mem_append_left _⟩

theorem stepLawful (event : Event N) (lawful : Lawful ed setup s) (sound : Sound ed setup s event) :
    Lawful ed setup (step ed setup s event) := by
  cases event with
  | originate n destination mask flags nonce now =>
    exact originatesLawful lawful n destination mask flags nonce now sound
  | request n i sent relayed =>
    rw [step]
    split
    · rename_i copy found
      obtain ⟨other,fits⟩ := sound copy found
      exact takesUpLawful lawful n (List.mem_of_getElem? found) sent relayed other fits
    · exact lawful
  | response n i now =>
    rw [step]
    split
    · rename_i reply found
      exact learnsLawful lawful n (List.mem_of_getElem? found) now
    · exact lawful
  | announce n destination reason hops => exact announcesLawful lawful n destination reason hops
  | update n i now =>
    rw [step]
    split
    · rename_i notice found
      obtain ⟨distinct,away,short⟩ := sound notice found
      exact updatesLawful lawful n (List.mem_of_getElem? found) now distinct away short
    · exact lawful

omit [DecidableEq N] in
theorem lawfulUsable (lawful : Lawful ed setup s) {n : N} {destination : PeerId} {entry : RouteEntry}
    (held : (s.nodes n).table.bestRoute destination = some entry) : Usable ed setup s n destination entry := by
  have stored := (lawful.settled n).stored destination entry held
  refine ⟨stored.ends,stored.distinct,stored.away,?_,stored.traced,?_⟩
  · rw [validateRouteNoLoopsOk]
    refine ⟨by simp,?_,(List.nodup_cons.mpr ⟨stored.away,stored.distinct⟩).map fun a b => hexPeerIdInj⟩
    simpa [ids] using stored.short
  · rintro reply known ⟨-,hops,-⟩
    obtain ⟨-,whole⟩ := lawful.coherent.whole reply known
    rw [← hops]
    exact ⟨whole.answered,whole.listed⟩

end

theorem routesUsable (events : List (Event N)) (sound : EveryStep (step ed setup) (Sound ed setup) (start ed setup) events) :
    ∀ s ∈ reached (step ed setup) (start ed setup) events, ∀ n destination entry,
      (s.nodes n).table.bestRoute destination = some entry → Usable ed setup s n destination entry := by
  intro s met n destination entry held
  exact lawfulUsable (reachedInvariant (fun s event => stepLawful event) startLawful sound s met) held

instance decidableFits (node : Node) (copy : Copy) : Decidable (Fits node copy) :=
  inferInstanceAs (Decidable (if copy.request.destinationPeerId = node.responder.myPeerId then _ ∧ _
    else ∀ entry ∈ node.table.bestRoute copy.request.destinationPeerId, _ ∧ _ ∧ _))

instance decidableSound (s : Network N) : ∀ event, Decidable (Sound ed setup s event)
  | .originate _ _ _ _ _ _ => inferInstanceAs (Decidable (∀ copy ∈ s.air.requests, _ → _))
  | .request _ i _ _ => inferInstanceAs (Decidable (∀ copy ∈ s.air.requests[i]?, (_ → _) ∧ (_ → _)))
  | .response _ _ _ => isTrue trivial
  | .announce _ _ _ _ => isTrue trivial
  | .update _ i _ => inferInstanceAs (Decidable (∀ notice ∈ s.air.notices[i]?, _ ∧ _ ∧ _))

inductive Place where
  | asker | between | target
  deriving DecidableEq, Repr

def Place.mark : Place → UInt8
  | .asker => 0
  | .between => 1
  | .target => 2

def trio (n : Place) : Setup := ⟨filled 32 n.mark,4,0,60000,8,60000,newestFirst⟩

def idOf (n : Place) : PeerId := peer tagScheme (trio n)

def asks (n : Place) (now : UInt64) : Event Place := .originate n (idOf .target) 0 0 (zeros 12) now

/- The request goes over the node between, and the target answers it. Its originator hears both copies
and lets them be. -/
def overRelay : List (Event Place) :=
  [asks .asker 0,.request .asker 0 false false,.request .between 0 false true,.request .asker 1 false false,
    .request .target 1 true false,.response .asker 0 10]

theorem overRelaySound : EveryStep (step tagScheme trio) (Sound tagScheme trio) (start tagScheme trio) overRelay := by
  decide +kernel

theorem routesUsableOverRelay :
    EveryStep (step tagScheme trio) (Sound tagScheme trio) (start tagScheme trio) overRelay ∧
      ∀ s ∈ reached (step tagScheme trio) (start tagScheme trio) overRelay, ∀ n destination entry,
        (s.nodes n).table.bestRoute destination = some entry → Usable tagScheme trio s n destination entry :=
  ⟨overRelaySound,routesUsable tagScheme trio overRelay overRelaySound⟩

def fromCache : List (Event Place) :=
  [asks .between 0,.request .target 0 true false,.response .between 0 10,
    asks .asker 20,.request .between 1 true false,.response .asker 1 30]

def echo : List (Event Place) :=
  [asks .asker 0,.request .asker 0 false true,.request .target 1 true false,.response .asker 0 10]

def after (events : List (Event Place)) : Network Place := run (step tagScheme trio) (start tagScheme trio) events

def found (events : List (Event Place)) : Option RouteEntry := ((after events).nodes .asker).table.bestRoute (idOf .target)

def skipping : RouteEntry := ⟨idOf .target,0x0101010101010101,[⟨idOf .target,0,0,1000⟩],30⟩
def looping : RouteEntry := ⟨idOf .target,0x0202020202020203,[⟨idOf .asker,1,0,500⟩,⟨idOf .target,0,0,1000⟩],10⟩

instance (self : PeerId) (entry : RouteEntry) (reply : Reply) : Decidable (Gives self entry reply) :=
  inferInstanceAs (Decidable (_ ∧ _ ∧ _))

theorem cacheAndEchoFail :
    after fromCache ∈ reached (step tagScheme trio) (start tagScheme trio) fromCache ∧
      found fromCache = some skipping ∧ ¬ Usable tagScheme trio (after fromCache) .asker (idOf .target) skipping ∧
    after echo ∈ reached (step tagScheme trio) (start tagScheme trio) echo ∧
      found echo = some looping ∧ ¬ Usable tagScheme trio (after echo) .asker (idOf .target) looping := by
  have skipped : ∃ reply ∈ (after fromCache).air.replies,
      Gives (idOf .asker) skipping reply ∧ reply.answerer ∉ ids skipping.hops := by decide +kernel
  have looped : idOf .asker ∈ ids looping.hops := by decide +kernel
  obtain ⟨reply,known,gives,missing⟩ := skipped
  refine ⟨by simp [fromCache, reached, after],by decide +kernel,fun usable => ?_,
    by simp [echo, reached, after],by decide +kernel,fun usable => usable.away looped⟩
  exact missing (usable.complete reply known gives).1

end OpenPulse.RouteNetwork
