import OpenPulse.DiscoveryTick
import OpenPulse.Runs

/-! Answering a rendezvous: what becomes of the Accept between the proposal it answers and
the agreement that follows it. -/
namespace OpenPulse.DiscoveryAccept
open Discovery DiscoverySlots DiscoveryTick Js8 Rendezvous Runs

def acceptOf (rt : DiscoveryRuntime) (from' : List Char) : Option RendezvousMsg → Option (Agreement × List BeaconFrame)
  | some (.accept token channel switchInSlots) =>
    some ((from',channel,switchInSlots),rt.directedFrames from' (.accept token channel switchInSlots))
  | _ => none

def acceptTo (rt : DiscoveryRuntime) (nowMs : UInt64) : Option (List Char × RendezvousMsg) → Option (Agreement × List BeaconFrame)
  | none => none
  | some (from',msg) => (rt.proposalTo from').elim (acceptOf rt from' (rt.reply from' msg nowMs)) fun _ => none

def accepted (rt : DiscoveryRuntime) (nowMs : UInt64) : List Decode → Option (Agreement × List BeaconFrame)
  | [] => none
  | d::decoded => (accepted (rt.hear d nowMs).2 nowMs decoded).or (acceptTo (rt.observe d) nowMs d.message)

def hearing (rt : DiscoveryRuntime) (nowMs : UInt64) (idle : Bool) : Option DiscoveryRuntime :=
  let turn := (rt.entered nowMs idle).slotOpens.2.maybeTransmit
  if rt.atBoundary nowMs idle && turn.1.isNone then some { turn.2 with sm := rt.slotMachine nowMs idle } else none

def tickAccepts (rt : DiscoveryRuntime) (i : Tick) : Option (Agreement × List BeaconFrame) :=
  (hearing rt i.nowMs i.modem.idle).bind fun rt => accepted rt i.nowMs i.decoded

structure Queued (rt rt' : DiscoveryRuntime) (accept : Option (Agreement × List BeaconFrame)) (more : List BeaconFrame) : Prop where
  queue : rt'.rendezvousTx = rt.rendezvousTx ++ more
  kept : accept = none → rt'.pendingResponderAgreement = rt.pendingResponderAgreement
  withheld : ∀ agreement frames, accept = some (agreement,frames) → rt'.pendingResponderAgreement = some agreement ∧ frames <:+: more

theorem answerQueued (rt : DiscoveryRuntime) (from' : List Char) (msg : RendezvousMsg) (nowMs : UInt64) :
    ∃ more, Queued rt (rt.answer from' msg nowMs) (acceptOf rt from' (rt.reply from' msg nowMs)) more := by
  unfold DiscoveryRuntime.answer
  cases rt.reply from' msg nowMs with
  | none => exact ⟨[],by simp,fun _ => rfl,by simp [acceptOf]⟩
  | some reply =>
    refine ⟨rt.directedFrames from' reply,?_⟩
    cases reply with
    | propose token channels => exact ⟨rfl,fun _ => rfl,by simp [acceptOf]⟩
    | reject token reason => exact ⟨rfl,fun _ => rfl,by simp [acceptOf]⟩
    | accept token channel switchInSlots =>
      refine ⟨rfl,by simp [acceptOf],fun agreement frames same => ?_⟩
      cases same
      exact ⟨rfl,List.infix_rfl⟩

theorem handleQueued (rt : DiscoveryRuntime) (from' : List Char) (msg : RendezvousMsg) (nowMs : UInt64) :
    ∃ more, Queued rt (rt.handleRendezvous from' msg nowMs).2 (acceptTo rt nowMs (some (from',msg))) more := by
  unfold DiscoveryRuntime.handleRendezvous acceptTo
  dsimp only
  cases ours : rt.proposalTo from' with
  | none => exact answerQueued rt from' msg nowMs
  | some init =>
    refine ⟨[],?_,?_,by simp⟩
    · dsimp only
      split <;> simp
    · intro
      dsimp only
      split <;> rfl

theorem hearQueued (rt : DiscoveryRuntime) (d : Decode) (nowMs : UInt64) :
    ∃ more, Queued rt (rt.hear d nowMs).2 (acceptTo (rt.observe d) nowMs d.message) more := by
  unfold DiscoveryRuntime.hear DiscoveryRuntime.hearOver
  rcases d.message with _ | ⟨from',msg⟩
  · exact ⟨[],by simp [DiscoveryRuntime.observe],fun _ => rfl,by simp [acceptTo]⟩
  · obtain ⟨more,queue,kept,withheld⟩ := handleQueued (rt.observe d) from' msg nowMs
    exact ⟨more,queue,kept,withheld⟩

theorem decodeQueued (rt : DiscoveryRuntime) (nowMs : UInt64) (decoded : List Decode) :
    ∃ more, Queued rt (rt.decodeSlot nowMs decoded).2 (accepted rt nowMs decoded) more := by
  induction decoded generalizing rt with
  | nil => exact ⟨[],by simp [DiscoveryRuntime.decodeSlot],fun _ => rfl,by simp [accepted]⟩
  | cons d decoded ih =>
    obtain ⟨first,queue,kept,withheld⟩ := hearQueued rt d nowMs
    obtain ⟨rest,queue',kept',withheld'⟩ := ih (rt.hear d nowMs).2
    refine ⟨first ++ rest,?_,fun none' => ?_,fun agreement frames some' => ?_⟩
    · show ((rt.hear d nowMs).2.decodeSlot nowMs decoded).2.rendezvousTx = _
      rw [queue', queue, List.append_assoc]
    · obtain ⟨later,now⟩ := Option.or_eq_none_iff.mp none'
      exact (kept' later).trans (kept now)
    · rcases later : accepted (rt.hear d nowMs).2 nowMs decoded with _ | ⟨agreement',frames'⟩
      · have now : acceptTo (rt.observe d) nowMs d.message = some (agreement,frames) := by simpa [accepted, later] using some'
        obtain ⟨pending,within⟩ := withheld agreement frames now
        exact ⟨(kept' later).trans pending,within.trans (List.infix_append' [] first rest)⟩
      · have same : (agreement',frames') = (agreement,frames) := by simpa [accepted, later] using some'
        cases same
        obtain ⟨pending,within⟩ := withheld' agreement frames later
        exact ⟨pending,within.trans (List.suffix_append first rest).isInfix⟩

theorem opensEmpty {rt : DiscoveryRuntime} (empty : rt.rendezvousTx = []) :
    rt.slotOpens.2.pendingResponderAgreement = none ∧ rt.slotOpens.2.rendezvousTx = [] := by
  have surfaced : rt.surface.2.pendingResponderAgreement = none ∧ rt.surface.2.rendezvousTx = [] := by
    unfold DiscoveryRuntime.surface
    split
    · rename_i nothing
      exact ⟨nothing,empty⟩
    · exact ⟨rfl,empty⟩
  have aged : ∀ rt : DiscoveryRuntime, rt.age.2.pendingResponderAgreement = rt.pendingResponderAgreement ∧
      rt.age.2.rendezvousTx = rt.rendezvousTx := by
    intro rt
    unfold DiscoveryRuntime.age
    split
    · exact ⟨rfl,rfl⟩
    · split <;> exact ⟨rfl,rfl⟩
  have opens : rt.slotOpens.2 = rt.surface.2.age.2 := by simp [DiscoveryRuntime.slotOpens, empty]
  rw [opens, (aged _).1, (aged _).2]
  exact surfaced

theorem opensHeld {rt : DiscoveryRuntime} (held : rt.rendezvousTx ≠ []) : rt.slotOpens.2 = rt := by
  simp [DiscoveryRuntime.slotOpens, held]

theorem transmitEmpty {rt : DiscoveryRuntime} (empty : rt.rendezvousTx = []) :
    rt.maybeTransmit.2.pendingResponderAgreement = rt.pendingResponderAgreement ∧ rt.maybeTransmit.2.rendezvousTx = [] := by
  unfold DiscoveryRuntime.maybeTransmit
  split
  · simp only [empty]
    unfold DiscoveryRuntime.beacon
    split
    · split <;> exact ⟨rfl,empty⟩
    · exact ⟨rfl,empty⟩
  · exact ⟨rfl,empty⟩

theorem transmitHeld {rt : DiscoveryRuntime} {frame : BeaconFrame} {rest : List BeaconFrame} (held : rt.rendezvousTx = frame::rest) :
    rt.maybeTransmit = if rt.mayTransmit then (some frame,{ rt with rendezvousTx := rest }) else (none,rt) := by
  simp only [DiscoveryRuntime.maybeTransmit, held]

theorem turnHeld {rt next : DiscoveryRuntime} {nowMs : UInt64} {idle : Bool} {sent : Option BeaconFrame}
    (turn : (rt.entered nowMs idle).slotOpens.2.maybeTransmit = (sent,next)) {agreement : Agreement}
    (pending : next.pendingResponderAgreement = some agreement) :
    rt.pendingResponderAgreement = some agreement ∧ rt.rendezvousTx = sent.toList ++ next.rendezvousTx ∧
      rt.rendezvousTx ≠ [] ∧ (sent.isSome = true → rt.mayTransmit = true) := by
  have queue : (rt.entered nowMs idle).rendezvousTx = rt.rendezvousTx := rfl
  have may : (rt.entered nowMs idle).mayTransmit = rt.mayTransmit := rfl
  rcases tx : rt.rendezvousTx with _ | ⟨frame,rest⟩
  · obtain ⟨opens,empty⟩ := opensEmpty (queue.trans tx)
    have kept := (transmitEmpty empty).1
    rw [turn] at kept
    rw [show next.pendingResponderAgreement = none from kept.trans opens] at pending
    cases pending
  · rw [opensHeld (by rw [queue, tx]; simp), transmitHeld (queue.trans tx), may] at turn
    cases allowed : rt.mayTransmit with
    | true =>
      rw [allowed, if_pos rfl] at turn
      cases turn
      exact ⟨pending,rfl,by simp,fun _ => rfl⟩
    | false =>
      rw [allowed, if_neg (by simp)] at turn
      cases turn
      exact ⟨pending,tx.symm,by simp,by simp⟩

theorem slotPending {rt rt' : DiscoveryRuntime} {i : Tick} {sent : Option (BeaconFrame × String)} (slot : Station.Slot rt i sent rt')
    (clear : rt.pendingResponderAgreement.isSome = true → rt.sendsOver i.nowMs i.modem.idle = true → i.busy = false)
    {agreement : Agreement} (pending : rt'.pendingResponderAgreement = some agreement) :
    (∃ frames, tickAccepts rt i = some (agreement,frames) ∧ frames <:+: rt'.rendezvousTx) ∨
      tickAccepts rt i = none ∧ rt.pendingResponderAgreement = some agreement ∧
        ∃ more, (sent.map (·.1)).toList ++ rt'.rendezvousTx = rt.rendezvousTx ++ more := by
  cases slot with
  | waits within =>
    refine .inr ⟨?_,pending,[],by simp⟩
    simp [tickAccepts, hearing, within]
  | @sends frame next mode boundary turn =>
    obtain ⟨before,queue,some',may⟩ := turnHeld turn pending
    have unheard : tickAccepts rt i = none := by simp [tickAccepts, hearing, turn]
    have quiet : i.busy = false := by
      refine clear (by rw [before]; rfl) ?_
      simp [DiscoveryRuntime.sendsOver, boundary, some', may rfl]
    refine .inr ⟨unheard,before,[],?_⟩
    rw [quiet, queue]
    simp
  | @hears next boundary turn =>
    have heard : tickAccepts rt i =
        accepted { next with sm := rt.slotMachine i.nowMs i.modem.idle } i.nowMs i.decoded := by
      simp [tickAccepts, hearing, boundary, turn]
    obtain ⟨more,queue,kept,withheld⟩ :=
      decodeQueued { next with sm := rt.slotMachine i.nowMs i.modem.idle } i.nowMs i.decoded
    rw [heard]
    rcases accept : accepted { next with sm := rt.slotMachine i.nowMs i.modem.idle } i.nowMs i.decoded with _ | ⟨agreement',frames⟩
    · obtain ⟨before,held,-⟩ := turnHeld turn ((kept accept).symm.trans pending)
      refine .inr ⟨rfl,before,more,?_⟩
      rw [queue, held]
      rfl
    · obtain ⟨latest,within⟩ := withheld agreement' frames accept
      cases latest.symm.trans pending
      refine .inl ⟨frames,rfl,?_⟩
      rw [queue]
      exact within.trans (List.suffix_append _ more).isInfix

inductive Event where
  | tick (i : Tick)
  | command (c : Command)
  deriving DecidableEq

structure Accept where
  agreement : Agreement
  frames : List BeaconFrame
  behind : Nat
  dwell : Nat
  dialFreqHz : UInt64
  deriving DecidableEq

/- The dwells are counted, and every frame that is handed to the transmitter is kept with
the dwell it was handed over in. -/
structure Watched where
  station : Station
  dwell : Nat
  handed : List (Nat × BeaconFrame)
  accept : Option Accept
  deriving DecidableEq

def begin (s : Station) : Watched := ⟨s,0,[],none⟩

def handedIn (dwell : Nat) (handed : List (Nat × BeaconFrame)) : List BeaconFrame :=
  (handed.filter fun h => h.1 == dwell).map (·.2)

def stationAccepts (s : Station) (i : Tick) : Option (Agreement × List BeaconFrame) :=
  if (s.rs.dueNow i.nowMs).isSome then none else tickAccepts s.rs.tuned i

def step (w : Watched) : Event → Watched
  | .tick i =>
    let out := w.station.discoveryTick i
    { station := out.2,
      dwell := if w.station.setsOut i then w.dwell + 1 else w.dwell,
      handed := w.handed ++ (out.1.map fun sent => (w.dwell,sent.1)).toList,
      accept := ((stationAccepts w.station i).map fun accept =>
        ⟨accept.1,accept.2,w.handed.length,w.dwell,w.station.rs.discovery.dialFreqHz⟩).or w.accept }
  | .command c => { w with station := w.station.command c }

def surfaces (rt : DiscoveryRuntime) (i : Tick) : Option Agreement :=
  if rt.atBoundary i.nowMs i.modem.idle && rt.rendezvousTx.isEmpty then rt.pendingResponderAgreement else none

def channelAt (rs : RuntimeControlState) (dialFreqHz : UInt64) (channel : UInt8) : Option UInt64 :=
  (rs.channelsAt dialFreqHz).bind fun channels => channels[channel.toNat]?

def schedules (s : Station) (i : Tick) : Option (Agreement × UInt64) :=
  if (s.rs.dueNow i.nowMs).isSome then none
  else
    (surfaces s.rs.tuned i).bind fun agreement =>
      (channelAt s.rs s.rs.discovery.dialFreqHz agreement.2.1).map fun freqHz => (agreement,freqHz)

theorem surfacedFirst {rt : DiscoveryRuntime} {i : Tick} {agreement : Agreement} (surfaced : surfaces rt i = some agreement) :
    ∃ rest, (rt.tick i.nowMs i.modem.idle i.decoded).1 =
      .rendezvousAgreed agreement.1 agreement.2.1 agreement.2.2 :: rest := by
  unfold surfaces at surfaced
  split at surfaced
  · rename_i opens
    rw [Bool.and_eq_true] at opens
    obtain ⟨boundary,empty⟩ := opens
    have there := Station.slotState boundary
    have within : rt.crosses i.nowMs = true := by
      simp only [DiscoveryRuntime.atBoundary, Bool.and_eq_true] at boundary
      exact boundary.2
    have first : (rt.entered i.nowMs i.modem.idle).slotOpens.1 = .rendezvousAgreed agreement.1 agreement.2.1 agreement.2.2 ::
        (rt.entered i.nowMs i.modem.idle).surface.2.age.1 := by
      have queue : (rt.entered i.nowMs i.modem.idle).rendezvousTx.isEmpty = true := empty
      have withheld : (rt.entered i.nowMs i.modem.idle).pendingResponderAgreement = some agreement := surfaced
      rw [DiscoveryRuntime.slotOpens, if_pos queue]
      simp [DiscoveryRuntime.surface, withheld]
    have went := DiscoveryRuntime.tickWent rt i.nowMs i.modem.idle i.decoded
    generalize (rt.tick i.nowMs i.modem.idle i.decoded).1 = out at went ⊢
    generalize (rt.tick i.nowMs i.modem.idle i.decoded).2 = next at went
    cases went with
    | rests away still => exact absurd (still.symm.trans there) away
    | leaves home state => exact absurd (state.symm.trans there) (by decide)
    | returns dwelling late state => exact absurd (state.symm.trans there) (by decide)
    | waits dwelling state quiet =>
      rw [quiet] at within
      cases within
    | sends | hears | lastSlot =>
      simp only [first, List.cons_append]
      exact ⟨_,rfl⟩
  · cases surfaced

theorem scheduledByTick {s : Station} {i : Tick} {agreement : Agreement} {freqHz : UInt64}
    (scheduled : schedules s i = some (agreement,freqHz)) :
    ∃ rest, (s.runtimeTick i).1 = .rendezvousAgreed agreement.1 agreement.2.1 agreement.2.2 :: rest ∧
      ∀ out, (Station.perform i s.rs.dwellChannels out
          (.rendezvousAgreed agreement.1 agreement.2.1 agreement.2.2)).2.rs.rendezvousQsyDue =
        some (agreement.1,freqHz,i.nowMs + agreement.2.2.toUInt64 * js8NormalSlotMs) := by
  unfold schedules at scheduled
  split at scheduled
  · cases scheduled
  · obtain ⟨agreement',surfaced,channel⟩ := Option.bind_eq_some_iff.mp scheduled
    obtain ⟨freqHz',channel,same⟩ := Option.map_eq_some_iff.mp channel
    cases same
    obtain ⟨rest,first⟩ := surfacedFirst surfaced
    refine ⟨rest,first,fun out => ?_⟩
    have found : s.rs.dwellChannels.bind (fun channels => channels[agreement.2.1.toNat]?) = some freqHz := channel
    simp only [Station.perform, Station.agree, found]
    rfl

structure Sent (w : Watched) (agreement : Agreement) (freqHz : UInt64) (accept : Accept) : Prop where
  latest : w.accept = some accept
  agreed : accept.agreement = agreement
  dwell : accept.dwell = w.dwell
  handed : accept.frames <:+: handedIn accept.dwell (w.handed.drop accept.behind)
  channel : channelAt w.station.rs accept.dialFreqHz agreement.2.1 = some freqHz

def AcceptSent (w : Watched) : Event → Prop
  | .tick i => ∀ agreement freqHz, schedules w.station i = some (agreement,freqHz) → ∃ accept, Sent w agreement freqHz accept
  | .command _ => True

/- While an agreement is withheld, an over goes out on a clear channel, and no new dwell begins. -/
def Undropped (w : Watched) : Event → Prop
  | .tick i => w.station.rs.discovery.pendingResponderAgreement.isSome = true →
      (w.station.sendsOver i = true → i.busy = false) ∧ w.station.setsOut i = false
  | .command _ => True

structure Held (w : Watched) (agreement : Agreement) (accept : Accept) : Prop where
  latest : w.accept = some accept
  agreed : accept.agreement = agreement
  behind : accept.behind ≤ w.handed.length
  frames : accept.frames <:+: handedIn accept.dwell (w.handed.drop accept.behind) ++ w.station.rs.discovery.rendezvousTx
  dwell : w.station.state = .dwelling → accept.dwell = w.dwell ∧ accept.dialFreqHz = w.station.rs.discovery.dialFreqHz

structure Inv (w : Watched) : Prop where
  settled : w.station.state ≠ .activating
  held : ∀ agreement, w.station.rs.discovery.pendingResponderAgreement = some agreement → ∃ accept, Held w agreement accept

theorem handedInAppend (dwell : Nat) (xs ys : List (Nat × BeaconFrame)) :
    handedIn dwell (xs ++ ys) = handedIn dwell xs ++ handedIn dwell ys := by
  simp [handedIn]

theorem handedInNow (dwell : Nat) (sent : Option (BeaconFrame × String)) :
    handedIn dwell (sent.map fun sent => (dwell,sent.1)).toList = (sent.map (·.1)).toList := by
  cases sent <;> simp [handedIn]

theorem handedMore {n : Nat} {handed : List (Nat × BeaconFrame)} (behind : n ≤ handed.length) (more : List (Nat × BeaconFrame)) :
    n ≤ (handed ++ more).length := Nat.le_trans behind (List.prefix_append handed more).length_le

theorem tunedQueue (rs : RuntimeControlState) : rs.tuned.rendezvousTx = rs.discovery.rendezvousTx ∧
    rs.tuned.pendingResponderAgreement = rs.discovery.pendingResponderAgreement := by
  unfold RuntimeControlState.tuned
  cases rs.perBandChannels <;> cases rs.perBandFreq <;> exact ⟨rfl,rfl⟩

theorem heldSlot {w : Watched} {i : Tick} {sent : Option (BeaconFrame × String)} {rt : DiscoveryRuntime} (inv : Inv w)
    (undropped : Undropped w (.tick i)) (free : w.station.rs.dueNow i.nowMs = none) (dwelling : w.station.state = .dwelling)
    (slot : Station.Slot w.station.rs.discovery i sent rt) {agreement : Agreement}
    (pending : rt.pendingResponderAgreement = some agreement) :
    ∃ accept, ((stationAccepts w.station i).map fun accept =>
          (⟨accept.1,accept.2,w.handed.length,w.dwell,w.station.rs.discovery.dialFreqHz⟩ : Accept)).or w.accept = some accept ∧
      accept.agreement = agreement ∧ accept.behind ≤ w.handed.length ∧
      accept.frames <:+: handedIn accept.dwell ((w.handed ++ (sent.map fun sent => (w.dwell,sent.1)).toList).drop accept.behind) ++
        rt.rendezvousTx ∧
      accept.dwell = w.dwell ∧ accept.dialFreqHz = w.station.rs.discovery.dialFreqHz := by
  have same : w.station.rs.tuned = w.station.rs.discovery := Station.tunedAway fun home => by
    rw [show w.station.rs.discovery.state = .dwelling from dwelling] at home
    cases home
  have accepts : stationAccepts w.station i = tickAccepts w.station.rs.discovery i := by simp [stationAccepts, free, same]
  have clear : w.station.rs.discovery.pendingResponderAgreement.isSome = true →
      w.station.rs.discovery.sendsOver i.nowMs i.modem.idle = true → i.busy = false := by
    intro withheld sends
    exact (undropped withheld).1 (by simp [Station.sendsOver, free, same, sends])
  rw [accepts]
  rcases slotPending slot clear pending with ⟨frames,accepted,within⟩ | ⟨quiet,before,more,queue⟩
  · exact ⟨_,by rw [accepted]; rfl,rfl,Nat.le_refl _,within.trans (List.suffix_append _ _).isInfix,rfl,rfl⟩
  · obtain ⟨accept,latest,agreed,behind,frames,dwell⟩ := inv.held agreement before
    obtain ⟨now,dial⟩ := dwell dwelling
    refine ⟨accept,by rw [quiet]; exact latest,agreed,behind,?_,now,dial⟩
    rw [List.drop_append_of_le_length behind, handedInAppend, now, handedInNow, List.append_assoc, queue,
      ← List.append_assoc, ← now]
    exact frames.trans (List.prefix_append _ more).isInfix

theorem heldElsewhere {w : Watched} {s : Station} {dwell : Nat} (inv : Inv w) (settled : s.state ≠ .activating)
    (away : s.state ≠ .dwelling) (pending : s.rs.discovery.pendingResponderAgreement = w.station.rs.discovery.pendingResponderAgreement)
    (queue : s.rs.discovery.rendezvousTx = w.station.rs.discovery.rendezvousTx) : Inv ⟨s,dwell,w.handed,w.accept⟩ := by
  refine ⟨settled,fun agreement withheld => ?_⟩
  obtain ⟨accept,latest,agreed,behind,frames,-⟩ := inv.held agreement (pending.symm.trans withheld)
  exact ⟨accept,latest,agreed,behind,by rw [queue]; exact frames,fun dwelling => absurd dwelling away⟩

theorem idleQueue (rt : DiscoveryRuntime) (c : Call) : (rt.feed 0 [] c).2.rendezvousTx = rt.rendezvousTx ∧
    (rt.feed 0 [] c).2.pendingResponderAgreement = rt.pendingResponderAgreement := by
  rw [DiscoveryRuntime.feedIdle]
  exact ⟨rfl,rfl⟩

theorem restoreDiscovery (s : Station) (catOk : Bool) : (s.restoreHome catOk).rs.discovery = s.rs.discovery := by
  unfold Station.restoreHome
  split <;> rfl

theorem staysDwelling {s : Station} (dwelling : s.state = .dwelling) (i : Tick) : s.setsOut i = false := by
  have place : s.rs.tuned.state = .dwelling := (congrArg DiscoverySm.state (Station.tunedMachine s.rs)).trans dwelling
  simp [Station.setsOut, DiscoveryRuntime.setsOut, place]

theorem invTick {w : Watched} {i : Tick} (inv : Inv w) (undropped : Undropped w (.tick i)) : Inv (step w (.tick i)) := by
  have passed := Station.tickPasses w.station i
  simp only [step]
  generalize w.station.discoveryTick i = out at passed ⊢
  cases passed with
  | handsOff due =>
    have none' : stationAccepts w.station i = none := by simp [stationAccepts, due]
    have home : w.station.rs.discovery.preempt.2.state = .inactive := DiscoveryRuntime.preemptState _
    rw [none']
    simp only [Option.map_none, Option.toList_none, List.append_nil, Option.none_or]
    refine heldElsewhere inv ?_ ?_ (idleQueue w.station.rs.discovery _).2 (idleQueue w.station.rs.discovery _).1
    · exact fun activating => absurd (home.symm.trans activating) (by decide)
    · exact fun dwelling => absurd (home.symm.trans dwelling) (by decide)
  | rests free away still =>
    have none' : stationAccepts w.station i = none := by
      have within : w.station.rs.tuned.atBoundary i.nowMs i.modem.idle = false := by
        simp [DiscoveryRuntime.atBoundary, still, away]
      simp [stationAccepts, free, tickAccepts, hearing, within]
    rw [none']
    simp only [Option.map_none, Option.toList_none, List.append_nil, Option.none_or]
    refine heldElsewhere inv ?_ ?_ (tunedQueue _).2 (tunedQueue _).1
    · exact fun activating => inv.settled (still.symm.trans activating)
    · exact fun dwelling => away (still.symm.trans dwelling)
  | leaves free home out =>
    have sets : w.station.setsOut i = true := by simp [Station.setsOut, free, out]
    have activating : (w.station.rs.tuned.ticked i.nowMs i.modem.idle).state = .activating := by
      simp only [DiscoveryRuntime.setsOut, Bool.and_eq_true, beq_iff_eq] at out
      exact out.2
    refine ⟨fun still => ?_,fun agreement pending => ?_⟩
    · have state : ∀ ok, ((w.station.rs.tuned.ticked i.nowMs i.modem.idle).qsyComplete ok).2.state ≠ .activating := by
        intro ok
        rw [DiscoveryRuntime.qsyState _ ok activating]
        cases ok <;> decide
      exact state _ still
    · have before : w.station.rs.discovery.pendingResponderAgreement = some agreement := by
        rw [← (tunedQueue _).2, ← pending]
        exact (idleQueue (w.station.rs.tuned.ticked i.nowMs i.modem.idle) _).2.symm
      have none' := (undropped (by rw [before]; rfl)).2
      rw [sets] at none'
      cases none'
  | stays due free dwelling still slot =>
    refine ⟨fun activating => absurd (still.symm.trans activating) (by decide),fun agreement pending => ?_⟩
    obtain ⟨accept,latest,agreed,behind,frames,now,dial⟩ := heldSlot inv undropped free dwelling slot pending
    refine ⟨accept,latest,agreed,handedMore behind _,frames,fun _ => ⟨?_,?_⟩⟩
    · rw [staysDwelling dwelling]
      exact now
    · exact dial.trans (congrArg DiscoveryParams.callingFreqHz slot.params).symm
  | returns due free dwelling ends back slot =>
    have home : (((w.station.withRuntime _).schedule due).restoreHome i.catOk).state = .inactive :=
      (congrArg DiscoveryRuntime.state (restoreDiscovery _ _)).trans back
    refine ⟨fun activating => absurd (home.symm.trans activating) (by decide),fun agreement pending => ?_⟩
    rw [show _ = _ from congrArg DiscoveryRuntime.pendingResponderAgreement (restoreDiscovery _ _)] at pending
    obtain ⟨accept,latest,agreed,behind,frames,now,dial⟩ := heldSlot inv undropped free dwelling slot pending
    refine ⟨accept,latest,agreed,handedMore behind _,?_,fun away => absurd (home.symm.trans away) (by decide)⟩
    simp only
    rw [restoreDiscovery]
    exact frames

theorem commandQueue (s : Station) (c : Command) :
    (s.command c).rs.discovery.pendingResponderAgreement = s.rs.discovery.pendingResponderAgreement ∧
      s.rs.discovery.rendezvousTx <+: (s.command c).rs.discovery.rendezvousTx ∧
      (s.command c).rs.discovery.params = s.rs.discovery.params ∧
      ((s.command c).state = s.state ∨ (s.command c).state = .inactive) := by
  cases c with
  | setEnabled on =>
    have queue := idleQueue s.rs.discovery (.setEnabled on)
    have params : (s.rs.discovery.setEnabled on).2.params = s.rs.discovery.params := by
      rw [DiscoveryRuntime.setEnabled, DiscoveryRuntime.feedIdle]
    have state : (s.rs.discovery.setEnabled on).2.state = if on = false then .inactive else s.state :=
      DiscoveryRuntime.enableState s.rs.discovery on
    have kept : s.rs.discovery.rendezvousTx <+: (s.rs.discovery.setEnabled on).2.rendezvousTx := ⟨[],(List.append_nil _).trans queue.1.symm⟩
    refine ⟨queue.2,kept,params,?_⟩
    cases on with
    | true => exact .inl state
    | false => exact .inr state
  | rendezvousWith peer nowMs =>
    simp only [Station.command, Station.startRendezvousCmd]
    split
    · exact ⟨rfl,List.prefix_rfl,rfl,.inl rfl⟩
    · simp only [Station.withRuntime, Station.state, DiscoveryRuntime.startRendezvous]
      split
      · exact ⟨rfl,List.prefix_rfl,rfl,.inl rfl⟩
      · exact ⟨rfl,List.prefix_append _ _,rfl,.inl rfl⟩
  | setFreq freqHz catOk =>
    simp only [Station.command, Station.setFreq]
    split
    · exact ⟨rfl,List.prefix_rfl,rfl,.inl rfl⟩
    · exact ⟨rfl,List.prefix_rfl,rfl,.inl rfl⟩

theorem invCommand {w : Watched} (inv : Inv w) (c : Command) : Inv (step w (.command c)) := by
  obtain ⟨pending,queue,params,state⟩ := commandQueue w.station c
  have place : ∀ place, (step w (.command c)).station.state = place → place ≠ .inactive → w.station.state = place := by
    intro place here away
    rcases state with same | home
    · exact same.symm.trans here
    · exact absurd (here.symm.trans home) away
  refine ⟨fun activating => inv.settled (place _ activating (by decide)),fun agreement withheld => ?_⟩
  obtain ⟨accept,latest,agreed,behind,frames,dwell⟩ := inv.held agreement (pending.symm.trans withheld)
  refine ⟨accept,latest,agreed,behind,frames.trans (List.prefix_append_right_inj _ |>.mpr queue).isInfix,fun dwelling => ?_⟩
  obtain ⟨now,dial⟩ := dwell (place _ dwelling (by decide))
  exact ⟨now,dial.trans (congrArg DiscoveryParams.callingFreqHz params).symm⟩

theorem invSent {w : Watched} {e : Event} (inv : Inv w) : AcceptSent w e := by
  cases e with
  | command c => trivial
  | tick i =>
    intro agreement freqHz scheduled
    unfold schedules at scheduled
    split at scheduled
    · cases scheduled
    · obtain ⟨agreement',surfaced,channel⟩ := Option.bind_eq_some_iff.mp scheduled
      obtain ⟨freqHz',channel,same⟩ := Option.map_eq_some_iff.mp channel
      cases same
      unfold surfaces at surfaced
      split at surfaced
      · rename_i opens
        rw [Bool.and_eq_true] at opens
        have dwelling : w.station.state = .dwelling :=
          (congrArg DiscoverySm.state (Station.tunedMachine w.station.rs)).symm.trans
            (DiscoveryRuntime.tickedDwelling _ _ _ (Station.slotState opens.1))
        have empty : w.station.rs.discovery.rendezvousTx = [] :=
          (tunedQueue w.station.rs).1.symm.trans (List.isEmpty_iff.mp opens.2)
        obtain ⟨accept,latest,agreed,behind,frames,dwell⟩ := inv.held agreement ((tunedQueue w.station.rs).2.symm.trans surfaced)
        obtain ⟨now,dial⟩ := dwell dwelling
        rw [empty, List.append_nil] at frames
        exact ⟨accept,latest,agreed,now,frames,by rw [dial]; exact channel⟩
      · cases surfaced

/-- Where no frame of a withheld agreement is dropped, and none is carried into another
dwell, a responder moves only after its Accept. -/
theorem acceptSent {s : Station} {es : List Event} (home : s.state = .inactive)
    (nothing : s.rs.discovery.pendingResponderAgreement = none) (undropped : EveryStep step Undropped (begin s) es) :
    EveryStep step AcceptSent (begin s) es := by
  have start : Inv (begin s) := by
    refine ⟨by simp [begin, home],fun agreement pending => ?_⟩
    rw [show (begin s).station.rs.discovery.pendingResponderAgreement = none from nothing] at pending
    cases pending
  have keeps : ∀ w e, Inv w → Undropped w e → Inv (step w e) := by
    rintro w (i | c) inv undropped
    · exact invTick inv undropped
    · exact invCommand inv c
  exact (everyStepInvariant keeps (fun w e inv _ => invSent inv) start undropped).2

instance decidableUndropped (w : Watched) : ∀ e, Decidable (Undropped w e)
  | .tick i => inferInstanceAs
      (Decidable (w.station.rs.discovery.pendingResponderAgreement.isSome = true →
        (w.station.sendsOver i = true → i.busy = false) ∧ w.station.setsOut i = false))
  | .command _ => isTrue trivial

theorem acceptSentMeeting : EveryStep step AcceptSent (begin Bench.station) ((Bench.meeting false).map .tick) :=
  acceptSent rfl rfl (by decide +kernel)

def movedBands : List Event :=
  [.tick (Bench.slot 0 false []),.tick (Bench.slot 0 false []),.tick (Bench.slot 1 false [Bench.proposal]),
    .command (.setEnabled false),.command (.setFreq 7074000 true),.command (.setEnabled true),
    .tick (Bench.slot 2 false []),.tick (Bench.slot 3 false []),.tick (Bench.slot 4 false []),.tick (Bench.slot 5 false []),
    .tick (Bench.slot 6 false [])]

/- A busy channel swallows the whole Accept, and the responder moves all the same; or it
moves by the channels of a band that the proposal was not heard on. -/
theorem movedUnsent :
    ¬ EveryStep step AcceptSent (begin Bench.station) ((Bench.meeting true).map .tick) ∧
      ¬ EveryStep step AcceptSent (begin Bench.station) (movedBands ++ [.tick (Bench.slot 7 false [])]) := by
  constructor
  · intro all
    have split : (Bench.meeting true).map Event.tick =
        (Bench.meeting true).dropLast.map Event.tick ++ [.tick (Bench.slot 6 false [])] := rfl
    rw [split, everyStepAppend] at all
    obtain ⟨accept,sent⟩ := all.2.1 ("W1AW".toList,0,4) 14101000 (by decide +kernel)
    obtain ⟨frames,silent⟩ :
        (run step (begin Bench.station) ((Bench.meeting true).dropLast.map Event.tick)).accept.map (·.frames.length) = some 4 ∧
          (run step (begin Bench.station) ((Bench.meeting true).dropLast.map Event.tick)).handed = [] := by decide +kernel
    have handed := sent.handed.length_le
    rw [sent.latest, Option.map_some] at frames
    rw [silent, Option.some.inj frames] at handed
    exact absurd handed (by simp [handedIn])
  · intro all
    rw [everyStepAppend] at all
    obtain ⟨accept,sent⟩ := all.2.1 ("W1AW".toList,0,4) 7047000 (by decide +kernel)
    obtain ⟨heard,now⟩ : (run step (begin Bench.station) movedBands).accept.map (·.dwell) = some 1 ∧
        (run step (begin Bench.station) movedBands).dwell = 2 := by decide +kernel
    rw [sent.latest, Option.map_some] at heard
    have same := (Option.some.inj heard).symm.trans (sent.dwell.trans now)
    cases same

end OpenPulse.DiscoveryAccept
