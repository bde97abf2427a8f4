import OpenPulse.FileTransfers
import OpenPulse.KeyedTx
import OpenPulse.Packings
import OpenPulse.Rounding

/-! The queue of file-transfer fragments sent as keyed bursts: `plan_bursts` and `drain_filexfer_tx` in
`openpulse-daemon/src/server.rs`. How long a fragment is on the air is estimated from outside. -/
namespace OpenPulse.BurstPlan
open ByteCodec Engine FileTransfers KeyedTx Packings SharedPtt

/-- What the sums of an `f64` keep, rounded as they are: the order. -/
class AirTime (Secs : Type) extends LinearOrder Secs, Zero Secs, Add Secs where
  mono : ∀ a b c : Secs, a ≤ b → a + c ≤ b + c
  grows : ∀ a c : Secs, 0 ≤ c → a ≤ a + c

/-- The values of an `f64` that are not below zero, in units of the least. -/
abbrev F64Secs : Type := Rounding.Value 53 2098

instance : Add F64Secs := ⟨Rounding.Value.add (by decide)⟩

instance : AirTime F64Secs where
  mono _ _ c less := Rounding.Value.addMono (by decide) less c
  grows a c _ := Rounding.Value.addGrows (by decide) a c

def maxFragsPerBurst : Nat := 64

section Planning

variable {Fragment Secs : Type} [AirTime Secs] (airSecs : Fragment → Secs) (burstMaxSecs : Secs) (maxFrags : Nat)

def fill : Nat → Secs → List Fragment → Nat
  | count, _, [] => count
  | count, acc, fragment::rest =>
    if count < maxFrags then
      let secs := max (airSecs fragment) 0
      if 0 < count ∧ burstMaxSecs < acc + secs then count else fill (count + 1) (acc + secs) rest
    else count

def plan : Nat → List Fragment → List Nat
  | 0, _ => []
  | _ + 1, [] => []
  | turns + 1, fragment::rest =>
    let count := fill airSecs burstMaxSecs maxFrags 0 0 (fragment::rest)
    count::plan turns ((fragment::rest).drop count)

def planBursts (queue : List Fragment) : List Nat := plan airSecs burstMaxSecs maxFrags queue.length queue

def bursts : List Nat → List Fragment → List (List Fragment)
  | [], _ => []
  | count::counts, queue => queue.take count::bursts counts (queue.drop count)

def airTime (acc : Secs) (burst : List Fragment) : Secs := burst.foldl (fun acc fragment => acc + max (airSecs fragment) 0) acc

def Fits (burst : List Fragment) : Prop :=
  burst.length ≤ maxFrags ∧ (burst.length ≤ 1 ∨ airTime airSecs 0 burst ≤ burstMaxSecs)

def FitsBehind (count : Nat) (acc : Secs) (burst : List Fragment) : Prop :=
  count + burst.length ≤ maxFrags ∧ (count + burst.length ≤ 1 ∨ burst = [] ∨ airTime airSecs acc burst ≤ burstMaxSecs)

variable {airSecs burstMaxSecs maxFrags}

theorem airTimeGrows (acc : Secs) (burst : List Fragment) : acc ≤ airTime airSecs acc burst := by
  induction burst generalizing acc with
  | nil => exact le_refl acc
  | cons fragment burst ih => exact le_trans (AirTime.grows acc _ (le_max_right _ 0)) (ih _)

theorem airTimeMono {a b : Secs} (less : a ≤ b) (burst : List Fragment) : airTime airSecs a burst ≤ airTime airSecs b burst := by
  induction burst generalizing a b with
  | nil => exact less
  | cons fragment burst ih => exact ih (AirTime.mono _ _ _ less)

theorem fitsShorter {p q : List Fragment} (suffix : q <:+ p) (fits : Fits airSecs burstMaxSecs maxFrags p) :
    Fits airSecs burstMaxSecs maxFrags q := by
  obtain ⟨few,short⟩ := fits
  have length := suffix.length_le
  refine ⟨by omega,?_⟩
  rcases short with one | short
  · exact .inl (by omega)
  · obtain ⟨t,rfl⟩ := suffix
    have from_ : airTime airSecs 0 (t ++ q) = airTime airSecs (airTime airSecs 0 t) q := List.foldl_append
    rw [from_] at short
    exact .inr (le_trans (airTimeMono (airTimeGrows 0 t) q) short)

theorem fillTakes {count : Nat} {acc : Secs} {queue : List Fragment} (room : count ≤ maxFrags) :
    ∃ g rest, queue = g ++ rest ∧ fill airSecs burstMaxSecs maxFrags count acc queue = count + g.length ∧
      FitsBehind airSecs burstMaxSecs maxFrags count acc g ∧
      ∀ p, p <+: queue → FitsBehind airSecs burstMaxSecs maxFrags count acc p → p.length ≤ g.length := by
  induction queue generalizing count acc with
  | nil => exact ⟨[],[],rfl,rfl,⟨room,.inr (.inl rfl)⟩,fun p none _ => none.length_le⟩
  | cons fragment queue ih =>
    have stays : (∀ p, p <+: fragment::queue → FitsBehind airSecs burstMaxSecs maxFrags count acc p → p = []) →
        fill airSecs burstMaxSecs maxFrags count acc (fragment::queue) = count → ∃ g rest, fragment::queue = g ++ rest ∧
        fill airSecs burstMaxSecs maxFrags count acc (fragment::queue) = count + g.length ∧
        FitsBehind airSecs burstMaxSecs maxFrags count acc g ∧
        ∀ p, p <+: fragment::queue → FitsBehind airSecs burstMaxSecs maxFrags count acc p → p.length ≤ g.length := by
      intro none same
      exact ⟨[],_,rfl,same,⟨room,.inr (.inl rfl)⟩,fun p head fits => by rw [none p head fits]⟩
    rw [fill] at stays ⊢
    by_cases more : count < maxFrags
    · rw [if_pos more] at stays ⊢
      dsimp only at stays ⊢
      by_cases beyond : 0 < count ∧ burstMaxSecs < acc + max (airSecs fragment) 0
      · rw [if_pos beyond] at stays ⊢
        refine stays (fun p head fits => ?_) rfl
        cases p with
        | nil => rfl
        | cons first p =>
          obtain ⟨rfl,-⟩ := List.cons_prefix_cons.mp head
          rcases fits.2 with one | none | short
          · rw [List.length_cons] at one
            omega
          · cases none
          · exact absurd (le_trans (airTimeGrows _ p) short) (not_le.mpr beyond.2)
      · rw [if_neg beyond] at stays ⊢
        obtain ⟨g,rest,rfl,length,fits,most⟩ := @ih (count + 1) (acc + max (airSecs fragment) 0) more
        refine ⟨fragment::g,rest,rfl,by rw [length, List.length_cons]; omega,⟨?_,?_⟩,fun p front held => ?_⟩
        · have few := fits.1
          rw [List.length_cons]
          omega
        · rcases fits.2 with one | rfl | short
          · exact .inl (by rw [List.length_cons]; omega)
          · by_cases first : count = 0
            · exact .inl (by simp [first])
            · exact .inr (.inr (not_lt.mp fun late => beyond ⟨by omega,late⟩))
          · exact .inr (.inr short)
        · cases p with
          | nil => exact Nat.zero_le _
          | cons first p =>
            obtain ⟨rfl,below⟩ := List.cons_prefix_cons.mp front
            refine Nat.succ_le_succ (most p below ⟨?_,?_⟩)
            · have few := held.1
              rw [List.length_cons] at few
              omega
            · rcases held.2 with one | none | short
              · rw [List.length_cons] at one
                exact .inl (by omega)
              · cases none
              · exact .inr (.inr short)
    · rw [if_neg more] at stays ⊢
      refine stays (fun p _ fits => ?_) rfl
      have few := fits.1
      exact List.eq_nil_of_length_eq_zero (by omega)

theorem fitsStart {burst : List Fragment} :
    FitsBehind airSecs burstMaxSecs maxFrags 0 0 burst ↔ Fits airSecs burstMaxSecs maxFrags burst := by
  rw [FitsBehind, Fits, Nat.zero_add]
  constructor
  · rintro ⟨few,one | rfl | short⟩
    · exact ⟨few,.inl one⟩
    · exact ⟨few,.inl (Nat.zero_le 1)⟩
    · exact ⟨few,.inr short⟩
  · rintro ⟨few,one | short⟩
    · exact ⟨few,.inl one⟩
    · exact ⟨few,.inr (.inr short)⟩

theorem planGreedy (some : 0 < maxFrags) {turns : Nat} {queue : List Fragment} (enough : queue.length ≤ turns) :
    Greedy (Fits airSecs burstMaxSecs maxFrags) queue (bursts (plan airSecs burstMaxSecs maxFrags turns queue) queue) := by
  induction turns generalizing queue with
  | zero =>
    rw [List.eq_nil_of_length_eq_zero (Nat.le_zero.mp enough)]
    exact .nil
  | succ turns ih =>
    cases queue with
    | nil => exact .nil
    | cons fragment queue =>
      obtain ⟨g,rest,whole,taken,fits,most⟩ :=
        @fillTakes Fragment Secs _ airSecs burstMaxSecs maxFrags 0 0 (fragment::queue) (Nat.zero_le maxFrags)
      have first : 1 ≤ g.length :=
        most [fragment] ⟨queue,rfl⟩ ⟨by simpa using Nat.succ_le_of_lt some,.inl (Nat.le_refl 1)⟩
      have filled : g ≠ [] := List.ne_nil_of_length_pos first
      rw [plan, taken, Nat.zero_add, bursts, whole, List.take_left, List.drop_left]
      refine .cons filled (fitsStart.mp fits) (fun p head held => ?_) (ih ?_)
      · rw [← whole] at head
        exact most p head (fitsStart.mpr held)
      · rw [whole, List.length_append] at enough
        omega

theorem planFewest (airSecs : Fragment → Secs) (burstMaxSecs : Secs) (some : 0 < maxFrags) (queue : List Fragment) :
    Packing (Fits airSecs burstMaxSecs maxFrags) queue (bursts (planBursts airSecs burstMaxSecs maxFrags queue) queue) ∧
    ∀ others, Packing (Fits airSecs burstMaxSecs maxFrags) queue others →
      (bursts (planBursts airSecs burstMaxSecs maxFrags queue) queue).length ≤ others.length := by
  have greedy : Greedy (Fits airSecs burstMaxSecs maxFrags) queue (bursts (planBursts airSecs burstMaxSecs maxFrags queue) queue) :=
    planGreedy some (Nat.le_refl queue.length)
  exact ⟨greedyPacking greedy,fun _ other => greedyFewest fitsShorter greedy other⟩

/- Not an instance: the sums of natural numbers keep their own. -/
abbrev wholeSeconds : AirTime Nat where
  mono _ _ c less := Nat.add_le_add_right less c
  grows a c _ := Nat.le_add_right a c

example : @planBursts Nat Nat wholeSeconds (fun secs => secs) 20 maxFragsPerBurst [15,10,3] = [1,2] := by decide
example : @planBursts Nat Nat wholeSeconds (fun secs => secs) 20 maxFragsPerBurst [50,50,50] = [1,1,1] := by decide

end Planning

/- What one drain finds: the estimates, what the hardware answers to each keying, and what each fragment of it meets. -/
structure World (Secs Sample : Type) where
  estimateAirSecs : Nat → String → Option Secs
  keying : Nat → Keying
  radio : Nat → Nat → Radio Sample

structure Keyed where
  burst : List (Bytes × String)
  result : Except KeyedTxError Unit
  sent : List (Bytes × String)

structure Drain where
  keyings : List Keyed
  state : RuntimeControlState
  engine : ModemEngine

section Draining

variable {Secs Sample : Type}

def transmitBurst (radio : Nat → Radio Sample) : Nat → List (Bytes × String) → ModemEngine → Except ModemError Unit × ModemEngine
  | _, [], g => (.ok (),g)
  | i, (frag,mode)::burst, g =>
    let sent := g.transmit frag mode none (radio i)
    match sent.result with
    | .error e => (.error e,sent.engine)
    | .ok () => transmitBurst radio (i + 1) burst sent.engine

def wentOut (radio : Nat → Radio Sample) : Nat → List (Bytes × String) → ModemEngine → List (Bytes × String)
  | _, [], _ => []
  | i, (frag,mode)::burst, g =>
    let sent := g.transmit frag mode none (radio i)
    match sent.result with
    | .error _ => []
    | .ok () => (frag,mode)::wentOut radio (i + 1) burst sent.engine

def drainBursts (w : World Secs Sample) : Nat → List (List (Bytes × String)) → Station → ModemEngine → List Keyed × Station × ModemEngine
  | _, [], ptt, g => ([],ptt,g)
  | i, burst::rest, ptt, g =>
    let out := keyedTransmit (w.keying i) ptt g (transmitBurst (w.radio i) 0 burst)
    match out.1 with
    | .ok () =>
      let later := drainBursts w (i + 1) rest out.2.1 out.2.2
      (⟨burst,.ok (),wentOut (w.radio i) 0 burst g⟩::later.1,later.2)
    | .error (.transmit e) => ([⟨burst,.error (.transmit e),wentOut (w.radio i) 0 burst g⟩],out.2)
    | .error e => ([⟨burst,.error e,[]⟩],out.2)

def fragmentSecs [AirTime Secs] (w : World Secs Sample) (fragment : Bytes × String) : Secs :=
  (w.estimateAirSecs fragment.1.length fragment.2).getD 0

def drainFilexferTx [AirTime Secs] (w : World Secs Sample) (burstMaxSecs : Secs) (rs : RuntimeControlState) (g : ModemEngine) : Drain :=
  if rs.filexferTxQueue.isEmpty then ⟨[],rs,g⟩
  else
    let counts := planBursts (fragmentSecs w) burstMaxSecs maxFragsPerBurst rs.filexferTxQueue
    let out := drainBursts w 0 (bursts counts rs.filexferTxQueue) rs.ptt g
    ⟨out.1,{ rs with filexferTxQueue := [], ptt := out.2.1 },out.2.2⟩

variable {w : World Secs Sample}

theorem wentPrefix (radio : Nat → Radio Sample) (i : Nat) (burst : List (Bytes × String)) (g : ModemEngine) : wentOut radio i burst g <+: burst := by
  induction burst generalizing i g with
  | nil => exact List.prefix_rfl
  | cons fragment burst ih =>
    rw [wentOut]
    cases (g.transmit fragment.1 fragment.2 none (radio i)).result with
    | error e => exact List.nil_prefix
    | ok sent => exact List.cons_prefix_cons.mpr ⟨rfl,ih _ _⟩

theorem wentWhole (radio : Nat → Radio Sample) (i : Nat) (burst : List (Bytes × String)) (g : ModemEngine) :
    (transmitBurst radio i burst g).1 = .ok () ↔ wentOut radio i burst g = burst := by
  induction burst generalizing i g with
  | nil => exact iff_of_true rfl rfl
  | cons fragment burst ih =>
    rw [wentOut, transmitBurst]
    cases (g.transmit fragment.1 fragment.2 none (radio i)).result with
    | error e => simp
    | ok sent => simpa using ih _ _

theorem keyedIdle {k : Keying} {ptt : Station} (idle : ptt.armed = false) (releases : k.releases = true) (g : ModemEngine) (emit : Emit) :
    (keyedTransmit k ptt g emit).2.1.armed = false := by
  have quiet : ptt.inner.assertedAt = none := by simpa [Station.armed] using idle
  cases controller : ptt.inner.controller with
  | false =>
    simp [keyedTransmit, Station.keyed, Station.keyAs, Station.assertPtt, controller, PttKeyGuard.releaseInner,
      Station.unkeyOwned, Station.owns, Station.generation, Station.pttChanged, Station.unkey, Station.releasePtt, Station.armed, quiet]
  | true =>
    cases asserts : k.asserts with
    | false => simp [keyedTransmit, Station.keyed, Station.keyAs, Station.assertPtt, controller, asserts, Station.armed, quiet]
    | true =>
      simp [keyedTransmit, Station.keyed, Station.keyAs, Station.assertPtt, controller, asserts, releases, PttKeyGuard.releaseInner,
        Station.unkeyOwned, Station.owns, Station.generation, Station.pttChanged, Station.unkey, Station.releasePtt, Station.armed, quiet]

structure Drained (bs : List (List (Bytes × String))) (keyings : List Keyed) : Prop where
  planned : keyings.map Keyed.burst <+: bs
  inOrder : keyings.flatMap Keyed.sent <+: bs.flatten
  whole : (∀ k ∈ keyings, k.result = .ok ()) ↔ keyings.flatMap Keyed.sent = bs.flatten

theorem stopped {burst sent : List (Bytes × String)} {rest : List (List (Bytes × String))} {e : KeyedTxError} (front : sent <+: burst)
    (less : sent ≠ burst) : Drained (burst::rest) [⟨burst,.error e,sent⟩] := by
  refine ⟨⟨rest,rfl⟩,?_,?_⟩
  · rw [List.flatMap_singleton, List.flatten_cons]
    exact front.trans (List.prefix_append _ _)
  · refine iff_of_false (fun all => by cases all _ List.mem_cons_self) fun same => ?_
    rw [List.flatMap_singleton, List.flatten_cons] at same
    have short := front.length_le
    have long := congrArg List.length same
    rw [List.length_append] at long
    exact less (front.eq_of_length (by simp only at long ⊢; omega))

theorem keyedSent (k : Keying) (ptt : Station) (g : ModemEngine) (emit : Emit) : (keyedTransmit k ptt g emit).1 = .error .alreadyKeyed ∨
    (keyedTransmit k ptt g emit).1 = .error .assert ∨ (keyedTransmit k ptt g emit).1 = (emit g).1.mapError .transmit := by
  rcases keyCases k ptt with held | faulty | free
  · exact .inl (by rw [(keyedHeld held g emit).1])
  · obtain ⟨ptt',failed,-⟩ := keyedFaulty faulty g emit
    exact .inr (.inl (by rw [failed]))
  · obtain ⟨ptt',sent,-⟩ := keyedFree free g emit
    exact .inr (.inr (by rw [sent]))

theorem keyedOk {k : Keying} {ptt : Station} {g : ModemEngine} {emit : Emit} (sent : (keyedTransmit k ptt g emit).1 = .ok ()) :
    (emit g).1 = .ok () := by
  rcases keyedSent k ptt g emit with held | refused | same
  · cases held.symm.trans sent
  · cases refused.symm.trans sent
  · cases out : (emit g).1 with
    | ok _ => rfl
    | error e =>
      rw [out] at same
      cases same.symm.trans sent

theorem keyedFailed {k : Keying} {ptt : Station} {g : ModemEngine} {emit : Emit} {e : ModemError}
    (failed : (keyedTransmit k ptt g emit).1 = .error (.transmit e)) : (emit g).1 ≠ .ok () := by
  intro out
  rcases keyedSent k ptt g emit with held | refused | same
  · cases held.symm.trans failed
  · cases refused.symm.trans failed
  · rw [out] at same
    cases same.symm.trans failed

theorem drainedAll {i : Nat} {bs : List (List (Bytes × String))} (filled : ∀ b ∈ bs, b ≠ []) (ptt : Station) (g : ModemEngine) :
    Drained bs (drainBursts w i bs ptt g).1 := by
  induction bs generalizing i ptt g with
  | nil => exact ⟨List.prefix_rfl,List.prefix_rfl,iff_of_true (fun _ none => by cases none) rfl⟩
  | cons burst rest ih =>
    rw [drainBursts]
    dsimp only
    split
    · next result =>
      have whole := (wentWhole (w.radio i) 0 burst g).mp (keyedOk result)
      obtain ⟨planned,inOrder,all⟩ := ih (fun b member => filled b (List.mem_cons_of_mem burst member)) _ _
      refine ⟨List.cons_prefix_cons.mpr ⟨rfl,planned⟩,?_,?_⟩
      · rw [List.flatMap_cons, whole, List.flatten_cons]
        exact (List.prefix_append_right_inj burst).mpr inOrder
      · rw [List.flatMap_cons, whole, List.flatten_cons, List.append_cancel_left_eq, ← all, List.forall_mem_cons]
        exact and_iff_right rfl
    · next e result =>
      refine stopped (wentPrefix (w.radio i) 0 burst g) fun same => ?_
      exact keyedFailed result ((wentWhole (w.radio i) 0 burst g).mpr same)
    · exact stopped List.nil_prefix (filled burst List.mem_cons_self).symm

theorem drainedIdle {i : Nat} {bs : List (List (Bytes × String))} {ptt : Station} (idle : ptt.armed = false)
    (releases : ∀ i, (w.keying i).releases = true) (g : ModemEngine) : (drainBursts w i bs ptt g).2.1.armed = false := by
  induction bs generalizing i ptt g with
  | nil => exact idle
  | cons burst rest ih =>
    have next := keyedIdle idle (releases i) g (transmitBurst (w.radio i) 0 burst)
    rw [drainBursts]
    dsimp only
    split
    · exact ih next _
    · exact next
    · exact next

theorem drainSteps [AirTime Secs] (lib : Library) (call : Call) (burstMaxSecs : Secs) (rs : RuntimeControlState) (g : ModemEngine) :
    (drainFilexferTx w burstMaxSecs rs g).state = step lib (step lib rs { call with event := .drain })
      { call with event := .link (drainFilexferTx w burstMaxSecs rs g).state.toRuntimeControlState } := by
  unfold drainFilexferTx
  split
  · next empty =>
    have none := List.isEmpty_iff.mp empty
    simp only [step]
    rw [← none]
  · rfl

/-- A drain empties the queue. What goes out is the front of it, in order, and the whole of it exactly when no keying fails; each
keying is for one burst within the limits, and there are no more of them than in any cut of the queue into such bursts. A key that is
free before and that the hardware gives back each time is free after. -/
theorem burstsDrained [AirTime Secs] (w : World Secs Sample) (burstMaxSecs : Secs) (rs : RuntimeControlState) (g : ModemEngine) :
    (drainFilexferTx w burstMaxSecs rs g).state.filexferTxQueue = [] ∧
    (drainFilexferTx w burstMaxSecs rs g).keyings.flatMap Keyed.sent <+: rs.filexferTxQueue ∧
    ((∀ k ∈ (drainFilexferTx w burstMaxSecs rs g).keyings, k.result = .ok ()) ↔
      (drainFilexferTx w burstMaxSecs rs g).keyings.flatMap Keyed.sent = rs.filexferTxQueue) ∧
    (∀ k ∈ (drainFilexferTx w burstMaxSecs rs g).keyings, k.burst ≠ [] ∧ Fits (fragmentSecs w) burstMaxSecs maxFragsPerBurst k.burst) ∧
    (∀ others, Packing (Fits (fragmentSecs w) burstMaxSecs maxFragsPerBurst) rs.filexferTxQueue others →
      (drainFilexferTx w burstMaxSecs rs g).keyings.length ≤ others.length) ∧
    (rs.ptt.armed = false → (∀ i, (w.keying i).releases = true) → (drainFilexferTx w burstMaxSecs rs g).state.ptt.armed = false) := by
  unfold drainFilexferTx
  split
  · next empty =>
    have none := List.isEmpty_iff.mp empty
    exact ⟨none,List.nil_prefix,iff_of_true (fun _ member => by cases member) none.symm,(fun _ member => by cases member),
      fun _ _ => Nat.zero_le _,fun idle _ => idle⟩
  · obtain ⟨⟨whole,filled⟩,fewest⟩ := planFewest (fragmentSecs w) burstMaxSecs (show 0 < maxFragsPerBurst by decide) rs.filexferTxQueue
    obtain ⟨planned,inOrder,all⟩ := drainedAll (w := w) (i := 0) (fun b member => (filled b member).1) rs.ptt g
    rw [whole] at inOrder all
    refine ⟨rfl,inOrder,all,fun k member => ?_,fun others other => ?_,fun idle releases => drainedIdle idle releases g⟩
    · exact filled k.burst (planned.subset (List.mem_map_of_mem member))
    · have few := planned.length_le
      rw [List.length_map] at few
      exact Nat.le_trans few (fewest others other)

end Draining

end OpenPulse.BurstPlan
