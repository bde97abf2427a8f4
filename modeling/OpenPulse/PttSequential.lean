import OpenPulse.Runs
import OpenPulse.SharedPtt

/-! Sequential runs of the transmitter key: each operation finishes before the
next begins, all carry the same observer, and any hardware call may fail. The
desk keeps every guard that `keyed` gave out, with the epoch of the key that
call asserted, so that a later operation can name it. -/
namespace OpenPulse.PttSequential
open Runs SharedPtt

structure Held where
  guard : PttKeyGuard
  key : Nat
  deriving DecidableEq, Repr

structure Desk where
  station : Station
  guards : List Held
  ledger : Ledger
  deriving DecidableEq, Repr

inductive Op where
  | keyAs (who : String) (now : Nat) (works : Bool)
  | keyed (now : Nat) (works : Bool)
  | release (i : Nat) (works : Bool)
  | extend (i : Nat) (now : Nat)
  | unkey (works : Bool)
  | forceRelease (works : Bool)
  | forceReleaseIfExpired (now : Nat) (works : Bool)
  deriving DecidableEq, Repr

def idle (controller : Bool) (maxDuration : Nat) : Desk := ⟨new controller maxDuration,[],⟨0,none⟩⟩

def Desk.moveTo (d : Desk) (s : Station) : Desk :=
  { d with station := s, ledger := d.ledger.follow d.station.inner s.inner }

def Desk.releaseGuard (d : Desk) (i : Nat) (h : Held) (works : Bool) : Desk :=
  let (_, g, s) := h.guard.releaseInner d.station works
  { d.moveTo s with guards := d.guards.set i { h with guard := g } }

def step (d : Desk) : Op → Desk
  | .keyAs who now works => d.moveTo (d.station.keyAs who true now works).2
  | .keyed now works =>
    match d.station.keyed true now works with
    | (.error _, s) => d.moveTo s
    | (.ok g, s) =>
      let d := d.moveTo s
      { d with guards := d.guards ++ [⟨g,d.ledger.epoch⟩] }
  | .release i works =>
    match d.guards[i]? with
    | none => d
    | some h => d.releaseGuard i h works
  | .extend i now =>
    match d.guards[i]? with
    | none => d
    | some h => d.moveTo (h.guard.extend d.station now).2
  | .unkey works => d.moveTo (d.station.unkey true works).2
  | .forceRelease works => d.moveTo (d.station.forceRelease true works).2
  | .forceReleaseIfExpired now works => d.moveTo (d.station.forceReleaseIfExpired true now works).2

def Op.releaseFails : Op → Bool
  | .release _ works | .unkey works | .forceRelease works | .forceReleaseIfExpired _ works => !works
  | _ => false

inductive Edge (a b : Station) : Prop where
  | still (wired : b.inner.controller = a.inner.controller) (armed : b.armed = a.armed)
      (edges : b.edges = a.edges) (line : b.line = true → a.line = true)
  | rise (wired : b.inner.controller = a.inner.controller) (idle : a.armed = false) (armed : b.armed = true)
      (edges : b.edges = a.edges ++ [true]) (line : b.line = true → a.line = true ∨ a.inner.controller = true)
  | fall (wired : b.inner.controller = a.inner.controller) (armed : a.armed = true) (idle : b.armed = false)
      (edges : b.edges = a.edges ++ [false]) (line : b.line = true → a.line = true ∧ a.inner.controller = false)

theorem edgeRefl (a : Station) : Edge a a := .still rfl rfl rfl id

theorem keyAsEdge (s : Station) (who : String) (now : Nat) (works : Bool) :
    Edge s (s.keyAs who true now works).2 := by
  unfold Station.keyAs
  split
  · exact edgeRefl s
  · rename_i idle
    have idle : s.armed = false := by simpa using idle
    cases call : s.assertPtt works with
    | mk ok t =>
      cases ok with
      | false =>
        obtain ⟨-,-,rfl⟩ := assertPttFailed call
        exact .still rfl rfl rfl id
      | true =>
        obtain ⟨same,edges,line⟩ := assertPttWorked call
        exact .rise (by simp [same]) idle rfl (by simp [Station.pttChanged, edges]) line

/- The three releasing operations differ in the generation and the diagnostic
fields only; on the line, the deadline and the edges they do the same. -/
theorem releasedEdge {s t : Station} {works : Bool} (call : s.releasePtt works = (true, t))
    (inner : PttInner) (wired : inner.controller = t.inner.controller) (cleared : inner.assertedAt = none) :
    Edge s (if t.armed then { t with inner := inner }.pttChanged true false else { t with inner := inner }) := by
  obtain ⟨same,edges,line⟩ := releasePttWorked call
  have armed : t.armed = s.armed := by simp [Station.armed, same]
  rw [same] at wired
  rw [armed]
  split
  · rename_i keyed
    exact .fall (by simpa using wired) keyed (by simp [Station.armed, Station.pttChanged, cleared])
      (by simp [Station.pttChanged, edges]) line
  · rename_i idle
    have idle : s.armed = false := by simpa using idle
    refine .still wired ?_ edges (fun on => (line on).1)
    rw [idle]
    simp [Station.armed, cleared]

theorem unkeyEdge (s : Station) (works : Bool) : Edge s (s.unkey true works).2 := by
  unfold Station.unkey
  cases call : s.releasePtt works with
  | mk ok t =>
    cases ok with
    | false =>
      obtain ⟨-,-,rfl⟩ := releasePttFailed call
      exact .still rfl rfl rfl id
    | true => simpa only [apply_ite Prod.snd] using releasedEdge call { t.inner with
      stuckWarned := false, heldBy := "nobody", assertedAt := none } rfl rfl

theorem unkeyOwnedEdge (s : Station) (generation : Nat) (works : Bool) :
    Edge s (s.unkeyOwned true generation works).2 := by
  unfold Station.unkeyOwned
  split
  · exact unkeyEdge s works
  · exact edgeRefl s

theorem extendOwnedEdge (s : Station) (generation now : Nat) :
    Edge s (s.extendOwned generation now).2 := by
  unfold Station.extendOwned
  split
  · rename_i owner
    simp only [Station.owns, Bool.and_eq_true] at owner
    exact .still rfl (by rw [owner.2]; rfl) rfl id
  · exact edgeRefl s

theorem forceReleaseEdge (s : Station) (works : Bool) : Edge s (s.forceRelease true works).2 := by
  unfold Station.forceRelease
  cases call : s.releasePtt works with
  | mk ok t =>
    cases ok with
    | false =>
      obtain ⟨-,-,rfl⟩ := releasePttFailed call
      exact .still rfl rfl rfl id
    | true => simpa only [apply_ite Prod.snd] using releasedEdge call { t.inner with
      assertedAt := none, stuckWarned := false, generation := wrappingInc t.inner.generation,
      heldBy := "nobody" } rfl rfl

theorem expiredArmed {s : Station} {now : Nat} (late : s.expired now = true) : s.armed = true := by
  unfold Station.expired at late
  cases deadline : s.inner.assertedAt with
  | none => simp [deadline] at late
  | some t => simp [Station.armed, deadline]

theorem forceReleaseIfExpiredEdge (s : Station) (now : Nat) (works : Bool) :
    Edge s (s.forceReleaseIfExpired true now works).2 := by
  unfold Station.forceReleaseIfExpired
  split
  · rename_i late
    cases call : s.releasePtt works with
    | mk ok t =>
      cases ok with
      | false =>
        obtain ⟨-,-,rfl⟩ := releasePttFailed call
        exact .still rfl rfl rfl id
      | true =>
        obtain ⟨same,edges,line⟩ := releasePttWorked call
        exact .fall (by simp [same]) (expiredArmed late) rfl (by simp [Station.pttChanged, edges]) line
  · exact edgeRefl s

structure Sound (d : Desk) : Prop where
  book : Booked d.ledger d.station.inner
  lineArmed : d.station.line = true → d.station.armed = true
  lineWired : d.station.line = true → d.station.inner.controller = true
  alternate : ∀ i b, d.station.edges[i]? = some b → (b = true ↔ i % 2 = 0)
  parity : d.station.armed = true ↔ d.station.edges.length % 2 = 1
  named : ∀ h ∈ d.guards, h.guard.observer = true ∧ h.guard.generation = h.key % 2 ^ 64 ∧
    h.key ≤ d.ledger.epoch

theorem alternateSnoc {edges : List Bool} (alternate : ∀ i b, edges[i]? = some b → (b = true ↔ i % 2 = 0))
    {e : Bool} (next : e = true ↔ edges.length % 2 = 0) :
    ∀ i b, (edges ++ [e])[i]? = some b → (b = true ↔ i % 2 = 0) := by
  intro i b found
  rcases Nat.lt_trichotomy i edges.length with inside | rfl | outside
  · rw [List.getElem?_append_left inside] at found
    exact alternate i b found
  · rw [List.getElem?_concat_length, Option.some.injEq] at found
    exact found ▸ next
  · have short : (edges ++ [e]).length ≤ i := by
      rw [List.length_append]
      exact outside
    rw [List.getElem?_eq_none short] at found
    cases found

theorem moveToSound {d : Desk} {s : Station} (sound : Sound d) (moved : Moved d.station.inner s.inner)
    (edge : Edge d.station s) : Sound (d.moveTo s) := by
  obtain ⟨book,lineArmed,lineWired,alternate,parity,named⟩ := sound
  have older := (followLive book moved).1
  have named : ∀ h ∈ (d.moveTo s).guards, h.guard.observer = true ∧
      h.guard.generation = h.key % 2 ^ 64 ∧ h.key ≤ (d.moveTo s).ledger.epoch := by
    intro h member
    obtain ⟨observer,stamp,old⟩ := named h member
    exact ⟨observer,stamp,le_trans old older⟩
  have book := followBooked book moved
  cases edge with
  | still wired armed edges line =>
    refine ⟨book,fun on => ?_,fun on => ?_,?_,?_,named⟩
    · exact armed.trans (lineArmed (line on))
    · exact wired.trans (lineWired (line on))
    · simpa [Desk.moveTo, edges] using alternate
    · simpa [Desk.moveTo, edges, armed] using parity
  | rise wired idle armed edges line =>
    have even : d.station.edges.length % 2 = 0 := by
      simp only [idle, Bool.false_eq_true, false_iff] at parity
      omega
    refine ⟨book,fun _ => armed,fun on => wired.trans ((line on).elim lineWired id),?_,?_,named⟩
    · simp only [Desk.moveTo, edges]
      exact alternateSnoc alternate (by simp [even])
    · simp only [Desk.moveTo, edges, armed, List.length_append, List.length_singleton, true_iff]
      omega
  | fall wired armed idle edges line =>
    have odd : d.station.edges.length % 2 = 1 := parity.mp armed
    have off : s.line ≠ true := by
      intro on
      have present := lineWired (line on).1
      rw [(line on).2] at present
      cases present
    refine ⟨book,fun on => absurd on off,fun on => absurd on off,?_,?_,named⟩
    · simp only [Desk.moveTo, edges]
      exact alternateSnoc alternate (by simp [odd])
    · simp only [Desk.moveTo, edges, idle, List.length_append, List.length_singleton, Bool.false_eq_true,
        false_iff]
      omega

theorem setGuardSound {d : Desk} (sound : Sound d) (i : Nat) {h h' : Held} (member : h ∈ d.guards)
    (same : h'.guard.observer = h.guard.observer ∧ h'.guard.generation = h.guard.generation ∧ h'.key = h.key) :
    Sound { d with guards := d.guards.set i h' } := by
  refine ⟨sound.book,sound.lineArmed,sound.lineWired,sound.alternate,sound.parity,?_⟩
  intro g inside
  rcases List.mem_or_eq_of_mem_set inside with old | rfl
  · exact sound.named g old
  · rw [same.1, same.2.1, same.2.2]
    exact sound.named h member

theorem releaseInnerGuard (g : PttKeyGuard) (s : Station) (works : Bool) :
    (g.releaseInner s works).2.1.observer = g.observer ∧
      (g.releaseInner s works).2.1.generation = g.generation := by
  unfold PttKeyGuard.releaseInner
  split <;> simp

theorem releaseGuardSound {d : Desk} (sound : Sound d) (i : Nat) {h : Held} (member : h ∈ d.guards)
    (works : Bool) : Sound (d.releaseGuard i h works) := by
  have observer := (sound.named h member).1
  have kept := releaseInnerGuard h.guard d.station works
  have moved : Moved d.station.inner (h.guard.releaseInner d.station works).2.2.inner := by
    unfold PttKeyGuard.releaseInner
    split
    · exact movedRefl _
    · exact unkeyOwnedMoved d.station h.guard.observer h.guard.generation works
  have edge : Edge d.station (h.guard.releaseInner d.station works).2.2 := by
    unfold PttKeyGuard.releaseInner
    split
    · exact edgeRefl _
    · rw [observer]
      exact unkeyOwnedEdge d.station h.guard.generation works
  exact setGuardSound (moveToSound sound moved edge) i member ⟨kept.1,kept.2,rfl⟩

theorem extendSound {d : Desk} (sound : Sound d) (h : Held) (now : Nat) :
    Sound (d.moveTo (h.guard.extend d.station now).2) := by
  unfold PttKeyGuard.extend
  split
  · exact moveToSound sound (movedRefl _) (edgeRefl _)
  · exact moveToSound sound (extendOwnedMoved _ _ _) (extendOwnedEdge _ _ _)

theorem keyedStation (s : Station) (observer : Bool) (now : Nat) (works : Bool) :
    (s.keyed observer now works).2 = (s.keyAs "automatic" observer now works).2 ∧
      ∀ g, (s.keyed observer now works).1 = .ok g →
        g = ⟨observer,false,(s.keyed observer now works).2.inner.generation⟩ := by
  unfold Station.keyed
  cases call : s.keyAs "automatic" observer now works with
  | mk result t =>
    cases result with
    | error e => simp
    | ok u =>
      refine ⟨rfl,?_⟩
      rintro g ⟨⟩
      rfl

theorem keyedSound {d : Desk} (sound : Sound d) (now : Nat) (works : Bool) :
    Sound (step d (.keyed now works)) := by
  obtain ⟨same,guard⟩ := keyedStation d.station true now works
  have moved := keyAsMoved d.station "automatic" true now works
  have edge := keyAsEdge d.station "automatic" now works
  rw [← same] at moved edge
  have next := moveToSound sound moved edge
  simp only [step]
  cases call : d.station.keyed true now works with
  | mk result s =>
    rw [call] at next guard
    cases result with
    | error e => exact next
    | ok g =>
      refine ⟨next.book,next.lineArmed,next.lineWired,next.alternate,next.parity,?_⟩
      intro h member
      rcases List.mem_append.mp member with old | new
      · exact next.named h old
      · rw [List.mem_singleton.mp new, guard g rfl]
        exact ⟨rfl,next.book.stamp,le_refl _⟩

theorem stepSound (d : Desk) (op : Op) (sound : Sound d) : Sound (step d op) := by
  cases op with
  | keyAs who now works => exact moveToSound sound (keyAsMoved _ _ _ _ _) (keyAsEdge _ _ _ _)
  | keyed now works => exact keyedSound sound now works
  | release i works =>
    simp only [step]
    cases found : d.guards[i]? with
    | none => exact sound
    | some h => exact releaseGuardSound sound i (List.mem_of_getElem? found) works
  | extend i now =>
    simp only [step]
    cases d.guards[i]? with
    | none => exact sound
    | some h => exact extendSound sound h now
  | unkey works => exact moveToSound sound (unkeyMoved _ _ _) (unkeyEdge _ _)
  | forceRelease works => exact moveToSound sound (forceReleaseMoved _ _ _) (forceReleaseEdge _ _)
  | forceReleaseIfExpired now works =>
    exact moveToSound sound (forceReleaseIfExpiredMoved _ _ _ _) (forceReleaseIfExpiredEdge _ _ _)

theorem idleSound (controller : Bool) (maxDuration : Nat) : Sound (idle controller maxDuration) where
  book := ⟨rfl,rfl⟩
  lineArmed := by simp [idle, new]
  lineWired := by simp [idle, new]
  alternate := by simp [idle, new]
  parity := by simp [idle, new, Station.armed]
  named := by simp [idle]

theorem runSound (controller : Bool) (maxDuration : Nat) (ops : List Op) :
    Sound (run step (idle controller maxDuration) ops) :=
  runInvariant stepSound (idleSound controller maxDuration) ops

structure Safe (d : Desk) : Prop where
  lineArmed : d.station.line = true → d.station.armed = true
  refused : d.station.armed = true → ∀ who now works,
    d.station.keyAs who true now works = (.error (.alreadyKeyed d.station.inner.heldBy), d.station)
  alternate : ∀ i b, d.station.edges[i]? = some b → (b = true ↔ i % 2 = 0)
  failedRelease : d.station.inner.controller = true → ∀ op, op.releaseFails = true →
    (step d op).station.inner.assertedAt = d.station.inner.assertedAt ∧ (step d op).station.line = d.station.line
  tick : ∀ t now, d.station.inner.assertedAt = some t → t + d.station.inner.maxDuration ≤ now →
    (d.station.forceReleaseIfExpired true now true).1 = true ∧
      (d.station.forceReleaseIfExpired true now true).2.line = false ∧
      (d.station.forceReleaseIfExpired true now true).2.armed = false
  stale : ∀ i h, d.guards[i]? = some h → d.ledger.live ≠ some h.key → d.ledger.epoch < h.key + 2 ^ 64 →
    ∀ works, (step d (.release i works)).station = d.station

theorem releasePttRefuses {s : Station} (controller : s.inner.controller = true) :
    s.releasePtt false = (false, { s with hardwareCalls := s.hardwareCalls + 1 }) := by
  simp [Station.releasePtt, controller]

theorem unkeyRefused {s : Station} (observer : Bool) (controller : s.inner.controller = true) :
    s.unkey observer false = (.failed, { s with hardwareCalls := s.hardwareCalls + 1 }) := by
  simp [Station.unkey, releasePttRefuses controller]

theorem releaseInnerRefused {s : Station} (g : PttKeyGuard) (controller : s.inner.controller = true) :
    (g.releaseInner s false).2.2.inner.assertedAt = s.inner.assertedAt ∧
      (g.releaseInner s false).2.2.line = s.line := by
  unfold PttKeyGuard.releaseInner Station.unkeyOwned
  split
  · exact ⟨rfl,rfl⟩
  · dsimp only
    split
    · rw [unkeyRefused g.observer controller]
      exact ⟨rfl,rfl⟩
    · exact ⟨rfl,rfl⟩

theorem failedReleaseKeeps (d : Desk) (controller : d.station.inner.controller = true) (op : Op)
    (fails : op.releaseFails = true) :
    (step d op).station.inner.assertedAt = d.station.inner.assertedAt ∧
      (step d op).station.line = d.station.line := by
  cases op with
  | keyAs => cases fails
  | keyed => cases fails
  | extend => cases fails
  | release i works =>
    obtain rfl : works = false := by simpa [Op.releaseFails] using fails
    simp only [step]
    cases d.guards[i]? with
    | none => exact ⟨rfl,rfl⟩
    | some h => exact releaseInnerRefused h.guard controller
  | unkey works =>
    obtain rfl : works = false := by simpa [Op.releaseFails] using fails
    simp [step, Desk.moveTo, unkeyRefused true controller]
  | forceRelease works =>
    obtain rfl : works = false := by simpa [Op.releaseFails] using fails
    simp [step, Desk.moveTo, Station.forceRelease, releasePttRefuses controller]
  | forceReleaseIfExpired now works =>
    obtain rfl : works = false := by simpa [Op.releaseFails] using fails
    simp only [step, Desk.moveTo, Station.forceReleaseIfExpired, releasePttRefuses controller]
    split <;> exact ⟨rfl,rfl⟩

theorem tickReleases {s : Station} (lineWired : s.line = true → s.inner.controller = true) {t now : Nat}
    (deadline : s.inner.assertedAt = some t) (late : t + s.inner.maxDuration ≤ now) :
    (s.forceReleaseIfExpired true now true).1 = true ∧
      (s.forceReleaseIfExpired true now true).2.line = false ∧
      (s.forceReleaseIfExpired true now true).2.armed = false := by
  have expired : s.expired now = true := by
    simp only [Station.expired, deadline, Option.any_some, decide_eq_true_eq]
    omega
  unfold Station.forceReleaseIfExpired
  rw [if_pos expired]
  cases call : s.releasePtt true with
  | mk ok u =>
    cases ok with
    | false => cases (releasePttFailed call).2.1
    | true =>
      obtain ⟨-,-,line⟩ := releasePttWorked call
      refine ⟨rfl,?_,rfl⟩
      by_contra on
      have on : u.line = true := by simpa [Station.pttChanged] using on
      have wired := lineWired (line on).1
      rw [(line on).2] at wired
      cases wired

theorem staleRelease {d : Desk} (sound : Sound d) {i : Nat} {h : Held} (found : d.guards[i]? = some h)
    (ended : d.ledger.live ≠ some h.key) (turn : d.ledger.epoch < h.key + 2 ^ 64) (works : Bool) :
    (step d (.release i works)).station = d.station := by
  obtain ⟨-,stamp,old⟩ := sound.named h (List.mem_of_getElem? found)
  have stranger : ¬ d.station.owns h.guard.generation = true := by
    rw [stamp]
    intro owner
    exact ended (ownsLive sound.book owner old turn)
  simp only [step, found, Desk.releaseGuard, Desk.moveTo, PttKeyGuard.releaseInner, Station.unkeyOwned, if_neg stranger]
  split <;> rfl

theorem safeRun (controller : Bool) (maxDuration : Nat) (ops : List Op) :
    Safe (run step (idle controller maxDuration) ops) := by
  have sound := runSound controller maxDuration ops
  refine ⟨sound.lineArmed,?_,sound.alternate,failedReleaseKeeps _,fun t now => tickReleases sound.lineWired,?_⟩
  · intro armed who now works
    simp [Station.keyAs, armed]
  · intro i h found ended turn works
    exact staleRelease sound found ended turn works

structure Resting (e : Nat) (guards : List Held) (d : Desk) : Prop where
  inner : d.station.inner = ⟨true,none,0,false,e % 2 ^ 64,"nobody"⟩
  ledger : d.ledger = ⟨e,none⟩
  guards : d.guards = guards

def lap : List Op := [.keyAs "manual" 0 true,.unkey true]

theorem lapResting {e : Nat} {guards : List Held} {d : Desk} (rest : Resting e guards d) :
    Resting (e + 1) guards (run step d lap) := by
  obtain ⟨inner,ledger,same⟩ := rest
  have differs : ¬ (e + 1) % 18446744073709551616 = e % 18446744073709551616 := by omega
  refine ⟨?_,?_,?_⟩ <;>
    simp [lap, step, Desk.moveTo, Station.keyAs, Station.armed, Station.assertPtt, Station.unkey,
      Station.releasePtt, Station.pttChanged, Ledger.follow, wrappingInc, inner, ledger, same, differs]

theorem lapsResting (n : Nat) {e : Nat} {guards : List Held} {d : Desk} (rest : Resting e guards d) :
    Resting (e + n) guards (run step d (List.replicate n lap).flatten) := by
  induction n generalizing e d with
  | zero => exact rest
  | succ n ih =>
    rw [List.replicate_succ, List.flatten_cons, runAppend, Nat.add_comm n 1, ← Nat.add_assoc]
    exact ih (lapResting rest)

def turn (n : Nat) : List Op :=
  [.keyed 0 true,.unkey true] ++ (List.replicate n lap).flatten ++ [.keyAs "manual" 0 true]

structure Overreach (d : Desk) : Prop where
  guard : d.guards[0]? = some ⟨⟨true,false,1⟩,1⟩
  ended : d.ledger.live ≠ some 1
  line : d.station.line = true
  dropped : (step d (.release 0 true)).station.line = false

theorem restingOverreach {n : Nat} {d : Desk} (rest : Resting (1 + n) [⟨⟨true,false,1⟩,1⟩] d)
    (around : (n + 2) % 2 ^ 64 = 1) :
    Overreach (step d (.keyAs "manual" 0 true)) := by
  obtain ⟨inner,ledger,guards⟩ := rest
  have next : ((1 + n) % 18446744073709551616 + 1) % 18446744073709551616 = 1 := by omega
  have differs : ¬ 1 = (1 + n) % 18446744073709551616 := by omega
  have other : n ≠ 0 := by omega
  refine ⟨?_,?_,?_,?_⟩ <;>
    simp [step, Desk.moveTo, Desk.releaseGuard, Station.keyAs, Station.armed, Station.assertPtt,
      Station.pttChanged, PttKeyGuard.releaseInner, Station.unkeyOwned, Station.owns, Station.unkey,
      Station.releasePtt, Ledger.follow, wrappingInc, inner, ledger, guards, next, differs, other]

theorem turnOverreach {n : Nat} (around : (n + 2) % 2 ^ 64 = 1) :
    Overreach (run step (idle true 0) (turn n)) := by
  have first : Resting 1 [⟨⟨true,false,1⟩,1⟩] (run step (idle true 0) [.keyed 0 true,.unkey true]) :=
    ⟨by decide,by decide,by decide⟩
  rw [turn, runAppend, runAppend]
  exact restingOverreach (lapsResting n first) around

theorem staleGuardAfterFullTurn : Overreach (run step (idle true 0) (turn (2 ^ 64 - 1))) :=
  turnOverreach (by decide)

end OpenPulse.PttSequential
