import OpenPulse.RelayFlood

/-! Whether other stations' traffic can cost a station its own: one relay hears
the same arrivals twice, once without and once with some extra ones. Entries of
the replay table are named by session and nonce alone, so the answer depends on
the names the extra envelopes use. -/
namespace OpenPulse.RelayReplay
open ByteCodec Tables Signing Wire Relay Runs RelayFlood

structure Arrival where
  extra : Bool
  envelope : WireEnvelope
  now : UInt64

def hear (ed : Ed25519) (f : RelayForwarder) (a : Arrival) : RelayForwarder := (f.forward ed a.envelope a.now).2

def withExtra (ed : Ed25519) (f : RelayForwarder) (past : List Arrival) : RelayForwarder := run (hear ed) f past

def withoutExtra (ed : Ed25519) (f : RelayForwarder) (past : List Arrival) : RelayForwarder :=
  run (hear ed) f (past.filter (fun a => !a.extra))

def Forwards (ed : Ed25519) (f : RelayForwarder) (a : Arrival) : Prop :=
  (f.forward ed a.envelope a.now).1 = .ok { a.envelope with hopIndex := a.envelope.hopIndex + 1 }

instance (ed : Ed25519) (f : RelayForwarder) (a : Arrival) : Decidable (Forwards ed f a) :=
  inferInstanceAs (Decidable (_ = _))

def Recordable (f : RelayForwarder) (e : WireEnvelope) : Prop :=
  e.hopIndex < e.hopLimit ∧ f.policy.allows (hexPeerId e.srcPeerId) = true

instance (f : RelayForwarder) (e : WireEnvelope) : Decidable (Recordable f e) := inferInstanceAs (Decidable (_ ∧ _))

def Spent (f : RelayForwarder) (past : List Arrival) (k : UInt64 × Nonce) : Prop :=
  ∃ b ∈ past, b.extra = true ∧ Recordable f b.envelope ∧ replayKey b.envelope = k

instance (f : RelayForwarder) (past : List Arrival) (k : UInt64 × Nonce) : Decidable (Spent f past k) :=
  inferInstanceAs (Decidable (∃ b ∈ past, _))

def HasRoom (f : RelayForwarder) (now : UInt64) : Prop := size (f.evictExpired now).seen < maxSeenEntries

instance (f : RelayForwarder) (now : UInt64) : Decidable (HasRoom f now) := inferInstanceAs (Decidable (_ < _))

/- What an arrival `a` after `past` meets. Only the last part is about `author`:
the other two say that the clock runs forward and that neither table is full. -/
def Undisturbed (ed : Ed25519) (f : RelayForwarder) (author : PeerId) (past : List Arrival) (a : Arrival) : Prop :=
  (∀ b ∈ past, b.now ≤ a.now) ∧
    (a.extra = false → HasRoom (withoutExtra ed f past) a.now ∧ HasRoom (withExtra ed f past) a.now ∧
      (a.envelope.srcPeerId = author → ¬ Spent f past (replayKey a.envelope)))

instance (ed : Ed25519) (f : RelayForwarder) (author : PeerId) (past : List Arrival) (a : Arrival) :
    Decidable (Undisturbed ed f author past a) :=
  inferInstanceAs (Decidable (_ ∧ _))

/-- The author's arrival gets through beside the extra ones if it gets through without them. -/
def NotSilenced (ed : Ed25519) (f : RelayForwarder) (author : PeerId) (past : List Arrival) (a : Arrival) : Prop :=
  a.extra = false → a.envelope.srcPeerId = author → a.envelope.verifyOrigin ed = .ok () →
    Forwards ed (withoutExtra ed f past) a → Forwards ed (withExtra ed f past) a

instance (ed : Ed25519) (f : RelayForwarder) (author : PeerId) (past : List Arrival) (a : Arrival) :
    Decidable (NotSilenced ed f author past a) :=
  inferInstanceAs (Decidable (_ → _))

def live (f : RelayForwarder) (now : UInt64) (k : UInt64 × Nonce) : Option UInt64 := (f.evictExpired now).seen.lookup k

structure Twins (f base ext : RelayForwarder) (past : List Arrival) : Prop where
  policies : base.policy = f.policy ∧ ext.policy = f.policy
  ttls : base.ttlMs = f.ttlMs ∧ ext.ttlMs = f.ttlMs
  agree : ∀ k, ¬ Spent f past k → ∀ now, (∀ b ∈ past, b.now ≤ now) → live ext now k = live base now k

section
variable {ed : Ed25519} {f base ext : RelayForwarder} {past : List Arrival} {a : Arrival}

theorem spentEarlier {k : UInt64 × Nonce} (free : ¬ Spent f (past ++ [a]) k) : ¬ Spent f past k := by
  rintro ⟨b,member,spent⟩
  exact free ⟨b,List.mem_append_left _ member,spent⟩

theorem laterAll {now : UInt64} (later : ∀ b ∈ past ++ [a], b.now ≤ now) :
    (∀ b ∈ past, b.now ≤ now) ∧ a.now ≤ now :=
  ⟨fun b member => later b (List.mem_append_left _ member),later a (by simp)⟩

theorem liveTwice (g h : RelayForwarder) {k : UInt64 × Nonce} {sooner now : UInt64} (order : sooner ≤ now)
    (sameTtl : g.ttlMs = h.ttlMs) (kept : g.seen.lookup k = live h sooner k) : live g now k = live h now k := by
  have order := UInt64.le_iff_toNat_le.mp order
  simp only [live, evictExpiredLookup] at kept ⊢
  rw [kept]
  cases found : h.seen.lookup k with
  | none => rfl
  | some t =>
    simp only [Option.filter, RelayForwarder.alive, sameTtl]
    by_cases young : now.toNat - t.toNat ≤ h.ttlMs.toNat
    · have younger : sooner.toNat - t.toNat ≤ h.ttlMs.toNat := by omega
      simp [young, younger]
    · by_cases younger : sooner.toNat - t.toNat ≤ h.ttlMs.toNat <;> simp [young, younger]

theorem heardLookup {k : UInt64 × Nonce} (other : Checked ed f a.envelope a.now → replayKey a.envelope ≠ k) :
    (hear ed f a).seen.lookup k = live f a.now k := by
  rcases (forwardCases ed f a.envelope a.now).1 with ⟨checked,-,seen⟩ | ⟨-,-,seen⟩
  · rw [hear, seen, lookupInsert, if_neg (fun same => other checked same.symm)]
    rfl
  · rw [hear, seen]
    rfl

theorem checkedTwin (twins : Twins f base ext past) (timely : ∀ b ∈ past, b.now ≤ a.now)
    (room : HasRoom ext a.now) (free : ¬ Spent f past (replayKey a.envelope))
    (checked : Checked ed base a.envelope a.now) : Checked ed ext a.envelope a.now where
  hop := checked.hop
  authentic := fun required => checked.authentic (by rw [twins.policies.1, ← twins.policies.2, required])
  room := room
  fresh := by
    have same := twins.agree _ free a.now timely
    rw [live, live, checked.fresh] at same
    exact same
  allowed := by
    rw [twins.policies.2, ← twins.policies.1]
    exact checked.allowed

theorem Twins.flip (twins : Twins f base ext past) : Twins f ext base past :=
  ⟨twins.policies.symm,twins.ttls.symm,fun k free now later => (twins.agree k free now later).symm⟩

theorem extraTwins (twins : Twins f base ext past) (extra : a.extra = true) : Twins f base (hear ed ext a) (past ++ [a]) where
  policies := ⟨twins.policies.1,by rw [hear, forwardPolicy, twins.policies.2]⟩
  ttls := ⟨twins.ttls.1,by rw [hear, forwardTtl, twins.ttls.2]⟩
  agree := by
    intro k free now later
    obtain ⟨earlier,order⟩ := laterAll later
    have other : Checked ed ext a.envelope a.now → replayKey a.envelope ≠ k := by
      intro checked same
      refine free ⟨a,by simp,extra,⟨checked.hop,?_⟩,same⟩
      rw [← twins.policies.2]
      exact checked.allowed
    rw [liveTwice (hear ed ext a) ext order forwardTtl (heardLookup other)]
    exact twins.agree k (spentEarlier free) now earlier

theorem ordinaryTwins (twins : Twins f base ext past) (timely : ∀ b ∈ past, b.now ≤ a.now)
    (room : HasRoom base a.now) (roomExt : HasRoom ext a.now) : Twins f (hear ed base a) (hear ed ext a) (past ++ [a]) where
  policies := ⟨by rw [hear, forwardPolicy, twins.policies.1],by rw [hear, forwardPolicy, twins.policies.2]⟩
  ttls := ⟨by rw [hear, forwardTtl, twins.ttls.1],by rw [hear, forwardTtl, twins.ttls.2]⟩
  agree := by
    intro k free now later
    obtain ⟨earlier,order⟩ := laterAll later
    have free := spentEarlier free
    by_cases recorded : Checked ed base a.envelope a.now ∧ replayKey a.envelope = k
    · -- both record the arrival
      obtain ⟨checked,rfl⟩ := recorded
      have checkedExt := checkedTwin twins timely roomExt free checked
      have seen := (forwardOk (forwardChecked checked)).2.2
      have seenExt := (forwardOk (forwardChecked checkedExt)).2.2
      simp only [live, evictExpiredLookup, hear, seen, seenExt, lookupInsert, if_true, Option.filter,
        RelayForwarder.alive, forwardTtl, twins.ttls]
    · -- neither does, or under another name
      have other : Checked ed base a.envelope a.now → replayKey a.envelope ≠ k :=
        fun checked same => recorded ⟨checked,same⟩
      have otherExt : Checked ed ext a.envelope a.now → replayKey a.envelope ≠ k := by
        rintro checked rfl
        exact other (checkedTwin twins.flip timely room free checked) rfl
      rw [liveTwice (hear ed ext a) ext order forwardTtl (heardLookup otherExt),
        liveTwice (hear ed base a) base order forwardTtl (heardLookup other)]
      exact twins.agree k free now earlier

theorem twinsStep {author : PeerId} (twins : Twins f (withoutExtra ed f past) (withExtra ed f past) past)
    (admitted : Undisturbed ed f author past a) :
    Twins f (withoutExtra ed f (past ++ [a])) (withExtra ed f (past ++ [a])) (past ++ [a]) := by
  cases extra : a.extra with
  | true =>
    have same : withoutExtra ed f (past ++ [a]) = withoutExtra ed f past := by simp [withoutExtra, extra]
    have heard : withExtra ed f (past ++ [a]) = hear ed (withExtra ed f past) a := runAppend ..
    rw [same, heard]
    exact extraTwins twins extra
  | false =>
    obtain ⟨room,roomExt,-⟩ := admitted.2 extra
    have heard : withExtra ed f (past ++ [a]) = hear ed (withExtra ed f past) a := runAppend ..
    have heardBase : withoutExtra ed f (past ++ [a]) = hear ed (withoutExtra ed f past) a := by
      simp [withoutExtra, extra, runAppend]
    rw [heardBase, heard]
    exact ordinaryTwins twins admitted.1 room roomExt

theorem notSilencedStep {author : PeerId} (twins : Twins f (withoutExtra ed f past) (withExtra ed f past) past)
    (admitted : Undisturbed ed f author past a) : NotSilenced ed f author past a := by
  intro ordinary written _ forwarded
  obtain ⟨-,roomExt,free⟩ := admitted.2 ordinary
  have checked := (forwardOk forwarded).1
  exact forwardChecked (checkedTwin twins admitted.1 roomExt (free written) checked)

end

theorem notSilenced (ed : Ed25519) (f : RelayForwarder) (author : PeerId) (arrivals : List Arrival)
    (admitted : EveryStep (fun past a => past ++ [a]) (Undisturbed ed f author) [] arrivals) :
    EveryStep (fun past a => past ++ [a]) (NotSilenced ed f author) [] arrivals := by
  refine (everyStepInvariant (I := fun past => Twins f (withoutExtra ed f past) (withExtra ed f past) past)
    (fun _ _ twins => twinsStep twins) (fun _ _ twins => notSilencedStep twins) ?_ admitted).2
  exact ⟨⟨rfl,rfl⟩,⟨rfl,rfl⟩,fun _ _ _ _ => rfl⟩

def shadow : WireEnvelope :=
  { hello with srcPeerId := filled 32 2, payload := [33], signature := some (filled 64 6) }

def bystander : WireEnvelope := { shadow with nonce := filled 12 4 }

def station : RelayForwarder := .new 100 .default

/- A single authentic envelope of another originator, heard ten milliseconds
earlier, and the author's is dropped as a duplicate. -/
theorem shadowSilences :
    let ed := signedOnly [hello,shadow]
    let past : List Arrival := [⟨true,shadow,10⟩]
    shadow.verifyOrigin ed = .ok () ∧ shadow.srcPeerId ≠ hello.srcPeerId ∧ hello.verifyOrigin ed = .ok () ∧
      Forwards ed (withoutExtra ed station past) ⟨false,hello,20⟩ ∧
      ((withExtra ed station past).forward ed hello 20).1 = .error .duplicateDetected ∧
      ¬ EveryStep (fun past a => past ++ [a]) (NotSilenced ed station hello.srcPeerId) [] (past ++ [⟨false,hello,20⟩]) := by
  decide +kernel

theorem bystanderHarmless :
    let ed := signedOnly [hello,bystander]
    let arrivals : List Arrival := [⟨true,bystander,10⟩,⟨false,hello,20⟩]
    bystander.verifyOrigin ed = .ok () ∧ bystander.srcPeerId ≠ hello.srcPeerId ∧
      Forwards ed (withoutExtra ed station [⟨true,bystander,10⟩]) ⟨false,hello,20⟩ ∧
      EveryStep (fun past a => past ++ [a]) (NotSilenced ed station hello.srcPeerId) [] arrivals :=
  ⟨by decide +kernel,by decide +kernel,by decide +kernel,notSilenced _ _ _ _ (by decide +kernel)⟩

end OpenPulse.RelayReplay
