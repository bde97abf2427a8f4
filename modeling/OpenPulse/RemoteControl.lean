import Mathlib.Algebra.Group.Nat.Defs
import OpenPulse.Handshake
import OpenPulse.Json
import OpenPulse.Runs
import OpenPulse.Tables

/-! Signed remote rig control: `openpulse-core/src/remote_control.rs`. A command is
accepted when its signature, its sender and its time are good and its signature is
not in the replay cache, from which old entries are evicted as the clock advances. -/
namespace OpenPulse.RemoteControl
open ByteCodec Signing Trust Runs Tables
open Handshake (TrustStore)

inductive RemoteControlError where
  | invalidSignature
  | insufficientTrust (level : PublicKeyTrustLevel)
  | unknownSender (station : String)
  | pubkeyMismatch (station : String)
  | replayWindowExpired (skew : Int64)
  | replayed
  deriving DecidableEq, Repr

def levelDebug : PublicKeyTrustLevel → String
  | .full => "Full"
  | .marginal => "Marginal"
  | .unknown => "Unknown"
  | .untrusted => "Untrusted"
  | .revoked => "Revoked"

def RemoteControlError.display : RemoteControlError → String
  | invalidSignature => "signature verification failed"
  | insufficientTrust level => "sender trust level insufficient (need Full, got " ++ levelDebug level ++ ")"
  | unknownSender station => "sender pubkey not found in trust store for station '" ++ station ++ "'"
  | pubkeyMismatch station => "trust store pubkey mismatch for station '" ++ station ++ "'"
  | replayWindowExpired skew => "command timestamp outside replay window (skew " ++ toString skew.toInt ++ " ms)"
  | replayed => "replayed command (signature already seen)"

inductive RigCtrlCmdType where
  | setFreq | setMode | pttOn | pttOff
  deriving DecidableEq, Repr

def RigCtrlCmdType.name : RigCtrlCmdType → String
  | setFreq => "set_freq"
  | setMode => "set_mode"
  | pttOn => "ptt_on"
  | pttOff => "ptt_off"

structure RigCtrlCmdBody where
  cmd : RigCtrlCmdType
  rig : String
  freqHz : Option UInt64
  mode : Option String
  tsMs : UInt64
  senderId : String
  deriving DecidableEq, Repr

structure RigCtrlCmd where
  body : RigCtrlCmdBody
  senderPubkey : PeerId
  signature : Signature
  deriving DecidableEq

structure ValidatedRigCmd where
  cmd : RigCtrlCmdType
  rig : String
  freqHz : Option UInt64
  mode : Option String
  senderId : String
  deriving DecidableEq, Repr

/- An absent frequency or mode is not written at all. -/
def RigCtrlCmdBody.members (body : RigCtrlCmdBody) : List Json.Member :=
  [("cmd",.text body.cmd.name),("rig",.text body.rig)] ++
    (body.freqHz.map fun f => ("freq_hz",Json.Value.number f.toNat)).toList ++
    (body.mode.map fun m => ("mode",Json.Value.text m)).toList ++
    [("ts_ms",.number body.tsMs.toNat),("sender_id",.text body.senderId)]

def RigCtrlCmdBody.toVec (body : RigCtrlCmdBody) : Bytes := utf8 (String.ofList (Json.write body.members))

def createRigCtrlCmd (ed : Ed25519) (body : RigCtrlCmdBody) (signingKeySeed : Seed) : Except SigningError RigCtrlCmd := do
  let sig ← signInDomain ed .rigCtrlCmd signingKeySeed body.toVec
  return ⟨body,ed.verifyingKey signingKeySeed,sig⟩

def RigCtrlCmdBody.validated (body : RigCtrlCmdBody) : ValidatedRigCmd :=
  ⟨body.cmd,body.rig,body.freqHz,body.mode,body.senderId⟩

structure RemoteControlHandler where
  replayCache : Table Signature UInt64
  replayWindowMs : UInt64

namespace RemoteControlHandler

def new : RemoteControlHandler := ⟨∅,30000⟩

def evictExpired (h : RemoteControlHandler) (nowMs : UInt64) : RemoteControlHandler :=
  let cutoff := nowMs.toNat - h.replayWindowMs.toNat
  { h with replayCache := retain (fun _ ts => if cutoff ≤ ts.toNat then some ts else none) h.replayCache }

/- The two times are cast to signed numbers before they are subtracted. -/
def skewOf (tsMs nowMs : UInt64) : Int64 := tsMs.toInt64 - nowMs.toInt64

def handle (ed : Ed25519) (h : RemoteControlHandler) (cmd : RigCtrlCmd) (trustStore : TrustStore) (nowMs : UInt64) :
    Except RemoteControlError ValidatedRigCmd × RemoteControlHandler :=
  if ed.fromBytes cmd.senderPubkey = false then (.error .invalidSignature,h)
  else if verifyInDomain ed .rigCtrlCmd cmd.senderPubkey cmd.body.toVec cmd.signature = false then
    (.error .invalidSignature,h)
  else match trustStore.pubkeyFor cmd.body.senderId with
  | none => (.error (.unknownSender cmd.body.senderId),h)
  | some storedPubkey =>
    if storedPubkey ≠ cmd.senderPubkey then (.error (.pubkeyMismatch cmd.body.senderId),h)
    else
      let level := trustStore.trustLevel cmd.body.senderId
      if level ≠ .full then (.error (.insufficientTrust level),h)
      else
        let skew := skewOf cmd.body.tsMs nowMs
        if h.replayWindowMs.toNat < skew.toInt.natAbs then (.error (.replayWindowExpired skew),h)
        else
          let h := h.evictExpired nowMs
          if (h.replayCache.lookup cmd.signature).isSome then (.error .replayed,h)
          else (.ok cmd.body.validated,{ h with replayCache := h.replayCache.insert cmd.signature cmd.body.tsMs })

end RemoteControlHandler

theorem nameInj {a b : RigCtrlCmdType} (same : a.name = b.name) : a = b := by
  cases a <;> cases b <;> first | rfl | exact absurd same (by decide)

theorem membersInj {a b : RigCtrlCmdBody} (same : a.members = b.members) : a = b := by
  obtain ⟨cmd,rig,freq,mode,ts,sender⟩ := a
  obtain ⟨cmd',rig',freq',mode',ts',sender'⟩ := b
  have kinds : cmd = cmd' := by
    apply nameInj
    simp only [RigCtrlCmdBody.members, List.cons_append, List.cons.injEq, Prod.mk.injEq, Json.Value.text.injEq] at same
    exact same.1.2
  cases freq <;> cases freq' <;> cases mode <;> cases mode' <;>
    simp_all [RigCtrlCmdBody.members, UInt64.toNat_inj]

theorem toVecInj {a b : RigCtrlCmdBody} (same : a.toVec = b.toVec) : a = b := by
  have texts := String.ofList_injective (utf8Inj same)
  exact membersInj (Json.writeInj texts)

structure Call where
  cmd : RigCtrlCmd
  trustStore : TrustStore
  nowMs : UInt64

def Near (window tsMs nowMs : UInt64) : Prop := ((tsMs.toNat : Int) - nowMs.toNat).natAbs ≤ window.toNat

instance (window tsMs nowMs : UInt64) : Decidable (Near window tsMs nowMs) := by unfold Near; infer_instance

structure Passes (ed : Ed25519) (window : UInt64) (c : Call) : Prop where
  point : ed.fromBytes c.cmd.senderPubkey = true
  verified : verifyInDomain ed .rigCtrlCmd c.cmd.senderPubkey c.cmd.body.toVec c.cmd.signature = true
  bound : c.trustStore.pubkeyFor c.cmd.body.senderId = some c.cmd.senderPubkey
  trusted : c.trustStore.trustLevel c.cmd.body.senderId = .full
  near : Near window c.cmd.body.tsMs c.nowMs

def Call.Early (c : Call) : Prop := c.cmd.body.tsMs.toNat < 2 ^ 63 ∧ c.nowMs.toNat < 2 ^ 63

variable (ed : Ed25519)

def Call.handle (h : RemoteControlHandler) (c : Call) : Except RemoteControlError ValidatedRigCmd × RemoteControlHandler :=
  h.handle ed c.cmd c.trustStore c.nowMs

def Call.accept (h : RemoteControlHandler) (c : Call) : List Call × RemoteControlHandler :=
  match c.handle ed h with
  | (.ok _,next) => ([c],next)
  | (.error _,next) => ([],next)

def accepted (window : UInt64) (calls : List Call) : List Call := outputs (Call.accept ed) ⟨∅,window⟩ calls

def handlerAfter (window : UInt64) (calls : List Call) : RemoteControlHandler :=
  run (fun h c => (c.handle ed h).2) ⟨∅,window⟩ calls

def signatures (calls : List Call) : List Signature := calls.map (·.cmd.signature)

theorem toInt64Exact {n : UInt64} (small : n.toNat < 2 ^ 63) : n.toInt64.toInt = n.toNat := by
  have fits : 2 * n.toBitVec.toNat < 2 ^ 64 := by
    rw [UInt64.toNat_toBitVec]
    omega
  exact BitVec.toInt_eq_toNat_of_lt fits

theorem skewExact {tsMs nowMs : UInt64} (ts : tsMs.toNat < 2 ^ 63) (now : nowMs.toNat < 2 ^ 63) :
    (RemoteControlHandler.skewOf tsMs nowMs).toInt = (tsMs.toNat : Int) - nowMs.toNat := by
  rw [RemoteControlHandler.skewOf, Int64.toInt_sub, toInt64Exact ts, toInt64Exact now]
  apply Int.bmod_eq_of_le
  all_goals omega

theorem handleCases (h : RemoteControlHandler) {c : Call} (early : c.Early) :
    (¬ Passes ed h.replayWindowMs c ∧ ∃ e, c.handle ed h = (.error e,h)) ∨
    (Passes ed h.replayWindowMs c ∧ ((h.evictExpired c.nowMs).replayCache.lookup c.cmd.signature).isSome ∧
      c.handle ed h = (.error .replayed,h.evictExpired c.nowMs)) ∨
    (Passes ed h.replayWindowMs c ∧ (h.evictExpired c.nowMs).replayCache.lookup c.cmd.signature = none ∧
      c.handle ed h = (.ok c.cmd.body.validated,{ h.evictExpired c.nowMs with
        replayCache := (h.evictExpired c.nowMs).replayCache.insert c.cmd.signature c.cmd.body.tsMs })) := by
  have skew := skewExact early.1 early.2
  unfold Call.handle RemoteControlHandler.handle
  by_cases point : ed.fromBytes c.cmd.senderPubkey = false
  · rw [if_pos point]
    exact .inl ⟨fun passes => by simp [passes.point] at point,_,rfl⟩
  rw [if_neg point]
  by_cases verified : verifyInDomain ed .rigCtrlCmd c.cmd.senderPubkey c.cmd.body.toVec c.cmd.signature = false
  · rw [if_pos verified]
    exact .inl ⟨fun passes => by simp [passes.verified] at verified,_,rfl⟩
  rw [if_neg verified]
  cases known : c.trustStore.pubkeyFor c.cmd.body.senderId with
  | none => exact .inl ⟨fun passes => by simp [passes.bound] at known,_,rfl⟩
  | some key =>
    dsimp only
    by_cases other : key ≠ c.cmd.senderPubkey
    · rw [if_pos other]
      exact .inl ⟨fun passes => other (Option.some.inj (known.symm.trans passes.bound)),_,rfl⟩
    rw [if_neg other]
    by_cases level : c.trustStore.trustLevel c.cmd.body.senderId ≠ .full
    · rw [if_pos level]
      exact .inl ⟨fun passes => level passes.trusted,_,rfl⟩
    rw [if_neg level]
    by_cases late : h.replayWindowMs.toNat < (RemoteControlHandler.skewOf c.cmd.body.tsMs c.nowMs).toInt.natAbs
    · rw [if_pos late]
      exact .inl ⟨fun passes => Nat.not_lt.mpr passes.near (skew ▸ late),_,rfl⟩
    rw [if_neg late]
    have passes : Passes ed h.replayWindowMs c :=
      ⟨by simpa using point,by simpa using verified,by rw [known, not_not.mp other],not_not.mp level,
        by rw [skew] at late; exact Nat.not_lt.mp late⟩
    by_cases seen : ((h.evictExpired c.nowMs).replayCache.lookup c.cmd.signature).isSome
    · rw [if_pos seen]
      exact .inr (.inl ⟨passes,seen,rfl⟩)
    · rw [if_neg seen]
      exact .inr (.inr ⟨passes,by simpa using seen,rfl⟩)

theorem lookupEvicted (h : RemoteControlHandler) (nowMs : UInt64) (sig : Signature) (ts : UInt64) :
    (h.evictExpired nowMs).replayCache.lookup sig = some ts ↔
      h.replayCache.lookup sig = some ts ∧ nowMs.toNat ≤ ts.toNat + h.replayWindowMs.toNat := by
  simp only [RemoteControlHandler.evictExpired, lookupRetain, Option.bind_eq_some_iff, Option.ite_none_right_eq_some,
    Option.some.injEq]
  constructor
  · rintro ⟨_,found,kept,rfl⟩
    exact ⟨found,by omega⟩
  · rintro ⟨found,kept⟩
    exact ⟨ts,found,by omega,rfl⟩

/- What a run has accepted against what the handler remembers. An accepted
signature leaves the cache only once its time is out of the window. -/
structure Sound (window : UInt64) (before accepted : List Call) (h : RemoteControlHandler) : Prop where
  fixed : h.replayWindowMs = window
  remembered : ∀ a ∈ accepted, h.replayCache.lookup a.cmd.signature = some a.cmd.body.tsMs ∨
    ∃ b ∈ before, a.cmd.body.tsMs.toNat + window.toNat < b.nowMs.toNat
  cached : ∀ sig ts, h.replayCache.lookup sig = some ts → sig ∈ signatures accepted
  passed : ∀ a ∈ accepted, a ∈ before ∧ Passes ed window a
  distinct : (signatures accepted).Nodup

def Rebinds (window : UInt64) (before : List Call) (c : Call) : Prop :=
  ∀ a ∈ before, Passes ed window a → Passes ed window c → a.cmd.signature = c.cmd.signature →
    a.cmd.body.tsMs = c.cmd.body.tsMs

namespace Sound

variable {ed} {window : UInt64} {before acc : List Call} {h : RemoteControlHandler}

theorem start (window : UInt64) : Sound ed window [] [] ⟨∅,window⟩ :=
  ⟨rfl,by simp,by simp,by simp,by simp [signatures]⟩

theorem fresh (sound : Sound ed window before acc h) {c : Call} (later : ∀ b ∈ before, b.nowMs ≤ c.nowMs)
    (rebinds : Rebinds ed window before c) (passes : Passes ed window c) :
    (h.evictExpired c.nowMs).replayCache.lookup c.cmd.signature = none ↔ c.cmd.signature ∉ signatures acc := by
  have near := passes.near
  unfold Near at near
  constructor
  · intro gone member
    obtain ⟨a,known,same⟩ := List.mem_map.mp member
    obtain ⟨earlier,before⟩ := sound.passed a known
    have times := rebinds a earlier before passes same
    rcases sound.remembered a known with held | ⟨b,passed,out⟩
    · rw [same, times] at held
      have kept := (lookupEvicted h c.nowMs _ _).mpr ⟨held,by rw [sound.fixed]; omega⟩
      rw [gone] at kept
      cases kept
    · have order := UInt64.le_iff_toNat_le.mp (later b passed)
      rw [times] at out
      omega
  · intro unknown
    cases found : (h.evictExpired c.nowMs).replayCache.lookup c.cmd.signature with
    | none => rfl
    | some ts => exact absurd (sound.cached _ ts ((lookupEvicted h c.nowMs _ ts).mp found).1) unknown

theorem acceptIff (sound : Sound ed window before acc h) {c : Call} (early : c.Early)
    (later : ∀ b ∈ before, b.nowMs ≤ c.nowMs) (rebinds : Rebinds ed window before c) :
    (c.handle ed h).1 = .ok c.cmd.body.validated ↔ Passes ed window c ∧ c.cmd.signature ∉ signatures acc := by
  have cases := handleCases ed h early
  rw [sound.fixed] at cases
  rcases cases with ⟨fails,e,call⟩ | ⟨passes,seen,call⟩ | ⟨passes,gone,call⟩
  · simp [call, fails]
  · have found : (h.evictExpired c.nowMs).replayCache.lookup c.cmd.signature ≠ none := Option.isSome_iff_ne_none.mp seen
    rw [Ne, sound.fresh later rebinds passes] at found
    simp [call, found]
  · simp [call, passes, (sound.fresh later rebinds passes).mp gone]

theorem evicted (sound : Sound ed window before acc h) (c : Call) :
    Sound ed window (before ++ [c]) acc (h.evictExpired c.nowMs) where
  fixed := sound.fixed
  remembered := by
    intro a known
    rcases sound.remembered a known with held | ⟨b,passed,out⟩
    · by_cases inside : c.nowMs.toNat ≤ a.cmd.body.tsMs.toNat + window.toNat
      · exact .inl ((lookupEvicted h c.nowMs _ _).mpr ⟨held,by rw [sound.fixed]; exact inside⟩)
      · exact .inr ⟨c,by simp,Nat.not_le.mp inside⟩
    · exact .inr ⟨b,by simp [passed],out⟩
  cached := fun sig ts found => sound.cached sig ts ((lookupEvicted h c.nowMs sig ts).mp found).1
  passed := fun a known => ⟨List.mem_append_left _ (sound.passed a known).1,(sound.passed a known).2⟩
  distinct := sound.distinct

theorem refused (sound : Sound ed window before acc h) (c : Call) : Sound ed window (before ++ [c]) acc h where
  fixed := sound.fixed
  remembered := fun a known => (sound.remembered a known).imp id fun ⟨b,passed,out⟩ => ⟨b,by simp [passed],out⟩
  cached := sound.cached
  passed := fun a known => ⟨List.mem_append_left _ (sound.passed a known).1,(sound.passed a known).2⟩
  distinct := sound.distinct

theorem inserted {c : Call} (sound : Sound ed window (before ++ [c]) acc h) (passes : Passes ed window c)
    (unknown : c.cmd.signature ∉ signatures acc) :
    Sound ed window (before ++ [c]) (acc ++ [c])
      { h with replayCache := h.replayCache.insert c.cmd.signature c.cmd.body.tsMs } where
  fixed := sound.fixed
  remembered := by
    intro a known
    rcases List.mem_append.mp known with old | new
    · have other : a.cmd.signature ≠ c.cmd.signature := fun same => unknown (List.mem_map.mpr ⟨a,old,same⟩)
      simpa [lookupInsert, other] using sound.remembered a old
    · rw [List.mem_singleton.mp new]
      exact .inl (by simp)
  cached := by
    intro sig ts found
    rw [lookupInsert] at found
    split_ifs at found with same
    · simp [signatures, same]
    · simpa [signatures] using .inl (List.mem_map.mp (sound.cached sig ts found))
  passed := by
    intro a known
    rcases List.mem_append.mp known with old | new
    · exact sound.passed a old
    · rw [List.mem_singleton.mp new]
      exact ⟨by simp,passes⟩
  distinct := by
    have alone : (signatures acc ++ [c.cmd.signature]).Nodup :=
      List.nodup_append.mpr ⟨sound.distinct,by simp,fun x member y here =>
        fun same => unknown (List.mem_singleton.mp here ▸ same ▸ member)⟩
    simpa [signatures] using alone

theorem step (sound : Sound ed window before acc h) {c : Call} (early : c.Early)
    (later : ∀ b ∈ before, b.nowMs ≤ c.nowMs) (rebinds : Rebinds ed window before c) :
    Sound ed window (before ++ [c]) (acc ++ (c.accept ed h).1) (c.handle ed h).2 := by
  have cases := handleCases ed h early
  rw [sound.fixed] at cases
  rcases cases with ⟨fails,e,call⟩ | ⟨passes,seen,call⟩ | ⟨passes,gone,call⟩
  · simpa [Call.accept, call] using sound.refused c
  · simpa [Call.accept, call] using sound.evicted c
  · simpa [Call.accept, call] using (sound.evicted c).inserted passes ((sound.fresh later rebinds passes).mp gone)

end Sound

structure Made where
  key : PeerId
  message : Bytes
  signature : Signature
  deriving DecidableEq

def RigCtrlCmdBody.message (body : RigCtrlCmdBody) : Bytes :=
  SigningDomain.rigCtrlCmd.tag ++ SigningDomain.rigCtrlCmd.version :: body.toVec

def Unforged (log : List Made) (calls : List Call) : Prop :=
  ∀ c ∈ calls, ed.verifyStrict c.cmd.senderPubkey c.cmd.body.message c.cmd.signature = true →
    ⟨c.cmd.senderPubkey,c.cmd.body.message,c.cmd.signature⟩ ∈ log

def Binding (log : List Made) : Prop := ∀ a ∈ log, ∀ b ∈ log, a.signature = b.signature → a.message = b.message

variable {ed} {log : List Made} {window : UInt64}

theorem messageInj {a b : RigCtrlCmdBody} (same : a.message = b.message) : a = b :=
  toVecInj (List.cons.inj (List.append_cancel_left same)).2

theorem Passes.made {c : Call} (passes : Passes ed window c) {calls : List Call} (unforged : Unforged ed log calls)
    (member : c ∈ calls) : ⟨c.cmd.senderPubkey,c.cmd.body.message,c.cmd.signature⟩ ∈ log := by
  have verified : (ed.fromBytes c.cmd.senderPubkey && ed.verifyStrict c.cmd.senderPubkey c.cmd.body.message c.cmd.signature)
    = true := passes.verified
  exact unforged c member (Bool.and_eq_true_iff.mp verified).2

theorem rebinds {calls before : List Call} {c : Call} (unforged : Unforged ed log calls) (binding : Binding log)
    (part : ∀ b ∈ before, b ∈ calls) (member : c ∈ calls) : Rebinds ed window before c := by
  intro a earlier first second same
  have messages := binding _ (first.made unforged (part a earlier)) _ (second.made unforged member) same
  rw [messageInj messages]

/- What is asked of a run: the clock does not go back, no time reaches the sign bit,
and signatures are neither forged nor shared. -/
structure Admitted (ed : Ed25519) (log : List Made) (calls : List Call) : Prop where
  ordered : calls.Pairwise fun a b => a.nowMs ≤ b.nowMs
  early : ∀ c ∈ calls, c.Early
  unforged : Unforged ed log calls
  binding : Binding log

theorem Admitted.init {calls more : List Call} (admitted : Admitted ed log (calls ++ more)) : Admitted ed log calls where
  ordered := (List.pairwise_append.mp admitted.ordered).1
  early := fun c member => admitted.early c (List.mem_append_left more member)
  unforged := fun c member => admitted.unforged c (List.mem_append_left more member)
  binding := admitted.binding

theorem Admitted.last {before : List Call} {c : Call} (admitted : Admitted ed log (before ++ [c])) :
    c.Early ∧ (∀ b ∈ before, b.nowMs ≤ c.nowMs) ∧ Rebinds ed window before c :=
  ⟨admitted.early c (by simp),fun b member => (List.pairwise_append.mp admitted.ordered).2.2 b member c (by simp),
    rebinds admitted.unforged admitted.binding (fun _ member => List.mem_append_left [c] member) (by simp)⟩

theorem acceptNext (h : RemoteControlHandler) (c : Call) : (c.accept ed h).2 = (c.handle ed h).2 := by
  unfold Call.accept
  rcases c.handle ed h with ⟨_ | _,next⟩ <;> rfl

theorem acceptedSnoc (ed : Ed25519) (window : UInt64) (before : List Call) (c : Call) :
    accepted ed window (before ++ [c]) = accepted ed window before ++ (c.accept ed (handlerAfter ed window before)).1 := by
  simp [accepted, outputsAppend, outputs, handlerAfter, acceptNext]

theorem handlerSnoc (ed : Ed25519) (window : UInt64) (before : List Call) (c : Call) :
    handlerAfter ed window (before ++ [c]) = (c.handle ed (handlerAfter ed window before)).2 := by
  rw [handlerAfter, runAppend, runCons, runNil, ← handlerAfter]

theorem soundAfter (window : UInt64) {calls : List Call} (admitted : Admitted ed log calls) :
    Sound ed window calls (accepted ed window calls) (handlerAfter ed window calls) := by
  induction calls using List.reverseRecOn with
  | nil => exact Sound.start window
  | append_singleton before c ih =>
    obtain ⟨early,later,rebinds⟩ := admitted.last
    rw [acceptedSnoc, handlerSnoc]
    exact (ih admitted.init).step early later rebinds

theorem refusedLeaves {h : RemoteControlHandler} {c : Call} (early : c.Early) {e : RemoteControlError}
    (refused : (c.handle ed h).1 = .error e) {sig : Signature} {ts : UInt64}
    (found : (c.handle ed h).2.replayCache.lookup sig = some ts) : h.replayCache.lookup sig = some ts := by
  rcases handleCases ed h early with ⟨-,_,call⟩ | ⟨-,-,call⟩ | ⟨-,-,call⟩
  · rwa [call] at found
  · rw [call] at found
    exact ((lookupEvicted h c.nowMs sig ts).mp found).1
  · rw [call] at refused
    cases refused

theorem createdPasses (correct : ed.Correct) {body : RigCtrlCmdBody} {seed : Seed} {cmd : RigCtrlCmd}
    (created : createRigCtrlCmd ed body seed = .ok cmd) {store : TrustStore} {nowMs : UInt64}
    (known : store.pubkeyFor body.senderId = some (ed.verifyingKey seed))
    (trusted : store.trustLevel body.senderId = .full) (near : Near window body.tsMs nowMs) :
    Passes ed window ⟨cmd,store,nowMs⟩ := by
  obtain ⟨point,verifies⟩ := correct seed body.message
  cases created
  exact ⟨point,Bool.and_eq_true_iff.mpr ⟨point,verifies⟩,known,trusted,near⟩

theorem noReplay (ed : Ed25519) (log : List Made) (window : UInt64) (calls : List Call) (admitted : Admitted ed log calls) :
    (signatures (accepted ed window calls)).Nodup ∧
    (∀ c ∈ accepted ed window calls, c ∈ calls ∧ ∃ key, c.trustStore.pubkeyFor c.cmd.body.senderId = some key ∧
      ⟨key,c.cmd.body.message,c.cmd.signature⟩ ∈ log ∧ OfDomain .rigCtrlCmd c.cmd.body.message ∧
      c.trustStore.trustLevel c.cmd.body.senderId = .full ∧ Near window c.cmd.body.tsMs c.nowMs) ∧
    (∀ before c after, calls = before ++ c::after →
      ((c.handle ed (handlerAfter ed window before)).1 = .ok c.cmd.body.validated ↔
        Passes ed window c ∧ c.cmd.signature ∉ signatures (accepted ed window before)) ∧
      ∀ e, (c.handle ed (handlerAfter ed window before)).1 = .error e → ∀ sig ts,
        (handlerAfter ed window (before ++ [c])).replayCache.lookup sig = some ts →
          (handlerAfter ed window before).replayCache.lookup sig = some ts) := by
  have sound := soundAfter window admitted
  refine ⟨sound.distinct,?_,?_⟩
  · intro c member
    obtain ⟨inside,passes⟩ := sound.passed c member
    refine ⟨inside,_,passes.bound,passes.made admitted.unforged inside,?_,passes.trusted,passes.near⟩
    exact ⟨c.cmd.body.toVec,by simp [RigCtrlCmdBody.message]⟩
  · rintro before c after rfl
    have prior : Admitted ed log (before ++ [c]) := by
      have whole : before ++ c::after = (before ++ [c]) ++ after := by simp
      exact (whole ▸ admitted).init
    obtain ⟨early,later,rebinds⟩ := prior.last
    refine ⟨(soundAfter window prior.init).acceptIff early later rebinds,?_⟩
    intro e refused sig ts found
    rw [handlerSnoc] at found
    exact refusedLeaves early refused found

def station : Seed := filled 32 7

def keyUp : RigCtrlCmdBody := ⟨.pttOn,"a",none,none,1000,"N0CALL"⟩

def keyUpCmd : RigCtrlCmd := ⟨keyUp,station,tagScheme.sign station keyUp.message⟩

def trusting : TrustStore := ⟨fun _ => some station,fun _ => .full⟩

def keyUpRun : List Call := [⟨keyUpCmd,trusting,1000⟩,⟨keyUpCmd,trusting,31000⟩,⟨keyUpCmd,trusting,31001⟩]

theorem keyUpAdmitted : Admitted tagScheme [⟨station,keyUp.message,keyUpCmd.signature⟩] keyUpRun where
  ordered := by decide
  early := by simp [keyUpRun, Call.Early, keyUpCmd, keyUp]
  unforged := by simp [Unforged, keyUpRun, keyUpCmd]
  binding := by simp [Binding]

theorem keyUpPasses : Passes tagScheme 30000 ⟨keyUpCmd,trusting,1000⟩ :=
  createdPasses tagSchemeCorrect rfl rfl rfl (by decide)

theorem noReplayKeyUp : (signatures (accepted tagScheme 30000 keyUpRun)).Nodup ∧
    (Call.handle tagScheme (handlerAfter tagScheme 30000 []) ⟨keyUpCmd,trusting,1000⟩).1 = .ok keyUp.validated := by
  obtain ⟨distinct,-,decided⟩ := noReplay tagScheme _ 30000 keyUpRun keyUpAdmitted
  obtain ⟨first,-⟩ := decided [] _ _ rfl
  exact ⟨distinct,first.mpr ⟨keyUpPasses,by simp [accepted, outputs, signatures]⟩⟩

end OpenPulse.RemoteControl
