import Mathlib.Data.List.Nodup
import OpenPulse.BlockBounds
import OpenPulse.FileTransfers
import OpenPulse.FxProtocol

/-! What the daemon stores of what it receives. A file is announced when it is whole and on the
disk, under a name nothing had; and before somebody agreed to a transfer none of its bytes reach
the disk. -/
namespace OpenPulse.FileStorage
open Runs ByteCodec FxWire Signing Sar Tables FileBlocks FxSessions FileTransfers
open BlockBounds (Bounded Geometry ingestBounded seedBounded)
open Downloads hiding FileTransferPolicy writeFile
open Receiver (ReceiverSession OfferDecision)
open Receiver.ReceiverSession

structure Tally (offer : FileOffer) (s : ReceiverSession) : Prop where
  ids : s.transferId = offer.transferId
  count : s.blockCount = offer.blockCount
  width : s.blocksDone.length = offer.blockCount.toNat
  done : s.doneCount.toNat = s.blocksDone.countP id

variable {offer : FileOffer} {s : ReceiverSession}

theorem Tally.again (tally : Tally offer s) (state : Receiver.State) (deadline : UInt64) :
    Tally offer { s with state, deadline } := ⟨tally.ids,tally.count,tally.width,tally.done⟩

theorem Tally.marked (tally : Tally offer s) {i : UInt16} (unset : s.blocksDone[i.toNat]? = some false) (nowMs : UInt64) :
    Tally offer (s.markDone i nowMs) := by
  have counted := FxProtocol.countSetDone unset
  have most : (s.blocksDone.set i.toNat true).countP id ≤ (s.blocksDone.set i.toNat true).length := List.countP_le_length
  have bound := offer.blockCount.toNat_lt
  refine ⟨tally.ids,tally.count,by rw [markDone, List.length_set, tally.width],?_⟩
  rw [List.length_set, tally.width] at most
  change (s.doneCount + 1).toNat = (s.blocksDone.set i.toNat true).countP id
  rw [counted] at most ⊢
  rw [UInt16.toNat_add, UInt16.toNat_one, tally.done]
  omega

theorem Tally.allDone (tally : Tally offer s) (whole : s.doneCount = s.blockCount) {k : Nat} (inside : k < offer.blockCount.toNat) :
    s.blocksDone[k]? = some true := by
  have all : s.blocksDone.countP id = s.blocksDone.length := by rw [← tally.done, whole, tally.count, tally.width]
  have here : k < s.blocksDone.length := by rw [tally.width]; exact inside
  rw [List.getElem?_eq_getElem here]
  exact congrArg some (List.countP_eq_length.mp all _ (List.getElem_mem here))

def Plain : FxAction → Prop
  | .verify _ => False
  | .finished outcome => ∀ verified, outcome.result ≠ .received verified
  | .transmit _ | .sendBlock .. | .prompt _ | .progress .. => True

inductive Answer (offer : FileOffer) : List FxAction × ReceiverSession → Prop where
  | plain {actions s} (each : ∀ a ∈ actions, Plain a) : Answer offer (actions,s)
  | verify {actions s} (each : ∀ a ∈ actions, Plain a) (state : s.state = .verifying)
      (whole : s.doneCount = s.blockCount) : Answer offer (actions ++ [.verify s.transferId],s)

theorem verifyAnswer {actions : List FxAction} (each : ∀ a ∈ actions, Plain a) (nowMs : UInt64) :
    Answer offer (s.verifyWhenDone actions nowMs) := by
  unfold verifyWhenDone
  split
  next whole =>
    exact .verify (s := { s with state := .verifying, deadline := saturatingAdd nowMs s.timeouts.verifyMs }) each rfl whole
  next => exact .plain each

theorem beginAnswer (s : ReceiverSession) (nowMs : UInt64) : Answer offer (s.beginReceiving nowMs) :=
  verifyAnswer (by simp [Plain, progress]) nowMs

theorem verifyTally (tally : Tally offer s) (actions : List FxAction) (nowMs : UInt64) :
    Tally offer (s.verifyWhenDone actions nowMs).2 ∧ (s.verifyWhenDone actions nowMs).2.blocksDone = s.blocksDone := by
  unfold verifyWhenDone
  split
  · exact ⟨tally.again _ _,rfl⟩
  · exact ⟨tally,rfl⟩

abbrev Announcement := String × String × Nat × Path × Bool

def announcement : ControlEvent → Option Announcement
  | .fileReceived _ sender name size path verified => some (name,sender,size,path,verified)
  | _ => none

def announced (rs : RuntimeControlState) : List Announcement := rs.events.filterMap announcement

def summarised (f : FileSummary) : Announcement := (f.name,f.sender,f.size,f.path,f.verified)

structure Quiet (rs after : RuntimeControlState) : Prop where
  link : after.toRuntimeControlState = rs.toRuntimeControlState
  policy : after.filexferPolicy = rs.filexferPolicy
  disk : after.disk = rs.disk
  files : after.receivedFiles = rs.receivedFiles
  announced : announced after = announced rs

theorem quietRefl (rs : RuntimeControlState) : Quiet rs rs := ⟨rfl,rfl,rfl,rfl,rfl⟩

theorem Quiet.trans {a b c : RuntimeControlState} (first : Quiet a b) (last : Quiet b c) : Quiet a c :=
  ⟨last.link.trans first.link,last.policy.trans first.policy,last.disk.trans first.disk,last.files.trans first.files,
    last.announced.trans first.announced⟩

theorem quietSend {event : ControlEvent} (other : announcement event = none) (rs : RuntimeControlState) : Quiet rs (rs.send event) :=
  ⟨rfl,rfl,rfl,rfl,by simp [announced, RuntimeControlState.send, List.filterMap_append, other]⟩

theorem quietQueued {ε : Type} (mode : String) (fragments : Except ε (List Bytes)) (rs : RuntimeControlState) :
    Quiet rs (queued mode fragments rs) ∧ (queued mode fragments rs).fileRx = rs.fileRx := by
  unfold queued
  split
  · exact ⟨⟨rfl,rfl,rfl,rfl,rfl⟩,rfl⟩
  · exact ⟨quietRefl rs,rfl⟩

variable {lib : Library} {w : World} {mode : String} {fx : FxRxState} {rs : RuntimeControlState}

theorem quietAction (mode : String) (verify : FxRxState × RuntimeControlState → FxRxState × RuntimeControlState) {a : FxAction}
    (plain : Plain a) (s : FxRxState × RuntimeControlState) :
    (rxAction mode verify s a).1 = s.1 ∧ Quiet s.2 (rxAction mode verify s a).2 := by
  cases a with
  | transmit frame => exact ⟨rfl,(quietQueued ..).1⟩
  | sendBlock blockIndex missing => exact ⟨rfl,quietRefl s.2⟩
  | prompt transferId => exact ⟨rfl,quietRefl s.2⟩
  | verify transferId => exact plain.elim
  | progress transferId blocksDone blocksTotal => exact ⟨rfl,quietSend rfl s.2⟩
  | finished outcome =>
    refine ⟨rfl,?_⟩
    simp only [rxAction, emitTerminal]
    split
    next verified same => exact absurd same (plain verified)
    next => exact quietSend rfl s.2
    next => exact quietSend rfl s.2
    next => exact quietSend rfl s.2
    next => exact quietRefl s.2

theorem quietActions (mode : String) (verify : FxRxState × RuntimeControlState → FxRxState × RuntimeControlState)
    {actions : List FxAction} (each : ∀ a ∈ actions, Plain a) (s : FxRxState × RuntimeControlState) :
    (actions.foldl (rxAction mode verify) s).1 = s.1 ∧ Quiet s.2 (actions.foldl (rxAction mode verify) s).2 := by
  induction actions generalizing s with
  | nil => exact ⟨rfl,quietRefl s.2⟩
  | cons a actions ih =>
    obtain ⟨same,quiet⟩ := quietAction mode verify (each a (by simp)) s
    obtain ⟨later,quietly⟩ := ih (fun b member => each b (List.mem_cons_of_mem a member)) (rxAction mode verify s a)
    exact ⟨later.trans same,quiet.trans quietly⟩

def Verified (lib : Library) (fx : FxRxState) (payload : Bytes) : Bool := (integrity lib fx payload).1 && (integrity lib fx payload).2

structure Stores (lib : Library) (w : World) (fx : FxRxState) (rs after : RuntimeControlState) (payload : Bytes) (path : Path)
    (disk : Disk) : Prop where
  state : fx.receiver.state = .verifying
  whole : fx.assembler.reassemble = some payload
  size : payload.length = fx.offer.fileSize.toNat
  wrote : writeFile w rs.filexferPolicy rs.disk fx.sender fx.offer.name payload (Verified lib fx payload) = (.ok path,disk)
  disk : after.disk = w.removeDirAll disk fx.partialDir
  files : after.receivedFiles =
    rs.receivedFiles ++ [⟨fx.offer.name,fx.sender,payload.length,Verified lib fx payload,path,w.timestampSecs⟩]
  announced : announced after = announced rs ++ [(fx.offer.name,fx.sender,payload.length,path,Verified lib fx payload)]

structure Refuses (lib : Library) (w : World) (fx : FxRxState) (rs after : RuntimeControlState) (payload : Bytes) (error : String) :
    Prop where
  state : fx.receiver.state = .verifying
  whole : fx.assembler.reassemble = some payload
  size : payload.length = fx.offer.fileSize.toNat
  wrote : writeFile w rs.filexferPolicy rs.disk fx.sender fx.offer.name payload (Verified lib fx payload) = (.error error,after.disk)
  files : after.receivedFiles = rs.receivedFiles
  announced : announced after = announced rs

inductive Left (lib : Library) (w : World) (fx : FxRxState) (rs after : RuntimeControlState) : Prop where
  | going (quiet : Quiet rs after)
  | stored (payload : Bytes) (path : Path) (disk : Disk) (stores : Stores lib w fx rs after payload path disk)
  | refused (payload : Bytes) (error : String) (refuses : Refuses lib w fx rs after payload error)

theorem Left.settled {before after : RuntimeControlState} (left : Left lib w fx rs after) (quiet : Quiet before rs)
    (fileRx : Option FxRxState) : Left lib w fx before { after with fileRx } := by
  cases left with
  | going later => exact .going (quiet.trans (later.trans ⟨rfl,rfl,rfl,rfl,rfl⟩))
  | stored payload path disk stores =>
    refine .stored payload path disk ⟨stores.state,stores.whole,stores.size,?_,stores.disk,?_,?_⟩
    · rw [← quiet.policy, ← quiet.disk]
      exact stores.wrote
    · rw [← quiet.files]
      exact stores.files
    · rw [← quiet.announced]
      exact stores.announced
  | refused payload error refuses =>
    refine .refused payload error ⟨refuses.state,refuses.whole,refuses.size,?_,refuses.files.trans quiet.files,refuses.announced.trans quiet.announced⟩
    rw [← quiet.policy, ← quiet.disk]
    exact refuses.wrote

structure Called (lib : Library) (w : World) (fx : FxRxState) (rs after : RuntimeControlState) : Prop where
  link : after.toRuntimeControlState = rs.toRuntimeControlState
  policy : after.filexferPolicy = rs.filexferPolicy
  slot : after.fileRx = none ∨ (after.fileRx = some fx ∧ fx.receiver.isTerminal = false ∧ Quiet rs after)
  left : Left lib w fx rs after

theorem storeLeaves (rs : RuntimeControlState) {payload : Bytes} (state : fx.receiver.state = .verifying)
    (whole : fx.assembler.reassemble = some payload)
    (size : payload.length = fx.offer.fileSize.toNat) {after : RuntimeControlState}
    (quiet : Quiet (storePayload w payload (Verified lib fx payload) (fx,rs)).2 after) :
    after.toRuntimeControlState = rs.toRuntimeControlState ∧ after.filexferPolicy = rs.filexferPolicy ∧ Left lib w fx rs after := by
  simp only [storePayload] at quiet
  split at quiet
  next path disk wrote =>
    refine ⟨quiet.link,quiet.policy,.stored payload path disk ⟨state,whole,size,wrote,quiet.disk,quiet.files,?_⟩⟩
    rw [quiet.announced]
    simp [announced, RuntimeControlState.send, List.filterMap_append, announcement]
  next error disk wrote =>
    refine ⟨quiet.link,quiet.policy,.refused payload error ⟨state,whole,size,?_,quiet.files,?_⟩⟩
    · rw [wrote, quiet.disk]
      rfl
    · rw [quiet.announced]
      simp [announced, RuntimeControlState.send, List.filterMap_append, announcement]

theorem storeSession (w : World) (payload : Bytes) (verified : Bool) (fx : FxRxState) (rs : RuntimeControlState) :
    (storePayload w payload verified (fx,rs)).1 = { fx with fileReceivedEmitted := true } := by
  simp only [storePayload]
  split
  · rfl
  · rfl

theorem finishLeaves (lib : Library) (w : World) (mode : String) (fx : FxRxState) (rs : RuntimeControlState) {payload : Bytes} (whole : fx.assembler.reassemble = some payload)
    (size : payload.length = fx.offer.fileSize.toNat) (state : fx.receiver.state = .verifying) :
    let s := finishVerify lib w mode (fx,rs)
    s.1.receiver.isTerminal = true ∧ s.2.toRuntimeControlState = rs.toRuntimeControlState ∧
      s.2.filexferPolicy = rs.filexferPolicy ∧ Left lib w fx rs s.2 := by
  intro s
  have stored := storeSession w payload (Verified lib fx payload) fx rs
  have verifying : ¬ fx.receiver.state ≠ .verifying := not_not.mpr state
  obtain ⟨frame,verdict,done⟩ : ∃ frame verdict,
      s = ({ fx with fileReceivedEmitted := true, receiver := { fx.receiver with state := .terminal } },
        emitTerminal fx.receiver.transferId (.received verdict) { fx with fileReceivedEmitted := true, receiver := { fx.receiver with state := .terminal } }
          (enqueueCtrl mode frame (storePayload w payload (Verified lib fx payload) (fx,rs)).2)) := by
    simp only [s, finishVerify, reassembleVerifyWrite, whole, size, ne_eq, not_true_eq_false, if_false]
    rw [← Verified, stored, setVerifyResult, if_neg verifying]
    exact ⟨_,_,rfl⟩
  have quiet : Quiet (storePayload w payload (Verified lib fx payload) (fx,rs)).2 s.2 := by
    rw [done]
    exact (quietQueued ..).1
  rw [done] at quiet ⊢
  exact ⟨rfl,storeLeaves rs state whole size quiet⟩

theorem callLeaves (lib : Library) (w : World) (mode : String) (fx : FxRxState) (rs : RuntimeControlState) {out : List FxAction × ReceiverSession}
    (answer : Answer fx.offer out)
    (whole : out.2.doneCount = out.2.blockCount →
      ∃ payload, fx.assembler.reassemble = some payload ∧ payload.length = fx.offer.fileSize.toNat) :
    Called lib w { fx with receiver := out.2 } rs (callRx lib w mode fx out rs) := by
  have start : Quiet rs { rs with fileRx := none } := ⟨rfl,rfl,rfl,rfl,rfl⟩
  cases answer with
  | @plain actions s each =>
    obtain ⟨same,quiet⟩ := quietActions mode (finishVerify lib w mode) each
      ({ fx with receiver := s },{ rs with fileRx := none })
    have settled : Quiet rs (callRx lib w mode fx (actions,s) rs) := by
      refine start.trans (quiet.trans ⟨rfl,rfl,rfl,rfl,rfl⟩)
    refine ⟨settled.link,settled.policy,?_,.going settled⟩
    have slot : (callRx lib w mode fx (actions,s) rs).fileRx = if s.isTerminal then none else some { fx with receiver := s } := by
      simp only [callRx, settleRx, driveRxActions, same]
    rw [slot]
    cases ended : s.isTerminal with
    | true => exact Or.inl rfl
    | false => exact Or.inr ⟨rfl,rfl,settled⟩
  | @verify actions s each state done =>
    obtain ⟨same,quiet⟩ := quietActions mode (finishVerify lib w mode) each
      ({ fx with receiver := s },{ rs with fileRx := none })
    obtain ⟨payload,whole,size⟩ := whole done
    obtain ⟨closed,link,policy,left⟩ := finishLeaves lib w mode { fx with receiver := s }
      (actions.foldl (rxAction mode (finishVerify lib w mode)) ({ fx with receiver := s },{ rs with fileRx := none })).2 whole size state
    have last : driveRxActions lib w mode (actions ++ [.verify s.transferId]) ({ fx with receiver := s },{ rs with fileRx := none }) =
        finishVerify lib w mode ({ fx with receiver := s },
          (actions.foldl (rxAction mode (finishVerify lib w mode)) ({ fx with receiver := s },{ rs with fileRx := none })).2) := by
      rw [driveRxActions, List.foldl_append, List.foldl_cons, List.foldl_nil, rxAction]
      congr 1
      exact Prod.ext same rfl
    have begun := start.trans quiet
    have settled : callRx lib w mode fx (actions ++ [.verify s.transferId],s) rs =
        settleRx (finishVerify lib w mode ({ fx with receiver := s },
          (actions.foldl (rxAction mode (finishVerify lib w mode)) ({ fx with receiver := s },{ rs with fileRx := none })).2)) := by
      rw [callRx, last]
    rw [settled]
    refine ⟨link.trans begun.link,policy.trans begun.policy,Or.inl ?_,left.settled begun _⟩
    simp only [settleRx, closed, if_true]

def InPartial (policy : Downloads.FileTransferPolicy) (path : Path) : Prop :=
  ∃ sender name, peerDir policy sender ++ [partialSubdir,name] <+: path

structure Grows (policy : Downloads.FileTransferPolicy) (P : Path → Bytes → Prop) (before after : Disk) : Prop where
  keeps : ∀ path bytes, ¬ InPartial policy path → before.lookup path = some bytes → after.lookup path = some bytes
  adds : ∀ path bytes, after.lookup path = some bytes → before.lookup path = some bytes ∨ P path bytes

variable {policy : Downloads.FileTransferPolicy} {P : Path → Bytes → Prop}

theorem growsRefl (disk : Disk) : Grows policy P disk disk := ⟨fun _ _ _ found => found,fun _ _ => Or.inl⟩

theorem Grows.trans {a b c : Disk} (first : Grows policy P a b) (last : Grows policy P b c) : Grows policy P a c := by
  refine ⟨fun path bytes outside found => last.keeps path bytes outside (first.keeps path bytes outside found),
    fun path bytes found => ?_⟩
  rcases last.adds path bytes found with old | new
  · exact first.adds path bytes old
  · exact Or.inr new

theorem putGrows {disk : Disk} {path : Path} {bytes : Bytes} (free : disk.lookup path = none ∨ InPartial policy path)
    (new : ∀ n, P path (bytes.take n)) : Grows policy P disk (w.put disk path bytes).1 := by
  have inserted : ∀ n, Grows policy P disk (disk.insert path (bytes.take n)) := by
    intro n
    refine ⟨fun p b outside found => ?_,fun p b found => ?_⟩
    · rw [lookupInsert, if_neg]
      · exact found
      · rintro rfl
        rcases free with none | inside
        · rw [none] at found
          cases found
        · exact outside inside
    · rw [lookupInsert] at found
      split at found
      next here =>
        cases found
        exact Or.inr (here ▸ new n)
      next => exact Or.inl found
  unfold World.put
  split
  · exact List.take_length (l := bytes) ▸ inserted bytes.length
  · exact growsRefl disk
  · exact inserted _

theorem removeGrows (w : World) (disk : Disk) {dir : Path} (inside : ∃ sender name, peerDir policy sender ++ [partialSubdir,name] <+: dir) :
    Grows policy P disk (w.removeDirAll disk dir) := by
  refine ⟨fun path bytes outside found => ?_,fun path bytes found => ?_⟩
  · have other : dir.isPrefixOf path = false := by
      cases under : dir.isPrefixOf path with
      | false => rfl
      | true =>
        obtain ⟨sender,name,above⟩ := inside
        exact absurd ⟨sender,name,above.trans (List.isPrefixOf_iff_prefix.mp under)⟩ outside
    rw [World.removeDirAll, lookupRetain, found, Option.bind_some, other]
    rfl
  · rw [World.removeDirAll, lookupRetain] at found
    obtain ⟨old,there,kept⟩ := Option.bind_eq_some_iff.mp found
    split at kept
    · cases kept
    · cases kept
      exact Or.inl there

theorem partialDirInside (policy : Downloads.FileTransferPolicy) (sender : String) (sha256 : Bytes) :
    ∃ s name, peerDir policy s ++ [partialSubdir,name] <+: partialDirFor policy sender sha256 :=
  ⟨sender,hex sha256,List.prefix_refl _⟩

theorem purgeGrows (w : World) (policy : FileTransferPolicy) (sender : String) (disk : Disk) :
    Grows policy.toFileTransferPolicy P disk (purgeStalePartials w policy sender disk) := by
  unfold purgeStalePartials
  split
  · exact growsRefl disk
  · dsimp only
    generalize subdirs disk (peerDir policy.toFileTransferPolicy sender ++ [partialSubdir]) = names
    induction names generalizing disk with
    | nil => exact growsRefl disk
    | cons name names ih =>
      rw [List.foldl_cons]
      refine Grows.trans ?_ (ih _)
      split
      · exact removeGrows w disk ⟨sender,name,by rw [List.append_assoc]; exact List.prefix_refl _⟩
      · exact growsRefl disk

theorem freePath {disk : Disk} {path : Path} (free : pathExists disk path = false) : disk.lookup path = none := by
  cases found : disk.lookup path with
  | none => rfl
  | some bytes =>
    have key : path ∈ disk.keys := AList.mem_keys.mp (AList.lookup_isSome.mp (by rw [found]; rfl))
    rw [pathExists, List.any_eq_false] at free
    exact absurd (List.isPrefixOf_iff_prefix.mpr (List.prefix_refl path)) (free path key)

theorem writeFileStored {policy : FileTransferPolicy} {disk after : Disk} {sender name : String} {payload : Bytes} {verified : Bool}
    {path : Path} (wrote : writeFile w policy disk sender name payload verified = (.ok path,after)) :
    (∃ file, path = peerDir policy.toFileTransferPolicy sender ++ [file]) ∧ disk.lookup path = none ∧
      after = disk.insert path payload := by
  simp only [writeFile] at wrote
  split at wrote
  · cases wrote
  next there found =>
    obtain ⟨inside,free⟩ := uniquePathDir found
    unfold World.put at wrote
    split at wrote
    next put =>
      split at put
      · cases put
        cases wrote
        exact ⟨inside,freePath free,rfl⟩
      · cases put
      · cases put
    next => cases wrote

theorem writeFileGrows (w : World) {policy : FileTransferPolicy} (disk : Disk) {sender : String} (name : String) {payload : Bytes}
    (verified : Bool) (new : ∀ file n, P (peerDir policy.toFileTransferPolicy sender ++ [file]) (payload.take n)) :
    Grows policy.toFileTransferPolicy P disk (writeFile w policy disk sender name payload verified).2 := by
  simp only [writeFile]
  split
  · exact growsRefl disk
  next path found =>
    obtain ⟨⟨file,rfl⟩,free⟩ := uniquePathDir found
    have put : Grows policy.toFileTransferPolicy P disk (w.put disk _ payload).1 := putGrows (Or.inl (freePath free)) (new file)
    split
    next same => simpa only [same] using put
    next same => simpa only [same] using put

def offerGeometry (offer : FileOffer) : Geometry := ⟨offer.blockCount,offer.blockSize,offer.fileSize⟩

theorem sizeCovered (geometry : Resume.offerGeometryOk offer = true) :
    offer.fileSize.toNat ≤ offer.blockCount.toNat * offer.blockSize.toNat := by
  obtain ⟨least,-,counted⟩ := Resume.geometrySizes geometry
  have positive : 0 < offer.blockSize.toNat := Nat.lt_of_lt_of_le (by decide) least
  unfold FileBlocks.blockCount at counted
  rw [if_neg (by omega)] at counted
  simp only at counted
  split at counted
  next small =>
    have same := Option.some.inj counted
    have bound : max ((offer.fileSize.toNat + offer.blockSize.toNat - 1) / offer.blockSize.toNat) 1 < 65536 :=
      Nat.lt_of_le_of_lt small (by decide)
    have enough : (offer.fileSize.toNat + offer.blockSize.toNat - 1) / offer.blockSize.toNat ≤ offer.blockCount.toNat := by
      rw [← same, Nat.toUInt16_eq, UInt16.toNat_ofNat', Nat.mod_eq_of_lt bound]
      exact Nat.le_max_left ..
    have ceiling := (Nat.div_le_iff_le_mul_add_pred positive).mp enough
    rw [Nat.mul_comm] at ceiling
    omega
  next => cases counted

theorem mapMDefined {A B : Type} {f : A → Option B} {xs : List A} (each : ∀ x ∈ xs, (f x).isSome) : ∃ ys, xs.mapM f = some ys := by
  induction xs with
  | nil => exact ⟨[],rfl⟩
  | cons x xs ih =>
    obtain ⟨y,first⟩ := Option.isSome_iff_exists.mp (each x (by simp))
    obtain ⟨ys,rest⟩ := ih fun z member => each z (List.mem_cons_of_mem x member)
    exact ⟨y::ys,by rw [List.mapM_cons, first, rest]; rfl⟩

theorem wholePayload {a : BlockAssembler} (bounded : Bounded (offerGeometry offer) a) (geometry : Resume.offerGeometryOk offer = true)
    (all : ∀ k < offer.blockCount.toNat, (a.blocks.lookup k.toUInt16).isSome) :
    ∃ payload, a.reassemble = some payload ∧ payload.length = offer.fileSize.toNat := by
  have count : a.blockCount = offer.blockCount := congrArg Geometry.blockCount bounded.same
  have each : ∀ k ∈ List.range a.blockCount.toNat, (a.blocks.lookup k.toUInt16).isSome := by
    intro k member
    exact all k (by rw [← count]; exact List.mem_range.mp member)
  obtain ⟨parts,read⟩ := mapMDefined each
  have whole : a.reassemble = some parts.flatten := by
    rw [BlockAssembler.reassemble, if_pos (by rw [BlockAssembler.isComplete, List.all_eq_true]; exact each), read]
    rfl
  refine ⟨parts.flatten,whole,?_⟩
  rw [bounded.reassembled whole, Nat.min_eq_left]
  · rfl
  · exact sizeCovered geometry

section Keeping
variable (lib : Library) (policy : FileTransferPolicy)

/- `Heard` tells which offers came in, each with the key of its sender, and `Agreed` which of them were agreed to. -/
variable (Heard : FileOffer → Option PeerId → Prop) (Agreed : FileOffer → Prop)

def signed (offer : FileOffer) (key : Option PeerId) : Bool := key.any fun pk => (offer.verifySignature lib.ed pk).isOk

structure Offered (offer : FileOffer) (sender : String) (key : Option PeerId) : Prop where
  heard : Heard offer key
  enabled : policy.offer.enabled = true
  size : offer.fileSize ≤ policy.offer.maxFileBytes
  verified : policy.offer.requireVerifiedPeer = true → signed lib offer key = true
  geometry : Resume.offerGeometryOk offer = true
  allowed : policy.peerAllowed lib sender = true
  sender : sender = if signed lib offer key then offer.senderId.id else ""

structure Received (f : FileSummary) (offer : FileOffer) (key : Option PeerId) (payload : Bytes) : Prop where
  offered : Offered lib policy Heard offer f.sender key
  agreed : Agreed offer
  name : f.name = offer.name
  size : f.size = offer.fileSize.toNat
  length : payload.length = f.size
  place : ∃ file, f.path = peerDir policy.toFileTransferPolicy f.sender ++ [file]
  verified : f.verified = (lib.sha256 payload == offer.sha256 && signed lib offer key)

/- What may appear on the disk: part of an agreed file, under the directory of its sender. -/
def Due (path : Path) (bytes : Bytes) : Prop :=
  ∃ offer sender key, Offered lib policy Heard offer sender key ∧ Agreed offer ∧
    peerDir policy.toFileTransferPolicy sender <+: path ∧ bytes.length ≤ offer.fileSize.toNat

end Keeping

structure Terms where
  policy : FileTransferPolicy
  Heard : FileOffer → Option PeerId → Prop
  Agreed : FileOffer → Prop
  Room : Disk → Option FxRxState → Prop

def Terms.Grown (t : Terms) (lib : Library) (before after : Disk) : Prop :=
  Grows t.policy.toFileTransferPolicy (Due lib t.policy t.Heard t.Agreed) before after

section Invariant
variable (lib : Library) (t : Terms)

structure Session (fx : FxRxState) : Prop where
  tally : Tally fx.offer fx.receiver
  bounded : Bounded (offerGeometry fx.offer) fx.assembler
  held : ∀ k < fx.offer.blockCount.toNat, fx.receiver.blocksDone[k]? = some true → (fx.assembler.blocks.lookup k.toUInt16).isSome
  partialDir : fx.partialDir = partialDirFor t.policy.toFileTransferPolicy fx.sender fx.offer.sha256.val
  offered : Offered lib t.policy t.Heard fx.offer fx.sender fx.peerPubkey
  accepted : fx.receiver.state = .receiving ∨ fx.receiver.state = .verifying → t.Agreed fx.offer

structure Inv (rs : RuntimeControlState) : Prop where
  samePolicy : rs.filexferPolicy = t.policy
  slot : ∀ fx, rs.fileRx = some fx → Session lib t fx
  announced : announced rs = rs.receivedFiles.map summarised
  paths : (rs.receivedFiles.map FileSummary.path).Nodup
  files : ∀ f ∈ rs.receivedFiles, ∃ offer key payload,
    Received lib t.policy t.Heard t.Agreed f offer key payload ∧ rs.disk.lookup f.path = some payload
  room : t.Room rs.disk rs.fileRx

structure Admits (w : World) : Prop where
  drop : ∀ disk fx, t.Room disk (some fx) → t.Room disk none
  turn : ∀ disk fx receiver assembler, t.Room disk (some fx) → t.Room disk (some { fx with receiver, assembler })
  purge : ∀ disk sender, t.Room disk none → t.Room (purgeStalePartials w t.policy sender disk) none
  offer : ∀ disk fx, Session lib t fx → t.Room disk none →
    quotaWouldExceed t.policy.toFileTransferPolicy disk fx.sender fx.offer.fileSize.toNat = false →
      t.Room (purgeStalePartials w t.policy fx.sender disk) (some fx)
  persist : ∀ disk fx i block, Session lib t fx → t.Room disk (some fx) → fx.assembler.block i = some block →
    t.Room (persistBlock w disk fx.partialDir i block) (some fx)
  store : ∀ disk fx payload verified path written, Session lib t fx → t.Room disk (some fx) →
    payload.length = fx.offer.fileSize.toNat → writeFile w t.policy disk fx.sender fx.offer.name payload verified = (.ok path,written) →
      t.Room (w.removeDirAll written fx.partialDir) none
  refuse : ∀ disk fx payload verified error written, Session lib t fx → t.Room disk (some fx) →
    payload.length = fx.offer.fileSize.toNat → writeFile w t.policy disk fx.sender fx.offer.name payload verified = (.error error,written) →
      t.Room written none

def Keeps (rs after : RuntimeControlState) : Prop :=
  Inv lib t rs → Inv lib t after ∧ after.toRuntimeControlState = rs.toRuntimeControlState ∧ t.Grown lib rs.disk after.disk

end Invariant

section Calls
variable {t : Terms} {after : RuntimeControlState}

theorem Session.whole (session : Session lib t fx) (done : fx.receiver.doneCount = fx.receiver.blockCount) :
    ∃ payload, fx.assembler.reassemble = some payload ∧ payload.length = fx.offer.fileSize.toNat :=
  wholePayload session.bounded session.offered.geometry fun k inside => session.held k inside (session.tally.allDone done inside)

theorem Keeps.trans {a b c : RuntimeControlState} (first : Keeps lib t a b) (last : Keeps lib t b c) : Keeps lib t a c := by
  intro inv
  obtain ⟨middle,link,grows⟩ := first inv
  obtain ⟨now,again,more⟩ := last middle
  exact ⟨now,again.trans link,grows.trans more⟩

def Live (lib : Library) (t : Terms) (rs : RuntimeControlState) (fx : FxRxState) : Prop :=
  Session lib t fx ∧ t.Room rs.disk (some fx)

theorem Inv.live (inv : Inv lib t rs) (here : rs.fileRx = some fx) : Live lib t rs fx := ⟨inv.slot fx here,here ▸ inv.room⟩

theorem Quiet.keeps (quiet : Quiet rs after) (slot : ∀ fx, after.fileRx = some fx → Session lib t fx)
    (room : t.Room rs.disk after.fileRx) : Keeps lib t rs after := by
  intro inv
  refine ⟨⟨quiet.policy.trans inv.samePolicy,slot,?_,?_,?_,?_⟩,quiet.link,?_⟩
  · rw [quiet.announced, inv.announced, quiet.files]
  · rw [quiet.files]
    exact inv.paths
  · rw [quiet.files, quiet.disk]
    exact inv.files
  · rw [quiet.disk]
    exact room
  · rw [quiet.disk]
    exact growsRefl rs.disk

theorem Quiet.empties (quiet : Quiet rs after) (empty : after.fileRx = none) (room : t.Room rs.disk none) : Keeps lib t rs after :=
  quiet.keeps (fun fx here => by rw [empty] at here; cases here) (by rw [empty]; exact room)

def Aside (rs after : RuntimeControlState) : Prop := Quiet rs after ∧ after.fileRx = rs.fileRx

theorem Aside.keeps (aside : Aside rs after) : Keeps lib t rs after := fun inv =>
  aside.1.keeps (fun fx here => inv.slot fx (aside.2 ▸ here)) (by rw [aside.2]; exact inv.room) inv

theorem Aside.trans {a b c : RuntimeControlState} (first : Aside a b) (last : Aside b c) : Aside a c :=
  ⟨first.1.trans last.1,last.2.trans first.2⟩

theorem asideRefl (rs : RuntimeControlState) : Aside rs rs := ⟨quietRefl rs,rfl⟩

theorem asideSend {event : ControlEvent} (other : announcement event = none) (rs : RuntimeControlState) : Aside rs (rs.send event) :=
  ⟨quietSend other rs,rfl⟩

theorem outsidePartial {f : FileSummary} {payload : Bytes} {key : Option PeerId}
    (received : Received lib t.policy t.Heard t.Agreed f offer key payload) : ¬ InPartial t.policy.toFileTransferPolicy f.path := by
  rintro ⟨sender,name,above⟩
  obtain ⟨file,path⟩ := received.place
  have length := above.length_le
  rw [path] at length
  simp [peerDir] at length

theorem filesKept {disk : Disk} (inv : Inv lib t rs) (grows : t.Grown lib rs.disk disk) : ∀ f ∈ rs.receivedFiles, ∃ offer key payload,
    Received lib t.policy t.Heard t.Agreed f offer key payload ∧ disk.lookup f.path = some payload := by
  intro f member
  obtain ⟨offer,key,payload,received,there⟩ := inv.files f member
  exact ⟨offer,key,payload,received,grows.keeps _ _ (outsidePartial received) there⟩

theorem writeGrown {payload : Bytes} (session : Session lib t fx) (agreed : t.Agreed fx.offer)
    (size : payload.length = fx.offer.fileSize.toNat) (w : World) (disk : Disk) (name : String) (verified : Bool) :
    t.Grown lib disk (writeFile w t.policy disk fx.sender name payload verified).2 := by
  refine writeFileGrows w disk name verified fun file n =>
    ⟨fx.offer,fx.sender,fx.peerPubkey,session.offered,agreed,List.prefix_append _ _,?_⟩
  rw [← size]
  exact List.length_take_le' n payload

theorem storedKeeps {payload : Bytes} {path : Path} {disk : Disk} (admits : Admits lib t w) (live : Live lib t rs fx)
    (empty : after.fileRx = none) (samePolicy : after.filexferPolicy = rs.filexferPolicy)
    (link : after.toRuntimeControlState = rs.toRuntimeControlState) (stores : Stores lib w fx rs after payload path disk) :
    Keeps lib t rs after := by
  intro inv
  obtain ⟨session,room⟩ := live
  have agreed := session.accepted (Or.inr stores.state)
  have wrote := stores.wrote
  rw [inv.samePolicy] at wrote
  obtain ⟨place,free,inserted⟩ := writeFileStored wrote
  have added : t.Grown lib rs.disk disk := by
    have grown := writeGrown session agreed stores.size w rs.disk fx.offer.name (Verified lib fx payload)
    rwa [wrote] at grown
  have removed : t.Grown lib disk after.disk := by
    rw [stores.disk, session.partialDir]
    exact removeGrows w disk (partialDirInside ..)
  have grows : t.Grown lib rs.disk after.disk := Grows.trans added removed
  have received : Received lib t.policy t.Heard t.Agreed
      ⟨fx.offer.name,fx.sender,payload.length,Verified lib fx payload,path,w.timestampSecs⟩ fx.offer fx.peerPubkey payload :=
    ⟨session.offered,agreed,rfl,stores.size,rfl,place,rfl⟩
  refine ⟨⟨samePolicy.trans inv.samePolicy,by simp [empty],?_,?_,?_,?_⟩,link,grows⟩
  · rw [stores.announced, stores.files, inv.announced, List.map_append]
    rfl
  · -- every earlier file is on the disk, and nothing was at the new path
    rw [stores.files, List.map_append, List.nodup_append]
    refine ⟨inv.paths,by simp,fun p old q new same => ?_⟩
    obtain ⟨f,member,rfl⟩ := List.mem_map.mp old
    obtain ⟨_,_,_,_,there⟩ := inv.files f member
    have here : q = path := by simpa using new
    rw [same, here, free] at there
    cases there
  · rw [stores.files]
    intro f member
    rcases List.mem_append.mp member with old | new
    · exact filesKept inv grows f old
    · obtain rfl := List.mem_singleton.mp new
      refine ⟨fx.offer,fx.peerPubkey,payload,received,?_⟩
      refine removed.keeps _ _ (outsidePartial received) ?_
      rw [inserted, lookupInsert, if_pos rfl]
  · rw [stores.disk, empty]
    exact admits.store _ _ _ _ _ _ session room stores.size wrote

theorem refusedKeeps {payload : Bytes} {error : String} (admits : Admits lib t w) (live : Live lib t rs fx)
    (empty : after.fileRx = none) (samePolicy : after.filexferPolicy = rs.filexferPolicy)
    (link : after.toRuntimeControlState = rs.toRuntimeControlState) (refuses : Refuses lib w fx rs after payload error) :
    Keeps lib t rs after := by
  intro inv
  obtain ⟨session,room⟩ := live
  have wrote := refuses.wrote
  rw [inv.samePolicy] at wrote
  have grows : t.Grown lib rs.disk after.disk := by
    have grown := writeGrown session (session.accepted (Or.inr refuses.state)) refuses.size w rs.disk fx.offer.name
      (Verified lib fx payload)
    rwa [wrote] at grown
  refine ⟨⟨samePolicy.trans inv.samePolicy,by simp [empty],?_,?_,?_,?_⟩,link,grows⟩
  · rw [refuses.announced, refuses.files, inv.announced]
  · rw [refuses.files]
    exact inv.paths
  · rw [refuses.files]
    exact filesKept inv grows
  · rw [empty]
    exact admits.refuse _ _ _ _ _ _ session room refuses.size wrote

variable (lib w mode)

theorem callKeeps (admits : Admits lib t w) {out : List FxAction × ReceiverSession} (answer : Answer fx.offer out)
    (live : Live lib t rs { fx with receiver := out.2 }) : Keeps lib t rs (callRx lib w mode fx out rs) := by
  obtain ⟨link,same,slot,left⟩ := callLeaves lib w mode fx rs answer live.1.whole
  rcases slot with empty | ⟨filled,-,quiet⟩
  · cases left with
    | going quiet => exact quiet.empties empty (admits.drop _ _ live.2)
    | stored payload path disk stores => exact storedKeeps admits live empty same link stores
    | refused payload error refuses => exact refusedKeeps admits live empty same link refuses
  · refine quiet.keeps (fun fx here => ?_) (by rw [filled]; exact live.2)
    rw [filled] at here
    cases here
    exact live.1

theorem endedKeeps {actions : List FxAction} {s : ReceiverSession} (each : ∀ a ∈ actions, Plain a) (ended : s.isTerminal = true)
    (fx : FxRxState) (room : t.Room rs.disk none) : Keeps lib t rs (callRx lib w mode fx (actions,s) rs) := by
  obtain ⟨same,quiet⟩ := quietActions mode (finishVerify lib w mode) each ({ fx with receiver := s },{ rs with fileRx := none })
  have start : Quiet rs { rs with fileRx := none } := ⟨rfl,rfl,rfl,rfl,rfl⟩
  have settled : Quiet rs (callRx lib w mode fx (actions,s) rs) := start.trans (quiet.trans ⟨rfl,rfl,rfl,rfl,rfl⟩)
  refine settled.empties ?_ room
  simp only [callRx, settleRx, driveRxActions, same, ended, if_true]

variable {lib w}

theorem Live.with {s : ReceiverSession} (admits : Admits lib t w) (live : Live lib t rs fx) (tally : Tally fx.offer s)
    (flags : s.blocksDone = fx.receiver.blocksDone) (accepted : s.state = .receiving ∨ s.state = .verifying → t.Agreed fx.offer) :
    Live lib t rs { fx with receiver := s } :=
  ⟨⟨tally,live.1.bounded,flags ▸ live.1.held,live.1.partialDir,live.1.offered,accepted⟩,admits.turn _ _ s fx.assembler live.2⟩

theorem silentKeeps (admits : Admits lib t w) (live : Live lib t rs fx) : Keeps lib t rs (callRx lib w mode fx ([],fx.receiver) rs) :=
  callKeeps lib w mode admits (.plain (by simp)) live

theorem rejectKeeps (admits : Admits lib t w) (live : Live lib t rs fx) (reason : Reason) :
    Keeps lib t rs (callRx lib w mode fx (fx.receiver.rejectNow reason) rs) :=
  endedKeeps lib w mode (by simp [Plain]) rfl fx (admits.drop _ _ live.2)

theorem Live.begun (admits : Admits lib t w) (live : Live lib t rs fx) (agreed : t.Agreed fx.offer) (nowMs : UInt64) :
    Live lib t rs { fx with receiver := (fx.receiver.beginReceiving nowMs).2 } := by
  obtain ⟨tally,flags⟩ := verifyTally (live.1.tally.again .receiving (saturatingAdd nowMs fx.receiver.timeouts.blockStallMs))
    [.transmit (FxFrame.encode (.fileAccept fx.receiver.transferId (Receiver.bitmapFromBools fx.receiver.held))),
      progress { fx.receiver with state := .receiving, deadline := saturatingAdd nowMs fx.receiver.timeouts.blockStallMs }] nowMs
  exact live.with admits tally flags fun _ => agreed

theorem sameKeeps (rs : RuntimeControlState) : Keeps lib t rs rs := (asideRefl rs).keeps

theorem acceptKeeps (admits : Admits lib t w) (transferId : UInt32)
    (agree : ∀ fx, rs.fileRx = some fx → fx.offer.transferId = transferId → t.Agreed fx.offer) :
    Keeps lib t rs (acceptOffer lib w mode transferId rs) := by
  intro inv
  unfold acceptOffer
  split
  · exact sameKeeps rs inv
  next fx here =>
    have live := inv.live here
    split
    next own =>
      unfold accept
      split
      · exact silentKeeps mode admits live inv
      · exact callKeeps lib w mode admits (beginAnswer ..) (live.begun admits (agree fx here own) w.nowMs) inv
    next => exact silentKeeps mode admits live inv

theorem rejectOfferKeeps (admits : Admits lib t w) (transferId : UInt32) :
    Keeps lib t rs (rejectOffer lib w mode transferId rs) := by
  intro inv
  unfold rejectOffer
  split
  · exact sameKeeps rs inv
  next fx here =>
    have live := inv.live here
    split
    · unfold ReceiverSession.reject
      split
      · exact silentKeeps mode admits live inv
      · exact rejectKeeps mode admits live _ inv
    · exact silentKeeps mode admits live inv

theorem pollKeeps (admits : Admits lib t w) (live : Live lib t rs fx) (now : UInt64) :
    Keeps lib t rs (callRx lib w mode fx (fx.receiver.pollTimeout now) rs) := by
  have room := admits.drop _ _ live.2
  unfold ReceiverSession.pollTimeout
  split
  · exact silentKeeps mode admits live
  · split
    · exact rejectKeeps mode admits live _
    · exact endedKeeps lib w mode (by simp [Plain]) rfl fx room
    · exact endedKeeps lib w mode (by simp [Plain]) rfl fx room
    · exact silentKeeps mode admits live

theorem grownKeeps {disk : Disk} (grows : t.Grown lib rs.disk disk) (room : t.Room disk rs.fileRx) :
    Keeps lib t rs { rs with disk } := by
  intro inv
  have files := filesKept inv grows
  exact ⟨⟨inv.samePolicy,inv.slot,inv.announced,inv.paths,files,room⟩,rfl,grows⟩

theorem ingestKeepsBlocks (c : Compression.Codecs) (a : BlockAssembler) (now : Nat) (fragment : Bytes) {k : UInt16}
    (there : (a.blocks.lookup k).isSome) : ((a.ingestFragment c now fragment).2.blocks.lookup k).isSome := by
  have settled : ∀ (b : BlockAssembler) i result, (b.blocks.lookup k).isSome → ((b.settle c i result).2.blocks.lookup k).isSome := by
    intro b i result old
    unfold BlockAssembler.settle
    split
    · exact old
    · split
      · exact old
      · split
        · rw [lookupInsert]
          split
          · rfl
          · exact old
        · exact old
  unfold BlockAssembler.ingestFragment
  split
  · dsimp only
    split
    · exact there
    · split
      · exact there
      · exact settled _ _ _ there
  · exact there

theorem ingestComplete {c : Compression.Codecs} {a : BlockAssembler} {now : Nat} {fragment : Bytes} {i : UInt16}
    (complete : (a.ingestFragment c now fragment).1 = .complete i) :
    ((a.ingestFragment c now fragment).2.blocks.lookup i).isSome := by
  have settled : ∀ (b : BlockAssembler) k result, (b.settle c k result).1 = .complete i →
      ((b.settle c k result).2.blocks.lookup i).isSome := by
    intro b k result done
    unfold BlockAssembler.settle at done ⊢
    split at done
    · cases done
    · split at done
      · cases done
      next some =>
        rw [if_neg some]
        split at done
        · cases done
          rw [lookupInsert, if_pos rfl]
          rfl
        · cases done
  unfold BlockAssembler.ingestFragment at complete ⊢
  split at complete
  · dsimp only at complete ⊢
    split at complete
    · cases complete
    · split at complete
      · cases complete
      next free known =>
        rw [if_neg free, if_neg known]
        exact settled _ _ _ complete
  · cases complete

theorem Live.ingested (admits : Admits lib t w) (live : Live lib t rs fx) (now : Nat) (bytes : Bytes) :
    Live lib t rs { fx with assembler := (fx.assembler.ingestFragment lib.codecs now bytes).2 } := by
  obtain ⟨session,room⟩ := live
  exact ⟨⟨session.tally,ingestBounded session.bounded now bytes,
    fun k inside set => ingestKeepsBlocks _ _ _ _ (session.held k inside set),session.partialDir,session.offered,session.accepted⟩,
    admits.turn _ _ fx.receiver _ room⟩

theorem notedKeeps (admits : Admits lib t w) (live : Live lib t rs fx) {i : UInt16} (there : (fx.assembler.blocks.lookup i).isSome)
    (receiving : fx.receiver.state = .receiving) (nowMs : UInt64) :
    Keeps lib t rs (callRx lib w mode fx (fx.receiver.noteBlockComplete i nowMs) rs) := by
  obtain ⟨session,room⟩ := live
  unfold noteBlockComplete
  split
  · exact silentKeeps mode admits ⟨session,room⟩
  · split
    next unset =>
      obtain ⟨tally,flags⟩ := verifyTally (session.tally.marked unset nowMs) [(fx.receiver.markDone i nowMs).progress] nowMs
      refine callKeeps lib w mode admits (verifyAnswer (by simp [Plain, progress]) nowMs)
        ⟨⟨tally,session.bounded,?_,session.partialDir,session.offered,fun _ => session.accepted (Or.inl receiving)⟩,
          admits.turn _ _ _ fx.assembler room⟩
      intro k inside set
      rw [flags] at set
      simp only [markDone, List.getElem?_set] at set
      split at set
      next here => rwa [← here, Nat.toUInt16_eq, UInt16.ofNat_toNat]
      next => exact session.held k inside set
    · exact silentKeeps mode admits ⟨session,room⟩
    · exact silentKeeps mode admits ⟨session,room⟩

theorem blockLengthLe (g : Geometry) (i : UInt16) : g.blockLength i ≤ g.fileSize.toNat :=
  (Nat.min_le_left _ _).trans (Nat.sub_le _ _)

theorem persistGrows (session : Session lib t fx) (receiving : fx.receiver.state = .receiving)
    {i : UInt16} {block : Bytes} (stored : fx.assembler.block i = some block) (w : World) (disk : Disk) :
    t.Grown lib disk (persistBlock w disk fx.partialDir i block) := by
  have parent : peerDir t.policy.toFileTransferPolicy fx.sender <+: fx.partialDir ++ [Resume.blockFile i] := by
    rw [session.partialDir, partialDirFor, List.append_assoc]
    exact List.prefix_append _ _
  refine putGrows (Or.inr ?_) fun n => ⟨fx.offer,fx.sender,fx.peerPubkey,session.offered,
    session.accepted (Or.inl receiving),parent,?_⟩
  · refine ⟨fx.sender,hex fx.offer.sha256.val,?_⟩
    rw [session.partialDir]
    exact List.prefix_append _ _
  · refine (List.length_take_le' n block).trans ?_
    rw [(session.bounded.blocks i block stored).2]
    exact blockLengthLe _ i

theorem blockKeeps (admits : Admits lib t w) (bytes : Bytes) : Keeps lib t rs (onBlockFragment lib w mode bytes rs) := by
  intro inv
  unfold onBlockFragment
  split
  · exact sameKeeps rs inv
  next fx here =>
    split
    · exact sameKeeps rs inv
    next active =>
      have receiving : fx.receiver.state = .receiving := by simpa [isReceiving] using active
      have live := (inv.live here).ingested admits w.instant bytes
      split
      next i assembler found =>
        have event : (fx.assembler.ingestFragment lib.codecs w.instant bytes).1 = .complete i := by rw [found]
        have there := ingestComplete event
        rw [found] at live there
        obtain ⟨block,stored⟩ := Option.isSome_iff_exists.mp there
        have block' : assembler.block i = some block := stored
        simp only [block']
        have room : t.Room (persistBlock w rs.disk fx.partialDir i block) (some { fx with assembler }) :=
          admits.persist _ _ _ _ live.1 live.2 stored
        have old : t.Room (persistBlock w rs.disk fx.partialDir i block) (some fx) :=
          admits.turn _ { fx with assembler } fx.receiver fx.assembler room
        have persisted : Keeps lib t rs { rs with disk := persistBlock w rs.disk fx.partialDir i block } :=
          grownKeeps (persistGrows live.1 receiving stored w rs.disk) (by rw [here]; exact old)
        have aside : Aside { rs with disk := persistBlock w rs.disk fx.partialDir i block } _ :=
          quietQueued mode (sarEncode fxControlSegmentId (FxFrame.encode (.blockAck fx.offer.transferId i true []))) _
        refine ((persisted.trans aside.keeps).trans (notedKeeps mode admits ⟨live.1,?_⟩ there receiving w.nowMs)) inv
        rw [aside.1.disk]
        exact room
      next event assembler other found =>
        rw [found] at live
        exact silentKeeps mode admits live inv

structure Loaded (offer : FileOffer) (state : List Bool × BlockAssembler) : Prop where
  bounded : Bounded (offerGeometry offer) state.2
  held : ∀ k : Nat, state.1[k]? = some true → (state.2.blocks.lookup k.toUInt16).isSome

theorem loadEntryKeeps {state : List Bool × BlockAssembler} (loaded : Loaded offer state) (entry : String × Bytes) :
    Loaded offer (Resume.loadEntry offer state entry) := by
  unfold Resume.loadEntry
  split
  · exact loaded
  next i _ =>
    split
    · exact loaded
    next inside =>
      split
      · exact loaded
      next length =>
        have known : i < offer.blockCount := UInt16.not_le.mp inside
        have count : state.2.blockCount = offer.blockCount := congrArg Geometry.blockCount loaded.bounded.same
        have expected : state.2.expectedBlockLen i = Resume.expectedBlockLen offer i := loaded.bounded.expected i
        have taken : state.2.seedBlock i entry.2 = { state.2 with blocks := state.2.blocks.insert i entry.2 } := by
          rw [BlockAssembler.seedBlock, if_pos ⟨count ▸ known,by rw [expected]; exact not_not.mp length⟩]
        refine ⟨seedBounded loaded.bounded i entry.2,fun k set => ?_⟩
        rw [taken, lookupInsert]
        split
        next => rfl
        next other =>
          have apart : i.toNat ≠ k := by
            rintro rfl
            exact other (by rw [Nat.toUInt16_eq, UInt16.ofNat_toNat])
          refine loaded.held k ?_
          rwa [List.getElem?_set_ne apart] at set

theorem partialsLoaded (offer : FileOffer) (entries : List (String × Bytes)) :
    Loaded offer (Resume.loadPartials offer entries (Resume.assemblerFor offer)) := by
  have start : Loaded offer (List.replicate offer.blockCount.toNat false,Resume.assemblerFor offer) := by
    refine ⟨⟨rfl,fun i block stored => ?_⟩,fun k set => ?_⟩
    · simp [BlockAssembler.block, Resume.assemblerFor, BlockAssembler.new] at stored
    · simp [List.getElem?_replicate] at set
  unfold Resume.loadPartials
  generalize (List.replicate offer.blockCount.toNat false,Resume.assemblerFor offer) = state at start
  induction entries generalizing state with
  | nil => exact start
  | cons entry entries ih => exact ih _ (loadEntryKeeps start entry)

theorem heldMaskBit (offer : FileOffer) (held : List Bool) {k : Nat} (inside : k < offer.blockCount.toNat) :
    (Receiver.heldMask offer held)[k]? = some true ↔ held[k]? = some true := by
  rw [Receiver.heldMask, List.getElem?_map, List.getElem?_range inside, Option.map_some]
  cases held[k]? <;> simp

def waiting (offer : FileOffer) (held : List Bool) (timeouts : Timeouts) (deadline : UInt64) : ReceiverSession where
  transferId := offer.transferId
  blockCount := offer.blockCount
  state := .awaitingDecision
  blocksDone := Receiver.heldMask offer held
  doneCount := ((Receiver.heldMask offer held).countP id).toUInt16
  timeouts
  deadline
  held := Receiver.heldMask offer held

theorem waitingTally (offer : FileOffer) (held : List Bool) (timeouts : Timeouts) (deadline : UInt64) :
    Tally offer (waiting offer held timeouts deadline) := by
  have width : (Receiver.heldMask offer held).length = offer.blockCount.toNat := by simp [Receiver.heldMask]
  have most : (Receiver.heldMask offer held).countP id ≤ (Receiver.heldMask offer held).length := List.countP_le_length
  have bound := offer.blockCount.toNat_lt
  refine ⟨rfl,rfl,width,?_⟩
  change ((Receiver.heldMask offer held).countP id).toUInt16.toNat = (Receiver.heldMask offer held).countP id
  rw [Nat.toUInt16_eq, UInt16.toNat_ofNat']
  omega

theorem decisionOffered (samePolicy : rs.filexferPolicy = t.policy) {sender : String} {key : Option PeerId}
    (named : sender = if signed lib offer key then offer.senderId.id else "") (heard : t.Heard offer key)
    (open' : ∀ reason, offerDecision lib rs offer sender (signed lib offer key) ≠ .reject reason) :
    Offered lib t.policy t.Heard offer sender key ∧
      (offerDecision lib rs offer sender (signed lib offer key) = .autoAccept → offer.fileSize ≤ t.policy.offer.autoAcceptMaxBytes) ∧
      quotaWouldExceed t.policy.toFileTransferPolicy rs.disk sender offer.fileSize.toNat = false := by
  unfold offerDecision at open' ⊢
  rw [samePolicy] at open' ⊢
  split at open'
  · exact absurd rfl (open' _)
  next allowed =>
    split at open'
    · exact absurd rfl (open' _)
    next geometry =>
      split at open'
      · exact absurd rfl (open' _)
      next quota =>
        rw [if_neg allowed, if_neg geometry, if_neg quota]
        unfold OfferPolicy.decide at open' ⊢
        split at open'
        · exact absurd rfl (open' _)
        next enabled =>
          split at open'
          · exact absurd rfl (open' _)
          next size =>
            split at open'
            · exact absurd rfl (open' _)
            next trusted =>
              rw [if_neg enabled, if_neg size, if_neg trusted]
              have required : t.policy.offer.requireVerifiedPeer = true → signed lib offer key = true := by
                simpa using trusted
              refine ⟨⟨heard,by simpa using enabled,UInt64.not_lt.mp size,required,by simpa using geometry,by simpa using allowed,named⟩,
                fun auto => ?_,by simpa using quota⟩
              split at auto
              next small => exact small
              next => cases auto

theorem startSession {sender : String} {key : Option PeerId} (offered : Offered lib t.policy t.Heard offer sender key)
    {state : List Bool × BlockAssembler} (loaded : Loaded offer state) (timeouts : Timeouts) (deadline : UInt64) :
    Session lib t ⟨waiting offer state.1 timeouts deadline,state.2,offer,sender,key,false,
      partialDirFor t.policy.toFileTransferPolicy sender offer.sha256.val⟩ :=
  ⟨waitingTally .., loaded.bounded,fun k inside set => loaded.held k ((heldMaskBit offer state.1 inside).mp set),rfl,offered,
    by simp [waiting]⟩

theorem resumedKeeps (admits : Admits lib t w) {decision : OfferDecision} {held : List Bool} {timeouts : Timeouts} {assembler : BlockAssembler}
    {sender : String} {key : Option PeerId} {dir : Path} (room : t.Room rs.disk none)
    (passing : ∀ deadline, (∀ reason, decision ≠ .reject reason) →
      Live lib t rs ⟨waiting offer held timeouts deadline,assembler,offer,sender,key,false,dir⟩)
    (agreed : decision = .autoAccept → t.Agreed offer) :
    Keeps lib t rs (callRx lib w mode ⟨(Receiver.resume offer decision held timeouts w.nowMs).2,assembler,offer,sender,key,false,dir⟩
      (Receiver.resume offer decision held timeouts w.nowMs) rs) := by
  cases decision with
  | reject reason =>
    have resumed : Receiver.resume offer (.reject reason) held timeouts w.nowMs = (waiting offer held timeouts 0).rejectNow reason := rfl
    rw [resumed]
    exact endedKeeps lib w mode (by simp [Plain]) rfl _ room
  | autoAccept =>
    have resumed : Receiver.resume offer .autoAccept held timeouts w.nowMs = (waiting offer held timeouts 0).beginReceiving w.nowMs := rfl
    rw [resumed]
    exact callKeeps lib w mode admits (beginAnswer ..) ((passing 0 (by simp)).begun admits (agreed rfl) w.nowMs)
  | prompt =>
    have resumed : Receiver.resume offer .prompt held timeouts w.nowMs =
        ([.prompt offer.transferId],waiting offer held timeouts (saturatingAdd w.nowMs timeouts.offerMs)) := rfl
    rw [resumed]
    exact callKeeps lib w mode admits (.plain (by simp [Plain])) (passing _ (by simp))

theorem offerKeeps (admits : Admits lib t w) (offer : FileOffer) (heard : t.Heard offer (offerKey rs offer))
    (agree : ∀ offer, offer.fileSize ≤ t.policy.offer.autoAcceptMaxBytes → t.Agreed offer) :
    Keeps lib t rs (onOffer lib w mode offer rs) := by
  intro inv
  unfold onOffer
  split
  · have aside : Aside rs _ := quietQueued mode (sarEncode fxControlSegmentId (FileTransfers.reject offer.transferId .busy)) rs
    exact aside.keeps inv
  next vacant =>
    have empty : rs.fileRx = none := by simpa using vacant
    simp only []
    rw [← signed]
    generalize named : (if signed lib offer (offerKey rs offer) = true then offer.senderId.id else "") = sender
    generalize noticed : rs.send _ = told
    have aside : Aside rs told := by
      rw [← noticed]
      exact asideSend rfl rs
    have vacant : told.fileRx = none := aside.2.trans empty
    have directory : told.filexferPolicy = t.policy := aside.1.policy.trans inv.samePolicy
    have room : t.Room told.disk none := by
      rw [← vacant]
      exact (aside.keeps inv).1.room
    have purged : Keeps lib t told
        { told with filexferPolicy := t.policy, disk := purgeStalePartials w t.policy sender told.disk } := by
      rw [← directory]
      refine grownKeeps (directory ▸ purgeGrows w t.policy sender told.disk) ?_
      rw [vacant, directory]
      exact admits.purge _ _ room
    rw [directory]
    refine ((aside.keeps.trans purged).trans ?_) inv
    generalize w.listing _ = entries
    have loaded := partialsLoaded offer entries
    generalize Resume.loadPartials offer entries (Resume.assemblerFor offer) = state at loaded ⊢
    have offered := decisionOffered inv.samePolicy named.symm heard
    rw [← aside.1.disk] at offered
    generalize offerDecision lib rs offer sender (signed lib offer (offerKey rs offer)) = decision at offered
    refine resumedKeeps mode admits ?_ (fun deadline passes => ?_) fun auto => ?_
    · exact admits.purge _ _ room
    · obtain ⟨passed,-,quota⟩ := offered passes
      have session := startSession passed loaded t.policy.timeouts deadline
      have reserved := admits.offer told.disk _ session room quota
      exact ⟨session,reserved⟩
    · obtain ⟨-,small,-⟩ := offered (by simp [auto])
      exact agree _ (small auto)

theorem txActionAside (lib : Library) (mode : String) (fx : FxTxState) (a : FxAction) (rs : RuntimeControlState) : Aside rs (txAction lib mode fx rs a) := by
  cases a with
  | transmit frame => exact quietQueued ..
  | sendBlock blockIndex missing => exact quietQueued ..
  | prompt transferId => exact asideRefl rs
  | verify transferId => exact asideRefl rs
  | progress transferId blocksDone blocksTotal => exact asideSend rfl rs
  | finished outcome =>
    simp only [txAction]
    split
    · exact asideSend rfl rs
    · exact asideSend rfl rs
    · exact asideSend rfl rs
    · exact asideSend rfl rs
    · exact asideRefl rs

theorem driveTxAside (lib : Library) (mode : String) (fx : FxTxState) (actions : List FxAction) (rs : RuntimeControlState) :
    Aside rs (driveTxActions lib mode fx actions rs) := by
  unfold driveTxActions
  induction actions generalizing rs with
  | nil => exact asideRefl rs
  | cons a actions ih => exact (txActionAside lib mode fx a rs).trans (ih _)

theorem drivenAside (lib : Library) (mode : String) (fx : FxTxState) (actions : List FxAction) (rs : RuntimeControlState) (fileTx : Option FxTxState) :
    Aside rs { driveTxActions lib mode fx actions rs with fileTx } :=
  (driveTxAside lib mode fx actions rs).trans ⟨⟨rfl,rfl,rfl,rfl,rfl⟩,rfl⟩

theorem callTxAside (lib : Library) (mode : String) (fx : FxTxState) (out : List FxAction × Sender.SenderSession) (rs : RuntimeControlState) :
    Aside rs (callTx lib mode fx out rs) := drivenAside lib mode fx out.1 rs _

theorem sendFileAside (recipient path : String) (contents : Except String Bytes) (rs : RuntimeControlState) :
    Aside rs (sendFile lib w mode recipient path contents rs) := by
  unfold sendFile sendError
  split
  · exact asideSend rfl rs
  · split
    · exact asideSend rfl rs
    · split
      · exact asideSend rfl rs
      · split
        · exact asideSend rfl rs
        · split
          · exact asideSend rfl rs
          · exact callTxAside ..

theorem onTxFrameAside (frame : FxFrame) (rs : RuntimeControlState) : Aside rs (onTxFrame lib w mode frame rs) := by
  unfold onTxFrame
  split
  · exact asideRefl rs
  · split
    · exact callTxAside ..
    · exact callTxAside ..

theorem onTxCancelAside (transferId : UInt32) (reason : Reason) (rs : RuntimeControlState) :
    Aside rs (onTxCancel transferId reason rs) := by
  unfold onTxCancel
  split
  · exact Aside.trans (b := { rs with fileTx := none }) ⟨⟨rfl,rfl,rfl,rfl,rfl⟩,rfl⟩ (asideSend rfl _)
  · exact asideRefl rs

theorem droppedKeeps (admits : Admits lib t w) (here : rs.fileRx = some fx) {event : ControlEvent} (other : announcement event = none) :
    Keeps lib t rs (({ rs with fileRx := none } : RuntimeControlState).send event) := by
  intro inv
  have dropped : Quiet rs { rs with fileRx := none } := ⟨rfl,rfl,rfl,rfl,rfl⟩
  exact (dropped.trans (quietSend other _)).empties rfl (admits.drop _ _ (inv.live here).2) inv

theorem onInboundCancelKeeps (admits : Admits lib t w) (transferId : UInt32) (reason : Reason) :
    Keeps lib t rs (onInboundCancel transferId reason rs) := by
  unfold onInboundCancel
  split
  next own =>
    obtain ⟨fx,here,-⟩ := Option.map_eq_some_iff.mp own
    exact droppedKeeps admits here rfl
  next => exact sameKeeps rs

theorem cancelKeeps (admits : Admits lib t w) (transferId : UInt32) : Keeps lib t rs (cancelTransfer lib mode transferId rs) := by
  unfold cancelTransfer
  generalize dropped : (if rs.fileRx.map (fun fx => fx.offer.transferId) = some transferId then _ else rs) = middle
  have first : Keeps lib t rs middle := by
    rw [← dropped]
    split
    next own =>
      obtain ⟨fx,here,-⟩ := Option.map_eq_some_iff.mp own
      have aside : Aside rs _ :=
        quietQueued mode (sarEncode fxControlSegmentId (FxFrame.encode (.fileCancel transferId .operatorCancel))) rs
      exact aside.keeps.trans (droppedKeeps admits (aside.2.trans here) rfl)
    next => exact sameKeeps rs
  refine first.trans ?_
  dsimp only
  split
  next fx there =>
    split
    · exact (drivenAside lib mode fx _ middle none).keeps
    · exact sameKeeps middle
  next => exact sameKeeps middle

theorem pollTimeoutsKeeps (admits : Admits lib t w) (now : UInt64) : Keeps lib t rs (pollTimeouts lib mode w now rs) := by
  have sender : ∃ middle, Aside rs middle ∧ (middle.fileRx = none → pollTimeouts lib mode w now rs = middle) ∧
      ∀ fx, middle.fileRx = some fx → pollTimeouts lib mode w now rs = callRx lib w mode fx (fx.receiver.pollTimeout now) middle := by
    unfold pollTimeouts
    cases rs.fileTx with
    | none => exact ⟨rs,asideRefl rs,fun gone => by simp only [gone],fun fx here => by simp only [here]⟩
    | some fx =>
      exact ⟨_,callTxAside lib mode fx (fx.sender.pollTimeout now) rs,fun gone => by simp only [gone],fun fx here => by simp only [here]⟩
  obtain ⟨middle,aside,idle,polled⟩ := sender
  cases here : middle.fileRx with
  | none =>
    rw [idle here]
    exact aside.keeps.trans (sameKeeps middle)
  | some fx =>
    rw [polled fx here]
    exact aside.keeps.trans fun inv => pollKeeps mode admits (inv.live here) now inv

def Completes (rs : RuntimeControlState) (bytes : Bytes) (instant : Nat) (frame : Bytes) : Prop :=
  ∃ completed sar, rs.filexferSar.ingest instant fxControlSession bytes = (.ok completed,sar) ∧ frame ∈ completed

def VerifiedUnder (rs : RuntimeControlState) (callsign : String) (pk : PeerId) : Prop :=
  ∃ vp, rs.verifiedPeers.lookup callsign = some vp ∧ vp.pubkey = pk.val

theorem offerKeyVerified (rs : RuntimeControlState) (offer : FileOffer) (pk : PeerId) :
    offerKey rs offer = some pk ↔ VerifiedUnder rs offer.senderId.id pk := by
  refine Option.bind_eq_some_iff.trans (exists_congr fun vp => and_congr Iff.rfl ?_)
  unfold octets?
  split
  next length => exact Option.some_inj.trans Subtype.ext_iff
  next length => exact iff_of_false (by simp) fun same => length (by rw [same, pk.property])

theorem controlKeeps (admits : Admits lib t w)
    (agree : ∀ offer, offer.fileSize ≤ t.policy.offer.autoAcceptMaxBytes → t.Agreed offer) (assembled : Bytes)
    (hear : ∀ offer, FxFrame.decode assembled = .ok (.fileOffer offer) → t.Heard offer (offerKey rs offer)) :
    Keeps lib t rs (onControlFrame lib mode w assembled rs) := by
  unfold onControlFrame
  split
  next offer decoded => exact offerKeeps mode admits offer (hear offer decoded) agree
  · exact (onInboundCancelKeeps admits _ _).trans (onTxCancelAside ..).keeps
  · exact sameKeeps rs
  · exact (onTxFrameAside ..).keeps
  · exact sameKeeps rs

theorem fragmentKeeps {worlds : Nat → World} (admits : ∀ n, Admits lib t (worlds n))
    (agree : ∀ offer, offer.fileSize ≤ t.policy.offer.autoAcceptMaxBytes → t.Agreed offer) (bytes : Bytes) (segmentId : UInt16)
    (hear : segmentId = fxControlSegmentId → ∀ frame, Completes rs bytes (worlds 0).instant frame → ∀ offer,
      FxFrame.decode frame = .ok (.fileOffer offer) → t.Heard offer (offerKey rs offer)) :
    Keeps lib t rs (routeInboundFragment lib mode worlds bytes segmentId rs) := by
  have counted : Aside rs { rs with filexferFramesRouted := saturatingAdd rs.filexferFramesRouted 1 } := ⟨⟨rfl,rfl,rfl,rfl,rfl⟩,rfl⟩
  unfold routeInboundFragment
  dsimp only
  split
  · exact counted.keeps
  · split
    next control =>
      split
      · refine Aside.keeps (Aside.trans counted ?_)
        exact ⟨⟨rfl,rfl,rfl,rfl,rfl⟩,rfl⟩
      next completed sar ingested =>
        refine (counted.trans (c := { rs with filexferFramesRouted := saturatingAdd rs.filexferFramesRouted 1, filexferSar := sar })
          ⟨⟨rfl,rfl,rfl,rfl,rfl⟩,rfl⟩).keeps.trans ?_
        generalize routed : ({ rs with filexferFramesRouted := _, filexferSar := sar } : RuntimeControlState) = start
        have heard : ∀ frame ∈ completed.zipIdx, ∀ offer, FxFrame.decode frame.1 = .ok (.fileOffer offer) →
            t.Heard offer (offerKey start offer) := by
          rw [← routed]
          exact fun frame member => hear control frame.1 ⟨completed,sar,ingested,List.fst_mem_of_mem_zipIdx member⟩
        generalize completed.zipIdx = frames at heard ⊢
        clear routed
        induction frames generalizing start with
        | nil => exact sameKeeps start
        | cons frame frames ih =>
          intro inv
          have first := controlKeeps mode (admits frame.2) agree frame.1 (heard frame List.mem_cons_self)
          obtain ⟨-,link,-⟩ := first inv
          refine (first.trans (ih _ fun other member offer decoded => ?_)) inv
          rw [offerKey, link, ← offerKey]
          exact heard other (List.mem_cons_of_mem frame member) offer decoded
    next => exact counted.keeps.trans (blockKeeps mode (admits 0) bytes)

theorem stepKeeps (inv : Inv lib t rs) (call : FileTransfers.Call) (admits : ∀ n, Admits lib t (call.worlds n))
    (hear : ∀ bytes frame offer, call.event = .fragment bytes fxControlSegmentId → Completes rs bytes (call.worlds 0).instant frame →
      FxFrame.decode frame = .ok (.fileOffer offer) → t.Heard offer (offerKey rs offer))
    (agree : ∀ offer, offer.fileSize ≤ t.policy.offer.autoAcceptMaxBytes → t.Agreed offer)
    (accept : ∀ transferId fx, call.event = .acceptFile transferId → rs.fileRx = some fx → fx.offer.transferId = transferId →
      t.Agreed fx.offer) :
    Inv lib t (step lib rs call) ∧ t.Grown lib rs.disk (step lib rs call).disk := by
  have kept : ∀ after, Keeps lib t rs after → Inv lib t after ∧ t.Grown lib rs.disk after.disk :=
    fun after keeps => ⟨(keeps inv).1,(keeps inv).2.2⟩
  unfold step
  cases event : call.event with
  | fragment bytes segmentId =>
    exact kept _ (fragmentKeeps call.mode admits agree bytes segmentId fun control frame completes offer =>
      hear bytes frame offer (control ▸ event) completes)
  | acceptFile transferId => exact kept _ (acceptKeeps call.mode (admits 0) transferId fun fx => accept transferId fx event)
  | rejectFile transferId => exact kept _ (rejectOfferKeeps call.mode (admits 0) transferId)
  | cancelFile transferId => exact kept _ (cancelKeeps call.mode (admits 0) transferId)
  | sendFile recipient path contents => exact kept _ (sendFileAside ..).keeps
  | pollTimeouts now => exact kept _ (pollTimeoutsKeeps call.mode (admits 0) now)
  | link link => exact ⟨⟨inv.samePolicy,inv.slot,inv.announced,inv.paths,inv.files,inv.room⟩,growsRefl rs.disk⟩
  | drain =>
    refine kept { rs with filexferTxQueue := [] } (Aside.keeps ?_)
    exact ⟨⟨rfl,rfl,rfl,rfl,rfl⟩,rfl⟩

end Calls

def start (link : DaemonLink.RuntimeControlState) (policy : FileTransferPolicy) (disk : Disk) : RuntimeControlState :=
  ⟨link,.new filexferSarTimeoutSecs,0,none,none,policy,[],[],disk,[]⟩

section History
variable (lib : Library) (s : RuntimeControlState) (calls : List FileTransfers.Call)

/-- The offer was decoded from a control frame that one of the calls completed, and `key` is the key
its sender was verified under at that call. -/
def Heard (offer : FileOffer) (key : Option PeerId) : Prop :=
  ∃ before call after bytes frame, calls = before ++ call::after ∧ call.event = .fragment bytes fxControlSegmentId ∧
    Completes (run (step lib) s before) bytes (call.worlds 0).instant frame ∧ FxFrame.decode frame = .ok (.fileOffer offer) ∧
    ∀ pk, key = some pk ↔ VerifiedUnder (run (step lib) s before) offer.senderId.id pk

/- Small enough to need no question, which an empty file always is, or accepted by the operator
while it was the offer at hand. -/
def Consented (offer : FileOffer) : Prop :=
  offer.fileSize ≤ s.filexferPolicy.offer.autoAcceptMaxBytes ∨
    ∃ before call after fx, calls = before ++ call::after ∧ call.event = .acceptFile offer.transferId ∧
      (run (step lib) s before).fileRx = some fx ∧ fx.offer = offer

def terms (Room : Disk → Option FxRxState → Prop) : Terms := ⟨s.filexferPolicy,Heard lib s calls,Consented lib s calls,Room⟩

end History

section Runs
variable {s : RuntimeControlState} {calls more : List FileTransfers.Call} {policy : FileTransferPolicy} {Room : Disk → Option FxRxState → Prop}

theorem heardMono {key : Option PeerId} (heard : Heard lib s calls offer key) : Heard lib s (calls ++ more) offer key := by
  obtain ⟨before,call,after,bytes,frame,rfl,there⟩ := heard
  exact ⟨before,call,after ++ more,bytes,frame,by simp,there⟩

theorem consentedMono (consented : Consented lib s calls offer) : Consented lib s (calls ++ more) offer := by
  rcases consented with small | ⟨before,call,after,fx,rfl,accepts,there⟩
  · exact Or.inl small
  · exact Or.inr ⟨before,call,after ++ more,fx,by simp,accepts,there⟩

theorem Offered.mono {sender : String} {key : Option PeerId} (offered : Offered lib policy (Heard lib s calls) offer sender key) :
    Offered lib policy (Heard lib s (calls ++ more)) offer sender key := { offered with heard := heardMono offered.heard }

theorem Received.mono {f : FileSummary} {key : Option PeerId} {payload : Bytes}
    (received : Received lib policy (Heard lib s calls) (Consented lib s calls) f offer key payload) :
    Received lib policy (Heard lib s (calls ++ more)) (Consented lib s (calls ++ more)) f offer key payload :=
  { received with offered := received.offered.mono, agreed := consentedMono received.agreed }

theorem Inv.mono (inv : Inv lib (terms lib s calls Room) rs) : Inv lib (terms lib s (calls ++ more) Room) rs := by
  refine ⟨inv.samePolicy,fun fx here => ?_,inv.announced,inv.paths,fun f member => ?_,inv.room⟩
  · have session := inv.slot fx here
    exact ⟨session.tally,session.bounded,session.held,session.partialDir,session.offered.mono,
      fun active => consentedMono (session.accepted active)⟩
  · obtain ⟨offer,key,payload,received,there⟩ := inv.files f member
    exact ⟨offer,key,payload,received.mono,there⟩

theorem runStep (inv : Inv lib (terms lib s calls Room) (run (step lib) s calls)) (call : FileTransfers.Call)
    (admits : ∀ n, Admits lib (terms lib s (calls ++ [call]) Room) (call.worlds n)) :
    Inv lib (terms lib s (calls ++ [call]) Room) (run (step lib) s (calls ++ [call])) ∧
      (terms lib s (calls ++ [call]) Room).Grown lib (run (step lib) s calls).disk (step lib (run (step lib) s calls) call).disk := by
  rw [runAppend]
  exact stepKeeps inv.mono call admits
    (fun bytes frame offer event completes decoded =>
      ⟨calls,call,[],bytes,frame,rfl,event,completes,decoded,fun _ => offerKeyVerified ..⟩)
    (fun _ small => Or.inl small)
    fun _ fx accepts here own => Or.inr ⟨calls,call,[],fx,rfl,own ▸ accepts,here,rfl⟩

theorem runKeeps (Room : Disk → Option FxRxState → Prop) (lib : Library) (link : DaemonLink.RuntimeControlState)
    (policy : FileTransferPolicy) (disk : Disk) (calls : List FileTransfers.Call) (room : Room disk none)
    (admits : ∀ before call after, calls = before ++ call::after →
      ∀ n, Admits lib (terms lib (start link policy disk) (before ++ [call]) Room) (call.worlds n)) :
    Inv lib (terms lib (start link policy disk) calls Room) (run (step lib) (start link policy disk) calls) := by
  induction calls using List.reverseRecOn with
  | nil => exact ⟨rfl,by simp [start],rfl,by simp [start],by simp [start],room⟩
  | append_singleton calls call ih =>
    have earlier := ih fun before c after split n => admits before c (after ++ [call]) (by simp [split]) n
    exact (runStep earlier call fun n => admits calls call [] rfl n).1

def unbounded : Disk → Option FxRxState → Prop := fun _ _ => True

theorem admitsUnbounded (lib : Library) (s : RuntimeControlState) (calls : List FileTransfers.Call) (w : World) :
    Admits lib (terms lib s calls unbounded) w := by
  constructor <;> intros <;> trivial

end Runs

/- Every file that was announced is whole, on the disk under its sender, of the size that was offered and
agreed to, and marked verified only when its bytes and its offer are the sender's own. -/
theorem receivedFilesSound (lib : Library) (link : DaemonLink.RuntimeControlState) (policy : FileTransferPolicy) (disk : Disk)
    (calls : List FileTransfers.Call) :
    let after := run (step lib) (start link policy disk) calls
    announced after = after.receivedFiles.map summarised ∧ (after.receivedFiles.map FileSummary.path).Nodup ∧
      ∀ f ∈ after.receivedFiles, ∃ offer key payload, after.disk.lookup f.path = some payload ∧
        Received lib policy (Heard lib (start link policy disk) calls) (Consented lib (start link policy disk) calls)
          f offer key payload := by
  intro after
  have inv := runKeeps unbounded lib link policy disk calls trivial fun _ _ _ _ _ => admitsUnbounded ..
  refine ⟨inv.announced,inv.paths,fun f member => ?_⟩
  obtain ⟨offer,key,payload,received,there⟩ := inv.files f member
  exact ⟨offer,key,payload,there,received⟩

/- At every step: a file outside the partial stores is neither changed nor removed, and whatever is new on
the disk is part of a file that was offered, passed the policy and was agreed to. -/
theorem writtenConsented (lib : Library) (link : DaemonLink.RuntimeControlState) (policy : FileTransferPolicy) (disk : Disk)
    (calls : List FileTransfers.Call) (call : FileTransfers.Call) :
    let s := start link policy disk
    let before := run (step lib) s calls
    let after := step lib before call
    (∀ path bytes, ¬ InPartial policy.toFileTransferPolicy path → before.disk.lookup path = some bytes →
        after.disk.lookup path = some bytes) ∧
      ∀ path bytes, after.disk.lookup path = some bytes → before.disk.lookup path = some bytes ∨
        ∃ offer sender key, Offered lib policy (Heard lib s (calls ++ [call])) offer sender key ∧
          Consented lib s (calls ++ [call]) offer ∧ peerDir policy.toFileTransferPolicy sender <+: path ∧
          bytes.length ≤ offer.fileSize.toNat := by
  intro s before after
  have inv := runKeeps unbounded lib link policy disk calls trivial fun _ _ _ _ _ => admitsUnbounded ..
  have grows := (runStep inv call fun _ => admitsUnbounded ..).2
  exact ⟨grows.keeps,grows.adds⟩

end OpenPulse.FileStorage
