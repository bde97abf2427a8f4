import Mathlib.Algebra.Order.BigOperators.Group.Finset
import OpenPulse.FileStorage
import OpenPulse.Sums

/-! The quota of a peer. It is checked when a file is offered, and the blocks of the file are written
one by one and removed when the file itself is. While a transfer is on, what its blocks will still take
is counted as if it were on the disk. -/
namespace OpenPulse.FileQuota
open Runs ByteCodec FxWire Tables FileBlocks FxSessions FileTransfers FileStorage
open BlockBounds (Bounded Geometry)
open Downloads hiding FileTransferPolicy writeFile

theorem dirSizeTotal (disk : Disk) (dir : Path) :
    dirSize disk dir = total (fun path bytes => if dir.isPrefixOf path then bytes.length else 0) disk := by
  unfold dirSize total
  induction disk.entries with
  | nil => rfl
  | cons e es ih =>
    cases under : dir.isPrefixOf e.1 with
    | true => simp only [List.filter_cons, under, if_true, List.map_cons, List.sum_cons, ih]
    | false => simp only [List.filter_cons, under, Bool.false_eq_true, if_false, List.map_cons, List.sum_cons, ih, Nat.zero_add]

def oldLength (disk : Disk) (path : Path) : Nat := (disk.lookup path).elim 0 List.length

theorem dirSizeInsert (disk : Disk) {dir path : Path} (under : dir <+: path) (bytes : Bytes) :
    dirSize (disk.insert path bytes) dir + oldLength disk path = dirSize disk dir + bytes.length := by
  have inserted := totalInsert (fun path bytes => if dir.isPrefixOf path then bytes.length else 0) disk path bytes
  have inside : dir.isPrefixOf path = true := List.isPrefixOf_iff_prefix.mpr under
  simp only [inside, if_true, ← dirSizeTotal] at inserted
  exact inserted

theorem dirSizeOutside (disk : Disk) {dir path : Path} (outside : ¬ dir <+: path) (bytes : Bytes) :
    dirSize (disk.insert path bytes) dir = dirSize disk dir := by
  have inserted := totalInsert (fun path bytes => if dir.isPrefixOf path then bytes.length else 0) disk path bytes
  have apart : dir.isPrefixOf path = false := by
    rw [Bool.eq_false_iff]
    exact fun under => outside (List.isPrefixOf_iff_prefix.mp under)
  simp only [apart, Bool.false_eq_true, if_false, ← dirSizeTotal] at inserted
  cases old : disk.lookup path with
  | none => simpa [old] using inserted
  | some b => simpa [old] using inserted

theorem dirSizeRemoved (w : World) (disk : Disk) (gone dir : Path) : dirSize (w.removeDirAll disk gone) dir ≤ dirSize disk dir := by
  rw [dirSizeTotal, dirSizeTotal]
  have parts := totalDropped (fun path bytes => if dir.isPrefixOf path then bytes.length else 0)
    (fun path => gone.isPrefixOf path && w.removed path) disk
  exact Nat.le_of_add_right_le parts.le

theorem dirSizeCleared {w : World} (reaches : ∀ path, w.removed path = true) (disk : Disk) {gone dir : Path} (below : dir <+: gone) :
    dirSize (w.removeDirAll disk gone) dir + dirSize disk gone = dirSize disk dir := by
  have parts := totalDropped (fun path bytes => if dir.isPrefixOf path then bytes.length else 0)
    (fun path => gone.isPrefixOf path && w.removed path) disk
  have held : total (fun path bytes => if gone.isPrefixOf path && w.removed path then (if dir.isPrefixOf path then bytes.length else 0) else 0)
      disk = dirSize disk gone := by
    rw [dirSizeTotal]
    congr 1
    funext path bytes
    rw [reaches, Bool.and_true]
    split
    next under =>
      have above : dir.isPrefixOf path = true :=
        List.isPrefixOf_iff_prefix.mpr (below.trans (List.isPrefixOf_iff_prefix.mp under))
      rw [if_pos above]
    next => rfl
  rw [held, ← dirSizeTotal, ← dirSizeTotal] at parts
  exact parts

theorem dirSizePurged (w : World) (policy : FileTransferPolicy) (sender : String) (disk : Disk) (dir : Path) :
    dirSize (purgeStalePartials w policy sender disk) dir ≤ dirSize disk dir := by
  unfold purgeStalePartials
  split
  · exact Nat.le_refl _
  · dsimp only
    generalize subdirs disk (peerDir policy.toFileTransferPolicy sender ++ [partialSubdir]) = names
    induction names generalizing disk with
    | nil => exact Nat.le_refl _
    | cons name names ih =>
      rw [List.foldl_cons]
      refine (ih _).trans ?_
      split
      · exact dirSizeRemoved ..
      · exact Nat.le_refl _

def blockPath (fx : FxRxState) (k : Nat) : Path := fx.partialDir ++ [Resume.blockFile k.toUInt16]

def blockLen (fx : FxRxState) (k : Nat) : Nat := (offerGeometry fx.offer).blockLength k.toUInt16

def saved (disk : Disk) (fx : FxRxState) (k : Nat) : Bool := (disk.lookup (blockPath fx k)).map List.length == some (blockLen fx k)

def owedBlock (disk : Disk) (fx : FxRxState) (k : Nat) : Nat := if saved disk fx k then 0 else blockLen fx k

def owed (disk : Disk) (fx : FxRxState) : Nat := ∑ k ∈ Finset.range fx.offer.blockCount.toNat, owedBlock disk fx k

variable {fx : FxRxState} {disk : Disk}

theorem lensWhole (geometry : Resume.offerGeometryOk fx.offer = true) :
    ∑ k ∈ Finset.range fx.offer.blockCount.toNat, blockLen fx k = fx.offer.fileSize.toNat := by
  have pieces : ∀ n ≤ fx.offer.blockCount.toNat, ∑ k ∈ Finset.range n, blockLen fx k =
      min fx.offer.fileSize.toNat (n * fx.offer.blockSize.toNat) := by
    intro n le
    have bound := fx.offer.blockCount.toNat_lt
    induction n with
    | zero => simp
    | succ n ih =>
      have index : n.toUInt16.toNat = n := by
        rw [Nat.toUInt16_eq, UInt16.toNat_ofNat']
        omega
      rw [Finset.sum_range_succ, ih (by omega), blockLen, Geometry.blockLength, offerGeometry, index, Nat.succ_mul]
      simp only
      omega
  rw [pieces _ (Nat.le_refl _), Nat.min_eq_left (sizeCovered geometry)]

theorem owedLe (geometry : Resume.offerGeometryOk fx.offer = true) : owed disk fx ≤ fx.offer.fileSize.toNat := by
  rw [← lensWhole geometry]
  refine Finset.sum_le_sum fun k _ => ?_
  unfold owedBlock
  split
  · exact Nat.zero_le _
  · exact Nat.le_refl _

theorem blockPathInj {j k : Nat} (left : j < fx.offer.blockCount.toNat) (right : k < fx.offer.blockCount.toNat)
    (same : blockPath fx j = blockPath fx k) : j = k := by
  have bound := fx.offer.blockCount.toNat_lt
  have files : j.toUInt16 = k.toUInt16 := Resume.blockFileInj (by simpa [blockPath] using same)
  have values := congrArg UInt16.toNat files
  rw [Nat.toUInt16_eq, Nat.toUInt16_eq, UInt16.toNat_ofNat', UInt16.toNat_ofNat'] at values
  omega

theorem rangeSum (f : Nat → Nat) (n : Nat) : ∑ k ∈ Finset.range n, f k = ((List.range n).map f).sum := by
  induction n with
  | zero => rfl
  | succ n ih => rw [Finset.sum_range_succ, List.range_succ, List.map_append, List.sum_append, ih, List.map_singleton, List.sum_singleton]

theorem storeHolds (geometry : Resume.offerGeometryOk fx.offer = true) (disk : Disk) :
    fx.offer.fileSize.toNat ≤ owed disk fx + dirSize disk fx.partialDir := by
  let n := fx.offer.blockCount.toNat
  have different : ((List.range n).map (blockPath fx)).Nodup := by
    refine List.Nodup.map_on ?_ List.nodup_range
    intro j left k right same
    exact blockPathInj (List.mem_range.mp left) (List.mem_range.mp right) same
  have held := totalKeys (fun path bytes => if fx.partialDir.isPrefixOf path then bytes.length else 0) different disk
  rw [← dirSizeTotal, List.map_map, ← rangeSum] at held
  rw [← lensWhole geometry]
  refine Nat.le_trans ?_ (Nat.add_le_add_left held _)
  rw [owed, ← Finset.sum_add_distrib]
  refine Finset.sum_le_sum fun k _ => ?_
  have under : fx.partialDir.isPrefixOf (blockPath fx k) = true := List.isPrefixOf_iff_prefix.mpr (List.prefix_append _ _)
  unfold owedBlock
  split
  next here =>
    obtain ⟨bytes,found,length⟩ := Option.map_eq_some_iff.mp (beq_iff_eq.mp here)
    simp only [Function.comp_apply, found, under, Option.elim_some, if_true]
    omega
  next => omega

/-- The disk takes whole files or nothing of them, and gives up what is removed. -/
structure Healthy (w : World) : Prop where
  whole : ∀ path n error, w.write path ≠ .failed (some n) error
  reaches : ∀ path, w.removed path = true

def reserved (disk : Disk) (name : String) : Option FxRxState → Nat
  | some fx => if peerName fx.sender = name then owed disk fx else 0
  | none => 0

def Room (policy : FileTransferPolicy) (bound : String → Nat) (disk : Disk) (slot : Option FxRxState) : Prop :=
  ∀ name, dirSize disk (policy.downloadDir ++ [name]) + reserved disk name slot ≤ bound name

theorem putHealthy {w : World} (healthy : Healthy w) (disk : Disk) (path : Path) (bytes : Bytes) :
    (w.put disk path bytes).1 = disk ∨ (w.put disk path bytes).1 = disk.insert path bytes := by
  unfold World.put
  split
  · exact Or.inr rfl
  · exact Or.inl rfl
  next n error found => exact absurd found (healthy.whole path n error)

theorem otherPeer {policy : FileTransferPolicy} {sender name : String} (other : peerName sender ≠ name) {path : Path}
    (under : peerDir policy.toFileTransferPolicy sender <+: path) : ¬ policy.downloadDir ++ [name] <+: path := by
  intro here
  have same := List.prefix_of_prefix_length_le under here (by simp [peerDir])
  have equal : policy.downloadDir ++ [peerName sender] = policy.downloadDir ++ [name] :=
    same.eq_of_length (by simp [peerDir])
  exact other (by simpa using equal)

section Bounds
variable {lib : Library} {t : Terms} {w : World} {bound : String → Nat}

theorem purgeRoom (disk : Disk) (sender : String) (room : Room t.policy bound disk none) :
    Room t.policy bound (purgeStalePartials w t.policy sender disk) none := by
  intro name
  have before := room name
  have purged := dirSizePurged w t.policy sender disk (t.policy.downloadDir ++ [name])
  simp only [reserved] at before ⊢
  omega

theorem offerRoom (session : Session lib t fx) (room : Room t.policy bound disk none)
    (some : t.policy.perPeerQuotaBytes.toNat ≠ 0) (finite : t.policy.perPeerQuotaBytes.toNat < 2 ^ 64 - 1)
    (quota : ∀ name, t.policy.perPeerQuotaBytes.toNat ≤ bound name)
    (fits : quotaWouldExceed t.policy.toFileTransferPolicy disk fx.sender fx.offer.fileSize.toNat = false) :
    Room t.policy bound (purgeStalePartials w t.policy fx.sender disk) (.some fx) := by
  intro name
  have before := room name
  have purged := dirSizePurged w t.policy fx.sender disk (t.policy.downloadDir ++ [name])
  simp only [reserved] at before ⊢
  split
  next here =>
    have owes : owed (purgeStalePartials w t.policy fx.sender disk) fx ≤ fx.offer.fileSize.toNat := owedLe session.offered.geometry
    have most := quota name
    have used : dirSize disk (t.policy.downloadDir ++ [name]) + fx.offer.fileSize.toNat ≤ t.policy.perPeerQuotaBytes.toNat := by
      simp only [quotaWouldExceed, Bool.and_eq_false_iff, bne_eq_false_iff_eq, decide_eq_false_iff_not, peerDir, here] at fits
      omega
    omega
  next => omega

theorem savedOther {i k : Nat} (left : i < fx.offer.blockCount.toNat) (right : k < fx.offer.blockCount.toNat) (other : k ≠ i) (block : Bytes) :
    owedBlock (disk.insert (blockPath fx i) block) fx k = owedBlock disk fx k := by
  have apart : blockPath fx k ≠ blockPath fx i := fun same => other (blockPathInj right left same)
  rw [owedBlock, owedBlock, saved, saved, lookupInsert, if_neg apart]

theorem owedSaved {i : Nat} {block : Bytes} (len : block.length = blockLen fx i) (inside : i < fx.offer.blockCount.toNat) (disk : Disk) :
    owed (disk.insert (blockPath fx i) block) fx + owedBlock disk fx i = owed disk fx := by
  have member : i ∈ Finset.range fx.offer.blockCount.toNat := Finset.mem_range.mpr inside
  have now : owedBlock (disk.insert (blockPath fx i) block) fx i = 0 := by
    rw [owedBlock, saved, lookupInsert, if_pos rfl, Option.map_some, len]
    simp
  have rest : ∑ k ∈ (Finset.range fx.offer.blockCount.toNat).erase i, owedBlock (disk.insert (blockPath fx i) block) fx k =
      ∑ k ∈ (Finset.range fx.offer.blockCount.toNat).erase i, owedBlock disk fx k := by
    refine Finset.sum_congr rfl fun k there => ?_
    obtain ⟨other,right⟩ := Finset.mem_erase.mp there
    exact savedOther inside (Finset.mem_range.mp right) other block
  have before := Finset.add_sum_erase _ (owedBlock disk fx) member
  have after := Finset.add_sum_erase _ (owedBlock (disk.insert (blockPath fx i) block) fx) member
  unfold owed
  omega

theorem persistRoom (healthy : Healthy w) (session : Session lib t fx) (room : Room t.policy bound disk (some fx)) {i : UInt16} {block : Bytes}
    (stored : fx.assembler.block i = some block) : Room t.policy bound (persistBlock w disk fx.partialDir i block) (some fx) := by
  obtain ⟨known,length⟩ := session.bounded.blocks i block stored
  have path : fx.partialDir ++ [Resume.blockFile i] = blockPath fx i.toNat := by
    rw [blockPath, Nat.toUInt16_eq, UInt16.ofNat_toNat]
  have len : block.length = blockLen fx i.toNat := by
    rw [length, blockLen, Nat.toUInt16_eq, UInt16.ofNat_toNat]
  have inside : i.toNat < fx.offer.blockCount.toNat := UInt16.lt_iff_toNat_lt.mp known
  have under : peerDir t.policy.toFileTransferPolicy fx.sender <+: blockPath fx i.toNat := by
    rw [blockPath, session.partialDir, partialDirFor, List.append_assoc]
    exact List.prefix_append _ _
  unfold persistBlock
  rw [path]
  rcases putHealthy healthy disk (blockPath fx i.toNat) block with same | same
  · rw [same]
    exact room
  rw [same]
  intro name
  have before := room name
  simp only [reserved] at before ⊢
  split
  next here =>
    rw [if_pos here] at before
    have place : t.policy.downloadDir ++ [name] <+: blockPath fx i.toNat := by
      rw [← here]
      exact under
    have inserted := dirSizeInsert disk place block
    have paid := owedSaved len inside disk
    have old : saved disk fx i.toNat = true → oldLength disk (blockPath fx i.toNat) = block.length := by
      intro there
      obtain ⟨bytes,found,length⟩ := Option.map_eq_some_iff.mp (beq_iff_eq.mp there)
      rw [oldLength, found, len]
      exact length
    unfold owedBlock at paid
    split at paid
    next there =>
      have equal := old there
      omega
    next => omega
  next other =>
    rw [dirSizeOutside disk (otherPeer other under)]
    rwa [if_neg other] at before

theorem storeRoom (healthy : Healthy w) (session : Session lib t fx) (room : Room t.policy bound disk (some fx)) {payload : Bytes}
    {verified : Bool} {path : Path} {written : Disk} (size : payload.length = fx.offer.fileSize.toNat)
    (wrote : writeFile w t.policy disk fx.sender fx.offer.name payload verified = (.ok path,written)) :
    Room t.policy bound (w.removeDirAll written fx.partialDir) none := by
  obtain ⟨⟨file,rfl⟩,free,rfl⟩ := writeFileStored wrote
  intro name
  have before := room name
  simp only [reserved] at before ⊢
  have under : peerDir t.policy.toFileTransferPolicy fx.sender <+: peerDir t.policy.toFileTransferPolicy fx.sender ++ [file] :=
    List.prefix_append _ _
  split at before
  next here =>
    have dir : t.policy.downloadDir ++ [name] = peerDir t.policy.toFileTransferPolicy fx.sender := by rw [peerDir, here]
    have inserted := dirSizeInsert disk under payload
    rw [oldLength, free] at inserted
    have outside : ¬ fx.partialDir <+: peerDir t.policy.toFileTransferPolicy fx.sender ++ [file] := by
      intro inside
      have length := inside.length_le
      rw [session.partialDir] at length
      simp [partialDirFor] at length
    have below : peerDir t.policy.toFileTransferPolicy fx.sender <+: fx.partialDir := by
      rw [session.partialDir]
      exact List.prefix_append _ _
    have cleared := dirSizeCleared healthy.reaches
      (disk.insert (peerDir t.policy.toFileTransferPolicy fx.sender ++ [file]) payload) below
    rw [dirSizeOutside disk outside] at cleared
    have held := storeHolds session.offered.geometry disk
    rw [dir] at before ⊢
    simp only [Option.elim_none] at inserted
    omega
  next other =>
    have removed := dirSizeRemoved w (disk.insert (peerDir t.policy.toFileTransferPolicy fx.sender ++ [file]) payload) fx.partialDir
      (t.policy.downloadDir ++ [name])
    rw [dirSizeOutside disk (otherPeer other under)] at removed
    omega

theorem refusedDisk (healthy : Healthy w) {policy : FileTransferPolicy} {sender name error : String} {payload : Bytes} {verified : Bool}
    {written : Disk} (wrote : writeFile w policy disk sender name payload verified = (.error error,written)) : written = disk := by
  simp only [writeFile] at wrote
  split at wrote
  · cases wrote
    rfl
  next path _ =>
    split at wrote
    next => cases wrote
    next put =>
      cases wrote
      unfold World.put at put
      split at put
      · cases put
      · cases put
        rfl
      next n error found => exact absurd found (healthy.whole path n error)

theorem roomAdmits (lib : Library) (policy : FileTransferPolicy) (Heard : FileOffer → Option Signing.PeerId → Prop) (Agreed : FileOffer → Prop)
    (healthy : Healthy w) (limited : policy.perPeerQuotaBytes.toNat ≠ 0) (finite : policy.perPeerQuotaBytes.toNat < 2 ^ 64 - 1)
    (quota : ∀ name, policy.perPeerQuotaBytes.toNat ≤ bound name) : Admits lib ⟨policy,Heard,Agreed,Room policy bound⟩ w where
  drop := fun disk fx room name => Nat.le_trans (Nat.add_le_add_left (Nat.zero_le _) _) (room name)
  turn := fun disk fx receiver assembler room => room
  purge := fun disk sender room => purgeRoom (t := ⟨policy,Heard,Agreed,Room policy bound⟩) disk sender room
  offer := fun disk fx session room fits => offerRoom session room limited finite quota fits
  persist := fun disk fx i block session room stored => persistRoom healthy session room stored
  store := fun disk fx payload verified path written session room size wrote => storeRoom healthy session room size wrote
  refuse := fun disk fx payload verified error written session room size wrote => by
    rw [refusedDisk healthy wrote]
    exact fun name => Nat.le_trans (Nat.add_le_add_left (Nat.zero_le _) _) (room name)

end Bounds

/- No peer's directory grows past its quota, whatever is offered, accepted, sent or interrupted: a
directory that was larger at the start grows no further. The sizes are those the daemon computes, between
two calls: inside the one that stores a file its partial blocks and the file are both there. -/
theorem quotaKept (lib : Library) (link : DaemonLink.RuntimeControlState) (policy : FileTransferPolicy) (disk : Disk) (calls : List Call)
    (limited : policy.perPeerQuotaBytes ≠ 0) (healthy : ∀ call ∈ calls, ∀ n, Healthy (call.worlds n)) (sender : String) :
    min (dirSize (run (step lib) (start link policy disk) calls).disk (peerDir policy.toFileTransferPolicy sender)) (2 ^ 64 - 1) ≤
      max (dirSize disk (peerDir policy.toFileTransferPolicy sender)) policy.perPeerQuotaBytes.toNat := by
  have small := policy.perPeerQuotaBytes.toNat_lt
  by_cases finite : policy.perPeerQuotaBytes.toNat < 2 ^ 64 - 1
  · have nonzero : policy.perPeerQuotaBytes.toNat ≠ 0 := fun zero => limited (UInt64.toNat_inj.mp zero)
    let bound (name : String) : Nat := max (dirSize disk (policy.downloadDir ++ [name])) policy.perPeerQuotaBytes.toNat
    have inv := runKeeps (Room policy bound) lib link policy disk calls (fun name => Nat.le_max_left _ _) fun before call after split n =>
      roomAdmits lib policy _ _ (healthy call (by simp [split]) n) nonzero finite fun name => Nat.le_max_right _ _
    have room := inv.room (peerName sender)
    have inside : dirSize (run (step lib) (start link policy disk) calls).disk (peerDir policy.toFileTransferPolicy sender) ≤
        bound (peerName sender) := Nat.le_of_add_right_le room
    exact (Nat.min_le_left _ _).trans inside
  · omega

namespace Bench

def lib : Library := ⟨FileDelivery.storing,Signing.tagScheme,KeyDerivation.shortMessages.sha256,id⟩

def policy : FileTransferPolicy := ⟨⟨["home", "downloads"],4096⟩,⟨true,1000,0,true⟩,[],72,{}⟩

def world : World := ⟨5000,3,9,fun _ => .done,fun _ => true,fun _ => false,id,fun _ _ member => member⟩

def seed : Signing.Seed := filled 32 5

def link : DaemonLink.RuntimeControlState :=
  { DaemonLink.Bench.station.state with
    verifiedPeers := (∅ : Table String DaemonLink.VerifiedPeer).insert "W1AW" ⟨"W1AW","FN31",seed.val,none⟩ }

def file : Bytes := [72, 105]

def offer : Option FileOffer :=
  (TransferManifest.sign lib file "W1AW" seed).toOption.bind fun manifest => fromManifest lib 7 manifest "hi.txt" "text/plain" 1024 seed

def fragment (bytes : Bytes) (segmentId : UInt16) : Event := .fragment bytes segmentId

def events : List Event :=
  (offer.toList.map fun o => fragment (Sar.payloadOf fxControlSegmentId (FxFrame.fileOffer o).encode 0) fxControlSegmentId) ++
    .acceptFile 7 :: ((encodeBlock lib.codecs 7 0 file none).toOption.getD []).map fun bytes => fragment bytes 1

def calls : List Call := events.map fun event => ⟨event,"BPSK250",fun _ => world⟩

theorem healthy : ∀ call ∈ calls, ∀ n, Healthy (call.worlds n) := by
  intro call member n
  obtain ⟨event,-,rfl⟩ := List.mem_map.mp member
  refine ⟨fun _ _ _ same => ?_,fun _ => rfl⟩
  cases same

end Bench

theorem quotaKeptReceived :
    let after := run (step Bench.lib) (start Bench.link Bench.policy ∅) Bench.calls
    after.receivedFiles = [⟨"hi.txt","W1AW",2,true,["home", "downloads", "W1AW", "hi.txt"],9⟩] ∧
      min (dirSize after.disk (peerDir Bench.policy.toFileTransferPolicy "W1AW")) (2 ^ 64 - 1) ≤
        max (dirSize ∅ (peerDir Bench.policy.toFileTransferPolicy "W1AW")) 4096 :=
  ⟨by decide +kernel,quotaKept Bench.lib Bench.link Bench.policy ∅ Bench.calls (by decide) Bench.healthy "W1AW"⟩

end OpenPulse.FileQuota
