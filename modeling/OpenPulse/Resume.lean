import OpenPulse.Downloads
import OpenPulse.FileDelivery

/-! Resuming an interrupted transfer: the partial store of
`openpulse-daemon/src/filexfer.rs`. Completed blocks are saved under the hash of the
file, one file for each block index, and a later offer of the same file takes those
whose length is right for its own block size. The block size itself is not stored. -/
namespace OpenPulse.Resume
open Runs ByteCodec Compression FxWire Tables FileBlocks FileDelivery Downloads

def offerGeometryOk (o : FileOffer) : Bool :=
  decide (minBlockSize ≤ o.blockSize.toNat) && decide (o.blockSize.toNat ≤ maxBlockSize) &&
    blockCount o.fileSize.toNat o.blockSize.toNat == some o.blockCount

def expectedBlockLen (o : FileOffer) (blockIndex : UInt16) : Nat :=
  min (o.fileSize.toNat - blockIndex.toNat * o.blockSize.toNat) o.blockSize.toNat

def assemblerFor (o : FileOffer) : BlockAssembler := .new o.transferId o.blockCount o.blockSize o.fileSize

def blockSuffix : String := ".blk"

def blockFile (blockIndex : UInt16) : String := toString blockIndex.toNat ++ blockSuffix

def persistBlock (disk : Disk) (partialDir : Path) (blockIndex : UInt16) (block : Bytes) : Disk :=
  disk.insert (partialDir ++ [blockFile blockIndex]) block

def stripSuffix (suffix name : List Char) : Option (List Char) :=
  if suffix.isSuffixOf name then some (name.take (name.length - suffix.length)) else none

def dropPlus : List Char → List Char
  | '+'::digits => digits
  | digits => digits

def parseU16 (text : List Char) : Option UInt16 :=
  -- as `str::parse::<u16>` reads it: a plus sign is allowed, an empty number is not
  let digits := dropPlus text
  if digits.isEmpty || !digits.all Char.isDigit then none
  else if Nat.ofDigitChars 10 digits 0 < 65536 then some (Nat.ofDigitChars 10 digits 0).toUInt16
  else none

def readDir (disk : Disk) (dir : Path) : List (String × Bytes) :=
  -- the files directly in a directory. The source reads them in any order
  disk.entries.filterMap fun e => if e.1.dropLast = dir then e.1.getLast?.map fun name => (name,e.2) else none

def loadEntry (o : FileOffer) (state : List Bool × BlockAssembler) (entry : String × Bytes) : List Bool × BlockAssembler :=
  match (stripSuffix blockSuffix.toList entry.1.toList).bind parseU16 with
  | none => state
  | some blockIndex =>
    if o.blockCount ≤ blockIndex then state
    else if entry.2.length ≠ expectedBlockLen o blockIndex then state
    else (state.1.set blockIndex.toNat true,state.2.seedBlock blockIndex entry.2)

def loadPartials (o : FileOffer) (entries : List (String × Bytes)) (a : BlockAssembler) : List Bool × BlockAssembler :=
  entries.foldl (loadEntry o) (List.replicate o.blockCount.toNat false,a)

theorem parseRepr (i : UInt16) : parseU16 (toString i.toNat).toList = some i := by
  have small := i.toNat_lt
  have digits : (toString i.toNat).toList = Nat.toDigits 10 i.toNat := Nat.toList_repr
  have every : (Nat.toDigits 10 i.toNat).all Char.isDigit = true := by
    rw [List.all_eq_true]
    exact fun c member => Nat.isDigit_of_mem_toDigits (by decide) (by decide) member
  have some : (Nat.toDigits 10 i.toNat).isEmpty = false := by simp
  have unsigned : dropPlus (Nat.toDigits 10 i.toNat) = Nat.toDigits 10 i.toNat := by
    unfold dropPlus
    split
    next rest split =>
      have sign : '+'.isDigit = true := by
        rw [List.all_eq_true] at every
        exact every '+' (by simp [split])
      cases sign
    next => rfl
  rw [digits, parseU16]
  simp only [unsigned, some, every, Nat.ofDigitChars_ten_toDigits]
  simp [small]

theorem readBlockFile (i : UInt16) : (stripSuffix blockSuffix.toList (blockFile i).toList).bind parseU16 = some i := by
  have stripped : stripSuffix blockSuffix.toList (blockFile i).toList = some (toString i.toNat).toList := by
    simp [stripSuffix, blockFile]
  rw [stripped, Option.bind_some, parseRepr]

theorem blockFileInj {i j : UInt16} (same : blockFile i = blockFile j) : i = j := by
  have read := readBlockFile i
  rw [same, readBlockFile j] at read
  exact (Option.some.inj read).symm

theorem memReadDir {disk : Disk} {dir : Path} {name : String} {bytes : Bytes} :
    (name,bytes) ∈ readDir disk dir ↔ disk.lookup (dir ++ [name]) = some bytes := by
  rw [← Option.mem_def, AList.mem_lookup_iff, readDir, List.mem_filterMap]
  constructor
  · rintro ⟨⟨path,content⟩,member,found⟩
    split at found
    next parent =>
      obtain ⟨last,ends,same⟩ := Option.map_eq_some_iff.mp found
      cases same
      have whole : path = dir ++ [name] := by
        rw [← parent]
        exact (List.dropLast_append_getLast? name ends).symm
      rw [← whole]
      exact member
    next => cases found
  · intro member
    exact ⟨_,member,by simp⟩

structure Resumption where
  -- two offers of one file and the blocks saved while the first was received
  codecs : Codecs
  lossless : codecs.RoundTrip
  policy : FileTransferPolicy
  sender : String
  disk : Disk
  file : Bytes
  first : FileOffer
  second : FileOffer
  firstOk : offerGeometryOk first = true
  secondOk : offerGeometryOk second = true
  firstSize : first.fileSize.toNat = file.length
  secondSize : second.fileSize.toNat = file.length
  sameHash : first.sha256 = second.sha256
  vacant : readDir disk (partialDirFor policy sender first.sha256.val) = []
  saved : List UInt16
  inside : ∀ k ∈ saved, k < first.blockCount

theorem geometrySizes {o : FileOffer} (ok : offerGeometryOk o = true) :
    minBlockSize ≤ o.blockSize.toNat ∧ o.blockSize.toNat ≤ maxBlockSize ∧
      blockCount o.fileSize.toNat o.blockSize.toNat = some o.blockCount := by
  simpa [offerGeometryOk, and_assoc] using ok

namespace Resumption
variable (r : Resumption)

def sending (o : FileOffer) (ok : offerGeometryOk o = true) (size : o.fileSize.toNat = r.file.length) : Sending where
  codecs := r.codecs
  lossless := r.lossless
  transferId := o.transferId
  file := r.file
  blockSize := o.blockSize
  least := (geometrySizes ok).1
  most := (geometrySizes ok).2.1
  count := o.blockCount
  counted := size ▸ (geometrySizes ok).2.2

def earlier : Sending := r.sending r.first r.firstOk r.firstSize
def later : Sending := r.sending r.second r.secondOk r.secondSize

def store : Disk :=
  r.saved.foldl (fun disk k => persistBlock disk (partialDirFor r.policy r.sender r.first.sha256.val) k (r.earlier.block k)) r.disk

def Listed (entries : List (String × Bytes)) : Prop :=
  -- what the second offer finds, in any order of the directory
  entries.Perm (readDir r.store (partialDirFor r.policy r.sender r.second.sha256.val))

def loaded (entries : List (String × Bytes)) : List Bool × BlockAssembler :=
  loadPartials r.second entries (assemblerFor r.second)

variable {r}

theorem lookupSaved (dir : Path) {ks : List UInt16} (disk : Disk) (bytes : UInt16 → Bytes) {k : UInt16} (member : k ∈ ks) :
    (ks.foldl (fun disk k => persistBlock disk dir k (bytes k)) disk).lookup (dir ++ [blockFile k]) = some (bytes k) := by
  induction ks using List.reverseRecOn with
  | nil => cases member
  | append_singleton ks m ih =>
    rw [List.foldl_append, List.foldl_cons, List.foldl_nil, persistBlock, lookupInsert]
    by_cases same : k = m
    · rw [same, if_pos rfl]
    · have other : dir ++ [blockFile k] ≠ dir ++ [blockFile m] := by
        intro paths
        exact same (blockFileInj (by simpa using paths))
      have early : k ∈ ks := by simpa [same] using member
      rw [if_neg other, ih early]

theorem lookupUnsaved (dir : Path) {ks : List UInt16} (disk : Disk) (bytes : UInt16 → Bytes) {name : String}
    (other : ∀ k ∈ ks, name ≠ blockFile k) :
    (ks.foldl (fun disk k => persistBlock disk dir k (bytes k)) disk).lookup (dir ++ [name]) = disk.lookup (dir ++ [name]) := by
  induction ks using List.reverseRecOn with
  | nil => rfl
  | append_singleton ks m ih =>
    have last : dir ++ [name] ≠ dir ++ [blockFile m] := by simpa using other m (by simp)
    rw [List.foldl_append, List.foldl_cons, List.foldl_nil, persistBlock, lookupInsert, if_neg last]
    exact ih fun k member => other k (List.mem_append_left _ member)

theorem memStore {name : String} {content : Bytes} :
    (name,content) ∈ readDir r.store (partialDirFor r.policy r.sender r.second.sha256.val) ↔
      ∃ k ∈ r.saved, name = blockFile k ∧ content = r.earlier.block k := by
  rw [← r.sameHash, memReadDir, store]
  constructor
  · intro found
    by_cases some : ∃ k ∈ r.saved, name = blockFile k
    · obtain ⟨k,member,rfl⟩ := some
      rw [lookupSaved _ _ _ member] at found
      exact ⟨k,member,rfl,(Option.some.inj found).symm⟩
    · push Not at some
      rw [lookupUnsaved _ _ _ some] at found
      have before := memReadDir.mpr found
      rw [r.vacant] at before
      cases before
  · rintro ⟨k,member,rfl,rfl⟩
    exact lookupSaved _ _ _ member

def Wanted (o : FileOffer) (k : UInt16) (bytes : Bytes) : Prop := k < o.blockCount ∧ bytes.length = expectedBlockLen o k

instance (o : FileOffer) (k : UInt16) (bytes : Bytes) : Decidable (Wanted o k bytes) := inferInstanceAs (Decidable (_ ∧ _))

theorem loadSaved (o : FileOffer) (state : List Bool × BlockAssembler) (k : UInt16) (bytes : Bytes) :
    loadEntry o state (blockFile k,bytes) =
      if Wanted o k bytes then (state.1.set k.toNat true,state.2.seedBlock k bytes) else state := by
  unfold loadEntry Wanted
  rw [readBlockFile]
  by_cases known : k < o.blockCount
  · by_cases length : bytes.length = expectedBlockLen o k
    · simp [known, length]
    · simp [known, length]
  · simp [UInt16.not_lt.mp known, known]

def Fits (o : FileOffer) (a : BlockAssembler) : Prop :=
  a.blockCount = o.blockCount ∧ a.blockSize = o.blockSize ∧ a.fileSize = o.fileSize

theorem seedWanted {o : FileOffer} {a : BlockAssembler} (fits : Fits o a) {k : UInt16} {bytes : Bytes} (wanted : Wanted o k bytes) :
    a.seedBlock k bytes = { a with blocks := a.blocks.insert k bytes } := by
  obtain ⟨count,size,length⟩ := fits
  refine if_pos ⟨count ▸ wanted.1,?_⟩
  rw [wanted.2, expectedBlockLen, BlockAssembler.expectedBlockLen, size, length]

structure Loads (o : FileOffer) (bytes : UInt16 → Bytes) (entries : List (String × Bytes)) (before after : List Bool × BlockAssembler) :
    Prop where
  block : ∀ i, after.2.block i =
    if (blockFile i,bytes i) ∈ entries ∧ Wanted o i (bytes i) then some (bytes i) else before.2.block i
  held : ∀ i : UInt16, after.1[i.toNat]? = some true → before.1[i.toNat]? = some true ∨
    ((blockFile i,bytes i) ∈ entries ∧ Wanted o i (bytes i))
  length : after.1.length = before.1.length
  rest : after.2 = { before.2 with blocks := after.2.blocks }

theorem loadsAll {o : FileOffer} {bytes : UInt16 → Bytes} {entries : List (String × Bytes)} {state : List Bool × BlockAssembler}
    (fits : Fits o state.2) (named : ∀ e ∈ entries, ∃ k, e = (blockFile k,bytes k)) :
    Loads o bytes entries state (entries.foldl (loadEntry o) state) := by
  induction entries using List.reverseRecOn with
  | nil => exact ⟨by simp,by simp,rfl,rfl⟩
  | append_singleton entries e ih =>
    have early := ih fun e member => named e (List.mem_append_left _ member)
    obtain ⟨k,rfl⟩ := named e (by simp)
    have same : ∀ i, (blockFile i,bytes i) = (blockFile k,bytes k) ↔ i = k := by
      intro i
      constructor
      · intro equal
        exact blockFileInj (Prod.mk.inj equal).1
      · rintro rfl
        rfl
    rw [List.foldl_append, List.foldl_cons, List.foldl_nil, loadSaved]
    by_cases wanted : Wanted o k (bytes k)
    · have fits : Fits o (entries.foldl (loadEntry o) state).2 := by
        rw [early.rest]
        exact fits
      rw [if_pos wanted, seedWanted fits wanted]
      refine ⟨?_,?_,by simp [early.length],by rw [early.rest]⟩
      · intro i
        by_cases here : i = k
        · subst here
          simp [BlockAssembler.block, wanted]
        · have kept := early.block i
          simp only [List.mem_append, List.mem_singleton, same, here, or_false]
          rw [← kept]
          simp [BlockAssembler.block, here]
      · intro i set
        by_cases here : i = k
        · subst here
          exact Or.inr ⟨by simp,wanted⟩
        · have position : ¬ k.toNat = i.toNat := fun equal => here (UInt16.toNat_inj.mp equal).symm
          rw [List.getElem?_set_ne position] at set
          rcases early.held i set with old | ⟨listed,length⟩
          · exact Or.inl old
          · exact Or.inr ⟨List.mem_append_left _ listed,length⟩
    · rw [if_neg wanted]
      have alike : ∀ i, (blockFile i,bytes i) ∈ entries ++ [(blockFile k,bytes k)] ∧ Wanted o i (bytes i) ↔
          (blockFile i,bytes i) ∈ entries ∧ Wanted o i (bytes i) := by
        intro i
        simp only [List.mem_append, List.mem_singleton, same]
        constructor
        · rintro ⟨listed | rfl,fitting⟩
          · exact ⟨listed,fitting⟩
          · exact absurd fitting wanted
        · rintro ⟨listed,fitting⟩
          exact ⟨Or.inl listed,fitting⟩
      exact ⟨fun i => by simp only [alike, early.block i],fun i set => by simpa only [alike] using early.held i set,
        early.length,early.rest⟩

theorem loadsListed {entries : List (String × Bytes)} (listed : r.Listed entries) :
    Loads r.second r.earlier.block entries (List.replicate r.second.blockCount.toNat false,assemblerFor r.second) (r.loaded entries) ∧
      ∀ i, (blockFile i,r.earlier.block i) ∈ entries ↔ i ∈ r.saved := by
  have named : ∀ e ∈ entries, ∃ k ∈ r.saved, e = (blockFile k,r.earlier.block k) := by
    rintro ⟨name,content⟩ member
    obtain ⟨k,there,rfl,rfl⟩ := memStore.mp (listed.mem_iff.mp member)
    exact ⟨k,there,rfl⟩
  refine ⟨loadsAll ⟨rfl,rfl,rfl⟩ fun e member => ?_,fun i => ⟨fun member => ?_,fun member => ?_⟩⟩
  · obtain ⟨k,-,same⟩ := named e member
    exact ⟨k,same⟩
  · obtain ⟨k,there,same⟩ := named _ member
    rw [blockFileInj (Prod.mk.inj same).1]
    exact there
  · exact listed.mem_iff.mpr (memStore.mpr ⟨i,member,rfl,rfl⟩)

end Resumption

def Clash (file : Bytes) (one two k : Nat) : Prop :=
  -- under the two block sizes block `k` is as long, the shorter size, but begins elsewhere and has other bytes
  one ≠ two ∧ 1 ≤ k ∧ file.length = min one two + k * max one two ∧
    slice (k * one) (min one two) file ≠ slice (k * two) (min one two) file

theorem pieceSlice {size k n : Nat} {file : Bytes} (length : (piece size file k).length = n) :
    piece size file k = slice (k * size) n file := by
  rw [pieceLength] at length
  unfold piece slice
  rw [List.take_eq_take_iff, List.length_drop]
  omega

theorem coincide {n one two k : Nat} (different : one ≠ two) (later : 1 ≤ k) (left : k * one < n) (right : k * two < n) :
    min (n - k * one) one = min (n - k * two) two ↔ n = min one two + k * max one two := by
  rcases Nat.lt_or_gt_of_ne different with less | less
  · have offsets : k * one < k * two := Nat.mul_lt_mul_of_pos_left less later
    rw [Nat.min_eq_left less.le, Nat.max_eq_right less.le]
    omega
  · have offsets : k * two < k * one := Nat.mul_lt_mul_of_pos_left less later
    rw [Nat.min_eq_right less.le, Nat.max_eq_left less.le]
    omega

theorem coincidence {n one two k : Nat} (left : k * one < n) (right : k * two < n)
    (whole : n = min one two + k * max one two) : min (n - k * one) one = min one two ∧ min (n - k * two) two = min one two := by
  rcases Nat.le_total one two with less | less
  · have offsets : k * one ≤ k * two := Nat.mul_le_mul_left k less
    rw [Nat.min_eq_left less] at whole ⊢
    rw [Nat.max_eq_right less] at whole
    omega
  · have offsets : k * two ≤ k * one := Nat.mul_le_mul_left k less
    rw [Nat.min_eq_right less] at whole ⊢
    rw [Nat.max_eq_left less] at whole
    omega

theorem insideCount {s : Sending} {k : UInt16} (later : 1 ≤ k.toNat) : k < s.count ↔ k.toNat * s.blockSize.toNat < s.file.length := by
  have positive := s.sizePos
  have count := s.countEq.1
  have quotient : k.toNat < (s.file.length + s.blockSize.toNat - 1) / s.blockSize.toNat ↔
      k.toNat * s.blockSize.toNat < s.file.length := by
    rw [← Nat.succ_le_iff, Nat.le_div_iff_mul_le positive, Nat.succ_mul]
    omega
  rw [UInt16.lt_iff_toNat_lt, ← quotient]
  omega

theorem sameLength {one two : Sending} (file : one.file = two.file) {k : UInt16} (known : k < one.count) :
    (k < two.count → (one.block k).length = min (two.file.length - k.toNat * two.blockSize.toNat) two.blockSize.toNat →
      one.block k = two.block k) ↔ ¬ Clash two.file one.blockSize.toNat two.blockSize.toNat k.toNat := by
  have block : one.block k = piece one.blockSize.toNat two.file k.toNat := by rw [Sending.blockPiece known, file]
  have length := pieceLength one.blockSize.toNat two.file k.toNat
  have positive : 0 < one.blockSize.toNat ∧ 0 < two.blockSize.toNat := ⟨one.sizePos,two.sizePos⟩
  rw [block]
  by_cases first : k.toNat = 0
  · have none : ¬ Clash two.file one.blockSize.toNat two.blockSize.toNat k.toNat := fun clash => by
      have later := clash.2.1
      omega
    refine iff_of_true (fun there same => ?_) none
    rw [Sending.blockPiece there]
    rw [pieceSlice same, pieceSlice (pieceLength ..), first, Nat.zero_mul, Nat.zero_mul]
  · have later : 1 ≤ k.toNat := by omega
    have left : k.toNat * one.blockSize.toNat < two.file.length := file ▸ (insideCount later).mp known
    rw [length, insideCount later]
    by_cases equal : one.blockSize = two.blockSize
    · have none : ¬ Clash two.file one.blockSize.toNat two.blockSize.toNat k.toNat := fun clash => clash.1 (by rw [equal])
      refine iff_of_true (fun there _ => ?_) none
      rw [Sending.blockPiece ((insideCount later).mpr there), equal]
    · have different : one.blockSize.toNat ≠ two.blockSize.toNat := fun same => equal (UInt32.toNat_inj.mp same)
      by_cases whole : two.file.length = min one.blockSize.toNat two.blockSize.toNat + k.toNat * max one.blockSize.toNat two.blockSize.toNat
      · have right : k.toNat * two.blockSize.toNat < two.file.length := by
          have most := Nat.mul_le_mul_left k.toNat (Nat.le_max_right one.blockSize.toNat two.blockSize.toNat)
          omega
        obtain ⟨leftLength,rightLength⟩ := coincidence left right whole
        rw [leftLength, rightLength, Sending.blockPiece ((insideCount later).mpr right),
          pieceSlice (length.trans leftLength), pieceSlice ((pieceLength ..).trans rightLength)]
        constructor
        · intro same clash
          exact clash.2.2.2 (same right rfl)
        · intro none _ _
          by_contra other
          exact none ⟨different,later,whole,other⟩
      · have none : ¬ Clash two.file one.blockSize.toNat two.blockSize.toNat k.toNat := fun clash => whole clash.2.2.1
        refine iff_of_true (fun there same => ?_) none
        exact absurd ((coincide different later left there).mp same) whole

namespace Resumption
variable (r : Resumption)

def SeedsOwn (entries : List (String × Bytes)) : Prop :=
  ∀ i b, (r.loaded entries).2.block i = some b → b = r.later.block i

def Completes (entries : List (String × Bytes)) : Prop :=
  -- once the blocks that were not held have come the file is whole
  ∀ ds, (∀ d ∈ ds, r.later.Legit d) → r.later.Roomy (r.loaded entries).2 ds →
    (∀ i < r.second.blockCount, (r.loaded entries).1[i.toNat]? = some false → r.later.Seen i ds) →
    (run r.later.deliver (r.loaded entries).2 ds).reassemble = some r.file

variable {r}

theorem seedsOwnIff {entries : List (String × Bytes)} (listed : r.Listed entries) :
    r.SeedsOwn entries ↔ ∀ k ∈ r.saved, ¬ Clash r.file r.first.blockSize.toNat r.second.blockSize.toNat k.toNat := by
  obtain ⟨loads,members⟩ := loadsListed listed
  have fresh : ∀ i, (assemblerFor r.second).block i = none := fun i => rfl
  have own : ∀ k ∈ r.saved, (Wanted r.second k (r.earlier.block k) → r.earlier.block k = r.later.block k) ↔
      ¬ Clash r.file r.first.blockSize.toNat r.second.blockSize.toNat k.toNat := by
    intro k member
    refine Iff.trans ?_ (@sameLength r.earlier r.later rfl k (r.inside k member))
    rw [Wanted, expectedBlockLen, r.secondSize, and_imp]
    rfl
  constructor
  · intro seeds k member
    refine (own k member).mp (fun wanted => seeds k _ ?_)
    rw [loads.block k, if_pos ⟨(members k).mpr member,wanted⟩]
  · intro none i b found
    rw [loads.block i, fresh] at found
    split at found
    next taken =>
      cases found
      have member := (members i).mp taken.1
      exact (own i member).mpr (none i member) taken.2
    next => cases found

theorem fittingLoaded {entries : List (String × Bytes)} (listed : r.Listed entries) : r.later.Fitting (r.loaded entries).2 := by
  obtain ⟨loads,-⟩ := loadsListed listed
  rw [loads.rest]
  refine ⟨rfl,rfl,rfl,?_⟩
  apply UInt64.toNat_inj.mp
  have size := r.secondSize
  have small := r.second.fileSize.toNat_lt
  simp only [assemblerFor, BlockAssembler.new, later, sending, Nat.toUInt64_eq, UInt64.toNat_ofNat']
  omega

theorem completesOfOwn {entries : List (String × Bytes)} (listed : r.Listed entries) (own : r.SeedsOwn entries) : r.Completes entries := by
  intro ds legit room remaining
  obtain ⟨loads,members⟩ := loadsListed listed
  have fitting := fittingLoaded listed
  have begun : ∀ i, r.later.At ((r.loaded entries).2.block i) i (r.loaded entries).2 [] [] := by
    intro i
    refine Sending.startAt ?_ ?_ i
    · rw [loads.rest]
      rfl
    · rw [loads.rest]
      rfl
  refine Sending.reassembleHeld (Sending.runAt r.later.zeroKnown fitting (begun 0) legit room).1 ?_
  intro i known
  obtain ⟨-,old,new,split,now⟩ := Sending.runAt known fitting (begun i) legit room
  by_cases seen : r.later.Seen i ds
  · exact Sending.heldAt now (split ▸ seen)
  · rw [(Sending.unheldAt now (split ▸ seen)).2]
    have inside : i.toNat < (r.loaded entries).1.length := by
      rw [loads.length, List.length_replicate]
      exact UInt16.lt_iff_toNat_lt.mp known
    cases mark : (r.loaded entries).1[i.toNat] with
    | false => exact absurd (remaining i known (by rw [List.getElem?_eq_getElem inside, mark])) seen
    | true =>
      rcases loads.held i (by rw [List.getElem?_eq_getElem inside, mark]) with before | taken
      · simp [List.getElem?_replicate] at before
      · have block := loads.block i
        rw [if_pos taken] at block
        rw [block, own i _ block]

theorem resumeSound (r : Resumption) (entries : List (String × Bytes)) (listed : r.Listed entries) :
    (r.SeedsOwn entries ∧ r.Completes entries) ↔
      ∀ k ∈ r.saved, ¬ Clash r.file r.first.blockSize.toNat r.second.blockSize.toNat k.toNat := by
  rw [← seedsOwnIff listed]
  exact ⟨And.left,fun own => ⟨own,completesOfOwn listed own⟩⟩

end Resumption

def offerOf (fileSize : UInt64) (transferId blockSize : UInt32) (count : UInt16) : FileOffer where
  transferId
  flags := 0
  fileSize
  sha256 := filled 32 7
  blockSize
  blockCount := count
  senderId := ⟨"N0CALL",by decide⟩
  name := "file.bin"
  mime := "application/octet-stream"
  signature := zeros 64

def tinyAgain : Resumption where
  codecs := storing
  lossless := storingLossless
  policy := ⟨["home", "downloads"],0⟩
  sender := "W1AW"
  disk := ∅
  file := [1, 2, 3]
  first := offerOf 3 1 2048 1
  second := offerOf 3 2 1024 1
  firstOk := by decide
  secondOk := by decide
  firstSize := rfl
  secondSize := rfl
  sameHash := rfl
  vacant := rfl
  saved := [0]
  inside := List.forall_mem_singleton.mpr (by decide)

theorem resumeSoundTiny : ∃ entries, tinyAgain.Listed entries ∧ tinyAgain.SeedsOwn entries ∧ tinyAgain.Completes entries := by
  refine ⟨_,List.Perm.refl _,(Resumption.resumeSound tinyAgain _ (List.Perm.refl _)).mpr ?_⟩
  intro k member clash
  have zero : k = 0 := List.mem_singleton.mp member
  rw [zero] at clash
  exact absurd clash.2.1 (by decide)

def striped (n : Nat) : Bytes := List.replicate (2 * n) 0 ++ List.replicate n 1

theorem stripedLength (n : Nat) : (striped n).length = 3 * n := by
  simp only [striped, List.length_append, List.length_replicate]
  omega

theorem stripedPieces (n : Nat) : piece (2 * n) (striped n) 1 = List.replicate n 1 ∧ piece n (striped n) 1 = List.replicate n 0 := by
  constructor
  · simp only [piece, striped, Nat.one_mul, List.drop_left', List.length_replicate]
    exact List.take_of_length_le (by rw [List.length_replicate]; omega)
  · have front : n ≤ (List.replicate (2 * n) (0 : UInt8)).length := by
      rw [List.length_replicate]
      omega
    have middle : (List.replicate (2 * n - n) (0 : UInt8)).length = n := by
      rw [List.length_replicate]
      omega
    rw [piece, striped, Nat.one_mul, List.drop_append_of_le_length front, List.drop_replicate, List.take_left' middle]
    congr 1
    omega

def stripedAgain : Resumption where
  codecs := storing
  lossless := storingLossless
  policy := ⟨["home", "downloads"],0⟩
  sender := "W1AW"
  disk := ∅
  file := striped 1024
  first := offerOf 3072 1 2048 2
  second := offerOf 3072 2 1024 3
  firstOk := by decide
  secondOk := by decide
  firstSize := (stripedLength 1024).symm
  secondSize := (stripedLength 1024).symm
  sameHash := rfl
  vacant := rfl
  saved := [1]
  inside := List.forall_mem_singleton.mpr (by decide)

theorem stripesMixed : ∃ entries, stripedAgain.Listed entries ∧ stripedAgain.later.block 1 = List.replicate 1024 0 ∧
    (stripedAgain.loaded entries).2.block 1 = some (List.replicate 1024 1) ∧ ¬ stripedAgain.SeedsOwn entries := by
  have saved : stripedAgain.earlier.block 1 = List.replicate 1024 1 :=
    (Sending.blockPiece (s := stripedAgain.earlier) (by decide)).trans (stripedPieces 1024).1
  have own : stripedAgain.later.block 1 = List.replicate 1024 0 :=
    (Sending.blockPiece (s := stripedAgain.later) (by decide)).trans (stripedPieces 1024).2
  have listed : stripedAgain.Listed _ := List.Perm.refl _
  obtain ⟨loads,members⟩ := Resumption.loadsListed listed
  have wanted : Resumption.Wanted stripedAgain.second 1 (stripedAgain.earlier.block 1) := by
    refine ⟨by decide,?_⟩
    rw [saved, List.length_replicate]
    rfl
  have seeded := loads.block 1
  rw [if_pos ⟨(members 1).mpr (by decide),wanted⟩, saved] at seeded
  refine ⟨_,listed,own,seeded,fun seeds => ?_⟩
  have equal := seeds 1 _ seeded
  rw [own] at equal
  have head := congrArg (fun bytes => bytes[0]?) equal
  rw [List.getElem?_replicate, List.getElem?_replicate] at head
  cases head

end OpenPulse.Resume
