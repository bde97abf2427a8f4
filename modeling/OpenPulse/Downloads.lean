import Mathlib.Algebra.GroupWithZero.Nat
import Mathlib.Data.List.DropRight
import Mathlib.Data.List.Forall2
import OpenPulse.FxWire
import OpenPulse.Tables

/-! Where a received file is stored: `sanitize_filename` of `openpulse-filexfer` and
the paths of `openpulse-daemon/src/filexfer.rs`. A path is the list of its components
and the disk is the table of its files. A peer's directory is named by its sanitised
identity. -/
namespace OpenPulse.Downloads
open ByteCodec FxWire Tables

def isWhitespace (c : Char) : Bool :=
  -- the characters `str::trim` removes
  let n := c.toNat
  (9 ≤ n && n ≤ 13) || n == 32 || n == 133 || n == 160 || n == 5760 || (8192 ≤ n && n ≤ 8202) ||
    n == 8232 || n == 8233 || n == 8239 || n == 8287 || n == 12288

def isControl (c : Char) : Bool := c.toNat ≤ 31 || (127 ≤ c.toNat && c.toNat ≤ 159)

def isSeparator (c : Char) : Bool := c == '/' || c == '\\'

def isForbidden (c : Char) : Bool := isControl c || ['/', '\\', ':', '*', '?', '"', '<', '>', '|'].contains c

def trimMatches (p : Char → Bool) (cs : List Char) : List Char := (cs.dropWhile p).rdropWhile p

def baseName (name : List Char) : List Char :=
  trimMatches (· == '.') (trimMatches isWhitespace (name.rtakeWhile fun c => !isSeparator c))

def clean (cs : List Char) : List Char := cs.map fun c => if isForbidden c then '_' else c

def bounded : Nat → List Char → List Char
  | _, [] => []
  | room, c::cs => if c.utf8Size ≤ room then c :: bounded (room - c.utf8Size) cs else []

def maxLen : Nat := 96
def fallback : List Char := "received.bin".toList

def orFallback (cs : List Char) : List Char := if cs.isEmpty then fallback else cs

def sanitizeFilename (name : String) : String := String.ofList (orFallback (bounded maxLen (clean (baseName name.toList))))

abbrev Path := List String
abbrev Disk := Table Path Bytes

structure FileTransferPolicy where
  downloadDir : Path
  perPeerQuotaBytes : UInt64

def partialSubdir : String := ".partial"

def hexDigit (n : Nat) : Char := Nat.digitChar (n % 16)

def hex (raw : Bytes) : String := String.ofList (raw.flatMap fun b => [hexDigit (b.toNat / 16),hexDigit b.toNat])

/-- The name of a peer's directory. An offer that did not verify comes from the empty identity. -/
def peerName (sender : String) : String := sanitizeFilename (if sender.isEmpty then "unknown" else sender)

def peerDir (policy : FileTransferPolicy) (sender : String) : Path := policy.downloadDir ++ [peerName sender]

def partialDirFor (policy : FileTransferPolicy) (sender : String) (sha256 : Bytes) : Path :=
  peerDir policy sender ++ [partialSubdir,hex sha256]

def dirSize (disk : Disk) (dir : Path) : Nat :=
  ((disk.entries.filter fun e => dir.isPrefixOf e.1).map fun e => e.2.length).sum

def quotaWouldExceed (policy : FileTransferPolicy) (disk : Disk) (sender : String) (incoming : Nat) : Bool :=
  policy.perPeerQuotaBytes.toNat != 0 &&
    policy.perPeerQuotaBytes.toNat < min (dirSize disk (peerDir policy sender) + incoming) (2 ^ 64 - 1)

def pathExists (disk : Disk) (path : Path) : Bool := disk.keys.any fun p => path.isPrefixOf p

def splitExtension (name : List Char) : List Char × List Char :=
  if name.contains '.' then ((name.rdropWhile (· != '.')).dropLast,'.' :: name.rtakeWhile (· != '.')) else (name,[])

def uniquePath (disk : Disk) (dir : Path) (name : String) : Option Path :=
  if pathExists disk (dir ++ [name]) then
    let parts := splitExtension name.toList
    ((List.range' 1 9999).map fun n =>
      dir ++ [String.ofList parts.1 ++ " (" ++ toString n ++ ")" ++ String.ofList parts.2]).find? fun p => !pathExists disk p
  else some (dir ++ [name])

def writeFile (policy : FileTransferPolicy) (disk : Disk) (sender name : String) (payload : Bytes) (verified : Bool) :
    Option (Path × Disk) := do
  let base := if verified then sanitizeFilename name else sanitizeFilename name ++ ".unverified"
  let path ← uniquePath disk (peerDir policy sender) base
  return (path,disk.insert path payload)

theorem cleanAllowed {cs : List Char} {c : Char} (member : c ∈ clean cs) : isForbidden c = false := by
  obtain ⟨d,-,rfl⟩ := List.mem_map.mp member
  split
  next => rfl
  next allowed => exact Bool.eq_false_iff.mpr allowed

theorem boundedPrefix (room : Nat) (cs : List Char) : ∀ c ∈ bounded room cs, c ∈ cs := by
  induction cs generalizing room with
  | nil => simp [bounded]
  | cons d cs ih =>
    intro c member
    unfold bounded at member
    split at member
    · rcases List.mem_cons.mp member with rfl | later
      · simp
      · exact List.mem_cons_of_mem d (ih _ c later)
    · cases member

theorem boundedSize (room : Nat) (cs : List Char) : (bounded room cs).utf8Encode.size ≤ room := by
  induction cs generalizing room with
  | nil => simp [bounded]
  | cons c cs ih =>
    unfold bounded
    split
    · have rest := ih (room - c.utf8Size)
      rw [List.utf8Encode_cons, ByteArray.size_append, List.utf8Encode_singleton]
      simp only [List.size_toByteArray, String.length_utf8EncodeChar]
      omega
    · simp

theorem boundedHead {room : Nat} (some' : 4 ≤ room) (cs : List Char) : (bounded room cs).head? = cs.head? := by
  cases cs with
  | nil => rfl
  | cons c cs => rw [bounded, if_pos (Nat.le_trans c.utf8Size_le_four some'), List.head?_cons, List.head?_cons]

theorem trimMatchesHead (p : Char → Bool) {cs : List Char} {c : Char} (first : (trimMatches p cs).head? = some c) : p c = false := by
  obtain ⟨rest,whole⟩ := List.rdropWhile_prefix p (cs.dropWhile p)
  have front : (cs.dropWhile p).head? = some c := by
    rw [← whole, List.head?_append_of_ne_nil]
    · exact first
    · exact List.ne_nil_of_mem (List.mem_of_head? first)
  have kept := List.head?_dropWhile_not p cs
  rwa [front] at kept

theorem cleanHead {cs : List Char} (dot : (clean cs).head? = some '.') : cs.head? = some '.' := by
  cases cs with
  | nil => cases dot
  | cons c cs =>
    have same : (if isForbidden c then '_' else c) = '.' := Option.some.inj dot
    split at same
    · cases same
    · rw [same, List.head?_cons]

structure SafeName (cs : List Char) : Prop where
  some' : cs ≠ []
  short : cs.utf8Encode.size ≤ maxLen
  allowed : ∀ c ∈ cs, isForbidden c = false
  visible : cs.head? ≠ some '.'

theorem fallbackSafe : SafeName fallback :=
  ⟨by decide,by decide,fun _ member => by simpa using List.all_eq_true.mp (show fallback.all (fun c => !isForbidden c) = true by decide) _ member,
    by decide⟩

theorem sanitizedSafe (name : List Char) : SafeName (orFallback (bounded maxLen (clean (baseName name)))) := by
  unfold orFallback
  split
  next => exact fallbackSafe
  next some =>
    refine ⟨by simpa using some,boundedSize _ _,fun c member => cleanAllowed (boundedPrefix _ _ c member),fun dot => ?_⟩
    -- what is cut off behind cannot bring back a dot in front
    rw [boundedHead (by decide)] at dot
    exact absurd (trimMatchesHead _ (cleanHead dot)) (by decide)

theorem safeBasename (name : String) :
    sanitizeFilename name ≠ "" ∧ (utf8 (sanitizeFilename name)).length ≤ 96 ∧
    (∀ c ∈ (sanitizeFilename name).toList,
      c ≠ '/' ∧ c ≠ '\\' ∧ isControl c = false ∧ c ∉ [':', '*', '?', '"', '<', '>', '|']) ∧
    (sanitizeFilename name).toList.head? ≠ some '.' ∧ sanitizeFilename name ≠ "." ∧ sanitizeFilename name ≠ ".." := by
  have safe := sanitizedSafe name.toList
  have chars : (sanitizeFilename name).toList = orFallback (bounded maxLen (clean (baseName name.toList))) := String.toList_ofList
  have visible : (sanitizeFilename name).toList.head? ≠ some '.' := by
    rw [chars]
    exact safe.visible
  refine ⟨fun none => safe.some' ?_,?_,fun c member => ?_,visible,fun dot => ?_,fun dots => ?_⟩
  · rw [← chars, none]
    rfl
  · have bytes := safe.short
    rw [← chars, String.utf8Encode_toList] at bytes
    simpa [utf8, maxLen] using bytes
  · rw [chars] at member
    have kept := safe.allowed c member
    simp only [isForbidden, Bool.or_eq_false_iff, List.contains_eq_mem, List.mem_cons, decide_eq_false_iff_not, not_or] at kept
    obtain ⟨control,slash,backslash,others⟩ := kept
    exact ⟨slash,backslash,control,by simpa using others⟩
  · rw [dot] at visible
    exact visible (by decide)
  · rw [dots] at visible
    exact visible (by decide)

theorem uniquePathDir {disk : Disk} {dir path : Path} {name : String} (found : uniquePath disk dir name = some path) :
    (∃ file, path = dir ++ [file]) ∧ pathExists disk path = false := by
  unfold uniquePath at found
  split at found
  next =>
    have free := List.find?_some found
    obtain ⟨n,-,rfl⟩ := List.mem_map.mp (List.mem_of_find?_eq_some found)
    exact ⟨⟨_,rfl⟩,by simpa using free⟩
  next free =>
    cases found
    exact ⟨⟨name,rfl⟩,by simpa using free⟩

theorem writeFileDir {policy : FileTransferPolicy} {disk after : Disk} {sender name : String} {payload : Bytes}
    {verified : Bool} {path : Path} (wrote : writeFile policy disk sender name payload verified = some (path,after)) :
    (∃ file, path = peerDir policy sender ++ [file]) ∧ pathExists disk path = false ∧ after.lookup path = some payload := by
  unfold writeFile at wrote
  obtain ⟨there,found,last⟩ := Option.bind_eq_some_iff.mp wrote
  cases Option.some.inj last
  obtain ⟨inside,free⟩ := uniquePathDir found
  exact ⟨inside,free,AList.lookup_insert disk⟩

theorem encodedLength (cs : List Char) : cs.length ≤ cs.utf8Encode.size := by
  induction cs with
  | nil => simp
  | cons c cs ih =>
    have positive := c.utf8Size_pos
    rw [List.utf8Encode_cons, ByteArray.size_append, List.utf8Encode_singleton]
    simp only [List.length_cons, List.size_toByteArray, String.length_utf8EncodeChar]
    omega

theorem trimMatchesLength (p : Char → Bool) (cs : List Char) : (trimMatches p cs).length ≤ cs.length :=
  (List.rdropWhile_prefix p _).length_le.trans (List.dropWhile_suffix p).length_le

theorem baseNameLength (name : List Char) : (baseName name).length ≤ name.length := by
  unfold baseName
  exact (trimMatchesLength _ _).trans ((trimMatchesLength _ _).trans (List.rtakeWhile_suffix _ _).length_le)

theorem boundedWhole {room : Nat} {cs : List Char} (fits : 4 * cs.length ≤ room) : bounded room cs = cs := by
  induction cs generalizing room with
  | nil => rfl
  | cons c cs ih =>
    have size := c.utf8Size_le_four
    rw [List.length_cons] at fits
    rw [bounded, if_pos (by omega), ih (by omega)]

def isReplaced (c : Char) : Bool := isForbidden c || c == '_'

def Alike (c d : Char) : Prop := c = d ∨ (isReplaced c = true ∧ isReplaced d = true)

instance (c d : Char) : Decidable (Alike c d) := inferInstanceAs (Decidable (_ ∨ _))

def stem (sender : String) : List Char := orFallback (baseName (if sender.isEmpty then "unknown" else sender).toList)

/-- Two identities whose stems differ only in characters that are stored alike. -/
def Confused (a b : String) : Prop := List.Forall₂ Alike (stem a) (stem b)

theorem storedAlike (c d : Char) : ((if isForbidden c then '_' else c) = if isForbidden d then '_' else d) ↔ Alike c d := by
  unfold Alike isReplaced
  by_cases left : isForbidden c = true <;> by_cases right : isForbidden d = true
  · simp [left, right]
  · have other : c ≠ d := fun same => right (same ▸ left)
    simp only [left, right, other, if_true, Bool.true_or, Bool.false_or, beq_iff_eq, true_and, false_or]
    exact eq_comm
  · have other : c ≠ d := fun same => left (same ▸ right)
    simp [left, right, other]
  · simp only [left, right, Bool.false_or, beq_iff_eq]
    constructor
    · exact Or.inl
    · rintro (same | ⟨same,again⟩)
      · exact same
      · exact same.trans again.symm

theorem cleanEq (xs ys : List Char) : clean xs = clean ys ↔ List.Forall₂ Alike xs ys := by
  rw [← List.forall₂_eq_eq_eq, clean, clean, List.forall₂_map_left_iff, List.forall₂_map_right_iff]
  constructor
  · exact List.Forall₂.imp fun c d => (storedAlike c d).mp
  · exact List.Forall₂.imp fun c d => (storedAlike c d).mpr

theorem cleanFallback (cs : List Char) : orFallback (clean cs) = clean (orFallback cs) := by
  have stays : clean fallback = fallback := by decide
  cases cs with
  | nil => exact stays.symm
  | cons c cs => rfl

theorem peerNameStem {sender : String} (fits : (utf8 sender).length ≤ senderIdMax) :
    peerName sender = String.ofList (clean (stem sender)) := by
  have chars : (if sender.isEmpty then "unknown" else sender).toList.length ≤ senderIdMax := by
    split
    · decide
    · have bytes := encodedLength sender.toList
      rw [String.utf8Encode_toList] at bytes
      exact bytes.trans (by simpa [utf8] using fits)
  have short := (baseNameLength _).trans chars
  unfold senderIdMax at short
  have whole : bounded maxLen (clean (baseName (if sender.isEmpty then "unknown" else sender).toList)) =
      clean (baseName (if sender.isEmpty then "unknown" else sender).toList) := by
    refine boundedWhole ?_
    rw [clean, List.length_map]
    unfold maxLen
    omega
  rw [peerName, sanitizeFilename, whole, cleanFallback]
  rfl

theorem peerNameEq (a b : SenderId) : peerName a.id = peerName b.id ↔ Confused a.id b.id := by
  rw [peerNameStem a.fits, peerNameStem b.fits, String.ofList_inj]
  exact cleanEq _ _

def Keeps (policy : FileTransferPolicy) (sender : String) (dir : Path) : Prop :=
  -- the directories the daemon keeps for a sender: received files and quota, and the partial blocks of every file
  dir = peerDir policy sender ∨ ∃ sha256, dir = partialDirFor policy sender sha256

def Isolated (policy : FileTransferPolicy) (a b : String) : Prop :=
  ∀ dir other, Keeps policy a dir → Keeps policy b other → dir ≠ other

theorem senderIsolation (policy : FileTransferPolicy) (a b : SenderId) :
    Isolated policy a.id b.id ↔ ¬ Confused a.id b.id := by
  rw [← peerNameEq]
  constructor
  · intro isolated same
    have shared : peerDir policy a.id = peerDir policy b.id := by rw [peerDir, peerDir, same]
    exact isolated _ _ (Or.inl rfl) (Or.inl rfl) shared
  · intro different dir other left right same
    subst same
    rcases left with rfl | ⟨sha256,rfl⟩ <;> rcases right with here | ⟨hash,here⟩ <;>
      simp [peerDir, partialDirFor] at here
    · exact different here
    · exact different here.1

def Plain (sender : String) : Prop :=
  -- an identity the sanitiser leaves as it is
  sender ≠ "" ∧ ∀ c ∈ sender.toList, isSeparator c = false ∧ isWhitespace c = false ∧ c ≠ '.' ∧ isReplaced c = false

theorem trimMatchesNone {p : Char → Bool} {cs : List Char} (none : ∀ c ∈ cs, p c = false) : trimMatches p cs = cs := by
  have front : cs.dropWhile p = cs := by
    cases cs with
    | nil => rfl
    | cons c cs => simp [none c (by simp)]
  rw [trimMatches, front, List.rdropWhile_eq_self_iff]
  intro some
  simp [none _ (List.getLast_mem some)]

theorem plainStem {sender : String} (plain : Plain sender) : stem sender = sender.toList := by
  obtain ⟨some,each⟩ := plain
  have whole : sender.toList.rtakeWhile (fun c => !isSeparator c) = sender.toList := by
    rw [List.rtakeWhile_eq_self_iff]
    intro c member
    simp [(each c member).1]
  have base : baseName sender.toList = sender.toList := by
    rw [baseName, whole, trimMatchesNone fun c member => (each c member).2.1]
    exact trimMatchesNone fun c member => by simp [(each c member).2.2.1]
  simp [stem, some, base, orFallback]

theorem plainIsolated {a b : SenderId} (left : Plain a.id) (right : Plain b.id) (different : a ≠ b) (policy : FileTransferPolicy) :
    peerDir policy a.id ≠ peerDir policy b.id := by
  intro same
  have names : peerName a.id = peerName b.id := by simpa [peerDir] using same
  have confused := (peerNameEq a b).mp names
  rw [Confused, plainStem left, plainStem right] at confused
  have equal : List.Forall₂ Eq a.id.toList b.id.toList := by
    have kept : ∀ c ∈ a.id.toList, isReplaced c = false := fun c member => (left.2 c member).2.2.2
    refine List.Forall₂.imp ?_ ((List.forall₂_and_left _ _).mpr ⟨kept,confused⟩)
    rintro c d ⟨kept,same | ⟨replaced,-⟩⟩
    · exact same
    · rw [kept] at replaced
      cases replaced
  have ids : a.id = b.id := String.toList_inj.mp (List.forall₂_eq_eq_eq ▸ equal)
  cases a
  cases b
  exact different (by simpa using ids)

def portable : SenderId := ⟨"W1AW/P",by decide⟩
def otherPortable : SenderId := ⟨"DL1ABC/P",by decide⟩

theorem portableShared : portable ≠ otherPortable ∧
    ¬ Isolated ⟨["home", "downloads"],0⟩ portable.id otherPortable.id := by
  refine ⟨by decide,fun isolated => ?_⟩
  have shared : peerName portable.id = peerName otherPortable.id := by decide +kernel
  exact isolated _ _ (Or.inl rfl) (Or.inl rfl) (by rw [peerDir, peerDir, shared])

end OpenPulse.Downloads
