import Mathlib.Data.List.Basic

/-! UTF-8 cut after at most so many bytes. A cut between bytes falls between characters just
where no continuation byte follows, so going back from a length to the next such place
leaves the longest beginning of the text that fits. -/
namespace OpenPulse.Utf8Cuts

def encoded (cs : List Char) : List UInt8 := cs.flatMap String.utf8EncodeChar

def leads (b : UInt8) : Bool := b < 128 || 192 ≤ b

def boundary (raw : List UInt8) (i : Nat) : Bool :=
  match raw[i]? with
  | some b => i == 0 || leads b
  | none => i == raw.length

def lastBoundary (raw : List UInt8) : Nat → Nat
  | 0 => 0
  | i + 1 => if boundary raw (i + 1) then i + 1 else lastBoundary raw i

def within : Nat → List Char → List Char
  | _, [] => []
  | room, c::cs => if c.utf8Size ≤ room then c :: within (room - c.utf8Size) cs else []

/-- No beginning of the text that fits goes further. -/
structure Longest (room : Nat) (cs p : List Char) : Prop where
  begins : p <+: cs
  fits : (encoded p).length ≤ room
  longest : ∀ q, q <+: cs → (encoded q).length ≤ room → q <+: p

@[simp] theorem encodedNil : encoded [] = [] := rfl

@[simp] theorem encodedCons (c : Char) (cs : List Char) : encoded (c::cs) = String.utf8EncodeChar c ++ encoded cs := rfl

theorem encodedAppend (cs ds : List Char) : encoded (cs ++ ds) = encoded cs ++ encoded ds := List.flatMap_append

theorem encodedConsLength (c : Char) (cs : List Char) : (encoded (c::cs)).length = c.utf8Size + (encoded cs).length := by
  rw [encodedCons, List.length_append, String.length_utf8EncodeChar]

theorem encodedPlain {cs : List Char} (plain : ∀ c ∈ cs, c.utf8Size = 1) : (encoded cs).length = cs.length := by
  induction cs with
  | nil => rfl
  | cons c cs ih =>
    obtain ⟨first,rest⟩ := List.forall_mem_cons.mp plain
    rw [encodedConsLength, first, ih rest, List.length_cons, Nat.add_comm]

theorem leadsIff (b : UInt8) : leads b = true ↔ b.toNat < 128 ∨ 192 ≤ b.toNat := by
  rw [leads, Bool.or_eq_true, decide_eq_true_iff, decide_eq_true_iff, UInt8.lt_iff_toNat_lt, UInt8.le_iff_toNat_le]
  rfl

theorem leadsSmall {n : Nat} (small : n < 256) : leads (UInt8.ofNat n) = true ↔ n < 128 ∨ 192 ≤ n := by
  rw [leadsIff, UInt8.toNat_ofNat', Nat.mod_eq_of_lt (by omega)]

theorem continues (n : Nat) : leads (UInt8.ofNat (n % 0x40 + 0x80)) = false := by
  have low : n % 0x40 < 64 := Nat.mod_lt n (by decide)
  rw [← Bool.not_eq_true, leadsSmall (by omega)]
  omega

theorem charBytes (c : Char) : ∃ b rest, String.utf8EncodeChar c = b::rest ∧ leads b = true ∧ ∀ x ∈ rest, leads x = false := by
  unfold String.utf8EncodeChar
  dsimp only
  split_ifs with one two three
  · exact ⟨_,[],rfl,(leadsSmall (by omega)).mpr (by omega),List.forall_mem_nil _⟩
  · exact ⟨_,_,rfl,(leadsSmall (by omega)).mpr (by omega),List.forall_mem_cons.mpr ⟨continues _,List.forall_mem_nil _⟩⟩
  · exact ⟨_,_,rfl,(leadsSmall (by omega)).mpr (by omega),
      List.forall_mem_cons.mpr ⟨continues _,List.forall_mem_cons.mpr ⟨continues _,List.forall_mem_nil _⟩⟩⟩
  · exact ⟨_,_,rfl,(leadsSmall (by omega)).mpr (by omega),List.forall_mem_cons.mpr ⟨continues _,
      List.forall_mem_cons.mpr ⟨continues _,List.forall_mem_cons.mpr ⟨continues _,List.forall_mem_nil _⟩⟩⟩⟩

theorem boundaryBehind (c : Char) (cs : List Char) (j : Nat) :
    boundary (encoded (c::cs)) (c.utf8Size + j) = boundary (encoded cs) j := by
  have size := String.length_utf8EncodeChar c
  have some' := c.utf8Size_pos
  have there : (encoded (c::cs))[c.utf8Size + j]? = (encoded cs)[j]? := by
    rw [encodedCons, List.getElem?_append_right (by omega), size, Nat.add_sub_cancel_left]
  rw [boundary, there, boundary, encodedConsLength]
  cases cs with
  | nil =>
    simp only [encodedNil, List.getElem?_nil, List.length_nil]
    exact Bool.eq_iff_iff.mpr (by simp)
  | cons d ds =>
    obtain ⟨b,rest,bytes,first,-⟩ := charBytes d
    cases found : (encoded (d::ds))[j]? with
    | none => exact Bool.eq_iff_iff.mpr (by simp)
    | some x =>
      cases j with
      | zero =>
        rw [encodedCons, bytes] at found
        obtain rfl := Option.some.inj found
        simp [first]
      | succ j => simp

theorem boundaryInside (c : Char) (cs : List Char) {i : Nat} (some' : 0 < i) (inside : i < c.utf8Size) :
    boundary (encoded (c::cs)) i = false := by
  obtain ⟨b,rest,bytes,-,later⟩ := charBytes c
  have size := String.length_utf8EncodeChar c
  rw [bytes, List.length_cons] at size
  obtain ⟨k,rfl⟩ := Nat.exists_eq_add_of_lt some'
  rw [Nat.zero_add]
  rw [Nat.zero_add] at inside
  have bound : k < rest.length := by omega
  have there : (encoded (c::cs))[k + 1]? = some rest[k] := by
    rw [encodedCons, bytes, List.cons_append, List.getElem?_cons_succ, List.getElem?_append_left bound, List.getElem?_eq_getElem]
  rw [boundary, there]
  simp [later _ (List.getElem_mem bound)]

theorem boundaryIff (cs : List Char) (i : Nat) :
    boundary (encoded cs) i = true ↔ ∃ p, p <+: cs ∧ i = (encoded p).length := by
  induction cs generalizing i with
  | nil => simp [boundary]
  | cons c cs ih =>
    rcases Nat.eq_zero_or_pos i with rfl | some'
    · obtain ⟨b,rest,bytes,-,-⟩ := charBytes c
      have first : boundary (encoded (c::cs)) 0 = true := by
        rw [boundary, encodedCons, bytes]
        rfl
      exact iff_of_true first ⟨[],List.nil_prefix,rfl⟩
    · rcases Nat.lt_or_ge i c.utf8Size with inside | behind
      · rw [boundaryInside c cs some' inside]
        refine iff_of_false Bool.false_ne_true ?_
        rintro ⟨p,begins,rfl⟩
        cases p with
        | nil => exact absurd some' (by simp)
        | cons d p =>
          obtain ⟨rfl,-⟩ := List.cons_prefix_cons.mp begins
          rw [encodedConsLength] at inside
          omega
      · obtain ⟨j,rfl⟩ := Nat.exists_eq_add_of_le behind
        rw [boundaryBehind, ih]
        constructor
        · rintro ⟨p,begins,rfl⟩
          exact ⟨c::p,List.cons_prefix_cons.mpr ⟨rfl,begins⟩,(encodedConsLength c p).symm⟩
        · rintro ⟨p,begins,length⟩
          cases p with
          | nil => exact absurd length (by have := c.utf8Size_pos; simp; omega)
          | cons d p =>
            obtain ⟨rfl,front⟩ := List.cons_prefix_cons.mp begins
            rw [encodedConsLength] at length
            exact ⟨p,front,by omega⟩

theorem withinLongest (room : Nat) (cs : List Char) : Longest room cs (within room cs) := by
  induction cs generalizing room with
  | nil => exact ⟨List.nil_prefix,Nat.zero_le _,fun q begins _ => begins⟩
  | cons c cs ih =>
    rw [within]
    split_ifs with fits
    · obtain ⟨begins,short,longest⟩ := ih (room - c.utf8Size)
      refine ⟨List.cons_prefix_cons.mpr ⟨rfl,begins⟩,by rw [encodedConsLength]; omega,fun q begins' short' => ?_⟩
      cases q with
      | nil => exact List.nil_prefix
      | cons d q =>
        obtain ⟨rfl,front⟩ := List.cons_prefix_cons.mp begins'
        rw [encodedConsLength] at short'
        exact List.cons_prefix_cons.mpr ⟨rfl,longest q front (by omega)⟩
    · refine ⟨List.nil_prefix,Nat.zero_le _,fun q begins short => ?_⟩
      cases q with
      | nil => exact List.nil_prefix
      | cons d q =>
        obtain ⟨rfl,-⟩ := List.cons_prefix_cons.mp begins
        rw [encodedConsLength] at short
        omega

theorem lastBoundaryEq {raw : List UInt8} {room j : Nat} (here : j = 0 ∨ boundary raw j = true) (fits : j ≤ room)
    (last : ∀ i, j < i → i ≤ room → boundary raw i = false) : lastBoundary raw room = j := by
  induction room with
  | zero => exact (Nat.le_zero.mp fits).symm
  | succ room ih =>
    rw [lastBoundary]
    rcases Nat.eq_or_lt_of_le fits with rfl | earlier
    · rcases here with none' | here
      · cases none'
      · rw [if_pos here]
    · rw [last (room + 1) earlier (Nat.le_refl _), if_neg Bool.false_ne_true]
      exact ih (by omega) fun i after bound => last i after (by omega)

theorem lastBoundaryWithin (room : Nat) (cs : List Char) : lastBoundary (encoded cs) room = (encoded (within room cs)).length := by
  obtain ⟨begins,fits,longest⟩ := withinLongest room cs
  refine lastBoundaryEq (.inr ((boundaryIff cs _).mpr ⟨_,begins,rfl⟩)) fits fun i after bound => ?_
  by_contra some'
  obtain ⟨q,front,rfl⟩ := (boundaryIff cs i).mp (by simpa using some')
  obtain ⟨rest,same⟩ := longest q front bound
  rw [← same, encodedAppend, List.length_append] at after
  omega

theorem takeLastBoundary (room : Nat) (cs : List Char) :
    (encoded cs).take (lastBoundary (encoded cs) room) = encoded (within room cs) := by
  obtain ⟨rest,same⟩ := (withinLongest room cs).begins
  rw [lastBoundaryWithin]
  conv_lhs => rw [← same, encodedAppend]
  rw [same, List.take_left]

theorem withinWhole {room : Nat} {cs : List Char} (fits : (encoded cs).length ≤ room) : within room cs = cs :=
  (withinLongest room cs).begins.eq_of_length_le ((withinLongest room cs).longest cs (List.prefix_refl cs) fits).length_le

end OpenPulse.Utf8Cuts
