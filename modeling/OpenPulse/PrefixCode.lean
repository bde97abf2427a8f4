import Mathlib.Data.List.Basic

/-! Prefix codes given as a table of symbols and bit strings. Reading takes the
first row that fits; over a table where no code begins another, what was written
is read back whatever follows it. -/
namespace OpenPulse.PrefixCode

abbrev Table (α : Type) := List (α × List Bool)

variable {α : Type}

def PrefixFree (table : Table α) : Prop :=
  (∀ row ∈ table, row.2 ≠ []) ∧ ∀ row ∈ table, ∀ other ∈ table, row.2 <+: other.2 → row = other

def next (table : Table α) (bits : List Bool) : Option (α × List Bool) :=
  (table.find? fun row => row.2.isPrefixOf bits).map fun row => (row.1,bits.drop row.2.length)

def read (table : Table α) : Nat → List Bool → List α
  | 0, _ => []
  | _, [] => []
  | n + 1, bits =>
    match next table bits with
    | none => []
    | some (a,rest) => a :: read table n rest

def decode (table : Table α) (bits : List Bool) : List α := read table bits.length bits

def written (rows : Table α) : List Bool := rows.flatMap (·.2)

theorem nextWritten {table : Table α} (free : PrefixFree table) {row : α × List Bool} (member : row ∈ table)
    (rest : List Bool) : next table (row.2 ++ rest) = some (row.1,rest) := by
  have fits : row.2.isPrefixOf (row.2 ++ rest) = true := List.isPrefixOf_iff_prefix.mpr (List.prefix_append _ _)
  cases found : table.find? fun row' => row'.2.isPrefixOf (row.2 ++ rest) with
  | none =>
    rw [List.find?_eq_none] at found
    exact absurd fits (found row member)
  | some other =>
    have known := List.mem_of_find?_eq_some found
    have fitted : other.2.isPrefixOf (row.2 ++ rest) = true := by simpa using List.find?_some found
    have begins := List.isPrefixOf_iff_prefix.mp fitted
    -- two beginnings of one text: one of the codes begins the other
    have same : row = other := by
      rcases List.prefix_or_prefix_of_prefix (List.prefix_append row.2 rest) begins with one | two
      · exact free.2 row member other known one
      · exact (free.2 other known row member two).symm
    subst same
    simp [next, found]

theorem readWritten {table : Table α} (free : PrefixFree table) {rows : Table α} (inside : ∀ row ∈ rows, row ∈ table)
    {n : Nat} (enough : (written rows).length ≤ n) : read table n (written rows) = rows.map (·.1) := by
  induction rows generalizing n with
  | nil => cases n <;> rfl
  | cons row rows ih =>
    have member := inside row (by simp)
    cases bits : row.2 with
    | nil => exact absurd bits (free.1 row member)
    | cons b bs =>
      have text : written (row::rows) = b :: (bs ++ written rows) := by simp [written, bits]
      rw [text] at enough ⊢
      cases n with
      | zero => simp at enough
      | succ n =>
        have step : next table (b :: (bs ++ written rows)) = some (row.1,written rows) := by
          have first := nextWritten free member (written rows)
          rwa [bits] at first
        have left : (written rows).length ≤ n := by
          simp only [List.length_cons, List.length_append] at enough
          omega
        simp only [read, step, List.map_cons, ih (fun r here => inside r (List.mem_cons_of_mem _ here)) left]

theorem decodeWritten {table : Table α} (free : PrefixFree table) {rows : Table α} (inside : ∀ row ∈ rows, row ∈ table) :
    decode table (written rows) = rows.map (·.1) := readWritten free inside (Nat.le_refl _)

end OpenPulse.PrefixCode
