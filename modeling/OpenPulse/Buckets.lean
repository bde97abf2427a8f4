import Mathlib.Data.List.Basic

/-! Lists of buckets where an item goes into the first bucket that matches it, a new
one at the end if none does. Seen through another key, only that key's buckets count. -/
namespace OpenPulse.Buckets

variable {B : Type}

def bucket (fits : B → Bool) (fresh : B) (buckets : List B) : Nat × List B :=
  match buckets.findIdx? fits with
  | some i => (i,buckets)
  | none => (buckets.length,buckets ++ [fresh])

structure Chosen (fits : B → Bool) (fresh : B) (buckets before : List B) (b : B) (after : List B) : Prop where
  passed : ∀ c ∈ before, fits c = false
  origin : (buckets = before ++ b::after ∧ fits b = true) ∨ (buckets = before ∧ b = fresh ∧ after = [])

theorem bucketChosen (fits : B → Bool) (fresh : B) (buckets : List B) :
    ∃ before b after, bucket fits fresh buckets = (before.length,before ++ b::after) ∧
      Chosen fits fresh buckets before b after := by
  cases found : buckets.findIdx? fits with
  | none =>
    refine ⟨buckets,fresh,[],?_,List.findIdx?_eq_none_iff.mp found,.inr ⟨rfl,rfl,rfl⟩⟩
    rw [bucket, found]
  | some i =>
    obtain ⟨inside,here,passed⟩ := List.findIdx?_eq_some_iff_getElem.mp found
    have split : buckets = buckets.take i ++ buckets[i]::buckets.drop (i + 1) := by
      rw [List.getElem_cons_drop, List.take_append_drop]
    refine ⟨buckets.take i,buckets[i],buckets.drop (i + 1),?_,?_,.inl ⟨split,here⟩⟩
    · rw [bucket, found, ← split, List.length_take_of_le (Nat.le_of_lt inside)]
    · intro c member
      obtain ⟨j,below,rfl⟩ := List.mem_take_iff_getElem.mp member
      simpa using passed j (by omega)

section Chosen

variable {fits here : B → Bool} {fresh b : B} {buckets before after : List B}

theorem Chosen.choice (chosen : Chosen fits fresh buckets before b after) : (b ∈ buckets ∧ fits b = true) ∨ b = fresh := by
  rcases chosen.origin with ⟨whole,match'⟩ | ⟨-,new,-⟩
  · exact .inl ⟨by simp [whole],match'⟩
  · exact .inr new

theorem Chosen.own (chosen : Chosen fits fresh buckets before b after) :
    before.filter fits = [] ∧ b = ((buckets.filter fits).head?).getD fresh ∧
      after.filter fits = (buckets.filter fits).tail := by
  have none' : before.filter fits = [] := List.filter_eq_nil_iff.mpr fun c member => by simp [chosen.passed c member]
  rcases chosen.origin with ⟨whole,match'⟩ | ⟨whole,new,empty⟩
  · rw [whole, List.filter_append, none', List.filter_cons_of_pos match']
    exact ⟨rfl,rfl,rfl⟩
  · rw [whole, none', new, empty]
    exact ⟨rfl,rfl,rfl⟩

theorem Chosen.foreign (chosen : Chosen fits fresh buckets before b after) (apart : here b = false) :
    before.filter here ++ after.filter here = buckets.filter here := by
  rcases chosen.origin with ⟨whole,-⟩ | ⟨whole,-,empty⟩
  · rw [whole, List.filter_append, List.filter_cons_of_neg (by simp [apart])]
  · rw [whole, empty, List.filter_nil, List.append_nil]

end Chosen

end OpenPulse.Buckets
