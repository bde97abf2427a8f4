import Mathlib.Data.List.Induction
import Mathlib.Data.String.Basic
import OpenPulse.Json

/-! JSON values as `serde_json` keeps and writes them: an object is a sorted map, a number stands for the
characters it is written with. The written characters determine the value, and sorting the members of every
object leaves what stands at each path of a value and nothing else of it. -/
namespace OpenPulse.JsonValues
open Json (text textInj)

def numeric (c : Char) : Bool := c.isDigit || c == '-' || c == '+' || c == '.' || c == 'e' || c == 'E'

abbrev Number := { cs : List Char // cs ≠ [] ∧ ∀ c ∈ cs, numeric c = true }

mutual
inductive Value where
  | null
  | bool (b : Bool)
  | number (n : Number)
  | string (s : String)
  | array (xs : Values)
  | object (ms : Members)
  deriving DecidableEq

inductive Values where
  | nil
  | cons (x : Value) (xs : Values)
  deriving DecidableEq

inductive Members where
  | nil
  | cons (key : String) (value : Value) (ms : Members)
  deriving DecidableEq
end

mutual
def Value.write : Value → List Char
  | .null => ['n','u','l','l']
  | .bool true => ['t','r','u','e']
  | .bool false => ['f','a','l','s','e']
  | .number n => n.val
  | .string s => text s
  | .array .nil => ['[',']']
  | .array (.cons x xs) => '[' :: (x.write ++ xs.rest)
  | .object .nil => ['\x7b','\x7d']
  | .object (.cons k v ms) => '\x7b' :: (text k ++ ':' :: (v.write ++ ms.rest))

def Values.rest : Values → List Char
  | .nil => [']']
  | .cons x xs => ',' :: (x.write ++ xs.rest)

def Members.rest : Members → List Char
  | .nil => ['\x7d']
  | .cons k v ms => ',' :: (text k ++ ':' :: (v.write ++ ms.rest))
end

def Ends (x : List Char) : Prop := ∃ c cs, x = c::cs ∧ numeric c = false

theorem valuesEnd (xs : Values) (x : List Char) : Ends (xs.rest ++ x) := by
  cases xs with
  | nil => exact ⟨_,_,by rw [Values.rest, List.cons_append],by decide⟩
  | cons x xs => exact ⟨_,_,by rw [Values.rest, List.cons_append],by decide⟩

theorem membersEnd (ms : Members) (x : List Char) : Ends (ms.rest ++ x) := by
  cases ms with
  | nil => exact ⟨_,_,by rw [Members.rest, List.cons_append],by decide⟩
  | cons k v ms => exact ⟨_,_,by rw [Members.rest, List.cons_append],by decide⟩

theorem numberRead (n : Number) {x : List Char} (ends : Ends x) : (n.val ++ x).takeWhile numeric = n.val := by
  obtain ⟨c,cs,rfl,stops⟩ := ends
  rw [List.takeWhile_append_of_pos n.property.2, List.takeWhile_cons_of_neg (by simp [stops]), List.append_nil]

theorem numberInj {m n : Number} {x y : List Char} (left : Ends x) (right : Ends y) (same : m.val ++ x = n.val ++ y) :
    m = n ∧ x = y := by
  have chars : m.val = n.val := by rw [← numberRead m left, same, numberRead n right]
  exact ⟨Subtype.ext chars,List.append_cancel_left (chars ▸ same)⟩

inductive Kind where
  | null | bool | number | string | array | object
  deriving DecidableEq

def opens (c : Char) : Kind :=
  if c = 'n' then .null else if c = 't' then .bool else if c = 'f' then .bool else if c = '"' then .string
  else if c = '[' then .array else if c = '\x7b' then .object else .number

def Value.kind : Value → Kind
  | .null => .null
  | .bool _ => .bool
  | .number _ => .number
  | .string _ => .string
  | .array _ => .array
  | .object _ => .object

theorem opensNumber {c : Char} (inside : numeric c = true) : opens c = .number := by
  have other : ∀ d, numeric d = false → c ≠ d := fun d strange same => by
    rw [same, strange] at inside
    cases inside
  rw [opens, if_neg (other _ (by decide)), if_neg (other _ (by decide)), if_neg (other _ (by decide)), if_neg (other _ (by decide)),
    if_neg (other _ (by decide)), if_neg (other _ (by decide))]

theorem numberFirst (n : Number) : ∃ c cs, n.val = c::cs ∧ numeric c = true := by
  obtain ⟨cs,nonempty,inside⟩ := n
  cases cs with
  | nil => exact absurd rfl nonempty
  | cons c cs => exact ⟨c,cs,rfl,inside c List.mem_cons_self⟩

theorem writeOpens (t : Value) : ∃ c cs, t.write = c::cs ∧ opens c = t.kind := by
  cases t with
  | null => exact ⟨_,_,by rw [Value.write],rfl⟩
  | bool b => cases b <;> exact ⟨_,_,by rw [Value.write],rfl⟩
  | number n =>
    obtain ⟨c,cs,chars,inside⟩ := numberFirst n
    exact ⟨c,cs,by rw [Value.write, chars],opensNumber inside⟩
  | string s => exact ⟨_,_,by rw [Value.write, text],rfl⟩
  | array xs => cases xs <;> exact ⟨_,_,by rw [Value.write],rfl⟩
  | object ms => cases ms <;> exact ⟨_,_,by rw [Value.write],rfl⟩

theorem sameKind {t u : Value} {x y : List Char} (same : t.write ++ x = u.write ++ y) : t.kind = u.kind := by
  obtain ⟨c,cs,left,first⟩ := writeOpens t
  obtain ⟨d,ds,right,second⟩ := writeOpens u
  rw [left, right, List.cons_append, List.cons_append] at same
  rw [← first, ← second, (List.cons.inj same).1]

theorem writeNotClosing (t : Value) (x y : List Char) : t.write ++ x ≠ ']'::y := by
  intro same
  obtain ⟨c,cs,written,first⟩ := writeOpens t
  rw [written, List.cons_append] at same
  obtain ⟨rfl,-⟩ := List.cons.inj same
  cases t with
  | number n =>
    obtain ⟨d,ds,chars,inside⟩ := numberFirst n
    rw [Value.write, chars] at written
    rw [(List.cons.inj written).1] at inside
    cases inside
  | _ => cases first

mutual
theorem valueInj (t u : Value) {x y : List Char} (left : Ends x) (right : Ends y) (same : t.write ++ x = u.write ++ y) :
    t = u ∧ x = y := by
  have kinds := sameKind same
  cases t with
  | null =>
    cases u with
    | null => exact ⟨rfl,List.append_cancel_left same⟩
    | _ => cases kinds
  | bool b =>
    cases u with
    | bool d =>
      cases b <;> cases d
      · exact ⟨rfl,List.append_cancel_left same⟩
      · simp [Value.write] at same
      · simp [Value.write] at same
      · exact ⟨rfl,List.append_cancel_left same⟩
    | _ => cases kinds
  | number m =>
    cases u with
    | number n =>
      rw [Value.write, Value.write] at same
      exact (numberInj left right same).imp (congrArg Value.number) id
    | _ => cases kinds
  | string s =>
    cases u with
    | string r =>
      rw [Value.write, Value.write] at same
      exact (textInj same).imp (congrArg Value.string) id
    | _ => cases kinds
  | array xs =>
    cases u with
    | array ys =>
      cases xs with
      | nil =>
        cases ys with
        | nil => exact ⟨rfl,List.append_cancel_left same⟩
        | cons z ys =>
          have behind : ']'::x = z.write ++ (ys.rest ++ y) := by
            rw [Value.write, Value.write] at same
            simpa only [List.cons_append, List.nil_append, List.append_assoc, List.cons.injEq, true_and] using same
          exact absurd behind.symm (writeNotClosing z _ _)
      | cons z xs =>
        cases ys with
        | nil =>
          have behind : z.write ++ (xs.rest ++ x) = ']'::y := by
            rw [Value.write, Value.write] at same
            simpa only [List.cons_append, List.nil_append, List.append_assoc, List.cons.injEq, true_and] using same
          exact absurd behind (writeNotClosing z _ _)
        | cons w ys =>
          rw [Value.write, Value.write, List.cons_append, List.cons_append, List.append_assoc, List.append_assoc] at same
          obtain ⟨firsts,others⟩ := valueInj z w (valuesEnd xs x) (valuesEnd ys y) (List.cons.inj same).2
          obtain ⟨rests,after⟩ := valuesInj xs ys left right others
          exact ⟨by rw [firsts, rests],after⟩
    | _ => cases kinds
  | object ms =>
    cases u with
    | object ns =>
      cases ms with
      | nil =>
        cases ns with
        | nil => exact ⟨rfl,List.append_cancel_left same⟩
        | cons l w ns => simp [Value.write, text] at same
      | cons k v ms =>
        cases ns with
        | nil => simp [Value.write, text] at same
        | cons l w ns =>
          rw [Value.write, Value.write, List.cons_append, List.cons_append, List.append_assoc, List.append_assoc] at same
          obtain ⟨keys,behind⟩ := textInj (List.cons.inj same).2
          rw [List.cons_append, List.cons_append, List.append_assoc, List.append_assoc] at behind
          obtain ⟨values,others⟩ := valueInj v w (membersEnd ms x) (membersEnd ns y) (List.cons.inj behind).2
          obtain ⟨rests,after⟩ := membersInj ms ns left right others
          exact ⟨by rw [keys, values, rests],after⟩
    | _ => cases kinds

theorem valuesInj (xs ys : Values) {x y : List Char} (left : Ends x) (right : Ends y) (same : xs.rest ++ x = ys.rest ++ y) :
    xs = ys ∧ x = y := by
  cases xs with
  | nil =>
    cases ys with
    | nil => exact ⟨rfl,List.append_cancel_left same⟩
    | cons w ys => simp [Values.rest] at same
  | cons z xs =>
    cases ys with
    | nil => simp [Values.rest] at same
    | cons w ys =>
      rw [Values.rest, Values.rest, List.cons_append, List.cons_append, List.append_assoc, List.append_assoc] at same
      obtain ⟨firsts,others⟩ := valueInj z w (valuesEnd xs x) (valuesEnd ys y) (List.cons.inj same).2
      obtain ⟨rests,after⟩ := valuesInj xs ys left right others
      exact ⟨by rw [firsts, rests],after⟩

theorem membersInj (ms ns : Members) {x y : List Char} (left : Ends x) (right : Ends y) (same : ms.rest ++ x = ns.rest ++ y) :
    ms = ns ∧ x = y := by
  cases ms with
  | nil =>
    cases ns with
    | nil => exact ⟨rfl,List.append_cancel_left same⟩
    | cons l w ns => simp [Members.rest] at same
  | cons k v ms =>
    cases ns with
    | nil => simp [Members.rest] at same
    | cons l w ns =>
      rw [Members.rest, Members.rest, List.cons_append, List.cons_append, List.append_assoc, List.append_assoc] at same
      obtain ⟨keys,behind⟩ := textInj (List.cons.inj same).2
      rw [List.cons_append, List.cons_append, List.append_assoc, List.append_assoc] at behind
      obtain ⟨values,others⟩ := valueInj v w (membersEnd ms x) (membersEnd ns y) (List.cons.inj behind).2
      obtain ⟨rests,after⟩ := membersInj ms ns left right others
      exact ⟨by rw [keys, values, rests],after⟩
end

theorem writeInj {t u : Value} (same : t.write = u.write) : t = u :=
  (valueInj t u ⟨',',[],rfl,by decide⟩ ⟨',',[],rfl,by decide⟩ (congrArg (· ++ [',']) same)).1

inductive Hop where
  | key (k : String)
  | index (i : Nat)
  deriving DecidableEq, Repr

inductive Leaf where
  | null
  | bool (b : Bool)
  | number (n : Number)
  | string (s : String)
  | array
  | object
  deriving DecidableEq

def Members.has (l : String) : Members → Bool
  | .nil => false
  | .cons k _ ms => k == l || ms.has l

mutual
/-- What stands at a path. Of members with one key the last one counts. -/
def Value.found : Value → List Hop → Option Leaf
  | .null, [] => some .null
  | .bool b, [] => some (.bool b)
  | .number n, [] => some (.number n)
  | .string s, [] => some (.string s)
  | .array _, [] => some .array
  | .object _, [] => some .object
  | .array xs, .index i::path => xs.found i path
  | .object ms, .key k::path => ms.found k path
  | _, _ => none

def Values.found : Values → Nat → List Hop → Option Leaf
  | .nil, _, _ => none
  | .cons x _, 0, path => x.found path
  | .cons _ xs, i + 1, path => xs.found i path

def Members.found : Members → String → List Hop → Option Leaf
  | .nil, _, _ => none
  | .cons k v ms, l, path => if ms.has l then ms.found l path else if k = l then v.found path else none
end

def SameContent (t u : Value) : Prop := ∀ path, t.found path = u.found path

theorem foundRoot (t : Value) : ∃ leaf, t.found [] = some leaf := by
  cases t <;> exact ⟨_,by rw [Value.found]⟩

theorem foundIn (ms : Members) (l : String) (path : List Hop) (absent : ms.has l = false) : ms.found l path = none := by
  cases ms with
  | nil => rw [Members.found]
  | cons k v ms =>
    simp only [Members.has, Bool.or_eq_false_iff, beq_eq_false_iff_ne] at absent
    rw [Members.found, absent.2, if_neg Bool.false_ne_true, if_neg absent.1]

def Members.insert (k : String) (v : Value) : Members → Members
  | .nil => .cons k v .nil
  | .cons l w ms => if k < l then .cons k v (.cons l w ms) else if k = l then .cons k v ms else .cons l w (ms.insert k v)

def Members.Ordered : Members → Prop
  | .nil => True
  | .cons k _ ms => (∀ l, ms.has l = true → k < l) ∧ ms.Ordered

theorem hasInsert (k l : String) (v : Value) (ms : Members) : (ms.insert k v).has l = (k == l || ms.has l) := by
  cases ms with
  | nil => rfl
  | cons m w ms =>
    have ih := hasInsert k l v ms
    rw [Members.insert]
    split
    · simp only [Members.has]
    split
    · next same => simp only [Members.has, same, Bool.or_self_left]
    · simp only [Members.has, ih, Bool.or_left_comm]

theorem insertOrdered (k : String) (v : Value) (ms : Members) (ordered : ms.Ordered) : (ms.insert k v).Ordered := by
  cases ms with
  | nil => exact ⟨fun l inside => absurd inside Bool.false_ne_true,trivial⟩
  | cons m w ms =>
    obtain ⟨below,later⟩ := ordered
    rw [Members.insert]
    split
    · next first =>
      refine ⟨fun l inside => ?_,below,later⟩
      simp only [Members.has, Bool.or_eq_true, beq_iff_eq] at inside
      rcases inside with rfl | inside
      · exact first
      · exact String.lt_trans first (below l inside)
    split
    · next same => exact ⟨same ▸ below,later⟩
    · next notFirst notSame =>
      refine ⟨fun l inside => ?_,insertOrdered k v ms later⟩
      rw [hasInsert, Bool.or_eq_true, beq_iff_eq] at inside
      rcases inside with rfl | inside
      · exact lt_of_le_of_ne (not_lt.mp notFirst) (Ne.symm notSame)
      · exact below l inside

theorem foundInsert (k l : String) (v : Value) (path : List Hop) (ms : Members) (ordered : ms.Ordered) :
    (ms.insert k v).found l path = if k = l then v.found path else ms.found l path := by
  cases ms with
  | nil => simp only [Members.insert, Members.found, Members.has, Bool.false_eq_true, if_false]
  | cons m w ms =>
    obtain ⟨below,later⟩ := ordered
    have ih := foundInsert k l v path ms later
    have free : ∀ n, (n = m ∨ n < m) → ms.has n = false := fun n near => by
      rw [Bool.eq_false_iff]
      intro inside
      rcases near with rfl | near
      · exact absurd (below n inside) (lt_irrefl n)
      · exact absurd (String.lt_trans near (below n inside)) (lt_irrefl n)
    rw [Members.insert]
    split
    · next first =>
      have apart : m ≠ k := (ne_of_lt first).symm
      rw [Members.found]
      by_cases same : k = l
      · subst same
        simp [Members.has, free k (.inr first), apart]
      · rw [if_neg same, if_neg same]
        cases inside : (Members.cons m w ms).has l with
        | true => rfl
        | false => rw [foundIn _ l path inside, if_neg Bool.false_ne_true]
    split
    · next same =>
      subst same
      rw [Members.found, Members.found]
      by_cases here : k = l
      · subst here
        simp [free k (.inl rfl)]
      · simp [here]
    · next notFirst notSame =>
      rw [Members.found, Members.found, hasInsert, ih]
      by_cases here : k = l
      · subst here
        simp
      · simp [here]

mutual
def Value.Settled : Value → Prop
  | .array xs => xs.Settled
  | .object ms => ms.Ordered ∧ ms.Settled
  | _ => True

def Values.Settled : Values → Prop
  | .nil => True
  | .cons x xs => x.Settled ∧ xs.Settled

def Members.Settled : Members → Prop
  | .nil => True
  | .cons _ v ms => v.Settled ∧ ms.Settled
end

theorem insertSettled (k : String) (v : Value) (ms : Members) (value : v.Settled) (settled : ms.Settled) : (ms.insert k v).Settled := by
  cases ms with
  | nil => exact ⟨value,trivial⟩
  | cons m w ms =>
    obtain ⟨first,later⟩ := settled
    rw [Members.insert]
    split
    · exact ⟨value,first,later⟩
    split
    · exact ⟨value,later⟩
    · exact ⟨first,insertSettled k v ms value later⟩

theorem headBelow {k l : String} {w : Value} {ns : Members} (ordered : (Members.cons l w ns).Ordered) (before : k < l) : ns.has k = false := by
  rw [Bool.eq_false_iff]
  exact fun inside => absurd (before.trans (ordered.1 k inside)) (lt_irrefl k)

theorem headFree {k : String} {v : Value} {ms : Members} (ordered : (Members.cons k v ms).Ordered) : ms.has k = false := by
  rw [Bool.eq_false_iff]
  exact fun inside => absurd (ordered.1 k inside) (lt_irrefl k)

theorem hasFound (ms : Members) (l : String) : ms.has l = (ms.found l []).isSome := by
  cases ms with
  | nil => rfl
  | cons k v ms =>
    have ih := hasFound ms l
    obtain ⟨leaf,root⟩ := foundRoot v
    rw [Members.has, Members.found]
    cases inside : ms.has l with
    | true => rw [if_pos rfl, ← ih, inside, Bool.or_true]
    | false => by_cases here : k = l <;> simp [here, root]

theorem hasSame {ms ns : Members} (same : ∀ l path, ms.found l path = ns.found l path) (l : String) : ms.has l = ns.has l := by
  rw [hasFound, hasFound, same l []]

mutual
theorem valueEqual (t u : Value) (left : t.Settled) (right : u.Settled) (same : SameContent t u) : t = u := by
  have root := same []
  cases t with
  | array xs =>
    cases u with
    | array ys => rw [valuesEqual xs ys left right fun i path => by simpa only [Value.found] using same (.index i::path)]
    | _ => simp [Value.found] at root
  | object ms =>
    cases u with
    | object ns => rw [membersEqual ms ns left.1 right.1 left.2 right.2 fun l path => by simpa only [Value.found] using same (.key l::path)]
    | _ => simp [Value.found] at root
  | _ => cases u <;> simp_all [Value.found]

theorem valuesEqual (xs ys : Values) (left : xs.Settled) (right : ys.Settled) (same : ∀ i path, xs.found i path = ys.found i path) :
    xs = ys := by
  cases xs with
  | nil =>
    cases ys with
    | nil => rfl
    | cons y ys =>
      obtain ⟨leaf,root⟩ := foundRoot y
      simpa [Values.found, root] using same 0 []
  | cons x xs =>
    cases ys with
    | nil =>
      obtain ⟨leaf,root⟩ := foundRoot x
      simpa [Values.found, root] using same 0 []
    | cons y ys =>
      have firsts := valueEqual x y left.1 right.1 fun path => by simpa only [Values.found] using same 0 path
      have others := valuesEqual xs ys left.2 right.2 fun i path => by simpa only [Values.found] using same (i + 1) path
      rw [firsts, others]

theorem membersEqual (ms ns : Members) (leftOrder : ms.Ordered) (rightOrder : ns.Ordered) (left : ms.Settled) (right : ns.Settled)
    (same : ∀ l path, ms.found l path = ns.found l path) : ms = ns := by
  cases ms with
  | nil =>
    cases ns with
    | nil => rfl
    | cons l w ns =>
      obtain ⟨leaf,root⟩ := foundRoot w
      simpa [Members.found, headFree rightOrder, root] using same l []
  | cons k v ms =>
    cases ns with
    | nil =>
      obtain ⟨leaf,root⟩ := foundRoot v
      simpa [Members.found, headFree leftOrder, root] using same k []
    | cons l w ns =>
      have keys : k = l := by
        rcases lt_trichotomy k l with before | equal | behind
        · have inside := hasSame same k
          simp [Members.has, headBelow rightOrder before, before.ne'] at inside
        · exact equal
        · have inside := hasSame same l
          simp [Members.has, headBelow leftOrder behind, behind.ne'] at inside
      subst keys
      have values := valueEqual v w left.1 right.1 fun path => by
        simpa [Members.found, headFree leftOrder, headFree rightOrder] using same k path
      have others := membersEqual ms ns leftOrder.2 rightOrder.2 left.2 right.2 fun l path => by
        by_cases here : k = l
        · subst here
          rw [foundIn ms k path (headFree leftOrder), foundIn ns k path (headFree rightOrder)]
        · have whole := same l path
          simp only [Members.found, if_neg here] at whole
          cases inLeft : ms.has l <;> cases inRight : ns.has l <;>
            simp_all [foundIn]
      rw [values, others]
end

def Members.get (l : String) : Members → Option Value
  | .nil => none
  | .cons k v ms => (ms.get l).or (if k = l then some v else none)

def Value.get (l : String) : Value → Option Value
  | .object ms => ms.get l
  | _ => none

def Value.asStr : Value → Option String
  | .string s => some s
  | _ => none

def json (fields : List (String × Value)) : Value := .object (fields.foldl (fun ms f => ms.insert f.1 f.2) .nil)

theorem getAbsent (l : String) (ms : Members) (absent : ms.has l = false) : ms.get l = none := by
  cases ms with
  | nil => rfl
  | cons k v ms =>
    simp only [Members.has, Bool.or_eq_false_iff, beq_eq_false_iff_ne] at absent
    rw [Members.get, getAbsent l ms absent.2, if_neg absent.1]
    rfl

theorem getInsert (k l : String) (v : Value) (ms : Members) (ordered : ms.Ordered) :
    (ms.insert k v).get l = if k = l then some v else ms.get l := by
  cases ms with
  | nil => rfl
  | cons m w ms =>
    have ih := getInsert k l v ms ordered.2
    rw [Members.insert]
    split
    · next first =>
      by_cases here : k = l
      · subst here
        have apart : m ≠ k := first.ne'
        simp [Members.get, getAbsent k ms (headBelow ordered first), apart]
      · simp [Members.get, here]
    split
    · next same =>
      subst same
      by_cases here : k = l
      · subst here
        simp [Members.get, getAbsent k ms (headFree ordered)]
      · simp [Members.get, here]
    · by_cases here : k = l
      · subst here
        simp [Members.get, ih]
      · simp [Members.get, ih, here]

theorem fieldsOrdered (fields : List (String × Value)) : (fields.foldl (fun ms f => ms.insert f.1 f.2) Members.nil).Ordered := by
  induction fields using List.reverseRecOn with
  | nil => trivial
  | append_singleton fields f ih =>
    rw [List.foldl_append]
    exact insertOrdered f.1 f.2 _ ih

theorem getJson (fields : List (String × Value)) (l : String) :
    (json fields).get l = (fields.reverse.find? (fun f => f.1 == l)).map Prod.snd := by
  induction fields using List.reverseRecOn with
  | nil => rfl
  | append_singleton fields f ih =>
    rw [json, Value.get] at ih
    rw [json, Value.get, List.foldl_append, List.foldl_cons, List.foldl_nil, getInsert f.1 l f.2 _ (fieldsOrdered fields), ih,
      List.reverse_append, List.reverse_singleton, List.singleton_append, List.find?_cons]
    by_cases here : f.1 = l
    · simp [here]
    · simp only [if_neg here, beq_eq_false_iff_ne.mpr here]

mutual
def Value.sorted : Value → Value
  | .array xs => .array xs.sorted
  | .object ms => .object (ms.collected .nil)
  | t => t

def Values.sorted : Values → Values
  | .nil => .nil
  | .cons x xs => .cons x.sorted xs.sorted

def Members.collected : Members → Members → Members
  | .nil, acc => acc
  | .cons k v ms, acc => ms.collected (acc.insert k v.sorted)
end

mutual
theorem valueSettled (t : Value) : t.sorted.Settled := by
  cases t with
  | array xs => exact valuesSettled xs
  | object ms => exact membersSettled ms .nil trivial trivial
  | _ => trivial

theorem valuesSettled (xs : Values) : xs.sorted.Settled := by
  cases xs with
  | nil => trivial
  | cons x xs => exact ⟨valueSettled x,valuesSettled xs⟩

theorem membersSettled (ms acc : Members) (ordered : acc.Ordered) (settled : acc.Settled) :
    (ms.collected acc).Ordered ∧ (ms.collected acc).Settled := by
  cases ms with
  | nil => exact ⟨ordered,settled⟩
  | cons k v ms =>
    exact membersSettled ms _ (insertOrdered k v.sorted acc ordered) (insertSettled k v.sorted acc (valueSettled v) settled)
end

mutual
theorem valueFound (t : Value) (path : List Hop) : t.sorted.found path = t.found path := by
  cases t with
  | array xs =>
    cases path with
    | nil => simp only [Value.sorted, Value.found]
    | cons hop path =>
      cases hop with
      | key k => simp only [Value.sorted, Value.found]
      | index i => simpa only [Value.sorted, Value.found] using valuesFound xs i path
  | object ms =>
    cases path with
    | nil => simp only [Value.sorted, Value.found]
    | cons hop path =>
      cases hop with
      | key k =>
        simp only [Value.sorted, Value.found]
        rw [membersFound ms .nil k path trivial]
        cases inside : ms.has k with
        | true => rfl
        | false => rw [foundIn ms k path inside, if_neg Bool.false_ne_true, Members.found]
      | index i => simp only [Value.sorted, Value.found]
  | _ => rfl

theorem valuesFound (xs : Values) (i : Nat) (path : List Hop) : xs.sorted.found i path = xs.found i path := by
  cases xs with
  | nil => rfl
  | cons x xs =>
    cases i with
    | zero => simpa only [Values.sorted, Values.found] using valueFound x path
    | succ i => simpa only [Values.sorted, Values.found] using valuesFound xs i path

theorem membersFound (ms acc : Members) (l : String) (path : List Hop) (ordered : acc.Ordered) :
    (ms.collected acc).found l path = if ms.has l then ms.found l path else acc.found l path := by
  cases ms with
  | nil => rfl
  | cons k v ms =>
    rw [Members.collected, membersFound ms _ l path (insertOrdered k v.sorted acc ordered), foundInsert k l v.sorted path acc ordered,
      valueFound v path, Members.found]
    cases later : ms.has l with
    | true => simp [Members.has, later]
    | false => by_cases here : k = l <;> simp [Members.has, later, here]
end

theorem sortedIff {t u : Value} : t.sorted = u.sorted ↔ SameContent t u := by
  constructor
  · intro same path
    rw [← valueFound t path, same, valueFound]
  · intro same
    exact valueEqual _ _ (valueSettled t) (valueSettled u) fun path => by rw [valueFound, valueFound, same path]

end OpenPulse.JsonValues
