import Mathlib.Data.List.MinMax
import Mathlib.Data.List.Perm.Subperm
import Mathlib.Data.Prod.Lex

/-! Progressive edge growth, the construction of the parity checks in
`openpulse-core/src/ldpc.rs`. An edge goes to a check as far from its variable as
the graph has one, of the lowest degree among these, never to a check that the
variable has. -/
namespace OpenPulse.Peg

structure Graph where
  varToChecks : List (List Nat)
  checkToInfo : List (List Nat)
  deriving Repr

def Graph.checks (g : Graph) (v : Nat) : List Nat := g.varToChecks.getD v []

def Graph.info (g : Graph) (c : Nat) : List Nat := g.checkToInfo.getD c []

def Graph.connect (g : Graph) (v c : Nat) : Graph :=
  ⟨g.varToChecks.modify v (· ++ [c]),g.checkToInfo.modify c (· ++ [v])⟩

/- What the two loops of a level share: each node that has not been seen is marked
and goes to the next level. -/
def visit (level : List Bool × List Nat) (x : Nat) : List Bool × List Nat :=
  if level.1.getD x false then level else (level.1.set x true,level.2 ++ [x])

def expand (neighbours : Nat → List Nat) (seen : List Bool) (frontier : List Nat) : List Bool × List Nat :=
  (frontier.flatMap neighbours).foldl visit (seen,[])

structure Search where
  reached : List Bool
  visitedVar : List Bool
  frontier : List Nat
  lastLevel : List Nat
  reachedCount : Nat
  deriving Repr

def search (m : Nat) (g : Graph) (s : Search) : Search :=
  let checks := expand g.checks s.reached s.frontier
  if _ : checks.2 = [] then s
  else
    let count := s.reachedCount + checks.2.length
    if _ : m ≤ count then ⟨checks.1,s.visitedVar,s.frontier,checks.2,count⟩
    else
      let vars := expand g.info s.visitedVar checks.2
      if vars.2 = [] then ⟨checks.1,vars.1,s.frontier,checks.2,count⟩
      else search m g ⟨checks.1,vars.1,vars.2,checks.2,count⟩
termination_by m - s.reachedCount
decreasing_by
  refine Nat.sub_lt_sub_left (Nat.lt_of_le_of_lt (Nat.le_add_right _ _) (Nat.not_le.mp ‹_›)) ?_
  exact Nat.lt_add_of_pos_right (List.length_pos_iff.mpr ‹_›)

def searchFrom (k m v : Nat) : Search := ⟨List.replicate m false,(List.replicate k false).set v true,[v],[],0⟩

def candidates (m v : Nat) (g : Graph) (s : Search) : List Nat :=
  (if s.reachedCount < m then (List.range m).filter (fun c => !s.reached.getD c false) else s.lastLevel).filter
    (fun c => !(g.checks v).contains c)

def choose (m v : Nat) (g : Graph) (s : Search) : Nat :=
  (((candidates m v g s).argmin (fun c => toLex ((g.info c).length,c))).or
    ((List.range m).find? (fun c => !(g.checks v).contains c))).getD 0

def placeEdge (k m v : Nat) (g : Graph) : Graph := g.connect v (choose m v g (search m g (searchFrom k m v)))

def placeEdges (k m v dv : Nat) (g : Graph) : Graph := (List.range dv).foldl (fun g _ => placeEdge k m v g) g

def unconnected (k m : Nat) : Graph := ⟨List.replicate k [],List.replicate m []⟩

def grow (k m dv n : Nat) : Graph := (List.range n).foldl (fun g v => placeEdges k m v dv g) (unconnected k m)

def pegCheckToVars (k m dv : Nat) : List (List Nat) :=
  let g := grow k m (min dv (max m 1)) k
  (List.range m).map (fun c => g.info c ++ [k + c])

theorem visitsMem {xs : List Nat} {level : List Bool × List Nat} {x : Nat} (member : x ∈ (xs.foldl visit level).2) :
    x ∈ level.2 ∨ x ∈ xs := by
  induction xs generalizing level with
  | nil => exact .inl member
  | cons y ys ih =>
    rw [List.foldl_cons] at member
    cases ih member with
    | inr later => exact .inr (List.mem_cons_of_mem y later)
    | inl here =>
      unfold visit at here
      split at here
      · exact .inl here
      · cases List.mem_append.mp here with
        | inl old => exact .inl old
        | inr new => exact .inr (List.mem_cons.mpr (.inl (List.mem_singleton.mp new)))

theorem expandMem {neighbours : Nat → List Nat} {seen : List Bool} {frontier : List Nat} {x : Nat}
    (member : x ∈ (expand neighbours seen frontier).2) : ∃ u ∈ frontier, x ∈ neighbours u := by
  cases visitsMem member with
  | inl none => cases none
  | inr some => exact List.mem_flatMap.mp some

theorem searchLevel {P : Nat → Prop} {m : Nat} {g : Graph} (ends : ∀ u, ∀ c ∈ g.checks u, P c) (s : Search)
    (level : ∀ c ∈ s.lastLevel, P c) : ∀ c ∈ (search m g s).lastLevel, P c := by
  have next : ∀ seen frontier, ∀ c ∈ (expand g.checks seen frontier).2, P c := fun seen frontier c member => by
    obtain ⟨u,_,edge⟩ := expandMem member
    exact ends u c edge
  induction s using search.induct m g with
  | case1 s checks none =>
    rw [search, dif_pos none]
    exact level
  | case2 s checks some count full =>
    rw [search, dif_neg some, dif_pos full]
    exact next _ _
  | case3 s checks some count room vars none =>
    rw [search, dif_neg some, dif_neg room, if_pos none]
    exact next _ _
  | case4 s checks some count room vars more ih =>
    rw [search, dif_neg some, dif_neg room, if_neg more]
    exact ih (next _ _)

theorem freeCheck {m : Nat} {taken : List Nat} (room : taken.length < m) : ∃ c < m, c ∉ taken := by
  by_contra all
  have every : List.range m ⊆ taken := fun c member => by
    by_contra free
    exact all ⟨c,List.mem_range.mp member,free⟩
  have long := (List.nodup_range.subperm every).length_le
  rw [List.length_range] at long
  omega

theorem candidatesOpen {m v : Nat} {g : Graph} {s : Search} (level : ∀ c ∈ s.lastLevel, c < m) {c : Nat}
    (member : c ∈ candidates m v g s) : c < m ∧ c ∉ g.checks v := by
  obtain ⟨reach,fresh⟩ := List.mem_filter.mp member
  refine ⟨?_,by simpa using fresh⟩
  split at reach
  · exact List.mem_range.mp (List.mem_filter.mp reach).1
  · exact level c reach

theorem chooseOpen {m v : Nat} {g : Graph} {s : Search} (level : ∀ c ∈ s.lastLevel, c < m) (room : (g.checks v).length < m) :
    choose m v g s < m ∧ choose m v g s ∉ g.checks v := by
  unfold choose
  cases best : (candidates m v g s).argmin (fun c => toLex ((g.info c).length,c)) with
  | some c => exact candidatesOpen level (List.argmin_mem best)
  | none =>
    rw [Option.none_or]
    cases first : (List.range m).find? (fun c => !(g.checks v).contains c) with
    | some c => exact ⟨List.mem_range.mp (List.mem_of_find?_eq_some first),by simpa using List.find?_some first⟩
    | none =>
      obtain ⟨c,bound,free⟩ := freeCheck room
      exact absurd (List.find?_eq_none.mp first c (List.mem_range.mpr bound)) (by simpa using free)

structure Linked (k m : Nat) (g : Graph) : Prop where
  vars : g.varToChecks.length = k
  rows : g.checkToInfo.length = m
  ends : ∀ v c, c ∈ g.checks v ↔ v ∈ g.info c
  simpleChecks : ∀ v, (g.checks v).Nodup
  simpleInfo : ∀ c, (g.info c).Nodup

theorem modifyGet {l : List (List Nat)} {i : Nat} (inside : i < l.length) (f : List Nat → List Nat) (j : Nat) :
    (l.modify i f).getD j [] = if j = i then f (l.getD i []) else l.getD j [] := by
  rw [List.getD_eq_getElem?_getD, List.getD_eq_getElem?_getD, List.getD_eq_getElem?_getD]
  by_cases here : j = i
  · subst here
    rw [if_pos rfl, List.getElem?_modify_eq, List.getElem?_eq_getElem inside]
    rfl
  · rw [if_neg here, List.getElem?_modify_ne _ _ (Ne.symm here)]

theorem getBeyond {l : List (List Nat)} {i : Nat} (beyond : l.length ≤ i) : l.getD i [] = [] := by
  rw [List.getD_eq_getElem?_getD, List.getElem?_eq_none beyond, Option.getD_none]

namespace Linked
variable {k m v c : Nat} {g : Graph}

theorem checkBound (kept : Linked k m g) (edge : c ∈ g.checks v) : c < m := by
  by_contra beyond
  have none : g.info c = [] := getBeyond (by rw [kept.rows]; omega)
  have back := (kept.ends v c).mp edge
  rw [none] at back
  cases back

theorem infoBound (kept : Linked k m g) (edge : v ∈ g.info c) : v < k := by
  by_contra beyond
  have none : g.checks v = [] := getBeyond (by rw [kept.vars]; omega)
  have back := (kept.ends v c).mpr edge
  rw [none] at back
  cases back

theorem connectChecks (kept : Linked k m g) (inside : v < k) (c u : Nat) :
    (g.connect v c).checks u = if u = v then g.checks v ++ [c] else g.checks u :=
  modifyGet (by rw [kept.vars]; exact inside) (· ++ [c]) u

theorem connectInfo (kept : Linked k m g) (v : Nat) (bound : c < m) (d : Nat) :
    (g.connect v c).info d = if d = c then g.info c ++ [v] else g.info d :=
  modifyGet (by rw [kept.rows]; exact bound) (· ++ [v]) d

theorem connect (kept : Linked k m g) (inside : v < k) (bound : c < m) (fresh : c ∉ g.checks v) : Linked k m (g.connect v c) := by
  have apart : v ∉ g.info c := fun member => fresh ((kept.ends v c).mpr member)
  have append : ∀ {xs : List Nat} {x : Nat}, xs.Nodup → x ∉ xs → (xs ++ [x]).Nodup := fun simple new =>
    List.nodup_append.mpr ⟨simple,List.pairwise_singleton _ _,fun a ma b mb same => new (List.mem_singleton.mp mb ▸ same ▸ ma)⟩
  constructor
  · exact (List.length_modify _ _ _).trans kept.vars
  · exact (List.length_modify _ _ _).trans kept.rows
  · intro u d
    rw [kept.connectChecks inside, kept.connectInfo v bound]
    have old := kept.ends u d
    by_cases here : u = v
    · by_cases there : d = c
      · subst here there
        simp
      · subst here
        simp [there, old]
    · by_cases there : d = c
      · subst there
        simp [here, old]
      · simp [here, there, old]
  · intro u
    rw [kept.connectChecks inside]
    split
    · exact append (kept.simpleChecks v) fresh
    · exact kept.simpleChecks u
  · intro d
    rw [kept.connectInfo v bound]
    split
    · exact append (kept.simpleInfo c) apart
    · exact kept.simpleInfo d

theorem placeEdge (kept : Linked k m g) (inside : v < k) (room : (g.checks v).length < m) :
    Linked k m (placeEdge k m v g) ∧
      ∀ u, ((Peg.placeEdge k m v g).checks u).length = (g.checks u).length + if u = v then 1 else 0 := by
  have level : ∀ c ∈ (search m g (searchFrom k m v)).lastLevel, c < m :=
    searchLevel (fun _ _ edge => kept.checkBound edge) _ (fun _ none => nomatch none)
  obtain ⟨bound,fresh⟩ := chooseOpen level room
  refine ⟨kept.connect inside bound fresh,fun u => ?_⟩
  rw [Peg.placeEdge, kept.connectChecks inside]
  split
  · next here => rw [here, List.length_append, List.length_singleton]
  · rfl

theorem placeEdges (kept : Linked k m g) (inside : v < k) (dv : Nat) (room : (g.checks v).length + dv ≤ m) :
    Linked k m (placeEdges k m v dv g) ∧
      ∀ u, ((Peg.placeEdges k m v dv g).checks u).length = (g.checks u).length + if u = v then dv else 0 := by
  induction dv with
  | zero => exact ⟨kept,fun u => by split <;> rfl⟩
  | succ dv ih =>
    obtain ⟨linked,lengths⟩ := ih (by omega)
    have here := lengths v
    rw [if_pos rfl] at here
    have step := placeEdge linked inside (by omega)
    rw [Peg.placeEdges, List.range_succ, List.foldl_append]
    refine ⟨step.1,fun u => (step.2 u).trans ?_⟩
    rw [lengths u]
    split <;> omega

end Linked

theorem unconnectedGet (n i : Nat) : (List.replicate n ([] : List Nat)).getD i [] = [] := by
  rw [List.getD_eq_getElem?_getD, List.getElem?_replicate]
  split <;> rfl

theorem linkedStart (k m : Nat) : Linked k m (unconnected k m) := by
  have checks : ∀ v, (unconnected k m).checks v = [] := unconnectedGet k
  have info : ∀ c, (unconnected k m).info c = [] := unconnectedGet m
  refine ⟨List.length_replicate,List.length_replicate,fun v c => ?_,fun v => ?_,fun c => ?_⟩
  · rw [checks, info]
    exact ⟨fun none => (nomatch none),fun none => (nomatch none)⟩
  · rw [checks]
    exact List.nodup_nil
  · rw [info]
    exact List.nodup_nil

theorem growLinked (k : Nat) {m dv n : Nat} (room : dv ≤ m) (bound : n ≤ k) :
    Linked k m (grow k m dv n) ∧ ∀ v, ((grow k m dv n).checks v).length = if v < n then dv else 0 := by
  induction n with
  | zero =>
    refine ⟨linkedStart k m,fun v => ?_⟩
    rw [if_neg (Nat.not_lt_zero v)]
    exact congrArg List.length (unconnectedGet k v)
  | succ n ih =>
    obtain ⟨linked,lengths⟩ := ih (by omega)
    have here := lengths n
    rw [if_neg (Nat.lt_irrefl n)] at here
    have step := linked.placeEdges (v := n) (by omega) dv (by omega)
    rw [grow, List.range_succ, List.foldl_append]
    refine ⟨step.1,fun v => (step.2 v).trans ?_⟩
    rw [lengths v]
    split <;> split <;> split <;> omega

theorem countMembers {m : Nat} {xs : List Nat} (simple : xs.Nodup) (bounded : ∀ x ∈ xs, x < m) :
    (List.range m).countP (fun c => decide (c ∈ xs)) = xs.length := by
  rw [List.countP_eq_length_filter]
  refine List.Perm.length_eq ((List.perm_ext_iff_of_nodup (List.nodup_range.filter _) simple).mpr (fun x => ?_))
  rw [List.mem_filter, List.mem_range, decide_eq_true_eq]
  exact ⟨And.right,fun member => ⟨bounded x member,member⟩⟩

/-- A parity check matrix whose last columns are the identity: each row ends in its
own parity variable, and the other entries are distinct information variables. -/
structure Systematic (k m : Nat) (rows : List (List Nat)) : Prop where
  count : rows.length = m
  row : ∀ c < m, ∃ vars, rows[c]? = some (vars ++ [k + c]) ∧ vars.Nodup ∧ ∀ v ∈ vars, v < k

theorem pegSystematic (k dv : Nat) {m : Nat} (some : 0 < m) : Systematic k m (pegCheckToVars k m dv) := by
  obtain ⟨linked,_⟩ := growLinked k (show min dv (max m 1) ≤ m by omega) (Nat.le_refl k)
  refine ⟨by simp [pegCheckToVars],fun c bound => ⟨_,?_,linked.simpleInfo c,fun v edge => linked.infoBound edge⟩⟩
  rw [pegCheckToVars, List.getElem?_map, List.getElem?_range bound]
  rfl

theorem pegDegree {k m dv v : Nat} (some : 0 < m) (inside : v < k) :
    (pegCheckToVars k m dv).countP (fun row => decide (v ∈ row)) = min dv m := by
  obtain ⟨linked,lengths⟩ := growLinked k (show min dv (max m 1) ≤ m by omega) (Nat.le_refl k)
  have degree := lengths v
  rw [if_pos inside] at degree
  have same : ∀ c, v ∈ (grow k m (min dv (max m 1)) k).info c ++ [k + c] ↔ c ∈ (grow k m (min dv (max m 1)) k).checks v := by
    intro c
    rw [linked.ends, List.mem_append, List.mem_singleton]
    exact ⟨fun either => either.resolve_right (by omega),.inl⟩
  have members := countMembers (linked.simpleChecks v) (fun c edge => linked.checkBound edge)
  rw [pegCheckToVars, List.countP_map]
  refine Eq.trans (List.countP_congr (fun c _ => ?_)) (members.trans (degree.trans (by omega)))
  rw [Function.comp_apply, decide_eq_true_eq, decide_eq_true_eq]
  exact same c

end OpenPulse.Peg
