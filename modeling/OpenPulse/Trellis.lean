import Mathlib.Data.List.Basic
import Mathlib.Order.Lattice

/-! Add, compare, select over a trellis, and the traceback of the survivors. The
smaller metric wins and a tie keeps the branch met first. A state whose metric
is not below `worst` has no survivor. Tables are lists in the order of `states`. -/
namespace OpenPulse.Trellis

/-- `R` is what is received at one step, `I` an input of the encoder. -/
structure Machine (S I R M : Type) where
  next : S → I → S
  extend : M → R → S → I → M
  worst : M
  states : List S
  branches : List (S × I)

structure Choice (S I M : Type) where
  metric : M
  origin : S
  input : I
  deriving DecidableEq, Repr

variable {S I R M : Type} [DecidableEq S] [LinearOrder M]

namespace Machine

variable (m : Machine S I R M)

def metricAt (metrics : List M) (s : S) : M := metrics.getD (m.states.idxOf s) m.worst

def choiceAt (idle : S × I) (table : List (Choice S I M)) (s : S) : Choice S I M :=
  table.getD (m.states.idxOf s) ⟨m.worst,idle.1,idle.2⟩

def relax (idle : S × I) (r : R) (metrics : List M) (table : List (Choice S I M)) (p : S × I) : List (Choice S I M) :=
  let candidate := m.extend (m.metricAt metrics p.1) r p.1 p.2
  if candidate < (m.choiceAt idle table (m.next p.1 p.2)).metric then
    table.set (m.states.idxOf (m.next p.1 p.2)) ⟨candidate,p.1,p.2⟩
  else table

def table (idle : S × I) (r : R) (metrics : List M) : List (Choice S I M) :=
  m.branches.foldl (m.relax idle r metrics) (m.states.map (fun _ => ⟨m.worst,idle.1,idle.2⟩))

def forward (idle : S × I) : List R → List M → List (List (Choice S I M))
  | [], _ => []
  | r::rs, metrics =>
    let table := m.table idle r metrics
    table :: forward idle rs (table.map Choice.metric)

def after (idle : S × I) (rs : List R) (metrics : List M) : List M :=
  rs.foldl (fun metrics r => (m.table idle r metrics).map Choice.metric) metrics

def traceback (idle : S × I) (tables : List (List (Choice S I M))) (s : S) : List I × S :=
  tables.foldr (fun table t => ((m.choiceAt idle table t.2).input :: t.1,(m.choiceAt idle table t.2).origin)) ([],s)

def walk (s : S) (is : List I) : S := is.foldl m.next s

def total : M → S → List R → List I → M
  | c, s, r::rs, i::is => total (m.extend c r s i) (m.next s i) rs is
  | c, _, _, _ => c

def startAt (start : S) (zero : M) : List M := m.states.map (fun s => if s = start then zero else m.worst)

end Machine

/-- What the metrics of a trellis promise: worse stays worse, and what has no survivor has none later. -/
structure Ordered (m : Machine S I R M) : Prop where
  listed : ∀ s, s ∈ m.states
  complete : ∀ s i, (s,i) ∈ m.branches
  mono : ∀ c d r s i, c ≤ d → m.extend c r s i ≤ m.extend d r s i
  dead : ∀ c r s i, m.worst ≤ c → m.worst ≤ m.extend c r s i

section Table

variable {m : Machine S I R M} {idle : S × I} {r : R} {metrics : List M}

theorem getAt {A : Type} {ss : List S} (listed : ∀ s, s ∈ ss) (f : S → A) (d : A) (s : S) :
    (ss.map f).getD (ss.idxOf s) d = f s := by
  have inside : ss.idxOf s < ss.length := List.idxOf_lt_length_of_mem (listed s)
  rw [List.getD_eq_getElem?_getD, List.getElem?_map, List.getElem?_eq_getElem inside, List.getElem_idxOf]
  rfl

theorem choiceSet (ordered : Ordered m) {table : List (Choice S I M)} (full : table.length = m.states.length)
    (c : Choice S I M) (s t : S) :
    m.choiceAt idle (table.set (m.states.idxOf t) c) s = if s = t then c else m.choiceAt idle table s := by
  have inside : m.states.idxOf t < table.length := by
    rw [full]
    exact List.idxOf_lt_length_of_mem (ordered.listed t)
  unfold Machine.choiceAt
  rw [List.getD_eq_getElem?_getD, List.getD_eq_getElem?_getD, List.getElem?_set]
  by_cases same : s = t
  · subst same
    rw [if_pos rfl, if_pos inside, if_pos rfl, Option.getD_some]
  · have apart : m.states.idxOf t ≠ m.states.idxOf s :=
      fun equal => same ((List.idxOf_inj (ordered.listed t)).mp equal).symm
    rw [if_neg apart, if_neg same]

theorem relaxLength (table : List (Choice S I M)) (p : S × I) : (m.relax idle r metrics table p).length = table.length := by
  simp only [Machine.relax]
  split
  · exact List.length_set
  · rfl

theorem relaxLe (ordered : Ordered m) {table : List (Choice S I M)} (full : table.length = m.states.length) (p : S × I) (s : S) :
    (m.choiceAt idle (m.relax idle r metrics table p) s).metric ≤ (m.choiceAt idle table s).metric := by
  simp only [Machine.relax]
  split
  · rename_i better
    rw [choiceSet ordered full]
    split
    · rename_i same
      rw [same]
      exact le_of_lt better
    · exact le_refl _
  · exact le_refl _

theorem relaxOwn (ordered : Ordered m) {table : List (Choice S I M)} (full : table.length = m.states.length) (p : S × I) :
    (m.choiceAt idle (m.relax idle r metrics table p) (m.next p.1 p.2)).metric ≤
      m.extend (m.metricAt metrics p.1) r p.1 p.2 := by
  simp only [Machine.relax]
  split
  · rw [choiceSet ordered full, if_pos rfl]
  · rename_i worse
    exact not_lt.mp worse

theorem relaxesLe (ordered : Ordered m) (ps : List (S × I)) {table : List (Choice S I M)}
    (full : table.length = m.states.length) (s : S) :
    (m.choiceAt idle (ps.foldl (m.relax idle r metrics) table) s).metric ≤ (m.choiceAt idle table s).metric := by
  induction ps generalizing table with
  | nil => exact le_refl _
  | cons p ps ih => exact le_trans (ih ((relaxLength table p).trans full)) (relaxLe ordered full p s)

theorem relaxesBest (ordered : Ordered m) {ps : List (S × I)} {p : S × I} (member : p ∈ ps) {table : List (Choice S I M)}
    (full : table.length = m.states.length) :
    (m.choiceAt idle (ps.foldl (m.relax idle r metrics) table) (m.next p.1 p.2)).metric ≤
      m.extend (m.metricAt metrics p.1) r p.1 p.2 := by
  induction ps generalizing table with
  | nil => cases member
  | cons q ps ih =>
    have kept : (m.relax idle r metrics table q).length = m.states.length := (relaxLength table q).trans full
    rcases List.mem_cons.mp member with rfl | later
    · exact le_trans (relaxesLe ordered ps kept _) (relaxOwn ordered full p)
    · exact ih later kept

def Chosen (m : Machine S I R M) (r : R) (metrics : List M) (s : S) (c : Choice S I M) : Prop :=
  m.next c.origin c.input = s ∧ c.metric = m.extend (m.metricAt metrics c.origin) r c.origin c.input

theorem relaxesChosen (ordered : Ordered m) (ps : List (S × I)) {table : List (Choice S I M)}
    (full : table.length = m.states.length)
    (start : ∀ s, (m.choiceAt idle table s).metric < m.worst → Chosen m r metrics s (m.choiceAt idle table s)) (s : S)
    (alive : (m.choiceAt idle (ps.foldl (m.relax idle r metrics) table) s).metric < m.worst) :
    Chosen m r metrics s (m.choiceAt idle (ps.foldl (m.relax idle r metrics) table) s) := by
  induction ps generalizing table with
  | nil => exact start s alive
  | cons p ps ih =>
    refine ih ((relaxLength table p).trans full) (fun t lively => ?_) alive
    simp only [Machine.relax] at lively ⊢
    split
    · rename_i better
      rw [if_pos better, choiceSet ordered full] at lively
      rw [choiceSet ordered full]
      split
      · rename_i same
        exact ⟨same.symm,rfl⟩
      · rename_i other
        rw [if_neg other] at lively
        exact start t lively
    · rename_i worse
      rw [if_neg worse] at lively
      exact start t lively

omit [DecidableEq S] [LinearOrder M] in
theorem startFull : (m.states.map (fun _ => (⟨m.worst,idle.1,idle.2⟩ : Choice S I M))).length = m.states.length :=
  List.length_map _

theorem tableBest (ordered : Ordered m) (s : S) (i : I) :
    (m.choiceAt idle (m.table idle r metrics) (m.next s i)).metric ≤ m.extend (m.metricAt metrics s) r s i :=
  relaxesBest ordered (ordered.complete s i) startFull

theorem tableChosen (ordered : Ordered m) {s : S} (alive : (m.choiceAt idle (m.table idle r metrics) s).metric < m.worst) :
    Chosen m r metrics s (m.choiceAt idle (m.table idle r metrics) s) := by
  refine relaxesChosen ordered m.branches startFull (fun t lively => ?_) s alive
  rw [Machine.choiceAt, getAt ordered.listed] at lively
  exact absurd lively (lt_irrefl _)

omit [LinearOrder M] in
theorem metricTable (table : List (Choice S I M)) (s : S) :
    m.metricAt (table.map Choice.metric) s = (m.choiceAt idle table s).metric := by
  unfold Machine.metricAt Machine.choiceAt
  rw [List.getD_eq_getElem?_getD, List.getD_eq_getElem?_getD, List.getElem?_map]
  cases table[m.states.idxOf s]? <;> rfl

theorem metricStart (ordered : Ordered m) (start : S) (zero : M) (s : S) :
    m.metricAt (m.startAt start zero) s = if s = start then zero else m.worst := getAt ordered.listed _ _ s

end Table

variable {m : Machine S I R M}

omit [DecidableEq S] in
theorem totalMono (ordered : Ordered m) (rs : List R) (is : List I) (s : S) {c d : M} (le : c ≤ d) :
    m.total c s rs is ≤ m.total d s rs is := by
  induction rs generalizing is s c d with
  | nil => exact le
  | cons r rs ih =>
    cases is with
    | nil => exact le
    | cons i is => exact ih is (m.next s i) (ordered.mono c d r s i le)

theorem afterBest (ordered : Ordered m) (idle : S × I) {rs : List R} {is : List I} (same : is.length = rs.length)
    (metrics : List M) (q : S) :
    m.metricAt (m.after idle rs metrics) (m.walk q is) ≤ m.total (m.metricAt metrics q) q rs is := by
  induction rs generalizing is metrics q with
  | nil =>
    rw [List.eq_nil_of_length_eq_zero same]
    exact le_refl _
  | cons r rs ih =>
    cases is with
    | nil => cases same
    | cons i is =>
      have rest := ih (Nat.succ.inj same) ((m.table idle r metrics).map Choice.metric) (m.next q i)
      have first : m.metricAt ((m.table idle r metrics).map Choice.metric) (m.next q i) ≤
          m.extend (m.metricAt metrics q) r q i := by
        rw [metricTable]
        exact tableBest ordered q i
      exact le_trans rest (totalMono ordered rs is (m.next q i) first)

/-- The traceback of a state with a survivor is a path into it that costs its metric. -/
structure Traced (m : Machine S I R M) (rs : List R) (metrics : List M) (s : S) (goal : M) (t : List I × S) : Prop where
  length : t.1.length = rs.length
  arrives : m.walk t.2 t.1 = s
  cost : m.total (m.metricAt metrics t.2) t.2 rs t.1 = goal
  alive : m.metricAt metrics t.2 < m.worst

theorem traced (ordered : Ordered m) (idle : S × I) (rs : List R) (metrics : List M) {s : S}
    (alive : m.metricAt (m.after idle rs metrics) s < m.worst) :
    Traced m rs metrics s (m.metricAt (m.after idle rs metrics) s) (m.traceback idle (m.forward idle rs metrics) s) := by
  induction rs generalizing metrics with
  | nil => exact ⟨rfl,rfl,rfl,alive⟩
  | cons r rs ih =>
    let metrics' : List M := (m.table idle r metrics).map Choice.metric
    let t := m.traceback idle (m.forward idle rs metrics') s
    have rest : Traced m rs metrics' s (m.metricAt (m.after idle rs metrics') s) t := ih metrics' alive
    have lively : (m.choiceAt idle (m.table idle r metrics) t.2).metric < m.worst := by
      rw [← metricTable]
      exact rest.alive
    have cost := rest.cost
    obtain ⟨into,metric⟩ := tableChosen ordered lively
    have step : m.traceback idle (m.forward idle (r::rs) metrics) s =
        ((m.choiceAt idle (m.table idle r metrics) t.2).input :: t.1,
          (m.choiceAt idle (m.table idle r metrics) t.2).origin) := rfl
    rw [step]
    rw [metric] at lively
    refine ⟨congrArg Nat.succ rest.length,?_,?_,?_⟩
    · rw [Machine.walk, List.foldl_cons, into]
      exact rest.arrives
    · rw [Machine.total, into, ← metric, ← metricTable]
      exact cost
    · by_contra gone
      exact absurd (ordered.dead _ r _ _ (not_lt.mp gone)) (not_le.mpr lively)

theorem tracedStart (ordered : Ordered m) (idle : S × I) (rs : List R) (start : S) (zero : M) {s : S}
    (alive : m.metricAt (m.after idle rs (m.startAt start zero)) s < m.worst) :
    let t := m.traceback idle (m.forward idle rs (m.startAt start zero)) s
    t.1.length = rs.length ∧ m.walk start t.1 = s ∧
      m.total zero start rs t.1 = m.metricAt (m.after idle rs (m.startAt start zero)) s := by
  have path := traced ordered idle rs (m.startAt start zero) alive
  have origin : (m.traceback idle (m.forward idle rs (m.startAt start zero)) s).2 = start := by
    by_contra other
    have lively := path.alive
    rw [metricStart ordered, if_neg other] at lively
    exact lt_irrefl _ lively
  have arrives := path.arrives
  have cost := path.cost
  rw [origin] at arrives cost
  rw [metricStart ordered, if_pos rfl] at cost
  exact ⟨path.length,arrives,cost⟩

theorem bestStart (ordered : Ordered m) (idle : S × I) {rs : List R} {is : List I} (same : is.length = rs.length)
    (start : S) (zero : M) :
    m.metricAt (m.after idle rs (m.startAt start zero)) (m.walk start is) ≤ m.total zero start rs is := by
  have best := afterBest ordered idle same (m.startAt start zero) start
  rwa [metricStart ordered, if_pos rfl] at best

end OpenPulse.Trellis
