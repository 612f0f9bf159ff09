import Mathlib.Data.Finset.Option
import Mathlib.Data.Finset.Union
import Mathlib.Data.List.Sort
import Mathlib.Logic.Function.Iterate
import Mathlib.Logic.Relation
import DeltaGlider.Replication.Planner

/-!
# Replication cycles

The checks `validate_replication` makes against feedback between rules
(`src/config_sections.rs`): the per-rule self-loop warning, and
`detect_replication_cycles`, a depth-first search from every source node of
the graph whose nodes are exact `(bucket, normalize_prefix(prefix))` pairs.
Replication itself copies every key under a rule's source prefix to
`rewrite_key(..)` in its destination bucket; `replicationRound` runs every
rule once.

The search is a stack machine (`searchStep`), run to an empty stack
(`searchFrom`); its soundness and completeness are invariants of the run.

    selfLoopWarning_eq_none_iff          a rule is a self-loop when its two nodes agree
    detectReplicationCycles_eq_nil_iff   in every key order of its map, the detector is
                                         silent exactly when the graph of exact nodes
                                         has no cycle
    replicationRound_idempotent          when no rule's destination prefix and another's
                                         (or its own) source prefix are nested in one
                                         bucket, one round reaches the fixpoint
    nested_rule_never_converges          a rule whose destination lies inside its own
                                         source passes both checks, and every round adds
                                         a key
-/

namespace DeltaGlider.Replication

open Relation

/-! ## Rules -/

/-- `ReplicationEndpoint`. -/
structure ReplicationEndpoint where
  bucket : String
  prefixPath : String
  deriving DecidableEq, Repr

/-- `ReplicationRule`, with the fields the cycle checks and the copy read. -/
structure ReplicationRule where
  name : String
  source : ReplicationEndpoint
  destination : ReplicationEndpoint
  deriving DecidableEq, Repr

/-- A node of the replication graph: a bucket and a normalised prefix. -/
abbrev Node := String × String

/-- The node of an endpoint. -/
def ReplicationEndpoint.node (e : ReplicationEndpoint) : Node :=
  (e.bucket, normalizePrefix e.prefixPath)

/-- The self-loop warning of `validate_replication`. -/
def selfLoopWarning (rule : ReplicationRule) : Option String :=
  if rule.source.bucket = rule.destination.bucket ∧
      normalizePrefix rule.source.prefixPath = normalizePrefix rule.destination.prefixPath then
    some ("replication rule '" ++ rule.name ++
      "' is a self-loop (source == destination); it will be skipped at runtime")
  else none

theorem selfLoopWarning_eq_none_iff (rule : ReplicationRule) :
    selfLoopWarning rule = none ↔ rule.source.node ≠ rule.destination.node := by
  unfold selfLoopWarning ReplicationEndpoint.node
  split
  · next h => simp [h.1, h.2]
  · next h => simpa [Prod.ext_iff] using h

/-! ## The edge map -/

/-- The edge map of `detect_replication_cycles`, a `HashMap` from each source
node to its `(destination node, rule name)` targets in rule order; its keys are
kept in insertion order. -/
abbrev Edges := List (Node × List (Node × String))

/-- `edges.entry(src).or_default().push(target)`. -/
def pushEdge (src : Node) (target : Node × String) : Edges → Edges
  | [] => [(src, [target])]
  | (node, targets) :: rest =>
    if node = src then (node, targets ++ [target]) :: rest
    else (node, targets) :: pushEdge src target rest

/-- `edges.get(node)`. -/
def edgesGet (node : Node) : Edges → Option (List (Node × String))
  | [] => none
  | (key, targets) :: rest => if key = node then some targets else edgesGet node rest

/-- The loop of `detect_replication_cycles` that fills the edge map. -/
def buildEdges (rules : List ReplicationRule) : Edges :=
  rules.foldl (fun edges rule => pushEdge rule.source.node (rule.destination.node, rule.name) edges) []

/-- The graph the detector searches: an edge from the source node to the
destination node of every rule. -/
def RuleEdge (rules : List ReplicationRule) (u v : Node) : Prop :=
  ∃ rule ∈ rules, rule.source.node = u ∧ rule.destination.node = v

/-- `target` is among the targets the map holds for `node`. -/
def HasTarget (edges : Edges) (node : Node) (target : Node × String) : Prop :=
  target ∈ (edgesGet node edges).getD []

theorem mem_keys_of_edgesGet {edges : Edges} {node : Node} {targets : List (Node × String)}
    (h : edgesGet node edges = some targets) : node ∈ edges.map Prod.fst := by
  induction edges with
  | nil => cases h
  | cons entry rest ih =>
    obtain ⟨key, ts⟩ := entry
    unfold edgesGet at h
    split at h
    · next hkey => simp [hkey]
    · exact List.mem_cons_of_mem _ (ih h)

theorem mem_keys_of_hasTarget {edges : Edges} {node : Node} {t : Node × String}
    (h : HasTarget edges node t) : node ∈ edges.map Prod.fst := by
  unfold HasTarget at h
  cases hget : edgesGet node edges with
  | none => simp [hget] at h
  | some targets => exact mem_keys_of_edgesGet hget

theorem hasTarget_pushEdge {edges : Edges} {src node : Node} {target t : Node × String} :
    HasTarget (pushEdge src target edges) node t ↔ HasTarget edges node t ∨ (node = src ∧ t = target) := by
  induction edges with
  | nil =>
    unfold HasTarget
    by_cases h : src = node <;> simp [pushEdge, edgesGet, h, eq_comm]
  | cons entry rest ih =>
    obtain ⟨key, ts⟩ := entry
    unfold HasTarget at ih ⊢
    by_cases hsrc : key = src
    · -- the entry of `src` gets the new target at its end
      subst hsrc
      by_cases hnode : key = node
      · subst hnode
        simp [pushEdge, edgesGet]
      · simp [pushEdge, edgesGet, hnode, Ne.symm hnode]
    · by_cases hnode : key = node
      · subst hnode
        simp [pushEdge, edgesGet, hsrc]
      · simp [pushEdge, edgesGet, hsrc, hnode, ih]

theorem hasTarget_foldl_pushEdge (rules : List ReplicationRule) (init : Edges) (node : Node)
    (t : Node × String) :
    HasTarget (rules.foldl (fun edges rule => pushEdge rule.source.node (rule.destination.node, rule.name) edges)
        init) node t ↔
      HasTarget init node t ∨ ∃ rule ∈ rules, rule.source.node = node ∧ (rule.destination.node, rule.name) = t := by
  induction rules generalizing init with
  | nil => simp
  | cons rule rest ih =>
    rw [List.foldl_cons, ih, hasTarget_pushEdge]
    simp only [List.mem_cons, exists_eq_or_imp]
    constructor
    · rintro ((h | ⟨rfl, rfl⟩) | h)
      · exact .inl h
      · exact .inr (.inl ⟨rfl, rfl⟩)
      · exact .inr (.inr h)
    · rintro (h | ⟨rfl, rfl⟩ | h)
      · exact .inl (.inl h)
      · exact .inl (.inr ⟨rfl, rfl⟩)
      · exact .inr h

theorem hasTarget_buildEdges (rules : List ReplicationRule) (node : Node) (t : Node × String) :
    HasTarget (buildEdges rules) node t ↔
      ∃ rule ∈ rules, rule.source.node = node ∧ (rule.destination.node, rule.name) = t := by
  unfold buildEdges
  rw [hasTarget_foldl_pushEdge]
  simp [HasTarget, edgesGet]

theorem ruleEdge_iff_hasTarget {rules : List ReplicationRule} {u v : Node} :
    RuleEdge rules u v ↔ ∃ name, HasTarget (buildEdges rules) u (v, name) := by
  simp only [hasTarget_buildEdges, RuleEdge, Prod.mk.injEq]
  constructor
  · rintro ⟨rule, hrule, hsrc, hdst⟩
    exact ⟨rule.name, rule, hrule, hsrc, hdst, rfl⟩
  · rintro ⟨name, rule, hrule, hsrc, hdst, -⟩
    exact ⟨rule, hrule, hsrc, hdst⟩

/-! ## The search -/

/-- The state of `detect_replication_cycles`: the DFS stack (top first) of
nodes with the rule names of the path that reached them and the visited nodes,
both fresh for each start, and the cycle keys and warnings, shared by all
starts. -/
structure CycleSearch where
  stack : List (Node × List String)
  visited : List Node
  seenCycles : List String
  warnings : List String

/-- The warning for a cycle through the rules of `path`. -/
def cycleWarning (path : List String) : String :=
  "replication rules form a cycle: " ++ " -> ".intercalate path

/-- The deduplication key of a cycle: its rule names, sorted, joined by `|`. -/
def cycleKey (path : List String) : String :=
  "|".intercalate (path.insertionSort (· ≤ ·))

/-- The loop over the targets of a node reached along `path`: a target equal
to the start closes a cycle, warned once per set of rule names; any other
target is pushed. -/
def visitTargets (start : Node) (path : List String) (s : CycleSearch) :
    List (Node × String) → CycleSearch
  | [] => s
  | (next, ruleName) :: rest =>
    if next = start then
      if cycleKey (path ++ [ruleName]) ∈ s.seenCycles then visitTargets start path s rest
      else
        visitTargets start path
          { s with
            seenCycles := cycleKey (path ++ [ruleName]) :: s.seenCycles
            warnings := s.warnings ++ [cycleWarning (path ++ [ruleName])] } rest
    else visitTargets start path { s with stack := (next, path ++ [ruleName]) :: s.stack } rest

/-- One turn of the DFS loop: pop a node; skip it if visited, else mark it
and go through its targets. -/
def searchStep (edges : Edges) (start : Node) (s : CycleSearch) : Option CycleSearch :=
  match s.stack with
  | [] => none
  | (node, path) :: rest =>
    if node ∈ s.visited then some { s with stack := rest }
    else
      match edgesGet node edges with
      | some targets => some (visitTargets start path { s with stack := rest, visited := node :: s.visited } targets)
      | none => some { s with stack := rest, visited := node :: s.visited }

@[simp] theorem visitTargets_visited (start : Node) (path : List String) (s : CycleSearch)
    (targets : List (Node × String)) : (visitTargets start path s targets).visited = s.visited := by
  induction targets generalizing s with
  | nil => rfl
  | cons target rest ih =>
    unfold visitTargets
    split
    · split <;> rw [ih]
    · rw [ih]

/-- Everything a turn of the loop can do. -/
theorem searchStep_cases {edges : Edges} {start : Node} {s s' : CycleSearch}
    (h : searchStep edges start s = some s') :
    ∃ node path rest, s.stack = (node, path) :: rest ∧
      ((node ∈ s.visited ∧ s' = { s with stack := rest }) ∨
        (node ∉ s.visited ∧ s' = visitTargets start path { s with stack := rest, visited := node :: s.visited }
          ((edgesGet node edges).getD []))) := by
  unfold searchStep at h
  split at h
  · cases h
  · next node path rest hstack =>
    refine ⟨node, path, rest, hstack, ?_⟩
    split at h
    · next hvis => exact .inl ⟨hvis, (Option.some.inj h).symm⟩
    · next hvis =>
      refine .inr ⟨hvis, ?_⟩
      split at h
      · next targets hget => rw [hget, ← Option.some.inj h]; rfl
      · next hget => rw [hget, ← Option.some.inj h]; rfl

theorem searchStep_eq_none_iff {edges : Edges} {start : Node} {s : CycleSearch} :
    searchStep edges start s = none ↔ s.stack = [] := by
  unfold searchStep
  split
  · simpa
  · next node path rest hstack =>
    simp only [hstack, reduceCtorEq, iff_false]
    split
    · simp
    · split <;> simp

/-- The source nodes not yet visited, then the stack height: the loop's
measure, lexicographic. -/
def searchMeasure (edges : Edges) (s : CycleSearch) : Nat × Nat :=
  (((edges.map Prod.fst).filter (· ∉ s.visited)).length, s.stack.length)

theorem length_filter_not_mem_cons_le (keys visited : List Node) (node : Node) :
    (keys.filter (· ∉ node :: visited)).length ≤ (keys.filter (· ∉ visited)).length := by
  apply List.Sublist.length_le
  apply List.monotone_filter_right
  intro key hkey
  simp only [List.mem_cons, not_or, decide_eq_true_eq] at hkey ⊢
  exact hkey.2

theorem length_filter_not_mem_cons_lt {keys visited : List Node} {node : Node}
    (hkey : node ∈ keys) (hvis : node ∉ visited) :
    (keys.filter (· ∉ node :: visited)).length < (keys.filter (· ∉ visited)).length := by
  have hsplit : keys.filter (· ∉ node :: visited) = (keys.filter (· ∉ visited)).filter (· ≠ node) := by
    rw [List.filter_filter]
    congr 1
    funext key
    simp
  rw [hsplit, List.length_filter_lt_length_iff_exists]
  exact ⟨node, List.mem_filter.mpr ⟨hkey, by simpa using hvis⟩, by simp⟩

/-- Every turn of the loop lowers its measure: a skipped node leaves the
stack, and a marked node is one source node fewer to visit (or, with no
targets, leaves the stack). -/
theorem searchStep_decreases {edges : Edges} {start : Node} {s s' : CycleSearch}
    (h : searchStep edges start s = some s') :
    Prod.Lex (· < ·) (· < ·) (searchMeasure edges s') (searchMeasure edges s) := by
  obtain ⟨node, path, rest, hstack, ⟨hvis, rfl⟩ | ⟨hvis, rfl⟩⟩ := searchStep_cases h
  · apply Prod.Lex.right
    simp [hstack]
  · unfold searchMeasure
    cases hget : edgesGet node edges with
    | some targets =>
      apply Prod.Lex.left
      simpa using length_filter_not_mem_cons_lt (mem_keys_of_edgesGet hget) hvis
    | none =>
      rw [Prod.lex_def]
      have hle := length_filter_not_mem_cons_le (edges.map Prod.fst) s.visited node
      simp only [Option.getD_none, visitTargets, hstack, List.length_cons]
      omega

/-- The DFS loop from one start, run until the stack is empty. -/
def searchFrom (edges : Edges) (start : Node) (s : CycleSearch) : CycleSearch :=
  match h : searchStep edges start s with
  | none => s
  | some s' => searchFrom edges start s'
termination_by searchMeasure edges s
decreasing_by exact searchStep_decreases h

/-- The search from one start, with a fresh stack and visited set. -/
def searchFromStart (edges : Edges) (s : CycleSearch) (start : Node) : CycleSearch :=
  searchFrom edges start { s with stack := [(start, [])], visited := [] }

/-- The order in which the edge map, a `HashMap`, hands out its keys: some
order of them, which the program does not choose. -/
structure KeyOrder where
  keys : Edges → List Node
  perm : ∀ edges, (keys edges).Perm (edges.map Prod.fst)

/-- `detect_replication_cycles`: a search from every source node, in the edge
map's iteration order.  The order decides which rule of a cycle its warning
names first. -/
def detectReplicationCycles (order : KeyOrder) (rules : List ReplicationRule) : List String :=
  ((order.keys (buildEdges rules)).foldl (searchFromStart (buildEdges rules)) ⟨[], [], [], []⟩).warnings

/-! ## Runs of the search -/

/-- One turn of the loop, as a relation. -/
def SearchStep (edges : Edges) (start : Node) (s s' : CycleSearch) : Prop :=
  searchStep edges start s = some s'

/-- The loop runs from its state to an empty stack. -/
theorem searchFrom_run (edges : Edges) (start : Node) (s : CycleSearch) :
    ReflTransGen (SearchStep edges start) s (searchFrom edges start s) ∧
      (searchFrom edges start s).stack = [] := by
  fun_induction searchFrom edges start s with
  | case1 s hnone => exact ⟨.refl, searchStep_eq_none_iff.mp hnone⟩
  | case2 s s' hsome ih => exact ⟨.head hsome ih.1, ih.2⟩

/-- What every turn of the loop keeps holds when the loop ends. -/
theorem searchFrom_invariant {edges : Edges} {start : Node} {P : CycleSearch → Prop}
    (hstep : ∀ s s', SearchStep edges start s s' → P s → P s') {s : CycleSearch} (h : P s) :
    P (searchFrom edges start s) := by
  have hrun := (searchFrom_run edges start s).1
  generalize searchFrom edges start s = t at hrun
  induction hrun with
  | refl => exact h
  | tail _ hlast ih => exact hstep _ _ hlast ih

theorem mem_stack_visitTargets {start : Node} {path : List String} {s : CycleSearch}
    {targets : List (Node × String)} {e : Node × List String} :
    e ∈ (visitTargets start path s targets).stack ↔
      e ∈ s.stack ∨ ∃ t ∈ targets, t.1 ≠ start ∧ e = (t.1, path ++ [t.2]) := by
  induction targets generalizing s with
  | nil => simp [visitTargets]
  | cons target rest ih =>
    obtain ⟨next, ruleName⟩ := target
    unfold visitTargets
    by_cases hnext : next = start
    · -- a target equal to the start is never pushed
      simp only [hnext, ↓reduceIte]
      split <;> simp [ih]
    · simp only [hnext, ↓reduceIte, ih, List.mem_cons, exists_eq_or_imp]
      constructor
      · rintro ((h | h) | h)
        · exact .inr (.inl ⟨hnext, h⟩)
        · exact .inl h
        · exact .inr (.inr h)
      · rintro (h | ⟨-, h⟩ | h)
        · exact .inl (.inr h)
        · exact .inl (.inl h)
        · exact .inr h

theorem warnings_prefix_visitTargets (start : Node) (path : List String) (s : CycleSearch)
    (targets : List (Node × String)) : s.warnings <+: (visitTargets start path s targets).warnings := by
  induction targets generalizing s with
  | nil => exact List.prefix_refl _
  | cons target rest ih =>
    unfold visitTargets
    split
    · split
      · exact ih s
      · refine List.IsPrefix.trans ?_ (ih _)
        exact List.prefix_append _ _
    · refine List.IsPrefix.trans ?_ (ih _)
      exact List.prefix_refl _

/-- With no cycle key recorded, the targets loop stays quiet only if no
target is the start, and then it records no key. -/
theorem visitTargets_quiet {start : Node} {path : List String} {s : CycleSearch}
    {targets : List (Node × String)} (hquiet : (visitTargets start path s targets).warnings = [])
    (hseen : s.seenCycles = []) :
    (∀ t ∈ targets, t.1 ≠ start) ∧ (visitTargets start path s targets).seenCycles = [] := by
  induction targets generalizing s with
  | nil => exact ⟨by simp, hseen⟩
  | cons target rest ih =>
    obtain ⟨next, ruleName⟩ := target
    unfold visitTargets at hquiet ⊢
    by_cases hnext : next = start
    · -- the cycle key is new, so a warning is issued and stays
      simp only [hnext, ↓reduceIte, hseen, List.not_mem_nil] at hquiet
      have hprefix := warnings_prefix_visitTargets start path
        { s with
          seenCycles := [cycleKey (path ++ [ruleName])]
          warnings := s.warnings ++ [cycleWarning (path ++ [ruleName])] } rest
      rw [hquiet, List.prefix_nil] at hprefix
      simp at hprefix
    · simp only [hnext, ↓reduceIte] at hquiet ⊢
      obtain ⟨hrest, hseen'⟩ := ih hquiet hseen
      exact ⟨by simpa [hnext] using hrest, hseen'⟩

theorem warnings_prefix_searchStep {edges : Edges} {start : Node} {s s' : CycleSearch}
    (h : SearchStep edges start s s') : s.warnings <+: s'.warnings := by
  obtain ⟨node, path, rest, -, ⟨-, rfl⟩ | ⟨-, rfl⟩⟩ := searchStep_cases h
  · exact List.prefix_refl _
  · refine List.IsPrefix.trans ?_ (warnings_prefix_visitTargets _ _ _ _)
    exact List.prefix_refl _

theorem warnings_prefix_searchFromStart (edges : Edges) (s : CycleSearch) (start : Node) :
    s.warnings <+: (searchFromStart edges s start).warnings := by
  have hstep : ∀ t t', SearchStep edges start t t' → s.warnings <+: t.warnings → s.warnings <+: t'.warnings :=
    fun _ _ hstep h => h.trans (warnings_prefix_searchStep hstep)
  exact searchFrom_invariant hstep (List.prefix_refl _)

theorem warnings_prefix_foldl (edges : Edges) (starts : List Node) (s : CycleSearch) :
    s.warnings <+: (starts.foldl (searchFromStart edges) s).warnings := by
  induction starts generalizing s with
  | nil => exact List.prefix_refl _
  | cons start rest ih => exact (warnings_prefix_searchFromStart edges s start).trans (ih _)

/-! ## Soundness: a warning is a cycle -/

section Sound

variable {rules : List ReplicationRule} {start : Node}

/-- Soundness of the search from `start`: every node on the stack is reachable
from the start, and a warning means the graph has a cycle. -/
structure SearchSound (rules : List ReplicationRule) (start : Node) (s : CycleSearch) : Prop where
  reach : ∀ e ∈ s.stack, ReflTransGen (RuleEdge rules) start e.1
  warned : s.warnings ≠ [] → ∃ n, TransGen (RuleEdge rules) n n

theorem visitTargets_sound {node : Node} {path : List String} {s : CycleSearch}
    {targets : List (Node × String)} (hnode : ReflTransGen (RuleEdge rules) start node)
    (htargets : ∀ t ∈ targets, RuleEdge rules node t.1) (h : SearchSound rules start s) :
    SearchSound rules start (visitTargets start path s targets) := by
  induction targets generalizing s with
  | nil => exact h
  | cons target rest ih =>
    obtain ⟨next, ruleName⟩ := target
    have hedge : RuleEdge rules node next := htargets _ List.mem_cons_self
    have hrest : ∀ t ∈ rest, RuleEdge rules node t.1 := fun t ht => htargets t (List.mem_cons_of_mem _ ht)
    unfold visitTargets
    split
    · next hnext =>
      split
      · exact ih hrest h
      · -- the edge back to the start closes a cycle through it
        subst hnext
        exact ih hrest ⟨h.reach, fun _ => ⟨next, TransGen.tail' hnode hedge⟩⟩
    · apply ih hrest
      refine ⟨?_, h.warned⟩
      intro e he
      rcases List.mem_cons.mp he with rfl | he
      · exact hnode.tail hedge
      · exact h.reach e he

theorem searchStep_sound {s s' : CycleSearch} (hstep : SearchStep (buildEdges rules) start s s')
    (h : SearchSound rules start s) : SearchSound rules start s' := by
  obtain ⟨node, path, rest, hstack, ⟨-, rfl⟩ | ⟨-, rfl⟩⟩ := searchStep_cases hstep
  · exact ⟨fun e he => h.reach e (by rw [hstack]; exact List.mem_cons_of_mem _ he), h.warned⟩
  · have hnode : ReflTransGen (RuleEdge rules) start node := h.reach (node, path) (by simp [hstack])
    refine visitTargets_sound hnode (fun t ht => ruleEdge_iff_hasTarget.mpr ⟨t.2, ht⟩)
      ⟨fun e he => h.reach e (by rw [hstack]; exact List.mem_cons_of_mem _ he), h.warned⟩

/-- A search that starts with a warning only when there is a cycle warns only
when there is a cycle. -/
theorem searchFromStart_warned {s : CycleSearch} (h : s.warnings ≠ [] → ∃ n, TransGen (RuleEdge rules) n n) :
    (searchFromStart (buildEdges rules) s start).warnings ≠ [] → ∃ n, TransGen (RuleEdge rules) n n := by
  have hinit : SearchSound rules start { s with stack := [(start, [])], visited := [] } :=
    ⟨fun e he => by rw [List.mem_singleton.mp he], h⟩
  exact (searchFrom_invariant (fun _ _ => searchStep_sound) hinit).warned

end Sound

/-! ## Completeness: a cycle is warned of -/

section Complete

variable {edges : Edges} {start : Node}

/-- Completeness of the search from `start`, while it has warned of nothing:
no cycle key is recorded, the start is visited or on the stack, and every
target of a visited node is not the start and is visited or on the stack. -/
def SearchClosed (edges : Edges) (start : Node) (s : CycleSearch) : Prop :=
  s.warnings = [] → s.seenCycles = [] ∧ (start ∈ s.visited ∨ start ∈ s.stack.map Prod.fst) ∧
    ∀ v ∈ s.visited, ∀ t, HasTarget edges v t → t.1 ≠ start ∧ (t.1 ∈ s.visited ∨ t.1 ∈ s.stack.map Prod.fst)

/-- A node that was on the stack is still covered once the top is popped and
marked. -/
theorem covered_of_pop {x node : Node} {path : List String} {rest : List (Node × List String)}
    {visited : List Node} (hnode : node ∈ visited)
    (h : x ∈ visited ∨ x ∈ ((node, path) :: rest).map Prod.fst) : x ∈ visited ∨ x ∈ rest.map Prod.fst := by
  rcases h with h | h
  · exact .inl h
  · rw [List.map_cons, List.mem_cons] at h
    rcases h with rfl | h
    · exact .inl hnode
    · exact .inr h

theorem searchStep_closed {s s' : CycleSearch} (hstep : SearchStep edges start s s')
    (h : SearchClosed edges start s) : SearchClosed edges start s' := by
  obtain ⟨node, path, rest, hstack, ⟨hvis, rfl⟩ | ⟨-, rfl⟩⟩ := searchStep_cases hstep
  · -- a visited node is popped: whatever it covered is visited
    intro hquiet
    obtain ⟨hseen, hstart, hclosed⟩ := h hquiet
    refine ⟨hseen, covered_of_pop hvis (hstack ▸ hstart), fun v hv t ht => ?_⟩
    obtain ⟨hne, hcov⟩ := hclosed v hv t ht
    exact ⟨hne, covered_of_pop hvis (hstack ▸ hcov)⟩
  · -- a new node is marked and its targets pushed
    intro hquiet
    have hprefix := warnings_prefix_visitTargets start path
      { s with stack := rest, visited := node :: s.visited } ((edgesGet node edges).getD [])
    rw [hquiet] at hprefix
    have hquiet0 : s.warnings = [] := List.prefix_nil.mp hprefix
    obtain ⟨hseen, hstart, hclosed⟩ := h hquiet0
    obtain ⟨hnostart, hseen'⟩ := visitTargets_quiet hquiet hseen
    have hmarked : node ∈ node :: s.visited := List.mem_cons_self
    -- what is visited or on the rest of the stack stays covered
    have hkeep : ∀ x, x ∈ s.visited ∨ x ∈ s.stack.map Prod.fst →
        x ∈ node :: s.visited ∨ x ∈ (visitTargets start path
          { s with stack := rest, visited := node :: s.visited } ((edgesGet node edges).getD [])).stack.map Prod.fst := by
      intro x hx
      rcases covered_of_pop hmarked (hstack ▸ hx.imp_left (List.mem_cons_of_mem _)) with hx | hx
      · exact .inl hx
      · obtain ⟨e, he, rfl⟩ := List.mem_map.mp hx
        exact .inr (List.mem_map.mpr ⟨e, mem_stack_visitTargets.mpr (.inl he), rfl⟩)
    refine ⟨hseen', by simpa using hkeep start hstart, fun v hv t ht => ?_⟩
    rw [visitTargets_visited] at hv ⊢
    rcases List.mem_cons.mp hv with rfl | hv
    · -- a target of the new node was pushed, being no start
      have hne : t.1 ≠ start := hnostart t ht
      refine ⟨hne, .inr (List.mem_map.mpr ⟨(t.1, path ++ [t.2]), ?_, rfl⟩)⟩
      exact mem_stack_visitTargets.mpr (.inr ⟨t, ht, hne, rfl⟩)
    · obtain ⟨hne, hcov⟩ := hclosed v hv t ht
      exact ⟨hne, hkeep _ hcov⟩

/-- A search from `start` that ends without a warning has visited everything
reachable from the start, and none of it leads back to the start. -/
theorem searchFromStart_quiet {s : CycleSearch} (hseen : s.warnings = [] → s.seenCycles = [])
    (hquiet : (searchFromStart edges s start).warnings = []) :
    (searchFromStart edges s start).seenCycles = [] ∧
      ¬TransGen (fun u v => ∃ name, HasTarget edges u (v, name)) start start := by
  have hinit : SearchClosed edges start { s with stack := [(start, [])], visited := [] } :=
    fun hw => ⟨hseen hw, by simp, by simp⟩
  have hclosed := searchFrom_invariant (fun _ _ => searchStep_closed) hinit hquiet
  have hempty := (searchFrom_run edges start { s with stack := [(start, [])], visited := [] }).2
  unfold searchFromStart
  rw [hempty] at hclosed
  obtain ⟨hseen', hstart, hcover⟩ := hclosed
  refine ⟨hseen', fun hcycle => ?_⟩
  -- everything reachable from the start is visited
  have hreach : ∀ v, ReflTransGen (fun u v => ∃ name, HasTarget edges u (v, name)) start v →
      v ∈ (searchFrom edges start { s with stack := [(start, [])], visited := [] }).visited := by
    intro v hv
    induction hv with
    | refl => simpa using hstart
    | tail _ hedge ih =>
      obtain ⟨name, hedge⟩ := hedge
      simpa using (hcover _ ih _ hedge).2
  obtain ⟨v, hv, name, hedge⟩ := TransGen.tail'_iff.mp hcycle
  exact (hcover v (hreach v hv) _ hedge).1 rfl

end Complete

/-! ## The detector -/

theorem foldl_searchFromStart_sound {rules : List ReplicationRule} (starts : List Node) {s : CycleSearch}
    (h : s.warnings ≠ [] → ∃ n, TransGen (RuleEdge rules) n n) :
    (starts.foldl (searchFromStart (buildEdges rules)) s).warnings ≠ [] → ∃ n, TransGen (RuleEdge rules) n n := by
  induction starts generalizing s with
  | nil => exact h
  | cons start rest ih => exact ih (searchFromStart_warned h)

theorem foldl_searchFromStart_quiet {edges : Edges} (starts : List Node) {s : CycleSearch}
    (hseen : s.warnings = [] → s.seenCycles = [])
    (h : (starts.foldl (searchFromStart edges) s).warnings = []) :
    ∀ start ∈ starts, ¬TransGen (fun u v => ∃ name, HasTarget edges u (v, name)) start start := by
  induction starts generalizing s with
  | nil => simp
  | cons start rest ih =>
    rw [List.foldl_cons] at h
    have hfirst : (searchFromStart edges s start).warnings = [] :=
      List.prefix_nil.mp (h ▸ warnings_prefix_foldl edges rest _)
    obtain ⟨hseen', hcycle⟩ := searchFromStart_quiet hseen hfirst
    intro x hx
    rcases List.mem_cons.mp hx with rfl | hx
    · exact hcycle
    · exact ih (fun _ => hseen') h x hx

/-- In every iteration order, the detector warns of nothing exactly when the
graph of exact `(bucket, normalised prefix)` nodes has no cycle. -/
theorem detectReplicationCycles_eq_nil_iff (order : KeyOrder) (rules : List ReplicationRule) :
    detectReplicationCycles order rules = [] ↔ ∀ n, ¬TransGen (RuleEdge rules) n n := by
  constructor
  · intro h n hcycle
    have hedges : (fun u v => ∃ name, HasTarget (buildEdges rules) u (v, name)) = RuleEdge rules := by
      funext u v
      exact propext ruleEdge_iff_hasTarget.symm
    -- a node on a cycle has an edge out, so the search starts from it
    obtain ⟨m, hnm, -⟩ := TransGen.head'_iff.mp hcycle
    obtain ⟨name, hname⟩ := ruleEdge_iff_hasTarget.mp hnm
    have hstart : n ∈ order.keys (buildEdges rules) := (order.perm _).mem_iff.mpr (mem_keys_of_hasTarget hname)
    exact foldl_searchFromStart_quiet _ (fun _ => rfl) h n hstart (hedges ▸ hcycle)
  · intro h
    by_contra hne
    obtain ⟨n, hn⟩ := foldl_searchFromStart_sound _ (fun h => absurd rfl h) hne
    exact h n hn

/-! ## Copy rounds -/

/-- The copy a rule makes of a `(bucket, key)`: a key of its source bucket
under its normalised source prefix goes to `rewrite_key(..)` in its
destination bucket. -/
def copiedKey (rule : ReplicationRule) (bk : String × String) : Option (String × String) :=
  if bk.1 = rule.source.bucket ∧ (normalizePrefix rule.source.prefixPath).toList <+: bk.2.toList then
    match rewriteKey rule.source.prefixPath rule.destination.prefixPath bk.2 with
    | .ok key => some (rule.destination.bucket, key)
    | .error _ => none
  else none

/-- One run of a rule: every key stays, and the copies are added. -/
def runRule (keys : Finset (String × String)) (rule : ReplicationRule) : Finset (String × String) :=
  keys ∪ keys.biUnion fun bk => (copiedKey rule bk).toFinset

/-- One round of replication: every rule runs once, in order. -/
def replicationRound (rules : List ReplicationRule) (keys : Finset (String × String)) :
    Finset (String × String) :=
  rules.foldl runRule keys

theorem mem_runRule {keys : Finset (String × String)} {rule : ReplicationRule} {bk : String × String} :
    bk ∈ runRule keys rule ↔ bk ∈ keys ∨ ∃ src ∈ keys, copiedKey rule src = some bk := by
  simp [runRule]

theorem copiedKey_rewrite {rule : ReplicationRule} {src bk : String × String}
    (h : copiedKey rule src = some bk) :
    bk.1 = rule.destination.bucket ∧
      rewriteKey rule.source.prefixPath rule.destination.prefixPath src.2 = .ok bk.2 := by
  unfold copiedKey at h
  split at h
  · split at h
    · next key hkey =>
      cases h
      exact ⟨rfl, hkey⟩
    · cases h
  · cases h

/-! ## Rules that feed no rule -/

/-- A rule feeds another when its destination bucket is the other's source
bucket and one of the two prefixes contains the other: some copy it makes can
be under the other's source prefix. -/
def Feeds (rule rule' : ReplicationRule) : Prop :=
  rule.destination.bucket = rule'.source.bucket ∧
    ((normalizePrefix rule.destination.prefixPath).toList <+: (normalizePrefix rule'.source.prefixPath).toList ∨
      (normalizePrefix rule'.source.prefixPath).toList <+: (normalizePrefix rule.destination.prefixPath).toList)

/-- A copy lies in the rule's destination bucket under its destination prefix. -/
theorem copiedKey_under {rule : ReplicationRule} {src bk : String × String}
    (h : copiedKey rule src = some bk) :
    bk.1 = rule.destination.bucket ∧ (normalizePrefix rule.destination.prefixPath).toList <+: bk.2.toList := by
  have hunder : (normalizePrefix rule.source.prefixPath).toList <+: src.2.toList := by
    unfold copiedKey at h
    split at h
    · next hsrc => exact hsrc.2
    · cases h
  obtain ⟨hbucket, hrewrite⟩ := copiedKey_rewrite h
  exact ⟨hbucket, rewriteKey_prefix hunder hrewrite⟩

/-- A copy made by a rule that does not feed `rule'` is not copied by `rule'`. -/
theorem copiedKey_of_not_feeds {rule rule' : ReplicationRule} {src bk : String × String}
    (hfeeds : ¬Feeds rule rule') (h : copiedKey rule src = some bk) : copiedKey rule' bk = none := by
  obtain ⟨hbucket, hunder⟩ := copiedKey_under h
  unfold copiedKey
  rw [if_neg]
  rintro ⟨hbucket', hunder'⟩
  exact hfeeds ⟨hbucket.symm.trans hbucket', List.prefix_or_prefix_of_prefix hunder hunder'⟩

section NoFeed

variable {rules : List ReplicationRule}

/-- When no rule feeds any rule, a round adds exactly the copies of the keys
it starts from. -/
theorem mem_replicationRound (hfeed : ∀ r ∈ rules, ∀ r' ∈ rules, ¬Feeds r r')
    (keys : Finset (String × String)) (bk : String × String) :
    bk ∈ replicationRound rules keys ↔ bk ∈ keys ∨ ∃ r ∈ rules, ∃ src ∈ keys, copiedKey r src = some bk := by
  unfold replicationRound
  induction rules generalizing keys with
  | nil => simp
  | cons rule rest ih =>
    have hrest : ∀ r ∈ rest, ∀ r' ∈ rest, ¬Feeds r r' := fun r hr r' hr' =>
      hfeed r (List.mem_cons_of_mem _ hr) r' (List.mem_cons_of_mem _ hr')
    rw [List.foldl_cons, ih hrest, mem_runRule]
    simp only [List.mem_cons, exists_eq_or_imp]
    constructor
    · rintro ((h | h) | ⟨r, hr, src, hsrc, hcopy⟩)
      · exact .inl h
      · exact .inr (.inl h)
      · -- what a later rule copies is no copy of this rule's
        rcases mem_runRule.mp hsrc with hsrc | ⟨src', -, hcopy'⟩
        · exact .inr (.inr ⟨r, hr, src, hsrc, hcopy⟩)
        · have hnone := copiedKey_of_not_feeds (hfeed rule List.mem_cons_self r (List.mem_cons_of_mem _ hr)) hcopy'
          rw [hnone] at hcopy
          cases hcopy
    · rintro (h | h | ⟨r, hr, src, hsrc, hcopy⟩)
      · exact .inl (.inl h)
      · exact .inl (.inr h)
      · exact .inr ⟨r, hr, src, mem_runRule.mpr (.inl hsrc), hcopy⟩

/-- When no rule feeds any rule (compared by containment of prefixes, not by
equal nodes), replication reaches its fixpoint after one round. -/
theorem replicationRound_idempotent (hfeed : ∀ r ∈ rules, ∀ r' ∈ rules, ¬Feeds r r')
    (keys : Finset (String × String)) :
    replicationRound rules (replicationRound rules keys) = replicationRound rules keys := by
  ext bk
  rw [mem_replicationRound hfeed]
  constructor
  · rintro (h | ⟨r, hr, src, hsrc, hcopy⟩)
    · exact h
    · rcases (mem_replicationRound hfeed keys src).mp hsrc with hsrc | ⟨r', hr', src', -, hcopy'⟩
      · exact (mem_replicationRound hfeed keys bk).mpr (.inr ⟨r, hr, src, hsrc, hcopy⟩)
      · rw [copiedKey_of_not_feeds (hfeed r' hr' r hr) hcopy'] at hcopy
        cases hcopy
  · exact .inl

end NoFeed

/-! ## A rule nested in its own source -/

/-- A rule that copies the keys under `a/` of bucket `b` to `a/b/` of the same
bucket: its destination lies inside its own source. -/
def nestedRule : ReplicationRule := ⟨"nest", ⟨"b", "a"⟩, ⟨"b", "a/b"⟩⟩

/-- `x` behind `n` segments `b/`. -/
def nestedTail : Nat → String
  | 0 => "x"
  | n + 1 => "b/" ++ nestedTail n

theorem nestedTail_length (n : Nat) : (nestedTail n).length = 2 * n + 1 := by
  induction n with
  | zero => rfl
  | succ n ih =>
    rw [nestedTail, String.length_append, ih]
    have hb : "b/".length = 2 := rfl
    omega

theorem nestedTail_head (n : Nat) : (nestedTail n).toList.head? ≠ some '/' := by
  cases n with
  | zero => decide
  | succ n => simp [nestedTail]

theorem copiedKey_nestedRule (n : Nat) :
    copiedKey nestedRule ("b", "a/" ++ nestedTail n) = some ("b", "a/" ++ nestedTail (n + 1)) := by
  have hsrc : normalizePrefix "a" = "a/" := by decide
  have hdst : normalizePrefix "a/b" = "a/b/" := by decide
  -- the key is under `a/`, and its tail keeps its segments under `a/b/`
  have hrewrite : rewriteKey "a" "a/b" ("a/" ++ nestedTail n) = .ok ("a/" ++ nestedTail (n + 1)) := by
    have h := rewriteKey_append "a" "a/b" (nestedTail n) (nestedTail_head n)
    rw [hsrc, hdst] at h
    rw [h, nestedTail, ← String.append_assoc]
    rfl
  have hunder : (normalizePrefix "a").toList <+: ("a/" ++ nestedTail n).toList := by
    rw [hsrc, String.toList_append]
    exact List.prefix_append _ _
  unfold copiedKey nestedRule
  dsimp only
  rw [if_pos ⟨rfl, hunder⟩, hrewrite]

theorem replicationRound_nestedRule (keys : Finset (String × String)) :
    replicationRound [nestedRule] keys = runRule keys nestedRule := rfl

/-- Each round of the nested rule makes keys at most two characters longer. -/
theorem nestedRule_length_le (n : Nat) :
    ∀ bk ∈ (replicationRound [nestedRule])^[n] {("b", "a/x")}, bk.2.length ≤ 2 * n + 3 := by
  induction n with
  | zero =>
    intro bk hbk
    rw [Function.iterate_zero_apply, Finset.mem_singleton] at hbk
    subst hbk
    decide
  | succ n ih =>
    intro bk hbk
    rw [Function.iterate_succ_apply', replicationRound_nestedRule, mem_runRule] at hbk
    rcases hbk with hbk | ⟨src, hsrc, hcopy⟩
    · have := ih bk hbk
      omega
    · have hlen := rewriteKey_length (copiedKey_rewrite hcopy).2
      have hprefixes : (normalizePrefix nestedRule.source.prefixPath).length = 2 ∧
          (normalizePrefix nestedRule.destination.prefixPath).length = 4 := by decide
      have := ih src hsrc
      omega

/-- After `n` rounds the key with `n` segments `b/` is there. -/
theorem nestedRule_mem (n : Nat) :
    ("b", "a/" ++ nestedTail n) ∈ (replicationRound [nestedRule])^[n] {("b", "a/x")} := by
  induction n with
  | zero => decide
  | succ n ih =>
    rw [Function.iterate_succ_apply', replicationRound_nestedRule, mem_runRule]
    exact .inr ⟨_, ih, copiedKey_nestedRule n⟩

/-- The nested rule is no self-loop and forms no cycle of exact nodes, yet no
round is a fixpoint: round `n + 1` copies the key with `n + 1` segments `b/`,
longer than any key after round `n`. -/
theorem nested_rule_never_converges :
    selfLoopWarning nestedRule = none ∧ (∀ order, detectReplicationCycles order [nestedRule] = []) ∧
      ∀ n, replicationRound [nestedRule] ((replicationRound [nestedRule])^[n] {("b", "a/x")}) ≠
        (replicationRound [nestedRule])^[n] {("b", "a/x")} := by
  refine ⟨by decide, fun order => ?_, fun n hfix => ?_⟩
  · rw [detectReplicationCycles_eq_nil_iff]
    intro u hcycle
    -- the one edge leads from `(b, a/)` to `(b, a/b/)`, which has no edge out
    have hnodes : nestedRule.source.node ≠ nestedRule.destination.node := by decide
    obtain ⟨v, ⟨r, hr, hsrc, hdst⟩, hvu⟩ := TransGen.head'_iff.mp hcycle
    rw [List.mem_singleton] at hr
    subst hr
    rcases ReflTransGen.cases_head hvu with rfl | ⟨w, ⟨r', hr', hsrc', -⟩, -⟩
    · exact hnodes (hsrc.trans hdst.symm)
    · rw [List.mem_singleton] at hr'
      subst hr'
      exact hnodes (hsrc'.trans hdst.symm)
  · have hmem := nestedRule_mem (n + 1)
    rw [Function.iterate_succ_apply', hfix] at hmem
    have hle := nestedRule_length_le n _ hmem
    rw [String.length_append, nestedTail_length] at hle
    have ha : "a/".length = 2 := rfl
    omega

end DeltaGlider.Replication
