import Devirt.Proofs.Propagation

/-!
# Flow graphs in tables

A flow graph can be kept in tables that name places by their numbers. The tables grow at different
times: an addition enters places, flows and classes, and leaves alone what a propagation has found, so
the component of a place can be missing. This module says which accesses there are, and that additions
and questions stay within the tables.

* `FlowTables` : the tables; `addNode`, `tag?`, `addEdge?`, `propagate?` change them, and `component?`,
  `tags?`, `tagged?`, `targets?` read them. An access outside of a table leaves these without a result;
* `FlowTables.Shows t g` : the tables hold what the flow graph `g` holds. Additions keep this
  (`Shows.exists_add?`), and questions have the same answers (`Shows.tags?_eq`, `Shows.tagged?_eq`);
* `FlowTables.InStep` : how the tables fit together, which follows (`Shows.inStep`).
-/

namespace Devirt

/-! ## Tables -/

/-- A flow graph in tables. The classes created in a place are at its number, and so is its component, if
the place was there at the last propagation. The classes of a component are at the number of the
component. -/
structure FlowTables where
  nodes : Array FlowNode := #[]
  indices : Std.TreeMap FlowNode Nat := ∅
  edges : Array (Nat × Nat) := #[]
  seeds : Array (List String) := #[]
  components : Array Nat := #[]
  componentTags : Array (List String) := #[]

/-- Changes an entry of a table, which has to be there. -/
def change? {α : Type} (table : Array α) (i : Nat) (f : α → α) : Option (Array α) :=
  if i < table.size then some (table.modify i f) else none

namespace FlowTables

/-- Adds a place, unless it is there, and gives its number. -/
def addNode (t : FlowTables) (n : FlowNode) : FlowTables × Nat :=
  match t.indices[n]? with
  | some i => (t, i)
  | none =>
    ({ t with
      nodes := t.nodes.push n
      indices := t.indices.insert n t.nodes.size
      seeds := t.seeds.push [] }, t.nodes.size)

/-- Notes that objects of a class are created in a place. -/
def tag? (t : FlowTables) (n : FlowNode) (name : String) : Option FlowTables := do
  let (t, i) := t.addNode n
  return { t with seeds := ← change? t.seeds i (Ordered.insert name) }

/-- Adds a flow and its places. A flow that is there is not added again, and another one has to join
places. -/
def addEdge? (t : FlowTables) (source target : FlowNode) : Option FlowTables :=
  let (t, i) := t.addNode source
  let (t, j) := t.addNode target
  if (i, j) ∈ t.edges then some t
  else if i < t.nodes.size ∧ j < t.nodes.size then some { t with edges := t.edges.push (i, j) }
  else none

def add? (t : FlowTables) : Contribution → Option FlowTables
  | .node n => some (t.addNode n).1
  | .seed n name => t.tag? n name
  | .edge source target => t.addEdge? source target

/-! ## Questions -/

/-- The places that a place flows into directly, the last one first. -/
def targets? (t : FlowTables) (n : FlowNode) : Option (List FlowNode) :=
  match t.indices[n]? with
  | some i => (successors t.edges.toList i).reverse.mapM (fun j => t.nodes[j]?)
  | none => some []

/-- The component of a place, if the last propagation has found one. -/
def component? (t : FlowTables) (n : FlowNode) : Option Nat :=
  (t.indices[n]?).bind (fun i => t.components[i]?)

/-- The classes of a place: those of its component. -/
def tags? (t : FlowTables) (n : FlowNode) : Option (List String) :=
  match t.component? n with
  | some k => t.componentTags[k]?
  | none => some []

/-- The place with a number and its classes, if it has any. -/
def taggedAt? (t : FlowTables) (i : Nat) : Option (Option (FlowNode × List String)) :=
  match t.components[i]? with
  | some k => do
    let tags ← t.componentTags[k]?
    if tags.isEmpty then return none else return some (← t.nodes[i]?, tags)
  | none => some none

def tagged? (t : FlowTables) : Option (List (FlowNode × List String)) := do
  return (← (List.range t.nodes.size).mapM t.taggedAt?).filterMap id

/-! ## Propagation -/

/-- The component of each place: the number of the part that it is in. -/
def numbers? (size : Nat) (parts : List (List Nat)) : Option (Array Nat) :=
  parts.zipIdx.foldlM
    (fun found (part, k) => part.foldlM (fun found i => change? found i (fun _ => k)) found)
    (Array.replicate size 0)

/-- Adds the classes created in the places of a part to those of its component. -/
def gather? (t : FlowTables) (k : Nat) (part : List Nat) (tags : Array (List String)) :
    Option (Array (List String)) :=
  part.foldlM
    (fun tags i => do
      let seeds ← t.seeds[i]?
      change? tags k (Ordered.union seeds))
    tags

/-- Adds the classes of a component to those of the component that a place is in, if it is another. -/
def passTo? (t : FlowTables) (found : Array Nat) (k : Nat) (own : List String)
    (tags : Array (List String)) (target : FlowNode) : Option (Array (List String)) := do
  let j ← t.indices[target]?
  let l ← found[j]?
  if l = k then some tags else change? tags l (Ordered.union own)

/-- Passes the classes of a component on to all that one of its places flows into. -/
def passFrom? (t : FlowTables) (found : Array Nat) (k : Nat) (own : List String)
    (tags : Array (List String)) (i : Nat) : Option (Array (List String)) := do
  let n ← t.nodes[i]?
  let targets ← t.targets? n
  targets.foldlM (t.passTo? found k own) tags

/-- Completes the classes of a component, and passes them on. -/
def settle? (t : FlowTables) (parts : List (List Nat)) (found : Array Nat) (k : Nat)
    (tags : Array (List String)) : Option (Array (List String)) := do
  let part ← parts[k]?
  let tags ← t.gather? k part tags
  let own ← tags[k]?
  part.foldlM (t.passFrom? found k own) tags

/-- Settles the components below a number, the last one first. -/
def settleBelow? (t : FlowTables) (parts : List (List Nat)) (found : Array Nat) :
    Nat → Array (List String) → Option (Array (List String))
  | 0, tags => some tags
  | k + 1, tags => do t.settleBelow? parts found k (← t.settle? parts found k tags)

/-- Gives each component that `find` finds its number and its classes. -/
def propagate? (t : FlowTables) (find : Finder) : Option FlowTables := do
  let parts := find (.ofList t.edges.toList) (List.range t.nodes.size)
  let found ← numbers? t.nodes.size parts
  let tags ← t.settleBelow? parts found parts.length (Array.replicate parts.length [])
  return { t with components := found, componentTags := tags }

/-! ## How tables fit together -/

/-- Numbers and places are each other's inverse, from zero on without gaps. Every place has one set of
classes. Flows join places, and none is there twice. No more places have components than there are
places, and every component has its classes. -/
structure InStep (t : FlowTables) : Prop where
  index_iff : ∀ (n : FlowNode) (i : Nat), t.indices[n]? = some i ↔ t.nodes[i]? = some n
  seeds_size : t.seeds.size = t.nodes.size
  edges_nodup : t.edges.toList.Nodup
  edges_lt : ∀ e ∈ t.edges, e.1 < t.nodes.size ∧ e.2 < t.nodes.size
  components_size : t.components.size ≤ t.nodes.size
  components_lt : ∀ k ∈ t.components, k < t.componentTags.size

/-- The tables hold what a graph holds. -/
structure Shows (t : FlowTables) (g : FlowGraph) : Prop where
  nodes : t.nodes.toList = g.nodes.toList
  indices : ∀ n : FlowNode, t.indices[n]? = g.index? n
  edges : t.edges.toList = g.edges.toList
  seeds_size : t.seeds.size = t.nodes.size
  seeds : ∀ (i : Nat) (own : List String), t.seeds[i]? = some own →
    Ordered.Increasing own ∧ ∀ c, c ∈ own ↔ (i, c) ∈ g.seeds
  components : t.components = g.placements.map (·.component)
  componentTags : ∀ p ∈ g.placements, t.componentTags[p.component]? = some p.tags
  count : t.componentTags.size = g.componentCount

variable {t : FlowTables} {g : FlowGraph} {n : FlowNode} {i : Nat}

theorem Shows.size (h : t.Shows g) : t.nodes.size = g.nodes.size := by
  rw [← Array.length_toList, h.nodes, Roster.size_eq]

theorem Shows.node_iff (h : t.Shows g) : t.nodes[i]? = some n ↔ g.index? n = some i := by
  rw [← Array.getElem?_toList, h.nodes, FlowGraph.index?, Roster.index?_eq_some_iff]

/-- Tables that hold what a graph holds fit together. -/
theorem Shows.inStep (h : t.Shows g) (hg : g.Numbered) : t.InStep where
  index_iff n i := by rw [h.indices, h.node_iff]
  seeds_size := h.seeds_size
  edges_nodup := h.edges ▸ g.edges.nodup_toList
  edges_lt e he := by
    rw [h.size]
    exact hg.edges e (Roster.mem_toList.mp (h.edges ▸ Array.mem_toList_iff.mpr he))
  components_size := by
    rw [h.components, Array.size_map, h.size]
    exact hg.placements
  components_lt k hk := by
    rw [h.components] at hk
    obtain ⟨p, hp, rfl⟩ := Array.mem_map.mp hk
    exact (Array.getElem?_eq_some_iff.mp (h.componentTags p hp)).1

theorem shows_empty : ({} : FlowTables).Shows {} where
  nodes := rfl
  indices n := rfl
  edges := rfl
  seeds_size := rfl
  seeds := by simp
  components := by simp
  componentTags := by simp
  count := rfl

/-! ## Additions -/

theorem change?_of_lt {α : Type} {table : Array α} (h : i < table.size) (f : α → α) :
    change? table i f = some (table.modify i f) := if_pos h

theorem Shows.addNode (h : t.Shows g) (hg : g.Numbered) (n : FlowNode) :
    (t.addNode n).1.Shows (g.addNode n) ∧ (t.addNode n).2 = g.number n := by
  unfold FlowTables.addNode
  rw [h.indices]
  cases hn : g.index? n with
  | some i =>
    rw [FlowGraph.addNode_of_mem (Roster.mem_of_index? hn), FlowGraph.number_of_index? hn]
    exact ⟨h, rfl⟩
  | none =>
    have hnew : n ∉ g.nodes := Roster.not_mem_of_index? hn
    refine ⟨⟨?_, fun m => ?_, h.edges, ?_, fun i own hown => ?_, h.components, h.componentTags,
      h.count⟩, ?_⟩
    · rw [FlowGraph.addNode, Roster.toList_insert, if_neg hnew, Array.toList_push, h.nodes]
    · rw [FlowGraph.addNode, FlowGraph.index?, Roster.index?_insert_of_not_mem hnew,
        Std.TreeMap.getElem?_insert, h.indices, h.size]
      rfl
    · rw [Array.size_push, Array.size_push, h.seeds_size]
    · rw [Array.getElem?_push, h.seeds_size] at hown
      split at hown
      · -- no class is at a number that has not been given yet
        rename_i hi
        cases hown
        refine ⟨Ordered.increasing_nil, fun c => ⟨fun hc => absurd hc List.not_mem_nil, fun hc => ?_⟩⟩
        have hlt : i < g.nodes.size := hg.seeds _ hc
        rw [hi, h.size] at hlt
        exact absurd hlt (Nat.lt_irrefl _)
      · exact h.seeds i own hown
    · rw [FlowGraph.number, hn, Option.getD_none, h.size]

theorem Shows.exists_tag? (h : t.Shows g) (hg : g.Numbered) (n : FlowNode) (name : String) :
    ∃ t', t.tag? n name = some t' ∧ t'.Shows (g.tag n name) := by
  obtain ⟨hnode, hnumber⟩ := h.addNode hg n
  unfold tag?
  generalize t.addNode n = added at hnode hnumber ⊢
  obtain ⟨u, i⟩ := added
  obtain rfl : i = g.number n := hnumber
  dsimp only at hnode ⊢
  have hlt : g.number n < u.seeds.size := by
    rw [hnode.seeds_size, hnode.size]
    exact FlowGraph.number_lt g n
  rw [change?_of_lt hlt]
  refine ⟨_, rfl, hnode.nodes, hnode.indices, hnode.edges, ?_, fun j own hown => ?_,
    hnode.components, hnode.componentTags, hnode.count⟩
  · rw [Array.size_modify]
    exact hnode.seeds_size
  · rw [Array.getElem?_modify] at hown
    split at hown
    · rename_i hj
      subst hj
      obtain ⟨before, hbefore, rfl⟩ := Option.map_eq_some_iff.mp hown
      obtain ⟨hincreasing, hmem⟩ := hnode.seeds _ _ hbefore
      refine ⟨Ordered.increasing_insert hincreasing, fun c => ?_⟩
      rw [Ordered.mem_insert, hmem]
      simp [FlowGraph.tag, FlowGraph.addNode]
    · rename_i hj
      obtain ⟨hincreasing, hmem⟩ := hnode.seeds _ _ hown
      refine ⟨hincreasing, fun c => ?_⟩
      rw [hmem]
      simp [FlowGraph.tag, FlowGraph.addNode, Ne.symm hj]

theorem Shows.exists_addEdge? (h : t.Shows g) (hg : g.Numbered) (source target : FlowNode) :
    ∃ t', t.addEdge? source target = some t' ∧ t'.Shows (g.addEdge source target) := by
  obtain ⟨hsource, hi⟩ := h.addNode hg source
  obtain ⟨htarget, hj⟩ := hsource.addNode (hg.add (.node source)) target
  unfold addEdge?
  generalize t.addNode source = added at hsource hi htarget hj ⊢
  obtain ⟨u, i⟩ := added
  dsimp only at hsource hi htarget hj ⊢
  generalize u.addNode target = added at htarget hj ⊢
  obtain ⟨w, j⟩ := added
  dsimp only at htarget hj ⊢
  subst hi hj
  have hedges : w.edges.toList = g.edges.toList := htarget.edges
  split
  · rename_i hmem
    have hknown : (g.number source, (g.addNode source).number target) ∈ g.edges :=
      Roster.mem_toList.mp (hedges ▸ Array.mem_toList_iff.mpr hmem)
    refine ⟨w, rfl, ?_⟩
    rw [FlowGraph.addEdge, Roster.insert_of_mem hknown]
    exact htarget
  · rename_i hmem
    have hnew : (g.number source, (g.addNode source).number target) ∉ g.edges := by
      intro hin
      exact hmem (Array.mem_toList_iff.mp (hedges ▸ Roster.mem_toList.mpr hin))
    have hgrows := Roster.prefix_insert (g.addNode source).nodes target
    have hjoins : g.number source < w.nodes.size ∧ (g.addNode source).number target < w.nodes.size := by
      rw [htarget.size]
      exact ⟨(FlowGraph.number_lt g source).trans_le (Roster.size_le_of_isPrefix hgrows),
        FlowGraph.number_lt _ target⟩
    rw [if_pos hjoins]
    refine ⟨_, rfl, htarget.nodes, htarget.indices, ?_, htarget.seeds_size, htarget.seeds,
      htarget.components, htarget.componentTags, htarget.count⟩
    rw [FlowGraph.addEdge, Roster.toList_insert, if_neg hnew, Array.toList_push, hedges]

/-- An addition stays within the tables. -/
theorem Shows.exists_add? (h : t.Shows g) (hg : g.Numbered) (c : Contribution) :
    ∃ t', t.add? c = some t' ∧ t'.Shows (g.add c) := by
  cases c with
  | node n => exact ⟨_, rfl, (h.addNode hg n).1⟩
  | seed n name => exact h.exists_tag? hg n name
  | edge source target => exact h.exists_addEdge? hg source target

/-! ## Answers -/

theorem mapM_eq_filterMap {α β : Type} {f : α → Option β} {xs : List α}
    (h : ∀ x ∈ xs, ∃ y, f x = some y) : xs.mapM f = some (xs.filterMap f) := by
  induction xs with
  | nil => rfl
  | cons x xs ih =>
    obtain ⟨y, hy⟩ := h x List.mem_cons_self
    rw [List.mapM_cons, hy, ih (fun z hz => h z (List.mem_cons_of_mem x hz)),
      List.filterMap_cons_some hy]
    rfl

theorem Shows.targets?_eq (h : t.Shows g) (hg : g.Numbered) (n : FlowNode) :
    t.targets? n = some (g.targets n).reverse := by
  unfold targets? FlowGraph.targets
  rw [h.indices]
  cases g.index? n with
  | none => rfl
  | some i =>
    have hnodes : t.nodes = g.nodes.toList.toArray := by rw [← h.nodes]
    have hfound : ∀ j ∈ (successors t.edges.toList i).reverse, ∃ m, t.nodes[j]? = some m := by
      intro j hj
      rw [List.mem_reverse, mem_successors, h.edges] at hj
      have hlt : j < t.nodes.size := by
        rw [h.size]
        exact (hg.edges _ (Roster.mem_toList.mp hj)).2
      exact ⟨_, Array.getElem?_eq_getElem hlt⟩
    dsimp only
    rw [mapM_eq_filterMap hfound, List.filterMap_reverse, h.edges, hnodes]

theorem Shows.component?_eq (h : t.Shows g) (n : FlowNode) : t.component? n = g.component? n := by
  unfold FlowTables.component? FlowGraph.component? FlowGraph.placement?
  rw [h.indices, h.components]
  cases g.index? n with
  | none => rfl
  | some i => simp

theorem Shows.tags?_eq (h : t.Shows g) (n : FlowNode) : t.tags? n = some (g.tags n) := by
  unfold FlowTables.tags? FlowGraph.tags
  rw [h.component?_eq, FlowGraph.component?]
  cases hp : g.placement? n with
  | none => rfl
  | some p =>
    obtain ⟨i, -, hi⟩ := Option.bind_eq_some_iff.mp hp
    exact h.componentTags p (Array.mem_of_getElem? hi)

theorem filter_zip_eq_filterMap {α β : Type} (p : β → Bool) :
    ∀ (xs : List α) (ys : List β), ys.length ≤ xs.length →
      (xs.zip ys).filter (fun e => !p e.2) = (List.range xs.length).filterMap
        (fun i => ys[i]?.bind (fun y => if p y then none else xs[i]?.map (·, y)))
  | [], ys, h => by simp
  | x :: xs, [], h => by simp
  | x :: xs, y :: ys, h => by
    have ih := filter_zip_eq_filterMap p xs ys (by simpa using h)
    rw [List.zip_cons_cons, List.filter_cons, ih, List.length_cons, List.range_succ_eq_map,
      List.filterMap_cons, List.filterMap_map]
    cases hp : p y <;> simp [hp]

theorem Shows.taggedAt?_eq (h : t.Shows g) (hi : i < t.nodes.size) :
    t.taggedAt? i = some ((g.placements.toList.map (·.tags))[i]?.bind
      (fun tags => if tags.isEmpty then none else g.nodes.toList[i]?.map (·, tags))) := by
  unfold taggedAt?
  rw [h.components, Array.getElem?_map, List.getElem?_map, Array.getElem?_toList]
  cases hp : g.placements[i]? with
  | none => rfl
  | some p =>
    have htags := h.componentTags p (Array.mem_of_getElem? hp)
    have hnode : g.nodes.toList[i]? = some t.nodes[i] := by
      rw [← h.nodes, Array.getElem?_toList, Array.getElem?_eq_getElem hi]
    simp only [Option.map_some, Option.bind_eq_bind, Option.bind_some, htags, hnode,
      Array.getElem?_eq_getElem hi]
    split <;> rfl

theorem Shows.tagged?_eq (h : t.Shows g) (hg : g.Numbered) : t.tagged? = some g.tagged := by
  have hfound : ∀ i ∈ List.range t.nodes.size, ∃ found, t.taggedAt? i = some found :=
    fun i hi => ⟨_, h.taggedAt?_eq (List.mem_range.mp hi)⟩
  have hlength : (g.placements.toList.map (·.tags)).length ≤ g.nodes.toList.length := by
    rw [List.length_map, Array.length_toList, ← Roster.size_eq]
    exact hg.placements
  unfold tagged? FlowGraph.tagged
  rw [mapM_eq_filterMap hfound]
  refine congrArg some ?_
  rw [List.filterMap_filterMap]
  refine Eq.trans ?_ (filter_zip_eq_filterMap List.isEmpty _ _ hlength).symm
  rw [← Roster.size_eq, ← h.size]
  refine List.filterMap_congr fun i hi => ?_
  rw [h.taggedAt?_eq (List.mem_range.mp hi)]
  rfl

end FlowTables

end Devirt
