import Devirt.Traversal
import Mathlib.Data.Set.Insert

/-!
# What a traversal keeps

* `CallGraph.nodeSet`, `CallGraph.edgeSet` : the methods and calls of a graph;
* `Traversal.taken` : the methods that have been scheduled and taken off the worklist;
* `Traversal.Consistent` : the methods scheduled are the nodes with code, and edges join nodes;
* `Linked p t links t'` : `t'` is `t` with calls added and their callees scheduled. Adding calls of
  nodes succeeds (`exists_linkAll`), takes nothing off the worklist, and leaves a consistent
  traversal; so do `seed` and `next`. Calls that are added without failure are added in no other way
  (`linked_of_linkAll`).
-/

namespace Devirt

/-! ## Graphs as sets -/

namespace CallGraph

def nodeSet (g : CallGraph) : Set MethodRef := {m | m ∈ g.nodes}

def edgeSet (g : CallGraph) : Set (MethodRef × MethodRef) := {e | e ∈ g.edges}

@[simp]
theorem mem_nodeSet {g : CallGraph} {m : MethodRef} : m ∈ g.nodeSet ↔ m ∈ g.nodes := Iff.rfl

@[simp]
theorem mem_edgeSet {g : CallGraph} {e : MethodRef × MethodRef} : e ∈ g.edgeSet ↔ e ∈ g.edges :=
  Iff.rfl

@[simp]
theorem hasNode_iff {g : CallGraph} {m : MethodRef} : g.hasNode m = true ↔ m ∈ g.nodes :=
  Roster.contains_iff

@[simp]
theorem hasEdge_iff {g : CallGraph} {caller callee : MethodRef} :
    g.hasEdge caller callee = true ↔ (caller, callee) ∈ g.edges := Roster.contains_iff

@[simp]
theorem mem_nodes_addNode {g : CallGraph} {m x : MethodRef} :
    x ∈ (g.addNode m).1.nodes ↔ x = m ∨ x ∈ g.nodes := by
  unfold addNode
  split
  · rename_i h
    rw [hasNode_iff] at h
    exact ⟨.inr, fun hx => hx.elim (fun e => e ▸ h) id⟩
  · exact Roster.mem_insert

@[simp]
theorem edges_addNode (g : CallGraph) (m : MethodRef) : (g.addNode m).1.edges = g.edges := by
  unfold addNode
  split <;> rfl

/-- A graph with more nodes and edges behind those it had. -/
structure Extends (g g' : CallGraph) : Prop where
  nodes : g.nodes.toList <+: g'.nodes.toList
  edges : g.edges.toList <+: g'.edges.toList

theorem Extends.refl (g : CallGraph) : g.Extends g := ⟨List.prefix_refl _, List.prefix_refl _⟩

theorem Extends.trans {g₁ g₂ g₃ : CallGraph} (h₁ : g₁.Extends g₂) (h₂ : g₂.Extends g₃) :
    g₁.Extends g₃ := ⟨h₁.nodes.trans h₂.nodes, h₁.edges.trans h₂.edges⟩

theorem extends_addNode (g : CallGraph) (m : MethodRef) : g.Extends (g.addNode m).1 := by
  unfold addNode
  split
  · exact .refl g
  · exact ⟨Roster.prefix_insert _ m, List.prefix_refl _⟩

theorem exists_addEdge {g : CallGraph} {caller callee : MethodRef} (h₁ : caller ∈ g.nodes)
    (h₂ : callee ∈ g.nodes) :
    ∃ g' isNew, g.addEdge caller callee = .ok (g', isNew) ∧ g.Extends g' ∧ g'.nodes = g.nodes ∧
      ∀ e, e ∈ g'.edges ↔ e = (caller, callee) ∨ e ∈ g.edges := by
  unfold addEdge
  rw [if_neg (by simpa using h₁), if_neg (by simpa using h₂)]
  split
  · rename_i h
    rw [hasEdge_iff] at h
    exact ⟨g, false, rfl, .refl g, rfl, fun e => ⟨.inr, fun he => he.elim (fun e' => e' ▸ h) id⟩⟩
  · exact ⟨_, true, rfl, ⟨List.prefix_refl _, Roster.prefix_insert _ _⟩, rfl,
      fun e => Roster.mem_insert⟩

end CallGraph

/-! ## Consistent traversals -/

namespace Traversal

variable {p : Program} {t t' : Traversal}

/-- The methods that have been scheduled and taken off the worklist. -/
def taken (t : Traversal) : Set MethodRef := {m | m ∈ t.scheduled ∧ m ∉ t.worklist}

/-- The methods scheduled are the nodes with code, what is to be taken has been scheduled once, and
edges join nodes. -/
structure Consistent (p : Program) (t : Traversal) : Prop where
  scheduled_iff : ∀ m, m ∈ t.scheduled ↔ m ∈ t.graph.nodes ∧ p.hasBody m = true
  scheduled_of_worklist : ∀ m ∈ t.worklist, m ∈ t.scheduled
  nodup : t.worklist.Nodup
  joins : ∀ e ∈ t.graph.edges, e.1 ∈ t.graph.nodes ∧ e.2 ∈ t.graph.nodes

theorem Consistent.of_taken (h : t.Consistent p) {m : MethodRef} (hm : m ∈ t.taken) :
    m ∈ t.graph.nodes ∧ p.hasBody m = true := (h.scheduled_iff m).mp hm.1

theorem Consistent.taken_of_idle (h : t.Consistent p) (hidle : t.worklist = []) :
    t.taken = {m ∈ t.graph.nodeSet | p.hasBody m = true} := by
  ext m
  simp [taken, hidle, h.scheduled_iff]

theorem consistent_empty (p : Program) : ({} : Traversal).Consistent p where
  scheduled_iff m := by simp
  scheduled_of_worklist m hm := by simp at hm
  nodup := List.nodup_nil
  joins e he := absurd he Roster.not_mem_empty

/-- A method with code that is new is put on the worklist, and nothing else happens. -/
theorem schedule_cases (t : Traversal) (p : Program) (m : MethodRef) :
    (p.hasBody m = true ∧ m ∉ t.scheduled ∧ t.schedule p m =
      { t with scheduled := t.scheduled.insert m, worklist := m :: t.worklist }) ∨
    ((p.hasBody m = true → m ∈ t.scheduled) ∧ t.schedule p m = t) := by
  unfold schedule
  split
  · rename_i hnew
    simp only [isVisited, Bool.and_eq_true, Bool.not_eq_true', Bool.eq_false_iff, ne_eq,
      Roster.contains_iff] at hnew
    exact .inl ⟨hnew.1, hnew.2, rfl⟩
  · rename_i hold
    simp only [isVisited, Bool.and_eq_true, Bool.not_eq_true', Bool.eq_false_iff, ne_eq,
      Roster.contains_iff, not_and, not_not] at hold
    exact .inr ⟨hold, rfl⟩

/-- A node may be scheduled that has just been added. -/
theorem Consistent.schedule {m : MethodRef} {g : CallGraph} (h : t.Consistent p)
    (hnodes : ∀ x, x ∈ g.nodes ↔ x = m ∨ x ∈ t.graph.nodes)
    (hjoins : ∀ e ∈ g.edges, e.1 ∈ g.nodes ∧ e.2 ∈ g.nodes) :
    (Traversal.schedule { t with graph := g } p m).Consistent p ∧
      (Traversal.schedule { t with graph := g } p m).graph = g ∧
      (Traversal.schedule { t with graph := g } p m).taken = t.taken := by
  obtain ⟨hbody, hnew, heq⟩ | ⟨hold, heq⟩ := schedule_cases { t with graph := g } p m
  · have hfresh : m ∉ t.worklist := fun hm => hnew (h.scheduled_of_worklist m hm)
    rw [heq]
    refine ⟨⟨fun x => ?_, fun x hx => ?_, List.nodup_cons.mpr ⟨hfresh, h.nodup⟩, hjoins⟩, rfl, ?_⟩
    · simp only [Roster.mem_insert, h.scheduled_iff, hnodes]
      constructor
      · rintro (rfl | ⟨hx, hb⟩)
        · exact ⟨.inl rfl, hbody⟩
        · exact ⟨.inr hx, hb⟩
      · rintro ⟨rfl | hx, hb⟩
        · exact .inl rfl
        · exact .inr ⟨hx, hb⟩
    · rcases List.mem_cons.mp hx with rfl | hx
      · exact Roster.mem_insert.mpr (.inl rfl)
      · exact Roster.mem_insert.mpr (.inr (h.scheduled_of_worklist x hx))
    · ext x
      simp only [taken, Roster.mem_insert, List.mem_cons, not_or, Set.mem_ofPred_eq]
      constructor
      · rintro ⟨rfl | hx, hne, hw⟩
        · exact absurd rfl hne
        · exact ⟨hx, hw⟩
      · rintro ⟨hx, hw⟩
        exact ⟨.inr hx, fun he => hnew (he ▸ hx), hw⟩
  · rw [heq]
    refine ⟨⟨fun x => ?_, h.scheduled_of_worklist, h.nodup, hjoins⟩, rfl, rfl⟩
    simp only [h.scheduled_iff, hnodes]
    constructor
    · exact fun hx => ⟨.inr hx.1, hx.2⟩
    · rintro ⟨rfl | hx, hb⟩
      · exact (h.scheduled_iff x).mp (hold hb)
      · exact ⟨hx, hb⟩

/-! ## Starting -/

/-- Starting from entry points makes those with code nodes, and takes nothing. -/
theorem consistent_foldl_start (entries : List MethodRef) (h : t.Consistent p) :
    (entries.foldl (start p) t).Consistent p ∧
      (∀ m, m ∈ (entries.foldl (start p) t).graph.nodes ↔
        m ∈ t.graph.nodes ∨ m ∈ entries ∧ p.hasBody m = true) ∧
      (entries.foldl (start p) t).graph.edges = t.graph.edges ∧
      (entries.foldl (start p) t).taken = t.taken := by
  induction entries generalizing t with
  | nil => exact ⟨h, by simp, rfl, rfl⟩
  | cons x rest ih =>
    rw [List.foldl_cons, start]
    by_cases hx : p.hasBody x = true
    · rw [if_pos hx]
      have hnodes : ∀ y, y ∈ (t.graph.addNode x).1.nodes ↔ y = x ∨ y ∈ t.graph.nodes :=
        fun y => CallGraph.mem_nodes_addNode
      have hjoins : ∀ e ∈ (t.graph.addNode x).1.edges,
          e.1 ∈ (t.graph.addNode x).1.nodes ∧ e.2 ∈ (t.graph.addNode x).1.nodes := by
        intro e he
        rw [CallGraph.edges_addNode] at he
        exact ⟨(hnodes _).mpr (.inr (h.joins e he).1), (hnodes _).mpr (.inr (h.joins e he).2)⟩
      obtain ⟨hstart, hgraph, htaken⟩ := h.schedule hnodes hjoins
      obtain ⟨h₁, h₂, h₃, h₄⟩ := ih hstart
      refine ⟨h₁, fun m => ?_, ?_, h₄.trans htaken⟩
      · rw [addNode, h₂, hgraph, hnodes, List.mem_cons]
        constructor
        · rintro ((rfl | hm) | ⟨hm, hb⟩)
          · exact .inr ⟨.inl rfl, hx⟩
          · exact .inl hm
          · exact .inr ⟨.inr hm, hb⟩
        · rintro (hm | ⟨rfl | hm, hb⟩)
          · exact .inl (.inr hm)
          · exact .inl (.inl rfl)
          · exact .inr ⟨hm, hb⟩
      · rw [addNode, h₃, hgraph, CallGraph.edges_addNode]
    · rw [if_neg hx]
      obtain ⟨h₁, h₂, h₃, h₄⟩ := ih h
      refine ⟨h₁, fun m => ?_, h₃, h₄⟩
      rw [h₂, List.mem_cons]
      constructor
      · exact fun hm => hm.imp_right (fun ⟨hm, hb⟩ => ⟨.inr hm, hb⟩)
      · rintro (hm | ⟨rfl | hm, hb⟩)
        · exact .inl hm
        · exact absurd hb hx
        · exact .inr ⟨hm, hb⟩

/-! ## Taking a method -/

/-- The method taken is a node with code that has not been taken before. -/
theorem Consistent.next {m : MethodRef} (h : t.Consistent p) (hn : t.next = some (m, t')) :
    t'.Consistent p ∧ t'.graph = t.graph ∧ m ∈ t.graph.nodes ∧ p.hasBody m = true ∧ m ∉ t.taken ∧
      t'.taken = insert m t.taken := by
  unfold Traversal.next at hn
  split at hn
  · cases hn
  rename_i x rest hw
  obtain ⟨rfl, rfl⟩ : x = m ∧ _ = t' := by simpa using hn
  have hnodup := h.nodup
  have hsched := h.scheduled_of_worklist
  rw [hw] at hnodup hsched
  have hx := hsched x (by simp)
  obtain ⟨hnode, hbody⟩ := (h.scheduled_iff x).mp hx
  refine ⟨⟨h.scheduled_iff, fun y hy => hsched y (List.mem_cons_of_mem _ hy),
    (List.nodup_cons.mp hnodup).2, h.joins⟩, rfl, hnode, hbody, ?_, ?_⟩
  · simp [taken, hw]
  · ext y
    simp only [taken, hw, Set.mem_ofPred_eq, Set.mem_insert_iff, List.mem_cons, not_or]
    constructor
    · rintro ⟨hy, hrest⟩
      by_cases hyx : y = x
      · exact .inl hyx
      · exact .inr ⟨hy, hyx, hrest⟩
    · rintro (rfl | ⟨hy, -, hrest⟩)
      · exact ⟨hx, (List.nodup_cons.mp hnodup).1⟩
      · exact ⟨hy, hrest⟩

theorem isIdle_of_next (hn : t.next = none) : t.isIdle = true := by
  unfold Traversal.next at hn
  split at hn
  · rename_i hw
    rw [isIdle, hw]
    rfl
  · cases hn

/-! ## Adding calls -/

/-- A traversal with calls added and their callees scheduled. -/
structure Linked (p : Program) (t : Traversal) (links : List (MethodRef × MethodRef))
    (t' : Traversal) : Prop where
  consistent : t'.Consistent p
  nodes : ∀ m, m ∈ t'.graph.nodes ↔ m ∈ t.graph.nodes ∨ ∃ e ∈ links, e.2 = m
  edges : ∀ e, e ∈ t'.graph.edges ↔ e ∈ t.graph.edges ∨ e ∈ links
  taken : t'.taken = t.taken

/-- What a call of a node does to the graph, in any traversal. -/
theorem exists_link_graph {caller callee : MethodRef}
    (hc : caller = callee ∨ caller ∈ t.graph.nodes) :
    ∃ g isNew, t.link p caller callee =
        (Traversal.schedule { t with graph := g } p callee, .ok isNew) ∧ t.graph.Extends g ∧
      (∀ x, x ∈ g.nodes ↔ x = callee ∨ x ∈ t.graph.nodes) ∧
      ∀ e, e ∈ g.edges ↔ e = (caller, callee) ∨ e ∈ t.graph.edges := by
  have hnodes : ∀ x, x ∈ (t.addNode callee).graph.nodes ↔ x = callee ∨ x ∈ t.graph.nodes :=
    fun x => CallGraph.mem_nodes_addNode
  obtain ⟨g, isNew, hadd, hext, hgn, hge⟩ := CallGraph.exists_addEdge ((hnodes caller).mpr hc)
    ((hnodes callee).mpr (.inl rfl))
  refine ⟨g, isNew, by rw [link, hadd], (t.graph.extends_addNode callee).trans hext,
    fun x => hgn ▸ hnodes x, fun e => ?_⟩
  rw [hge, addNode, CallGraph.edges_addNode]

/-- The endpoints of the old edges and of the new one are nodes. -/
theorem joins_of_link {caller callee : MethodRef} {g : CallGraph}
    (hc : caller = callee ∨ caller ∈ t.graph.nodes)
    (h : ∀ e ∈ t.graph.edges, e.1 ∈ t.graph.nodes ∧ e.2 ∈ t.graph.nodes)
    (hnodes : ∀ x, x ∈ g.nodes ↔ x = callee ∨ x ∈ t.graph.nodes)
    (hedges : ∀ e, e ∈ g.edges ↔ e = (caller, callee) ∨ e ∈ t.graph.edges) :
    ∀ e ∈ g.edges, e.1 ∈ g.nodes ∧ e.2 ∈ g.nodes := by
  intro e he
  rcases (hedges e).mp he with rfl | he
  · exact ⟨(hnodes _).mpr hc, (hnodes _).mpr (.inl rfl)⟩
  · exact ⟨(hnodes _).mpr (.inr (h e he).1), (hnodes _).mpr (.inr (h e he).2)⟩

theorem exists_link {caller callee : MethodRef} (h : t.Consistent p)
    (hc : caller = callee ∨ caller ∈ t.graph.nodes) :
    ∃ t' isNew, t.link p caller callee = (t', .ok isNew) ∧ Linked p t [(caller, callee)] t' := by
  obtain ⟨g, isNew, hlink, -, hnodes, hedges⟩ := exists_link_graph hc
  obtain ⟨hcons, hgraph, htaken⟩ := h.schedule hnodes (joins_of_link hc h.joins hnodes hedges)
  refine ⟨_, isNew, hlink, hcons, fun m => ?_, fun e => ?_, htaken⟩
  · rw [hgraph, hnodes, or_comm]
    simp [eq_comm]
  · rw [hgraph, hedges, or_comm, List.mem_singleton]

theorem link_of_unknown {caller callee : MethodRef}
    (hc : ¬ (caller = callee ∨ caller ∈ t.graph.nodes)) :
    t.link p caller callee = (t.addNode callee, .error (.unknownNode caller)) := by
  have hnone : (t.addNode callee).graph.hasNode caller = false := by
    rw [Bool.eq_false_iff, ne_eq, CallGraph.hasNode_iff]
    exact fun hmem => hc (CallGraph.mem_nodes_addNode.mp hmem)
  unfold link CallGraph.addEdge
  rw [hnone]
  rfl

/-- A call that has been added without failure has been added as `exists_link` says. -/
theorem linked_of_link {caller callee : MethodRef} {isNew : Bool} (h : t.Consistent p)
    (hlink : t.link p caller callee = (t', .ok isNew)) : Linked p t [(caller, callee)] t' := by
  have hc : caller = callee ∨ caller ∈ t.graph.nodes := by
    by_contra hc
    rw [link_of_unknown hc] at hlink
    cases hlink
  obtain ⟨t₁, new, hlink', hlinked⟩ := exists_link h hc
  rw [hlink] at hlink'
  cases hlink'
  exact hlinked

theorem Linked.cons {t₁ : Traversal} {l : MethodRef × MethodRef}
    {rest : List (MethodRef × MethodRef)} (h₁ : Linked p t [l] t₁) (h₂ : Linked p t₁ rest t') :
    Linked p t (l :: rest) t' where
  consistent := h₂.consistent
  nodes m := by
    rw [h₂.nodes, h₁.nodes, or_assoc]
    simp
  edges e := by
    rw [h₂.edges, h₁.edges, or_assoc]
    simp
  taken := h₂.taken.trans h₁.taken

theorem exists_linkAll {links : List (MethodRef × MethodRef)} (h : t.Consistent p)
    (hc : ∀ e ∈ links, e.1 ∈ t.graph.nodes) :
    ∃ t', t.linkAll p links = .ok t' ∧ Linked p t links t' := by
  induction links generalizing t with
  | nil => exact ⟨t, rfl, h, by simp, by simp, rfl⟩
  | cons l rest ih =>
    obtain ⟨t₁, isNew, hlink, h₁⟩ := exists_link h (.inr (hc l (by simp)))
    have hrest : ∀ e ∈ rest, e.1 ∈ t₁.graph.nodes :=
      fun e he => (h₁.nodes _).mpr (.inl (hc e (List.mem_cons_of_mem _ he)))
    obtain ⟨t₂, hall, h₂⟩ := ih h₁.consistent hrest
    exact ⟨t₂, by rw [linkAll, hlink]; exact hall, h₁.cons h₂⟩

theorem linked_of_linkAll {links : List (MethodRef × MethodRef)} (h : t.Consistent p)
    (hall : t.linkAll p links = .ok t') : Linked p t links t' := by
  induction links generalizing t with
  | nil =>
    cases hall
    exact ⟨h, by simp, by simp, rfl⟩
  | cons l rest ih =>
    rw [linkAll] at hall
    split at hall
    · cases hall
    · rename_i t₁ isNew hlink
      have h₁ := linked_of_link h hlink
      exact h₁.cons (ih h₁.consistent hall)

end Traversal

end Devirt
