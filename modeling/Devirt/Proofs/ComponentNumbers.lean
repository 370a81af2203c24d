import Devirt.Proofs.Propagation
import Mathlib.Data.List.Nodup

/-!
# Numbers of components

A propagation numbers the components of a flow graph from zero on, and gives every place the number of
its component.

* `InPart parts k x` : `x` is in the part with the number `k`. Of the components of a graph every node
  is in one part, which holds what the node reaches and is reached by (`AreComponents.inPart_iff`), and
  no edge leads to a part of a higher number (`AreComponents.le_of_edge`);
* `FlowGraph.component?_propagate` : the number of a place is that of the part with its own number;
* `components_numbered` : so whichever way components are found, after any history that ends with a
  propagation places have the same number exactly if flows lead from each to the other, all numbers below
  the count are in use and no others, and a flow between components goes from a higher number to a lower
  one.
-/

namespace Devirt

/-! ## Parts -/

def InPart {α : Type} (parts : List (List α)) (k : Nat) (x : α) : Prop :=
  ∃ part, parts[k]? = some part ∧ x ∈ part

section Parts

variable {α : Type} {parts : List (List α)} {k l : Nat} {x y : α}

theorem InPart.lt_length (h : InPart parts k x) : k < parts.length := by
  obtain ⟨part, hpart, -⟩ := h
  exact (List.getElem?_eq_some_iff.mp hpart).1

theorem exists_inPart (h : x ∈ parts.flatten) : ∃ k, InPart parts k x := by
  obtain ⟨part, hpart, hx⟩ := List.mem_flatten.mp h
  obtain ⟨k, hk⟩ := List.getElem?_of_mem hpart
  exact ⟨k, part, hk, hx⟩

/-- An element that is in the first parts has a number among theirs. -/
theorem exists_inPart_le {before after : List (List α)} {part : List α}
    (h : x ∈ (before ++ [part]).flatten) :
    ∃ k ≤ before.length, InPart (before ++ part :: after) k x := by
  obtain ⟨k, q, hq, hx⟩ := exists_inPart h
  have hk := (List.getElem?_eq_some_iff.mp hq).1
  rw [List.length_append, List.length_singleton] at hk
  refine ⟨k, by omega, q, ?_, hx⟩
  rw [List.append_cons, List.getElem?_append_left (by simpa using hk)]
  exact hq

theorem InPart.unique (hnodup : parts.flatten.Nodup) (hk : InPart parts k x)
    (hl : InPart parts l x) : k = l := by
  obtain ⟨p, hp, hxp⟩ := hk
  obtain ⟨q, hq, hxq⟩ := hl
  obtain ⟨hkl, rfl⟩ := List.getElem?_eq_some_iff.mp hp
  obtain ⟨hll, rfl⟩ := List.getElem?_eq_some_iff.mp hq
  have hdisjoint := List.pairwise_iff_getElem.mp (List.nodup_flatten.mp hnodup).2
  rcases Nat.lt_trichotomy k l with hlt | heq | hgt
  · exact absurd hxq (hdisjoint k l hkl hll hlt hxp)
  · exact heq
  · exact absurd hxp (hdisjoint l k hll hkl hgt hxq)

end Parts

/-! ## Components -/

namespace AreComponents

variable {α : Type} {edges : List (α × α)} {nodes : List α} {parts : List (List α)} {k l : Nat} {x y : α}

theorem inPart_iff (h : AreComponents edges nodes parts) (hx : InPart parts k x) :
    InPart parts k y ↔ Mutual edges x y := by
  obtain ⟨part, hpart, hxpart⟩ := hx
  obtain ⟨z, -, hz⟩ := h.whole part (List.mem_of_getElem? hpart)
  have hmutual : Mutual edges z x := (hz x).mp hxpart
  constructor
  · rintro ⟨part', hpart', hy⟩
    cases hpart.symm.trans hpart'
    exact hmutual.symm.trans ((hz y).mp hy)
  · intro hxy
    exact ⟨part, hpart, (hz y).mpr (hmutual.trans hxy)⟩

theorem eq_iff_mutual (h : AreComponents edges nodes parts) (hx : InPart parts k x)
    (hy : InPart parts l y) : k = l ↔ Mutual edges x y := by
  rw [← h.inPart_iff hx]
  constructor
  · intro hkl
    exact hkl ▸ hy
  · intro hk
    exact hk.unique h.nodup hy

/-- No edge leads to a part of a higher number. -/
theorem le_of_edge (h : AreComponents edges nodes parts) (hx : InPart parts k x)
    (hy : InPart parts l y) (hedge : (x, y) ∈ edges) : l ≤ k := by
  obtain ⟨part, hpart, hxpart⟩ := hx
  obtain ⟨hk, rfl⟩ := List.getElem?_eq_some_iff.mp hpart
  have hsplit : parts = parts.take k ++ parts[k] :: parts.drop (k + 1) := by
    rw [List.getElem_cons_drop, List.take_append_drop]
  obtain ⟨l', hl', hy'⟩ := exists_inPart_le (h.leads _ _ _ hsplit x hxpart y hedge)
  rw [← hsplit] at hy'
  rw [hy.unique h.nodup hy']
  exact hl'.trans (List.length_take_le k _)

theorem mem_of_inPart (h : AreComponents edges nodes parts) (hx : InPart parts k x) : x ∈ nodes := by
  obtain ⟨part, hpart, hmem⟩ := hx
  exact (h.mem_iff x).mp (List.mem_flatten.mpr ⟨part, List.mem_of_getElem? hpart, hmem⟩)

/-- Every number is that of a part with a node. -/
theorem exists_inPart_of_lt (h : AreComponents edges nodes parts) (hk : k < parts.length) :
    ∃ x ∈ nodes, InPart parts k x := by
  obtain ⟨x, hx, -⟩ := h.whole _ (List.getElem_mem hk)
  have hin : InPart parts k x := ⟨_, List.getElem?_eq_getElem hk, hx⟩
  exact ⟨x, h.mem_of_inPart hin, hin⟩

end AreComponents

/-! ## Places -/

namespace FlowGraph

variable {g : FlowGraph} {find : Finder} {m n : FlowNode} {k : Nat}

/-- The number of a place after a propagation. -/
theorem component?_propagate (h : g.Numbered) (hfind : find.Exact) :
    (g.propagate find).component? n = some k ↔ ∃ i, g.index? n = some i ∧
      InPart (g.parts find) k i := by
  cases hi : g.index? n with
  | none =>
    have hnone : (g.propagate find).index? n = none := hi
    simp [component?, placement?, hnone]
  | some i =>
    obtain ⟨part, number, tags, hzip, hmem, hplaced, -⟩ := exists_placement_propagate h hfind hi
    have hpart : InPart (g.parts find) number i :=
      ⟨part, List.mem_zipIdx_iff_getElem?.mp hzip, hmem⟩
    rw [component?, hplaced, Option.map_some, Option.some.injEq]
    constructor
    · rintro rfl
      exact ⟨i, rfl, hpart⟩
    · rintro ⟨j, hj, hk⟩
      cases hj
      exact hpart.unique (h.areComponents hfind).nodup hk

theorem component?_isSome_iff (h : g.Numbered) (hfind : find.Exact) :
    n ∈ g.nodes ↔ ∃ k < (g.propagate find).componentCount, (g.propagate find).component? n = some k := by
  constructor
  · intro hn
    obtain ⟨i, hi⟩ := Roster.exists_index? hn
    have hrange := List.mem_range.mpr (Roster.index?_lt hi)
    obtain ⟨k, hk⟩ := exists_inPart (((h.areComponents hfind).mem_iff i).mpr hrange)
    exact ⟨k, hk.lt_length, (component?_propagate h hfind).mpr ⟨i, hi, hk⟩⟩
  · rintro ⟨k, -, hk⟩
    obtain ⟨i, hi, -⟩ := (component?_propagate h hfind).mp hk
    exact Roster.mem_of_index? hi

theorem exists_component? (h : g.Numbered) (hfind : find.Exact)
    (hk : k < (g.propagate find).componentCount) :
    ∃ n ∈ g.nodes, (g.propagate find).component? n = some k := by
  obtain ⟨i, hrange, hi⟩ := (h.areComponents hfind).exists_inPart_of_lt hk
  obtain ⟨n, hn⟩ := Roster.exists_of_lt (List.mem_range.mp hrange)
  exact ⟨n, Roster.mem_of_index? hn, (component?_propagate h hfind).mpr ⟨i, hn, hi⟩⟩

theorem component?_eq_iff (h : g.Numbered) (hfind : find.Exact) (hm : m ∈ g.nodes) (hn : n ∈ g.nodes) :
    (g.propagate find).component? m = (g.propagate find).component? n ↔
      Relation.ReflTransGen g.HasFlow m n ∧ Relation.ReflTransGen g.HasFlow n m := by
  obtain ⟨k, -, hk⟩ := (component?_isSome_iff h hfind).mp hm
  obtain ⟨l, -, hl⟩ := (component?_isSome_iff h hfind).mp hn
  rw [hk, hl, Option.some.injEq]
  obtain ⟨i, hi, hki⟩ := (component?_propagate h hfind).mp hk
  obtain ⟨j, hj, hlj⟩ := (component?_propagate h hfind).mp hl
  rw [(h.areComponents hfind).eq_iff_mutual hki hlj, Mutual, h.reaches_iff hi hj, h.reaches_iff hj hi]

theorem HasFlow.mem_nodes (h : g.HasFlow m n) : m ∈ g.nodes ∧ n ∈ g.nodes := by
  obtain ⟨i, j, hi, hj, -⟩ := h
  exact ⟨Roster.mem_of_index? hi, Roster.mem_of_index? hj⟩

theorem component?_le_of_flow (h : g.Numbered) (hfind : find.Exact) (hflow : g.HasFlow m n) {l : Nat}
    (hk : (g.propagate find).component? m = some k) (hl : (g.propagate find).component? n = some l) :
    l ≤ k := by
  obtain ⟨i, hi, hki⟩ := (component?_propagate h hfind).mp hk
  obtain ⟨j, hj, hlj⟩ := (component?_propagate h hfind).mp hl
  obtain ⟨i', j', hi', hj', hedge⟩ := hflow
  cases hi.symm.trans hi'
  cases hj.symm.trans hj'
  exact (h.areComponents hfind).le_of_edge hki hlj (Roster.mem_toList.mpr hedge)

/-- A place that a history names. -/
def Named (steps : List Step) (n : FlowNode) : Prop := ∃ c, .add c ∈ steps ∧ c.Mentions n

/-- A history lets a place flow into another. -/
def Flows (steps : List Step) (source target : FlowNode) : Prop := .add (.edge source target) ∈ steps

instance (steps : List Step) (source target : FlowNode) : Decidable (Flows steps source target) :=
  inferInstanceAs (Decidable (_ ∈ steps))

end FlowGraph

/-- Whichever way components are found, after any history that ends with a propagation two places have
the same number exactly if flows lead from each to the other. The places have numbers below the count of
components, nothing else has one, and all of these are in use. A flow from one component into another
goes to a lower number. -/
theorem components_numbered (find : Finder) (hfind : find.Exact) (steps : List FlowGraph.Step) :
    let g := FlowGraph.run find (steps ++ [.propagate])
    (∀ m n, FlowGraph.Named steps m → FlowGraph.Named steps n →
      (g.component? m = g.component? n ↔ Relation.ReflTransGen (FlowGraph.Flows steps) m n ∧
        Relation.ReflTransGen (FlowGraph.Flows steps) n m)) ∧
    (∀ n, FlowGraph.Named steps n ↔ ∃ k < g.componentCount, g.component? n = some k) ∧
    (∀ k < g.componentCount, ∃ n, FlowGraph.Named steps n ∧ g.component? n = some k) ∧
    ∀ m n, FlowGraph.Flows steps m n → ∃ i j, g.component? m = some i ∧ g.component? n = some j ∧
      (i ≠ j → j < i) := by
  have hholds := FlowGraph.holds_run find steps
  have hnumbered := hholds.toNumbered
  have hnamed : ∀ n, FlowGraph.Named steps n ↔ n ∈ (FlowGraph.run find steps).nodes :=
    fun n => (hholds.node_iff n).symm
  have hflows : FlowGraph.Flows steps = (FlowGraph.run find steps).HasFlow := by
    funext m n
    exact propext (hholds.flow_iff m n).symm
  intro g
  have hg : g = (FlowGraph.run find steps).propagate find := FlowGraph.run_concat find steps .propagate
  simp only [hg, hnamed, hflows]
  refine ⟨fun m n => FlowGraph.component?_eq_iff hnumbered hfind,
    fun n => FlowGraph.component?_isSome_iff hnumbered hfind,
    fun k => FlowGraph.exists_component? hnumbered hfind, fun m n hflow => ?_⟩
  obtain ⟨hm, hn⟩ := hflow.mem_nodes
  obtain ⟨i, -, hi⟩ := (FlowGraph.component?_isSome_iff hnumbered hfind).mp hm
  obtain ⟨j, -, hj⟩ := (FlowGraph.component?_isSome_iff hnumbered hfind).mp hn
  have hle := FlowGraph.component?_le_of_flow hnumbered hfind hflow hi hj
  exact ⟨i, j, hi, hj, fun hne => by omega⟩

/-- Two places that flow into each other, and a place behind them. -/
def tailSteps : List FlowGraph.Step :=
  [.add (.edge (.field "A" "x") (.field "A" "y")), .add (.edge (.field "A" "y") (.field "A" "x")),
    .add (.edge (.field "A" "y") (.field "A" "z"))]

/-- The two places have one number, and the place behind them has a lower one. -/
theorem components_numbered_tail :
    Finder.Exact components ∧
      let g := FlowGraph.run components (tailSteps ++ [.propagate])
      g.component? (.field "A" "x") = g.component? (.field "A" "y") ∧
        ∃ i j, g.component? (.field "A" "y") = some i ∧ g.component? (.field "A" "z") = some j ∧
          j < i := by
  obtain ⟨hsame, -, -, hflow⟩ := components_numbered components exact_components tailSteps
  have hx : FlowGraph.Named tailSteps (.field "A" "x") := ⟨_, List.mem_cons_self, .inl rfl⟩
  have hy : FlowGraph.Named tailSteps (.field "A" "y") := ⟨_, List.mem_cons_self, .inr rfl⟩
  have hz : FlowGraph.Named tailSteps (.field "A" "z") :=
    ⟨.edge (.field "A" "y") (.field "A" "z"), by decide, .inr rfl⟩
  refine ⟨exact_components, (hsame _ _ hx hy).mpr ⟨.single (by decide), .single (by decide)⟩, ?_⟩
  obtain ⟨i, j, hi, hj, hlower⟩ := hflow (.field "A" "y") (.field "A" "z") (by decide)
  refine ⟨i, j, hi, hj, hlower ?_⟩
  rintro rfl
  -- nothing flows on from the place behind, so it does not lead back
  obtain ⟨hback, -⟩ := (hsame _ _ hz hy).mp (hj.trans hi.symm)
  rcases hback.cases_head with heq | ⟨n, hn, -⟩
  · exact absurd heq (by decide)
  · simp [FlowGraph.Flows, tailSteps] at hn

end Devirt
