import Devirt.Components.Lemmas
import Devirt.Proofs.FlowGraph
import Devirt.Proofs.Ordered
import Mathlib.Data.List.Induction
import Mathlib.Logic.Relation

/-!
# Propagation gives each place the classes that flow into it

* `mem_classesOf` : the classes of a component, where those that flow into it have been placed;
* `AreComponents.enters_from_later` : a flow into a component comes from a later one. So when components
  are placed from the last one on, all that flows into a component has been placed before it;
* `PlacedRight` : what placing components from the last one on keeps;
* `mem_tags_propagate` : a place gets the classes of all places that lead to it by flows. They are in
  order (`increasing_tags_propagate`), so the flows determine them;
* `FlowGraph.Step`, `FlowGraph.run` : histories of a graph; `tags_of_last_propagation` : the answers after
  a history are those of its last propagation.

How components are found does not matter: all of this holds for every `Finder` that is `Exact`.
-/

namespace Devirt

/-! ## Paths into a set -/

/-- A path into a set passes an edge that enters the set. -/
theorem Reaches.enters {α : Type} {edges : List (α × α)} {s : α → Prop} {x y : α}
    (h : Reaches edges x y) (hx : ¬ s x) (hy : s y) :
    ∃ u v, (u, v) ∈ edges ∧ ¬ s u ∧ s v ∧ Reaches edges x u := by
  induction h with
  | refl => exact absurd hy hx
  | @head x z y edge path ih =>
    by_cases hz : s z
    · exact ⟨x, z, edge, hx, hz, .refl x⟩
    · obtain ⟨u, v, huv, hu, hv, hpath⟩ := ih hz hy
      exact ⟨u, v, huv, hu, hv, .head edge hpath⟩

/-- A flow into a component from outside comes from a later component. -/
theorem AreComponents.enters_from_later {edges : List (Nat × Nat)} {nodes : List Nat}
    {before after : List (List Nat)} {part : List Nat}
    (h : AreComponents edges nodes (before ++ part :: after)) {u v : Nat} (hnode : u ∈ nodes)
    (hedge : (u, v) ∈ edges) (hu : u ∉ part) (hv : v ∈ part) : u ∈ after.flatten := by
  have hmem := (h.mem_iff u).mpr hnode
  rw [List.flatten_append, List.flatten_cons, List.mem_append, List.mem_append] at hmem
  rcases hmem with hbefore | hpart | hafter
  · -- an earlier component leads to components before it only, and `part` comes behind it
    obtain ⟨q, hq, huq⟩ := List.mem_flatten.mp hbefore
    obtain ⟨s, t, rfl⟩ := List.append_of_mem hq
    have hvq := h.leads s q (t ++ part :: after) (by simp) u huq v hedge
    have hnodup := h.nodup
    simp only [List.flatten_append, List.flatten_cons, List.flatten_nil, List.append_nil,
      List.append_assoc] at hnodup hvq
    have hvlater : v ∈ t.flatten ++ (part ++ after.flatten) := by simp [hv]
    rw [← List.append_assoc] at hnodup
    exact absurd rfl ((List.nodup_append.mp hnodup).2.2 v hvq v hvlater)
  · exact absurd hpart hu
  · exact hafter

/-! ## The classes of a component -/

namespace FlowGraph

theorem getElem?_foldl_insert (part : List Nat) (placed : Std.TreeMap Nat Placement)
    (x : Placement) (i : Nat) :
    (part.foldl (fun placed i => placed.insert i x) placed)[i]? =
      if i ∈ part then some x else placed[i]? := by
  induction part generalizing placed with
  | nil => simp
  | cons j rest ih =>
    rw [List.foldl_cons, ih, Std.TreeMap.getElem?_insert]
    by_cases hrest : i ∈ rest
    · simp [hrest]
    · by_cases hj : j = i
      · simp [hj]
      · simp [hrest, hj, Ne.symm hj]

theorem mem_foldl_iff {α β : Type} {f : List β → α → List β} {c : β} {P : α → Prop}
    (h : ∀ tags x, c ∈ f tags x ↔ c ∈ tags ∨ P x) (xs : List α) (tags : List β) :
    c ∈ xs.foldl f tags ↔ c ∈ tags ∨ ∃ x ∈ xs, P x := by
  induction xs generalizing tags with
  | nil => simp
  | cons x xs ih => simp [ih, h, or_assoc]

/-- The classes of a component: those created in its places, and those of places that flow into one
of them and have been placed. -/
theorem mem_classesOf {seeds : List (Nat × String)} {a : Arrows Nat}
    {placed : Std.TreeMap Nat Placement} {part : List Nat} {c : String} :
    c ∈ classesOf (targetTable seeds) a.flip placed part ↔
      ∃ i ∈ part, (i, c) ∈ seeds ∨
        ∃ j, (j, i) ∈ a.edges ∧ ∃ p, placed[j]? = some p ∧ c ∈ p.tags := by
  have hseeds : ∀ i, c ∈ (targetTable seeds).getD i [] ↔ (i, c) ∈ seeds := by
    intro i
    rw [getD_targetTable, mem_successors]
  have hinflow : ∀ i j, j ∈ a.flip.next i ↔ (j, i) ∈ a.edges := by
    intro i j
    rw [Arrows.mem_next]
    simp [Arrows.flip, Arrows.ofList]
  unfold classesOf
  rw [mem_foldl_iff (P := fun i => (i, c) ∈ seeds ∨
    ∃ j, (j, i) ∈ a.edges ∧ ∃ p, placed[j]? = some p ∧ c ∈ p.tags)]
  · simp
  · intro tags i
    rw [mem_foldl_iff (P := fun j => ∃ p, placed[j]? = some p ∧ c ∈ p.tags)]
    · simp only [Ordered.mem_union, Ordered.mem_ofList, hseeds, hinflow, or_assoc, or_left_comm]
    · intro tags j
      cases hj : placed[j]? with
      | none => simp
      | some p => simp [or_comm]

/-! ## Placing components -/

/-- The places of these components have been placed, each in its component and with the classes of
all places that lead to it, and no other place has classes of others. -/
structure PlacedRight (edges : List (Nat × Nat)) (seeds : List (Nat × String))
    (parts : List (List Nat × Nat)) (placed : Std.TreeMap Nat Placement) : Prop where
  found : ∀ part number, (part, number) ∈ parts → ∀ i ∈ part,
    ∃ tags, placed[i]? = some ⟨number, tags⟩ ∧
      ∀ c, (∃ j, (j, c) ∈ seeds ∧ Reaches edges j i) → c ∈ tags
  sound : ∀ i p, placed[i]? = some p → ∀ c ∈ p.tags, ∃ j, (j, c) ∈ seeds ∧ Reaches edges j i

section Placing

variable {a : Arrows Nat} {nodes : List Nat} {seeds : List (Nat × String)} {before : List (List Nat)}
  {part : List Nat} {number : Nat} {rest : List (List Nat × Nat)} {placed : Std.TreeMap Nat Placement}
  (joins : ∀ e ∈ a.edges, e.1 ∈ nodes ∧ e.2 ∈ nodes)

include joins

/-- The classes of the next component to be placed are those of all places that lead to it. -/
theorem PlacedRight.mem_classesOf_iff (h : PlacedRight a.edges seeds rest placed)
    (hparts : AreComponents a.edges nodes (before ++ part :: rest.map Prod.fst)) {i : Nat}
    (hi : i ∈ part) {c : String} :
    c ∈ classesOf (targetTable seeds) a.flip placed part ↔
      ∃ j, (j, c) ∈ seeds ∧ Reaches a.edges j i := by
  obtain ⟨x, -, hx⟩ := hparts.whole part (by simp)
  have hmutual : ∀ k ∈ part, Mutual a.edges k i :=
    fun k hk => ((hx k).mp hk).symm.trans ((hx i).mp hi)
  rw [mem_classesOf]
  constructor
  · rintro ⟨k, hk, hseed | ⟨j, hedge, p, hp, hc⟩⟩
    · exact ⟨k, hseed, (hmutual k hk).1⟩
    · obtain ⟨j', hseed, hreach⟩ := h.sound j p hp c hc
      exact ⟨j', hseed, (hreach.tail hedge).trans (hmutual k hk).1⟩
  · rintro ⟨j, hseed, hreach⟩
    by_cases hj : j ∈ part
    · exact ⟨j, hj, .inl hseed⟩
    · -- the flow enters the component from a place that has been placed
      obtain ⟨u, v, hedge, hu, hv, hju⟩ := hreach.enters (s := (· ∈ part)) hj hi
      obtain ⟨q, hq, huq⟩ := List.mem_flatten.mp
        (hparts.enters_from_later (joins _ hedge).1 hedge hu hv)
      obtain ⟨⟨_, k⟩, hqk, rfl⟩ := List.mem_map.mp hq
      obtain ⟨tags, htags, hcomplete⟩ := h.found _ k hqk u huq
      exact ⟨v, hv, .inr ⟨u, hedge, _, htags, hcomplete c ⟨j, hseed, hju⟩⟩⟩

/-- Placing one more component, the last one that has not been placed. -/
theorem PlacedRight.place (h : PlacedRight a.edges seeds rest placed)
    (hparts : AreComponents a.edges nodes (before ++ part :: rest.map Prod.fst)) :
    PlacedRight a.edges seeds ((part, number) :: rest)
      (part.foldl (fun q i =>
        q.insert i ⟨number, classesOf (targetTable seeds) a.flip placed part⟩) placed) := by
  have htags := fun {i} (hi : i ∈ part) {c} => PlacedRight.mem_classesOf_iff joins h hparts hi (c := c)
  have hother : ∀ q k, (q, k) ∈ rest → ∀ i ∈ q, i ∉ part := by
    intro q k hq i hi hpart
    have hnodup := hparts.nodup
    rw [List.flatten_append, List.flatten_cons] at hnodup
    have hlater : i ∈ (rest.map Prod.fst).flatten :=
      List.mem_flatten.mpr ⟨q, List.mem_map_of_mem hq, hi⟩
    have hdisjoint := (List.nodup_append.mp (List.nodup_append.mp hnodup).2.1).2.2
    exact hdisjoint i hpart i hlater rfl
  constructor
  · intro q k hq i hi
    rw [getElem?_foldl_insert]
    rcases List.mem_cons.mp hq with heq | hq
    · cases heq
      rw [if_pos hi]
      exact ⟨_, rfl, fun c hc => (htags hi).mpr hc⟩
    · rw [if_neg (hother q k hq i hi)]
      exact h.found q k hq i hi
  · intro i p hp c hc
    rw [getElem?_foldl_insert] at hp
    split at hp
    · rename_i hi
      cases hp
      exact (htags hi).mp hc
    · exact h.sound i p hp c hc

theorem placedRight_placeAll {parts : List (List Nat)} (hparts : AreComponents a.edges nodes parts)
    (seeds : List (Nat × String)) :
    PlacedRight a.edges seeds parts.zipIdx (placeAll (targetTable seeds) a.flip parts) := by
  have hsuffix : ∀ rest, rest <:+ parts.zipIdx →
      PlacedRight a.edges seeds rest (rest.foldr (fun x placed =>
        let tags := classesOf (targetTable seeds) a.flip placed x.1
        x.1.foldl (fun placed i => placed.insert i ⟨x.2, tags⟩) placed) ∅) := by
    intro rest
    induction rest with
    | nil => exact fun _ => ⟨by simp, by simp⟩
    | cons x rest ih =>
      rintro ⟨before, hbefore⟩
      have hsplit : before.map Prod.fst ++ x.1 :: rest.map Prod.fst = parts := by
        simpa using congrArg (List.map Prod.fst) hbefore
      exact (ih ⟨before ++ [x], by simpa using hbefore⟩).place joins (hsplit.symm ▸ hparts)
  exact hsuffix _ (List.suffix_refl _)

end Placing

/-! ## Tags -/

variable {g : FlowGraph} {find : Finder}

theorem Numbered.joins (h : g.Numbered) :
    ∀ e ∈ g.flows.edges, e.1 ∈ List.range g.nodes.size ∧ e.2 ∈ List.range g.nodes.size := by
  intro e he
  simpa using h.edges e (Roster.mem_toList.mp he)

theorem Numbered.areComponents (h : g.Numbered) (hfind : find.Exact) :
    AreComponents g.flows.edges (List.range g.nodes.size) (g.parts find) :=
  hfind g.flows _ List.nodup_range h.joins

theorem Numbered.reaches_iff (h : g.Numbered) {s n : FlowNode} {i j : Nat}
    (hs : g.index? s = some j) (hn : g.index? n = some i) :
    Reaches g.flows.edges j i ↔ Relation.ReflTransGen g.HasFlow s n := by
  constructor
  · intro hpath
    induction hpath generalizing s with
    | refl =>
      rw [Roster.index?_inj hs hn]
    | @head j k i edge path ih =>
      have hedge : (j, k) ∈ g.edges := Roster.mem_toList.mp edge
      obtain ⟨x, hx⟩ := Roster.exists_of_lt (h.edges _ hedge).2
      exact .head ⟨j, k, hs, hx, hedge⟩ (ih hx hn)
  · intro hpath
    induction hpath using Relation.ReflTransGen.head_induction_on generalizing j with
    | refl =>
      cases hs.symm.trans hn
      exact .refl _
    | head hflow path ih =>
      obtain ⟨j', k, hj', hk, hedge⟩ := hflow
      cases hs.symm.trans hj'
      exact .head (Roster.mem_toList.mpr hedge) (ih hk)

/-- Where a propagation puts a place: into its component, with the classes that lead to it. -/
theorem exists_placement_propagate (h : g.Numbered) (hfind : find.Exact) {n : FlowNode} {i : Nat}
    (hi : g.index? n = some i) :
    ∃ part number tags, (part, number) ∈ (g.parts find).zipIdx ∧ i ∈ part ∧
      (g.propagate find).placement? n = some ⟨number, tags⟩ ∧
      ∀ c, c ∈ tags ↔ ∃ j, (j, c) ∈ g.seeds ∧ Reaches g.flows.edges j i := by
  have hparts := h.areComponents hfind
  have hright := placedRight_placeAll h.joins hparts g.seeds.toList
  have hlt : i < g.nodes.size := Roster.index?_lt hi
  obtain ⟨part, hpart, hmem⟩ := List.mem_flatten.mp ((hparts.mem_iff i).mpr (List.mem_range.mpr hlt))
  obtain ⟨number, hnumber⟩ := List.getElem?_of_mem hpart
  have hzip : (part, number) ∈ (g.parts find).zipIdx := List.mem_zipIdx_iff_getElem?.mpr hnumber
  obtain ⟨tags, htags, hcomplete⟩ := hright.found part number hzip i hmem
  refine ⟨part, number, tags, hzip, hmem, ?_, fun c => ?_⟩
  · have hindex : (g.propagate find).index? n = some i := hi
    rw [placement?, hindex, Option.bind_some]
    simp [propagate, hlt, Std.TreeMap.getD_eq_getD_getElem?, htags]
  · refine ⟨fun hc => ?_, fun hc => ?_⟩
    · obtain ⟨j, hseed, hreach⟩ := hright.sound i _ htags c hc
      exact ⟨j, Roster.mem_toList.mp hseed, hreach⟩
    · obtain ⟨j, hseed, hreach⟩ := hc
      exact hcomplete c ⟨j, Roster.mem_toList.mpr hseed, hreach⟩

/-- After a propagation a place has the classes created in the places that lead to it by flows. -/
theorem mem_tags_propagate (h : g.Numbered) (hfind : find.Exact) {n : FlowNode} {c : String} :
    c ∈ (g.propagate find).tags n ↔
      n ∈ g.nodes ∧ ∃ s, g.HasSeed s c ∧ Relation.ReflTransGen g.HasFlow s n := by
  constructor
  · intro hc
    cases hi : g.index? n with
    | none =>
      have hnone : (g.propagate find).index? n = none := hi
      simp [tags, placement?, hnone] at hc
    | some i =>
      obtain ⟨_, _, tags', -, -, hplaced, htags⟩ := exists_placement_propagate h hfind hi
      rw [tags, hplaced] at hc
      obtain ⟨j, hseed, hreach⟩ := (htags c).mp hc
      obtain ⟨s, hs⟩ := Roster.exists_of_lt (h.seeds _ hseed)
      exact ⟨Roster.mem_of_index? hi, s, ⟨j, hs, hseed⟩, (h.reaches_iff hs hi).mp hreach⟩
  · rintro ⟨hn, s, ⟨j, hs, hseed⟩, hpath⟩
    obtain ⟨i, hi⟩ := Roster.exists_index? hn
    obtain ⟨_, _, tags', -, -, hplaced, htags⟩ := exists_placement_propagate h hfind hi
    rw [tags, hplaced]
    exact (htags c).mpr ⟨j, hseed, (h.reaches_iff hs hi).mpr hpath⟩

theorem Holds.propagate {S : Set Contribution} (h : g.Holds S) (find : Finder) :
    (g.propagate find).Holds S where
  toNumbered := ⟨h.edges, h.seeds, by simp [FlowGraph.propagate]⟩
  node_iff := h.node_iff
  seed_iff := h.seed_iff
  flow_iff := h.flow_iff

theorem Holds.mem_tags_propagate {S : Set Contribution} (h : g.Holds S) (hfind : find.Exact)
    {n : FlowNode} {c : String} :
    c ∈ (g.propagate find).tags n ↔ (∃ x ∈ S, x.Mentions n) ∧
      ∃ s, .seed s c ∈ S ∧ Relation.ReflTransGen (fun a b => .edge a b ∈ S) s n := by
  have hflow : g.HasFlow = fun a b => .edge a b ∈ S := by
    funext a b
    exact propext (h.flow_iff a b)
  simp only [FlowGraph.mem_tags_propagate h.toNumbered hfind, h.node_iff, h.seed_iff, hflow]

/-- What something flows into is mentioned, so a place has the classes that flow into it. -/
theorem Holds.mem_tags_iff {S : Set Contribution} (h : g.Holds S) (hfind : find.Exact)
    {n : FlowNode} {c : String} :
    c ∈ (g.propagate find).tags n ↔
      ∃ s, .seed s c ∈ S ∧ Relation.ReflTransGen (fun a b => .edge a b ∈ S) s n := by
  rw [h.mem_tags_propagate hfind, and_iff_right_iff_imp]
  rintro ⟨s, hseed, hpath⟩
  cases hpath with
  | refl => exact ⟨.seed n c, hseed, rfl⟩
  | tail _ hflow => exact ⟨_, hflow, .inr rfl⟩

/-! ## The order of tags -/

theorem increasing_classesOf {seeds : Std.TreeMap Nat (List String)} {inflow : Arrows Nat}
    {placed : Std.TreeMap Nat Placement}
    (h : ∀ (i : Nat) (x : Placement), placed[i]? = some x → Ordered.Increasing x.tags)
    (part : List Nat) : Ordered.Increasing (classesOf seeds inflow placed part) := by
  refine List.foldlRecOn part _ Ordered.increasing_nil fun tags htags i _ => ?_
  refine List.foldlRecOn (inflow.next i) _
    (Ordered.increasing_union (Ordered.increasing_ofList _) htags) fun tags htags j _ => ?_
  cases hj : placed[j]? with
  | none => exact htags
  | some x => exact Ordered.increasing_union (h j x hj) htags

theorem increasing_placeAll (seeds : Std.TreeMap Nat (List String)) (inflow : Arrows Nat)
    (parts : List (List Nat)) :
    ∀ (i : Nat) (x : Placement), (placeAll seeds inflow parts)[i]? = some x →
      Ordered.Increasing x.tags := by
  unfold placeAll
  induction parts.zipIdx with
  | nil => simp
  | cons y rest ih =>
    obtain ⟨part, number⟩ := y
    intro i x hx
    dsimp only [List.foldr_cons] at hx
    rw [getElem?_foldl_insert] at hx
    split at hx
    · cases hx
      exact increasing_classesOf ih part
    · exact ih i x hx

/-- After a propagation the classes of a place are in order. -/
theorem increasing_tags_propagate (g : FlowGraph) (find : Finder) (n : FlowNode) :
    Ordered.Increasing ((g.propagate find).tags n) := by
  unfold tags
  split
  · rename_i x hx
    obtain ⟨i, -, hi⟩ := Option.bind_eq_some_iff.mp hx
    obtain ⟨hlt, rfl⟩ := Array.getElem?_eq_some_iff.mp hi
    simp only [propagate, List.getElem_toArray, List.getElem_map, List.getElem_range,
      Std.TreeMap.getD_eq_getD_getElem?]
    cases hplaced : (placeAll (targetTable g.seeds.toList) g.flows.flip (g.parts find))[i]? with
    | none => exact Ordered.increasing_nil
    | some y => exact increasing_placeAll _ _ _ i y hplaced
  · exact Ordered.increasing_nil

/-! ## Histories -/

inductive Step where
  | add (c : Contribution)
  | propagate
deriving DecidableEq, Repr

/-- A graph after one step, where components are found by `find`. -/
def step (find : Finder) (g : FlowGraph) : Step → FlowGraph
  | .add c => g.add c
  | .propagate => g.propagate find

def run (find : Finder) (steps : List Step) : FlowGraph := steps.foldl (step find) {}

theorem tags_empty (n : FlowNode) : ({} : FlowGraph).tags n = [] := by
  have hplaced : ({} : FlowGraph).placement? n = none := by
    simp [placement?]
  rw [tags, hplaced]

theorem run_concat (find : Finder) (steps : List Step) (s : Step) :
    run find (steps ++ [s]) = (run find steps).step find s := by
  simp [run]

theorem holds_run (find : Finder) (steps : List Step) :
    (run find steps).Holds {c | .add c ∈ steps} := by
  induction steps using List.reverseRecOn with
  | nil =>
    have hset : {c | Step.add c ∈ ([] : List Step)} = ∅ := by simp
    rw [hset]
    exact holds_empty
  | append_singleton steps s ih =>
    rw [run_concat]
    cases s with
    | add c =>
      have hset : {x | Step.add x ∈ steps ++ [.add c]} = insert c {x | Step.add x ∈ steps} := by
        ext x
        simp [or_comm]
      rw [hset]
      exact ih.add c
    | propagate =>
      have hset : {x | Step.add x ∈ steps ++ [.propagate]} = {x | Step.add x ∈ steps} := by
        ext x
        simp
      rw [hset]
      exact ih.propagate find

/-- What is added behind a history shows in no answer. -/
theorem tags_run_append_adds (find : Finder) (steps : List Step) (later : List Contribution)
    (n : FlowNode) : (run find (steps ++ later.map .add)).tags n = (run find steps).tags n := by
  induction later using List.reverseRecOn with
  | nil => simp
  | append_singleton later c ih =>
    rw [List.map_append, ← List.append_assoc, List.map_singleton, run_concat, ← ih]
    exact tags_add (holds_run find _).toNumbered c n

theorem exists_adds {steps : List Step} (h : .propagate ∉ steps) :
    ∃ added : List Contribution, steps = added.map .add := by
  induction steps with
  | nil => exact ⟨[], rfl⟩
  | cons s rest ih =>
    obtain ⟨added, rfl⟩ := ih (fun hm => h (List.mem_cons_of_mem _ hm))
    cases s with
    | add c => exact ⟨c :: added, rfl⟩
    | propagate => exact absurd List.mem_cons_self h

theorem tags_run_of_not_propagated (find : Finder) {steps : List Step} (h : .propagate ∉ steps)
    (n : FlowNode) : (run find steps).tags n = [] := by
  obtain ⟨added, rfl⟩ := exists_adds h
  have hstart := tags_run_append_adds find [] added n
  rw [List.nil_append] at hstart
  rw [hstart]
  exact tags_empty n

theorem exists_last_propagate {steps : List Step} (h : .propagate ∈ steps) :
    ∃ before after, steps = before ++ .propagate :: after ∧ .propagate ∉ after := by
  obtain ⟨after, before, hsplit, hlast⟩ := List.eq_append_cons_of_mem (List.mem_reverse.mpr h)
  refine ⟨before.reverse, after.reverse, ?_, by simpa using hlast⟩
  simpa using congrArg List.reverse hsplit

theorem mem_tags_run_of_last (hfind : find.Exact) {before after : List Step}
    (h : .propagate ∉ after) {n : FlowNode} {c : String} :
    c ∈ (run find (before ++ .propagate :: after)).tags n ↔
      (∃ x, .add x ∈ before ∧ x.Mentions n) ∧ ∃ s, .add (.seed s c) ∈ before ∧
        Relation.ReflTransGen (fun a b => .add (.edge a b) ∈ before) s n := by
  obtain ⟨added, rfl⟩ := exists_adds h
  rw [List.append_cons, tags_run_append_adds, run_concat]
  exact (holds_run find before).mem_tags_propagate hfind

end FlowGraph

/-- Whichever way components are found, after any history the classes of a place are those created,
before the last propagation, in places from which flows of that time lead to it, if it was a place then.
What was added since shows in no answer. -/
theorem tags_of_last_propagation (find : Finder) (hfind : find.Exact) (steps : List FlowGraph.Step)
    (n : FlowNode) :
    (∀ c, c ∈ (FlowGraph.run find steps).tags n ↔
      ∃ before after, steps = before ++ .propagate :: after ∧ .propagate ∉ after ∧
        (∃ x, .add x ∈ before ∧ x.Mentions n) ∧ ∃ s, .add (.seed s c) ∈ before ∧
          Relation.ReflTransGen (fun a b => .add (.edge a b) ∈ before) s n) ∧
    ∀ added : List Contribution,
      (FlowGraph.run find (steps ++ added.map .add)).tags n = (FlowGraph.run find steps).tags n := by
  refine ⟨fun c => ⟨fun hc => ?_, ?_⟩, fun added => FlowGraph.tags_run_append_adds find steps added n⟩
  · by_cases hpropagated : .propagate ∈ steps
    · obtain ⟨before, after, rfl, hlast⟩ := FlowGraph.exists_last_propagate hpropagated
      exact ⟨before, after, rfl, hlast, (FlowGraph.mem_tags_run_of_last hfind hlast).mp hc⟩
    · rw [FlowGraph.tags_run_of_not_propagated find hpropagated] at hc
      cases hc
  · rintro ⟨before, after, rfl, hlast, hflows⟩
    exact (FlowGraph.mem_tags_run_of_last hfind hlast).mpr hflows

/-- Two places that flow into each other, and a place behind them. One class is created before the
propagation and one after it. -/
def loopSteps : List FlowGraph.Step :=
  [.add (.seed (.field "A" "x") "C"), .add (.edge (.field "A" "x") (.field "A" "y")),
    .add (.edge (.field "A" "y") (.field "A" "x")), .add (.edge (.field "A" "y") (.field "A" "z")),
    .propagate, .add (.seed (.field "A" "x") "D")]

/-- The class created before the propagation comes to the place behind, and what is added later does not
show. -/
theorem tags_of_last_propagation_loop :
    Finder.Exact components ∧
      "C" ∈ (FlowGraph.run components loopSteps).tags (.field "A" "z") ∧
      (FlowGraph.run components (loopSteps ++ [.add (.seed (.field "A" "z") "E")])).tags
        (.field "A" "z") = (FlowGraph.run components loopSteps).tags (.field "A" "z") := by
  obtain ⟨hmem, hadded⟩ :=
    tags_of_last_propagation components exact_components loopSteps (.field "A" "z")
  refine ⟨exact_components, (hmem "C").mpr ?_, hadded [.seed (.field "A" "z") "E"]⟩
  refine ⟨loopSteps.take 4, loopSteps.drop 5, rfl, by decide,
    ⟨.edge (.field "A" "y") (.field "A" "z"), by decide, .inr rfl⟩, .field "A" "x", by decide, ?_⟩
  exact .head (b := .field "A" "y") (by decide) (.single (by decide))

example : (FlowGraph.run components loopSteps).tags (.field "A" "z") = ["C"] := by cbv

end Devirt
