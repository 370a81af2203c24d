import Devirt.FlowGraph.Statements
import Mathlib.Data.Set.Insert

/-!
# What a flow graph holds

A flow graph names places by numbers. Seen from the places, it holds contributions.

* `Roster.index?_iff_of_isPrefix` : later entries change no number that has been given;
* `FlowGraph.HasSeed`, `FlowGraph.HasFlow` : classes created in places and flows between them;
* `FlowGraph.Numbered` : flows, classes and placements name places that are there;
* `FlowGraph.Holds g S` : the graph holds the contributions `S` and nothing else
  (`Holds.add`, `Holds.addAll`);
* `tags_add` : what is added shows in no answer before the next propagation.
-/

namespace Devirt

/-! ## Numbers -/

namespace Roster

variable {α : Type} [Ord α] [Std.TransOrd α] [Std.LawfulEqOrd α] {r r' : Roster α} {x y : α}
  {i : Nat}

theorem index?_lt (h : r.index? x = some i) : i < r.size := by
  rw [index?_eq_some_iff] at h
  rw [size_eq]
  exact (List.getElem?_eq_some_iff.mp h).1

theorem index?_inj (hx : r.index? x = some i) (hy : r.index? y = some i) : x = y := by
  rw [index?_eq_some_iff] at hx hy
  exact Option.some_inj.mp (hx.symm.trans hy)

theorem mem_of_index? (h : r.index? x = some i) : x ∈ r :=
  mem_toList.mp (List.mem_of_getElem? (index?_eq_some_iff.mp h))

theorem exists_index? (h : x ∈ r) : ∃ i, r.index? x = some i := by
  obtain ⟨i, hi⟩ := List.getElem?_of_mem (mem_toList.mpr h)
  exact ⟨i, index?_eq_some_iff.mpr hi⟩

theorem not_mem_of_index? (h : r.index? x = none) : x ∉ r := by
  intro hx
  obtain ⟨i, hi⟩ := exists_index? hx
  cases h.symm.trans hi

theorem exists_of_lt (h : i < r.size) : ∃ x, r.index? x = some i := by
  rw [size_eq] at h
  exact ⟨r.toList[i], index?_eq_some_iff.mpr (List.getElem?_eq_getElem h)⟩

theorem index?_iff_of_isPrefix (h : r.toList <+: r'.toList) (hi : i < r.size) :
    r'.index? x = some i ↔ r.index? x = some i := by
  obtain ⟨later, hlater⟩ := h
  rw [size_eq] at hi
  rw [index?_eq_some_iff, index?_eq_some_iff, ← hlater, List.getElem?_append_left hi]

theorem size_le_of_isPrefix (h : r.toList <+: r'.toList) : r.size ≤ r'.size := by
  rw [size_eq, size_eq]
  exact h.length_le

theorem index?_insert_self (r : Roster α) (x : α) :
    (r.insert x).index? x = some ((r.index? x).getD r.size) := by
  cases hx : r.index? x with
  | some i => exact (index?_iff_of_isPrefix (prefix_insert r x) (index?_lt hx)).mpr hx
  | none =>
    rw [index?_eq_some_iff, toList_insert, if_neg (not_mem_of_index? hx), Option.getD_none, size_eq]
    exact List.getElem?_concat_length

theorem index?_insert_of_not_mem (h : x ∉ r) (y : α) :
    (r.insert x).index? y = if compare x y = .eq then some r.size else r.index? y := by
  have hnew : ¬ r.places.contains x = true := fun hx => h (contains_iff.mp hx)
  unfold insert index?
  rw [dif_neg hnew]
  exact Std.TreeMap.getElem?_insert

theorem insert_of_mem (h : x ∈ r) : r.insert x = r := by
  apply Roster.ext_toList
  rw [Roster.toList_insert, if_pos h]

end Roster

/-! ## Places -/

def Contribution.Mentions : Contribution → FlowNode → Prop
  | .node n, x => x = n
  | .seed n _, x => x = n
  | .edge source target, x => x = source ∨ x = target

namespace FlowGraph

def HasSeed (g : FlowGraph) (n : FlowNode) (name : String) : Prop :=
  ∃ i, g.index? n = some i ∧ (i, name) ∈ g.seeds

def HasFlow (g : FlowGraph) (source target : FlowNode) : Prop :=
  ∃ i j, g.index? source = some i ∧ g.index? target = some j ∧ (i, j) ∈ g.edges

/-- Flows, classes and placements name places that are there. -/
structure Numbered (g : FlowGraph) : Prop where
  edges : ∀ e ∈ g.edges, e.1 < g.nodes.size ∧ e.2 < g.nodes.size
  seeds : ∀ e ∈ g.seeds, e.1 < g.nodes.size
  placements : g.placements.size ≤ g.nodes.size

variable {g g' : FlowGraph} {n : FlowNode}

theorem index?_addNode (g : FlowGraph) (n : FlowNode) :
    (g.addNode n).index? n = some (g.number n) := Roster.index?_insert_self g.nodes n

theorem number_lt (g : FlowGraph) (n : FlowNode) : g.number n < (g.addNode n).nodes.size :=
  Roster.index?_lt (index?_addNode g n)

theorem addNode_of_mem (h : n ∈ g.nodes) : g.addNode n = g := by
  rw [addNode, Roster.insert_of_mem h]

theorem number_of_index? {i : Nat} (h : g.index? n = some i) : g.number n = i := by
  rw [number, h, Option.getD_some]

/-! ## Growing -/

theorem tags_of_isPrefix (h : g.Numbered) (hnodes : g.nodes.toList <+: g'.nodes.toList)
    (hplaced : g'.placements = g.placements) (n : FlowNode) : g'.tags n = g.tags n := by
  have hplacement : g'.placement? n = g.placement? n := by
    apply Option.ext
    intro p
    simp only [placement?, hplaced, Option.bind_eq_some_iff]
    refine exists_congr fun i => and_congr_left fun hp => ?_
    have hi : i < g.placements.size := (Array.getElem?_eq_some_iff.mp hp).1
    exact Roster.index?_iff_of_isPrefix hnodes (Nat.lt_of_lt_of_le hi h.placements)
  rw [tags, tags, hplacement]

theorem hasSeed_of_isPrefix (h : g.Numbered) (hnodes : g.nodes.toList <+: g'.nodes.toList)
    {n : FlowNode} {name : String} :
    (∃ i, g'.index? n = some i ∧ (i, name) ∈ g.seeds) ↔ g.HasSeed n name := by
  refine exists_congr fun i => and_congr_left fun hs => ?_
  exact Roster.index?_iff_of_isPrefix hnodes (h.seeds _ hs)

theorem hasFlow_of_isPrefix (h : g.Numbered) (hnodes : g.nodes.toList <+: g'.nodes.toList)
    {source target : FlowNode} :
    (∃ i j, g'.index? source = some i ∧ g'.index? target = some j ∧ (i, j) ∈ g.edges) ↔
      g.HasFlow source target := by
  refine exists_congr fun i => exists_congr fun j => ?_
  constructor
  · rintro ⟨hs, ht, he⟩
    exact ⟨(Roster.index?_iff_of_isPrefix hnodes (h.edges _ he).1).mp hs,
      (Roster.index?_iff_of_isPrefix hnodes (h.edges _ he).2).mp ht, he⟩
  · rintro ⟨hs, ht, he⟩
    exact ⟨(Roster.index?_iff_of_isPrefix hnodes (h.edges _ he).1).mpr hs,
      (Roster.index?_iff_of_isPrefix hnodes (h.edges _ he).2).mpr ht, he⟩

theorem prefix_add (g : FlowGraph) (c : Contribution) :
    g.nodes.toList <+: (g.add c).nodes.toList := by
  cases c with
  | node n => exact Roster.prefix_insert g.nodes n
  | seed n name => exact Roster.prefix_insert g.nodes n
  | edge source target =>
    exact (Roster.prefix_insert g.nodes source).trans (Roster.prefix_insert _ target)

theorem placements_add (g : FlowGraph) (c : Contribution) :
    (g.add c).placements = g.placements := by cases c <;> rfl

/-- What is added shows in no answer before the next propagation. -/
theorem tags_add (h : g.Numbered) (c : Contribution) (n : FlowNode) :
    (g.add c).tags n = g.tags n := tags_of_isPrefix h (prefix_add g c) (placements_add g c) n

/-! ## Contributions -/

/-- A graph holds these contributions and nothing else. -/
structure Holds (g : FlowGraph) (S : Set Contribution) : Prop extends g.Numbered where
  node_iff : ∀ n, n ∈ g.nodes ↔ ∃ c ∈ S, c.Mentions n
  seed_iff : ∀ n name, g.HasSeed n name ↔ .seed n name ∈ S
  flow_iff : ∀ source target, g.HasFlow source target ↔ .edge source target ∈ S

theorem holds_empty : ({} : FlowGraph).Holds ∅ := by
  have hnodes : ∀ n, n ∉ ({} : FlowGraph).nodes := fun n => Roster.not_mem_empty
  constructor
  · exact ⟨fun e he => absurd he Roster.not_mem_empty, fun e he => absurd he Roster.not_mem_empty,
      Nat.zero_le _⟩
  · simp [hnodes]
  · intro n name
    exact ⟨fun ⟨i, _, hs⟩ => absurd hs Roster.not_mem_empty, fun h => absurd h (Set.notMem_empty _)⟩
  · intro source target
    exact ⟨fun ⟨i, j, _, _, he⟩ => absurd he Roster.not_mem_empty,
      fun h => absurd h (Set.notMem_empty _)⟩

theorem numbered_of_isPrefix (h : g.Numbered) (hnodes : g.nodes.toList <+: g'.nodes.toList)
    (hedges : ∀ e ∈ g'.edges, e ∈ g.edges ∨ e.1 < g'.nodes.size ∧ e.2 < g'.nodes.size)
    (hseeds : ∀ e ∈ g'.seeds, e ∈ g.seeds ∨ e.1 < g'.nodes.size)
    (hplaced : g'.placements = g.placements) : g'.Numbered := by
  have hsize := Roster.size_le_of_isPrefix hnodes
  refine ⟨fun e he => ?_, fun e he => ?_, by rw [hplaced]; exact h.placements.trans hsize⟩
  · rcases hedges e he with he | he
    · exact ⟨(h.edges e he).1.trans_le hsize, (h.edges e he).2.trans_le hsize⟩
    · exact he
  · rcases hseeds e he with he | he
    · exact (h.seeds e he).trans_le hsize
    · exact he

theorem Numbered.add (h : g.Numbered) (c : Contribution) : (g.add c).Numbered := by
  refine numbered_of_isPrefix h (prefix_add g c) (fun e he => ?_) (fun e he => ?_)
    (placements_add g c)
  · cases c with
    | node n => exact .inl he
    | seed n name => exact .inl he
    | edge source target =>
      rcases Roster.mem_insert.mp he with rfl | he
      · have hgrows := Roster.prefix_insert (g.addNode source).nodes target
        exact .inr ⟨(number_lt g source).trans_le (Roster.size_le_of_isPrefix hgrows),
          number_lt (g.addNode source) target⟩
      · exact .inl he
  · cases c with
    | node n => exact .inl he
    | seed n name =>
      rcases Roster.mem_insert.mp he with rfl | he
      · exact .inr (number_lt g n)
      · exact .inl he
    | edge source target => exact .inl he

theorem mem_nodes_add {c : Contribution} : n ∈ (g.add c).nodes ↔ c.Mentions n ∨ n ∈ g.nodes := by
  cases c with
  | node m => exact Roster.mem_insert
  | seed m name => exact Roster.mem_insert
  | edge source target =>
    show n ∈ ((g.nodes.insert source).insert target) ↔ (n = source ∨ n = target) ∨ n ∈ g.nodes
    rw [Roster.mem_insert, Roster.mem_insert, or_left_comm, or_assoc]

theorem hasSeed_add (h : g.Numbered) {c : Contribution} {name : String} :
    (g.add c).HasSeed n name ↔ c = .seed n name ∨ g.HasSeed n name := by
  cases c with
  | node m => exact (hasSeed_of_isPrefix h (prefix_add g (.node m))).trans (by simp)
  | edge source target =>
    exact (hasSeed_of_isPrefix h (prefix_add g (.edge source target))).trans (by simp)
  | seed m name' =>
    rw [← hasSeed_of_isPrefix h (prefix_add g (.seed m name'))]
    have hm : (g.add (.seed m name')).index? m = some (g.number m) := index?_addNode g m
    constructor
    · rintro ⟨i, hi, hs⟩
      rcases Roster.mem_insert.mp hs with heq | hs
      · cases heq
        rw [Roster.index?_inj hi hm]
        exact .inl rfl
      · exact .inr ⟨i, hi, hs⟩
    · rintro (heq | ⟨i, hi, hs⟩)
      · cases heq
        exact ⟨_, hm, Roster.mem_insert.mpr (.inl rfl)⟩
      · exact ⟨i, hi, Roster.mem_insert.mpr (.inr hs)⟩

theorem hasFlow_add (h : g.Numbered) {c : Contribution} {a b : FlowNode} :
    (g.add c).HasFlow a b ↔ c = .edge a b ∨ g.HasFlow a b := by
  cases c with
  | node m => exact (hasFlow_of_isPrefix h (prefix_add g (.node m))).trans (by simp)
  | seed m name => exact (hasFlow_of_isPrefix h (prefix_add g (.seed m name))).trans (by simp)
  | edge source target =>
    rw [← hasFlow_of_isPrefix h (prefix_add g (.edge source target))]
    have hsource : (g.add (.edge source target)).index? source = some (g.number source) :=
      (Roster.index?_iff_of_isPrefix (Roster.prefix_insert (g.addNode source).nodes target)
        (number_lt g source)).mpr (index?_addNode g source)
    have htarget : (g.add (.edge source target)).index? target =
        some ((g.addNode source).number target) := index?_addNode (g.addNode source) target
    constructor
    · rintro ⟨i, j, hi, hj, he⟩
      rcases Roster.mem_insert.mp he with heq | he
      · cases heq
        rw [Roster.index?_inj hi hsource, Roster.index?_inj hj htarget]
        exact .inl rfl
      · exact .inr ⟨i, j, hi, hj, he⟩
    · rintro (heq | ⟨i, j, hi, hj, he⟩)
      · cases heq
        exact ⟨_, _, hsource, htarget, Roster.mem_insert.mpr (.inl rfl)⟩
      · exact ⟨i, j, hi, hj, Roster.mem_insert.mpr (.inr he)⟩

variable {S : Set Contribution}

theorem Holds.add (h : g.Holds S) (c : Contribution) : (g.add c).Holds (insert c S) where
  toNumbered := h.toNumbered.add c
  node_iff n := by
    rw [mem_nodes_add, h.node_iff]
    simp
  seed_iff n name := by
    rw [hasSeed_add h.toNumbered, h.seed_iff, Set.mem_insert_iff, eq_comm]
  flow_iff source target := by
    rw [hasFlow_add h.toNumbered, h.flow_iff, Set.mem_insert_iff, eq_comm]

theorem Holds.addAll (h : g.Holds S) (cs : List Contribution) :
    (cs.foldl FlowGraph.add g).Holds (S ∪ {c | c ∈ cs}) := by
  induction cs generalizing g S with
  | nil => simpa using h
  | cons c rest ih =>
    have hset : S ∪ {x | x ∈ c :: rest} = insert c S ∪ {x | x ∈ rest} := by
      ext x
      simp [or_left_comm, or_assoc]
    rw [hset]
    exact ih (h.add c)

end FlowGraph

end Devirt
