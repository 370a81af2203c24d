import Devirt.Proofs.ComponentNumbers
import Devirt.Proofs.Tables

/-!
# Propagation in tables

A propagation gathers the classes of a component at its number, and passes them on to the components that
its places flow into. It takes the components from the last one on, so all that flows into a component
has been passed on when its turn comes.

* `FlowGraph.Split g parts` : the parts are the components of a graph, whichever way they were found;
* `FlowGraph.Arrives g parts k c` : flows lead objects of the class `c` into the component `k`. They are
  created in it, or come in a flow from a component with a higher number (`Arrives.created_or_enters`);
* `Carries g parts settled walked tags` : what a table of classes holds on the way. Every step of a
  propagation stays within the tables and keeps it (`Shows.exists_gather?`, `Shows.exists_passOn`), so the
  table ends with all classes that arrive (`Shows.exists_settleBelow?`);
* `Shows.exists_propagate?` : a propagation stays within the tables, and finds what
  `FlowGraph.propagate` finds;
* `tables_in_step` : so do all steps of a history, and the tables fit together after each of them.
-/

namespace Devirt

/-- A loop gets to its end if each step has a result and keeps an invariant of what has been done. -/
theorem exists_foldlM {α β : Type} {f : β → α → Option β} {I : List α → β → Prop} {xs : List α} {b : β}
    (start : I [] b)
    (step : ∀ done x b, x ∈ xs → I done b → ∃ b', f b x = some b' ∧ I (done ++ [x]) b') :
    ∃ b', xs.foldlM f b = some b' ∧ I xs b' := by
  induction xs using List.reverseRecOn with
  | nil => exact ⟨b, rfl, start⟩
  | append_singleton done x ih =>
    obtain ⟨b₁, hb₁, h₁⟩ := ih (fun before y b hy => step before y b (List.mem_append_left _ hy))
    obtain ⟨b₂, hb₂, h₂⟩ := step done x b₁ (by simp) h₁
    refine ⟨b₂, ?_, h₂⟩
    rw [List.foldlM_append, hb₁]
    simpa using hb₂

/-! ## Arriving classes -/

namespace FlowGraph

/-- A graph whose places are numbered, and its components. -/
structure Split (g : FlowGraph) (parts : List (List Nat)) : Prop extends g.Numbered where
  areComponents : AreComponents g.flows.edges (List.range g.nodes.size) parts

/-- Flows lead objects of a class into a component. -/
def Arrives (g : FlowGraph) (parts : List (List Nat)) (k : Nat) (c : String) : Prop :=
  ∃ i, InPart parts k i ∧ ∃ j, (j, c) ∈ g.seeds ∧ Reaches g.flows.edges j i

/-- A flow out of a component with at least this number. -/
def FlowsFrom (g : FlowGraph) (parts : List (List Nat)) (k u v : Nat) : Prop :=
  (u, v) ∈ g.edges ∧ ∃ l, k ≤ l ∧ InPart parts l u

variable {g : FlowGraph} {find : Finder} {parts : List (List Nat)} {i k l u v : Nat} {c : String}

theorem Numbered.split (h : g.Numbered) (hfind : find.Exact) : g.Split (g.parts find) :=
  ⟨h, h.areComponents hfind⟩

theorem Split.lt_of_inPart (h : g.Split parts) (hi : InPart parts k i) : i < g.nodes.size :=
  List.mem_range.mp (h.areComponents.mem_of_inPart hi)

theorem Split.exists_inPart (h : g.Split parts) (hi : i < g.nodes.size) : ∃ k, InPart parts k i :=
  Devirt.exists_inPart ((h.areComponents.mem_iff i).mpr (List.mem_range.mpr hi))

/-- What arrives in a component arrives in each of its places. -/
theorem Split.arrives_iff (h : g.Split parts) (hi : InPart parts k i) :
    g.Arrives parts k c ↔ ∃ j, (j, c) ∈ g.seeds ∧ Reaches g.flows.edges j i := by
  constructor
  · rintro ⟨i', hi', j, hseed, hreach⟩
    exact ⟨j, hseed, hreach.trans ((h.areComponents.eq_iff_mutual hi' hi).mp rfl).1⟩
  · rintro ⟨j, hseed, hreach⟩
    exact ⟨i, hi, j, hseed, hreach⟩

theorem Split.arrives_of_flow (h : g.Split parts) (hu : InPart parts k u)
    (hv : InPart parts l v) (hedge : (u, v) ∈ g.edges) (hc : g.Arrives parts k c) :
    g.Arrives parts l c := by
  obtain ⟨j, hseed, hreach⟩ := (h.arrives_iff hu).mp hc
  exact ⟨v, hv, j, hseed, hreach.tail (Roster.mem_toList.mpr hedge)⟩

/-- A class that arrives in a component is created in it, or it enters in a flow from a component with a
higher number. -/
theorem Arrives.created_or_enters (hc : g.Arrives parts k c) (h : g.Split parts) :
    (∃ i, InPart parts k i ∧ (i, c) ∈ g.seeds) ∨
      ∃ l u v, g.FlowsFrom parts (k + 1) u v ∧ InPart parts l u ∧ InPart parts k v ∧
        g.Arrives parts l c := by
  obtain ⟨i, hi, j, hseed, hreach⟩ := hc
  by_cases hj : InPart parts k j
  · exact .inl ⟨j, hj, hseed⟩
  · obtain ⟨u, v, hedge, hu, hv, hju⟩ := hreach.enters (s := InPart parts k) hj hi
    have hmem : (u, v) ∈ g.edges := Roster.mem_toList.mp hedge
    obtain ⟨l, hl⟩ := h.exists_inPart (h.edges _ hmem).1
    have hle : k ≤ l := h.areComponents.le_of_edge hl hv hedge
    have hne : k ≠ l := by
      rintro rfl
      exact hu hl
    exact .inr ⟨l, u, v, ⟨hmem, l, by omega, hl⟩, hl, hv, u, hl, j, hseed, hju⟩

theorem mem_targets {m n : FlowNode} (hn : g.index? n = some i) :
    m ∈ g.targets n ↔ ∃ j, (i, j) ∈ g.edges ∧ g.index? m = some j := by
  unfold targets
  rw [hn]
  simp only [List.mem_filterMap, mem_successors, Roster.mem_toList, List.getElem?_toArray]
  exact exists_congr fun j => and_congr_right fun _ => Roster.index?_eq_some_iff.symm

end FlowGraph

/-! ## Numbers of components -/

namespace FlowTables

variable {t : FlowTables} {g : FlowGraph} {find : Finder} {parts : List (List Nat)} {k l : Nat}
  {c : String} {tags : Array (List String)}

/-- These places have been numbered by their components. -/
def NumbersOf (g : FlowGraph) (parts : List (List Nat)) (done : Nat → Prop) (found : Array Nat) : Prop :=
  found.size = g.nodes.size ∧ ∀ i k, done i → InPart parts k i → found[i]? = some k

theorem NumbersOf.exists_change? {done : Nat → Prop} {found : Array Nat}
    (h : NumbersOf g parts done found) (hg : g.Split parts) {i : Nat} (hi : InPart parts k i) :
    ∃ found', change? found i (fun _ => k) = some found' ∧
      NumbersOf g parts (fun j => done j ∨ j = i) found' := by
  have hlt : i < found.size := h.1 ▸ hg.lt_of_inPart hi
  refine ⟨_, change?_of_lt hlt _, by rw [Array.size_modify, h.1], fun j l hj hl => ?_⟩
  rw [Array.getElem?_modify]
  by_cases hij : i = j
  · subst hij
    rw [if_pos rfl, hl.unique hg.areComponents.nodup hi, Array.getElem?_eq_getElem hlt]
    rfl
  · rw [if_neg hij]
    exact h.2 j l (hj.resolve_right (Ne.symm hij)) hl

/-- The places of one more component are numbered. -/
theorem NumbersOf.exists_part {done : Nat → Prop} {found : Array Nat}
    (h : NumbersOf g parts done found) (hg : g.Split parts) {part : List Nat}
    (hpart : parts[k]? = some part) :
    ∃ found', part.foldlM (fun found i => change? found i (fun _ => k)) found = some found' ∧
      NumbersOf g parts (fun i => done i ∨ i ∈ part) found' := by
  refine exists_foldlM (I := fun seen found => NumbersOf g parts (fun i => done i ∨ i ∈ seen) found)
    (by simpa using h) (fun seen i found hi hseen => ?_)
  simpa [or_assoc] using hseen.exists_change? hg ⟨part, hpart, hi⟩

theorem exists_numbers? (hg : g.Split parts) :
    ∃ found, numbers? g.nodes.size parts = some found ∧ NumbersOf g parts (fun _ => True) found := by
  have hloop : ∃ found, numbers? g.nodes.size parts = some found ∧
      NumbersOf g parts (fun i => ∃ x ∈ parts.zipIdx, i ∈ x.1) found := by
    unfold numbers?
    refine exists_foldlM
      (I := fun (done : List (List Nat × Nat)) found =>
        NumbersOf g parts (fun i => ∃ x ∈ done, i ∈ x.1) found)
      ⟨Array.size_replicate, by simp⟩ (fun done x found hx hdone => ?_)
    simpa [or_and_right, exists_or] using hdone.exists_part hg (List.mem_zipIdx_iff_getElem?.mp hx)
  obtain ⟨found, hfound, hsize, hall⟩ := hloop
  refine ⟨found, hfound, hsize, fun i k _ hi => hall i k ?_ hi⟩
  obtain ⟨part, hpart, hmem⟩ := hi
  exact ⟨(part, k), List.mem_zipIdx_iff_getElem?.mpr hpart, hmem⟩

/-! ## Classes of components -/

/-- What a table of classes holds while components are settled. Each component has only classes that
arrive in it. A component that is settled has all of these, and one that a walked flow leads to has all
that arrive where the flow comes from. -/
structure Carries (g : FlowGraph) (parts : List (List Nat)) (settled : Nat → Prop)
    (walked : Nat → Nat → Prop) (tags : Array (List String)) : Prop where
  size : tags.size = parts.length
  increasing : ∀ (k : Nat) (own : List String), tags[k]? = some own → Ordered.Increasing own
  sound : ∀ (k : Nat) (own : List String), tags[k]? = some own → ∀ c ∈ own, g.Arrives parts k c
  complete : ∀ (k : Nat) (own : List String), settled k → tags[k]? = some own →
    ∀ c, g.Arrives parts k c → c ∈ own
  passed : ∀ (u v k l : Nat) (own : List String), walked u v → InPart parts k u →
    InPart parts l v → tags[l]? = some own → ∀ c, g.Arrives parts k c → c ∈ own

variable {settled : Nat → Prop} {walked : Nat → Nat → Prop}

theorem carries_start (g : FlowGraph) (parts : List (List Nat)) :
    Carries g parts (parts.length ≤ ·) (g.FlowsFrom parts parts.length)
      (Array.replicate parts.length []) := by
  have hempty : ∀ (k : Nat) (own : List String),
      (Array.replicate parts.length ([] : List String))[k]? = some own → k < parts.length ∧ own = [] := by
    intro k own h
    rw [Array.getElem?_replicate] at h
    split at h
    · rename_i hk
      exact ⟨hk, (Option.some.inj h).symm⟩
    · cases h
  refine ⟨Array.size_replicate, fun k own h => ?_, fun k own h c hc => ?_, fun k own hk h => ?_,
    fun u v k l own hwalked hu hv h => ?_⟩
  · rw [(hempty k own h).2]
    exact Ordered.increasing_nil
  · rw [(hempty k own h).2] at hc
    cases hc
  · have hlt := (hempty k own h).1
    omega
  · obtain ⟨-, l', hl', hu'⟩ := hwalked
    have hlt := hu'.lt_length
    omega

theorem Carries.mono {walked' : Nat → Nat → Prop} (h : Carries g parts settled walked tags)
    (hsub : ∀ u v, walked' u v → walked u v) : Carries g parts settled walked' tags where
  size := h.size
  increasing := h.increasing
  sound := h.sound
  complete := h.complete
  passed u v k l own hwalked := h.passed u v k l own (hsub u v hwalked)

/-- Adding classes that arrive in a component. -/
theorem Carries.extend (h : Carries g parts settled walked tags) {more : List String}
    (hincreasing : Ordered.Increasing more) (harrives : ∀ c ∈ more, g.Arrives parts l c) :
    Carries g parts settled walked (tags.modify l (Ordered.union more)) := by
  have hgrows : ∀ (k : Nat) (own : List String),
      (tags.modify l (Ordered.union more))[k]? = some own → ∃ before, tags[k]? = some before ∧
        (own = before ∨ l = k ∧ own = Ordered.union more before) := by
    intro k own hown
    rw [Array.getElem?_modify] at hown
    split at hown
    · rename_i hl
      obtain ⟨before, hbefore, rfl⟩ := Option.map_eq_some_iff.mp hown
      exact ⟨before, hbefore, .inr ⟨hl, rfl⟩⟩
    · exact ⟨own, hown, .inl rfl⟩
  refine ⟨by rw [Array.size_modify, h.size], fun k own hown => ?_, fun k own hown c hc => ?_,
    fun k own hk hown c hc => ?_, fun u v k l' own hwalked hu hv hown c hc => ?_⟩
  · obtain ⟨before, hbefore, rfl | ⟨-, rfl⟩⟩ := hgrows k own hown
    · exact h.increasing k _ hbefore
    · exact Ordered.increasing_union hincreasing (h.increasing k before hbefore)
  · obtain ⟨before, hbefore, rfl | ⟨rfl, rfl⟩⟩ := hgrows k own hown
    · exact h.sound k _ hbefore c hc
    · exact (Ordered.mem_union.mp hc).elim (harrives c) (h.sound _ before hbefore c)
  · obtain ⟨before, hbefore, rfl | ⟨-, rfl⟩⟩ := hgrows k own hown
    · exact h.complete k _ hk hbefore c hc
    · exact Ordered.mem_union.mpr (.inr (h.complete k before hk hbefore c hc))
  · obtain ⟨before, hbefore, rfl | ⟨-, rfl⟩⟩ := hgrows l' own hown
    · exact h.passed u v k l' _ hwalked hu hv hbefore c hc
    · exact Ordered.mem_union.mpr (.inr (h.passed u v k l' before hwalked hu hv hbefore c hc))

/-- A component gets the classes created in its places. -/
theorem Shows.exists_gather? (ht : t.Shows g) (hg : g.Split parts)
    (h : Carries g parts settled walked tags) {part : List Nat} (hpart : parts[k]? = some part) :
    ∃ tags', t.gather? k part tags = some tags' ∧ Carries g parts settled walked tags' ∧
      ∀ own, tags'[k]? = some own → ∀ i ∈ part, ∀ c, (i, c) ∈ g.seeds → c ∈ own := by
  refine exists_foldlM (I := fun done tags => Carries g parts settled walked tags ∧
    ∀ own, tags[k]? = some own → ∀ i ∈ done, ∀ c, (i, c) ∈ g.seeds → c ∈ own)
    ⟨h, by simp⟩ (fun done i tags hi hdone => ?_)
  obtain ⟨hcarries, hseeds⟩ := hdone
  have hin : InPart parts k i := ⟨part, hpart, hi⟩
  have hk : k < tags.size := hcarries.size ▸ hin.lt_length
  have hlt : i < t.seeds.size := by
    rw [ht.seeds_size, ht.size]
    exact hg.lt_of_inPart hin
  obtain ⟨hincreasing, hmem⟩ := ht.seeds i _ (Array.getElem?_eq_getElem hlt)
  rw [Array.getElem?_eq_getElem hlt]
  refine ⟨_, change?_of_lt hk _, hcarries.extend hincreasing (fun c hc => ?_), fun own hown => ?_⟩
  · exact ⟨i, hin, i, (hmem c).mp hc, .refl i⟩
  · rw [Array.getElem?_modify, if_pos rfl] at hown
    obtain ⟨before, hbefore, rfl⟩ := Option.map_eq_some_iff.mp hown
    intro j hj c hc
    rw [Ordered.mem_union]
    rcases List.mem_append.mp hj with hj | hj
    · exact .inr (hseeds before hbefore j hj c hc)
    · obtain rfl := List.mem_singleton.mp hj
      exact .inl ((hmem c).mpr hc)

/-- A component is settled once all flows from higher numbers have been walked and the classes created
in it have been added. -/
theorem Carries.settle (h : Carries g parts (k + 1 ≤ ·) (g.FlowsFrom parts (k + 1)) tags)
    (hg : g.Split parts)
    (hseeds : ∀ own, tags[k]? = some own → ∀ i, InPart parts k i → ∀ c, (i, c) ∈ g.seeds → c ∈ own) :
    Carries g parts (k ≤ ·) (g.FlowsFrom parts (k + 1)) tags where
  size := h.size
  increasing := h.increasing
  sound := h.sound
  complete l own hl hown c hc := by
    rcases Nat.lt_or_eq_of_le hl with hlt | rfl
    · exact h.complete l own hlt hown c hc
    · rcases hc.created_or_enters hg with ⟨i, hi, hseed⟩ | ⟨l, u, v, hflow, hu, hv, hc'⟩
      · exact hseeds own hown i hi c hseed
      · exact h.passed u v l _ own hflow hu hv hown c hc'
  passed := h.passed

/-! ## Settling components -/

section Settling

variable {found : Array Nat} (ht : t.Shows g) (hg : g.Split parts)
  (hfound : NumbersOf g parts (fun _ => True) found)

include ht hg hfound

section PassingOn

variable {own : List String} (hincreasing : Ordered.Increasing own)
  (hown : ∀ c, c ∈ own ↔ g.Arrives parts k c)

include hincreasing hown

/-- A flow out of a settled component has been walked once its classes have been passed on. -/
theorem Shows.exists_passTo? (h : Carries g parts (k ≤ ·) walked tags)
    {u v : Nat} (hu : InPart parts k u) (hedge : (u, v) ∈ g.edges) {target : FlowNode}
    (htarget : g.index? target = some v) :
    ∃ tags', t.passTo? found k own tags target = some tags' ∧
      Carries g parts (k ≤ ·) (fun x y => walked x y ∨ x = u ∧ y = v) tags' := by
  obtain ⟨l, hv⟩ := hg.exists_inPart (hg.edges _ hedge).2
  -- walking the flow adds one pair, and its classes are all in the component that it leads to
  have hwalk : ∀ {tags'}, Carries g parts (k ≤ ·) walked tags' →
      (∀ after, tags'[l]? = some after → ∀ c, g.Arrives parts k c → c ∈ after) →
      Carries g parts (k ≤ ·) (fun x y => walked x y ∨ x = u ∧ y = v) tags' := by
    intro tags' hcarries hall
    refine ⟨hcarries.size, hcarries.increasing, hcarries.sound, hcarries.complete, ?_⟩
    rintro x y k' l' after (hwalked | ⟨rfl, rfl⟩) hx hy hafter c hc
    · exact hcarries.passed x y k' l' after hwalked hx hy hafter c hc
    · have hnodup := hg.areComponents.nodup
      rw [hx.unique hnodup hu] at hc
      rw [hy.unique hnodup hv] at hafter
      exact hall after hafter c hc
  have hstep : t.passTo? found k own tags target =
      if l = k then some tags else change? tags l (Ordered.union own) := by
    unfold passTo?
    rw [ht.indices, htarget]
    show ((found[v]?).bind fun l => if l = k then some tags else change? tags l _) = _
    rw [hfound.2 v l trivial hv, Option.bind_some]
  rw [hstep]
  by_cases hl : l = k
  · subst hl
    rw [if_pos rfl]
    exact ⟨tags, rfl, hwalk h (fun after hafter c hc => h.complete l after le_rfl hafter c hc)⟩
  · rw [if_neg hl, change?_of_lt (h.size ▸ hv.lt_length)]
    refine ⟨_, rfl, hwalk (h.extend hincreasing (fun c hc => ?_)) (fun after hafter c hc => ?_)⟩
    · exact hg.arrives_of_flow hu hv hedge ((hown c).mp hc)
    · rw [Array.getElem?_modify, if_pos rfl] at hafter
      obtain ⟨before, -, rfl⟩ := Option.map_eq_some_iff.mp hafter
      exact Ordered.mem_union.mpr (.inl ((hown c).mpr hc))

/-- All flows out of a place of a settled component are walked. -/
theorem Shows.exists_passFrom? (h : Carries g parts (k ≤ ·) walked tags)
    {i : Nat} (hi : InPart parts k i) :
    ∃ tags', t.passFrom? found k own tags i = some tags' ∧
      Carries g parts (k ≤ ·) (fun u v => walked u v ∨ u = i ∧ (u, v) ∈ g.edges) tags' := by
  obtain ⟨n, hn⟩ := Roster.exists_of_lt (hg.lt_of_inPart hi)
  have hloop : ∃ tags', (g.targets n).reverse.foldlM (t.passTo? found k own) tags = some tags' ∧
      Carries g parts (k ≤ ·) (fun u v => walked u v ∨
        u = i ∧ ∃ m ∈ (g.targets n).reverse, g.index? m = some v) tags' := by
    refine exists_foldlM (I := fun done tags => Carries g parts (k ≤ ·)
      (fun u v => walked u v ∨ u = i ∧ ∃ m ∈ done, g.index? m = some v) tags)
      (by simpa using h) (fun done m tags hm hdone => ?_)
    obtain ⟨j, hedge, hj⟩ := (FlowGraph.mem_targets hn).mp (List.mem_reverse.mp hm)
    obtain ⟨tags', htags', hcarries⟩ := ht.exists_passTo? hg hfound hincreasing hown hdone hi hedge hj
    refine ⟨tags', htags', hcarries.mono ?_⟩
    rintro u v (hwalked | ⟨rfl, m', hm', hv⟩)
    · exact .inl (.inl hwalked)
    · rcases List.mem_append.mp hm' with hm' | hm'
      · exact .inl (.inr ⟨rfl, m', hm', hv⟩)
      · obtain rfl := List.mem_singleton.mp hm'
        exact .inr ⟨rfl, Option.some.inj (hv.symm.trans hj)⟩
  obtain ⟨tags', htags', hcarries⟩ := hloop
  refine ⟨tags', ?_, hcarries.mono ?_⟩
  · unfold passFrom?
    rw [ht.node_iff.mpr hn]
    show ((t.targets? n).bind fun targets => targets.foldlM _ tags) = some tags'
    rw [ht.targets?_eq hg.toNumbered, Option.bind_some, htags']
  · rintro u v (hwalked | ⟨rfl, hedge⟩)
    · exact .inl hwalked
    · obtain ⟨m, hm⟩ := Roster.exists_of_lt (hg.edges _ hedge).2
      exact .inr ⟨rfl, m, List.mem_reverse.mpr ((FlowGraph.mem_targets hn).mpr ⟨v, hedge, hm⟩), hm⟩

/-- All flows out of a settled component are walked. -/
theorem Shows.exists_passOn (h : Carries g parts (k ≤ ·) walked tags)
    {part : List Nat} (hpart : parts[k]? = some part) :
    ∃ tags', part.foldlM (t.passFrom? found k own) tags = some tags' ∧
      Carries g parts (k ≤ ·) (fun u v => walked u v ∨ u ∈ part ∧ (u, v) ∈ g.edges) tags' := by
  refine exists_foldlM (I := fun done tags => Carries g parts (k ≤ ·)
    (fun u v => walked u v ∨ u ∈ done ∧ (u, v) ∈ g.edges) tags)
    (by simpa using h) (fun done i tags hi hdone => ?_)
  obtain ⟨tags', htags', hcarries⟩ :=
    ht.exists_passFrom? hg hfound hincreasing hown hdone ⟨part, hpart, hi⟩
  refine ⟨tags', htags', hcarries.mono ?_⟩
  rintro u v (hwalked | ⟨hu, hedge⟩)
  · exact .inl (.inl hwalked)
  · rcases List.mem_append.mp hu with hu | hu
    · exact .inl (.inr ⟨hu, hedge⟩)
    · exact .inr ⟨List.mem_singleton.mp hu, hedge⟩

end PassingOn

/-- Settling one more component, the last one that has not been settled. -/
theorem Shows.exists_settle?
    (h : Carries g parts (k + 1 ≤ ·) (g.FlowsFrom parts (k + 1)) tags) (hk : k < parts.length) :
    ∃ tags', t.settle? parts found k tags = some tags' ∧
      Carries g parts (k ≤ ·) (g.FlowsFrom parts k) tags' := by
  have hpart : parts[k]? = some parts[k] := List.getElem?_eq_getElem hk
  obtain ⟨gathered, hgathered, hcarries, hseeds⟩ := ht.exists_gather? hg h hpart
  have hsettled := hcarries.settle hg (fun own hown i hi => by
    obtain ⟨part, hpart', hmem⟩ := hi
    cases hpart.symm.trans hpart'
    exact hseeds own hown i hmem)
  have hlt : k < gathered.size := hcarries.size ▸ hk
  have hown : gathered[k]? = some gathered[k] := Array.getElem?_eq_getElem hlt
  obtain ⟨tags', htags', hpassed⟩ := ht.exists_passOn hg hfound
    (hsettled.increasing k _ hown)
    (fun c => ⟨hsettled.sound k _ hown c, hsettled.complete k _ le_rfl hown c⟩) hsettled hpart
  refine ⟨tags', ?_, hpassed.mono ?_⟩
  · unfold settle?
    rw [hpart]
    show ((t.gather? k _ tags).bind fun tags => (tags[k]?).bind fun own => List.foldlM _ tags _) = _
    rw [hgathered, Option.bind_some, hown, Option.bind_some, htags']
  · rintro u v ⟨hedge, l, hl, hu⟩
    rcases Nat.lt_or_eq_of_le hl with hlt | rfl
    · exact .inl ⟨hedge, l, hlt, hu⟩
    · obtain ⟨part, hpart', hmem⟩ := hu
      cases hpart.symm.trans hpart'
      exact .inr ⟨hmem, hedge⟩

theorem Shows.exists_settleBelow?
    (h : Carries g parts (k ≤ ·) (g.FlowsFrom parts k) tags) (hk : k ≤ parts.length) :
    ∃ tags', t.settleBelow? parts found k tags = some tags' ∧
      Carries g parts (0 ≤ ·) (g.FlowsFrom parts 0) tags' := by
  induction k generalizing tags with
  | zero => exact ⟨tags, rfl, h⟩
  | succ k ih =>
    obtain ⟨settled, hsettled, hcarries⟩ := ht.exists_settle? hg hfound h hk
    obtain ⟨tags', htags', hrest⟩ := ih hcarries (Nat.le_of_succ_le hk)
    refine ⟨tags', ?_, hrest⟩
    rw [settleBelow?, hsettled]
    exact htags'

end Settling

/-! ## Propagation -/

/-- Where a propagation puts the place with a number. -/
theorem exists_placement (hfind : find.Exact) (hg : g.Numbered) {i : Nat} (hi : i < g.nodes.size) :
    ∃ p, (g.propagate find).placements[i]? = some p ∧ InPart (g.parts find) p.component i ∧
      Ordered.Increasing p.tags ∧ ∀ c, c ∈ p.tags ↔ g.Arrives (g.parts find) p.component c := by
  obtain ⟨n, hn⟩ := Roster.exists_of_lt hi
  obtain ⟨part, number, tags, hzip, hmem, hplaced, htags⟩ :=
    FlowGraph.exists_placement_propagate hg hfind hn
  have hin : InPart (g.parts find) number i := ⟨part, List.mem_zipIdx_iff_getElem?.mp hzip, hmem⟩
  have hindex : (g.propagate find).index? n = some i := hn
  have hincreasing := FlowGraph.increasing_tags_propagate g find n
  rw [FlowGraph.tags, hplaced] at hincreasing
  rw [FlowGraph.placement?, hindex, Option.bind_some] at hplaced
  exact ⟨_, hplaced, hin, hincreasing, fun c => (htags c).trans ((hg.split hfind).arrives_iff hin).symm⟩

/-- A propagation stays within the tables and finds the components and classes of the graph. -/
theorem Shows.exists_propagate? (h : t.Shows g) (hfind : find.Exact) (hg : g.Numbered) :
    ∃ t', t.propagate? find = some t' ∧ t'.Shows (g.propagate find) := by
  obtain ⟨found, hnumbers, hfound⟩ := exists_numbers? (hg.split hfind)
  obtain ⟨tags, htags, hcarries⟩ :=
    h.exists_settleBelow? (hg.split hfind) hfound (carries_start g (g.parts find)) le_rfl
  have hparts : find (.ofList t.edges.toList) (List.range t.nodes.size) = g.parts find := by
    rw [h.edges, h.size]
    rfl
  have hsize : (g.propagate find).placements.size = g.nodes.size := by simp [FlowGraph.propagate]
  refine ⟨{ t with components := found, componentTags := tags }, ?_, h.nodes, h.indices, h.edges,
    h.seeds_size, h.seeds, ?_, fun p hp => ?_, hcarries.size⟩
  · unfold propagate?
    rw [hparts, h.size]
    show ((numbers? _ _).bind fun found => (t.settleBelow? (g.parts find) found _ _).bind _) = _
    rw [hnumbers, Option.bind_some, htags]
    rfl
  · refine Array.ext_getElem? fun i => ?_
    rw [Array.getElem?_map]
    by_cases hi : i < g.nodes.size
    · obtain ⟨p, hp, hin, -, -⟩ := exists_placement hfind hg hi
      rw [hp, hfound.2 i _ trivial hin]
      rfl
    · have hout : found.size ≤ i := by
        rw [hfound.1]
        omega
      rw [Array.getElem?_eq_none hout, Array.getElem?_eq_none (by omega)]
      rfl
  · obtain ⟨i, hi, rfl⟩ := Array.mem_iff_getElem.mp hp
    obtain ⟨p, hp', hin, hincreasing, hmem⟩ := exists_placement hfind hg (hsize ▸ hi)
    obtain rfl := Option.some.inj ((Array.getElem?_eq_getElem hi).symm.trans hp')
    have hlt : ((g.propagate find).placements[i]).component < tags.size := hcarries.size ▸ hin.lt_length
    have hown := Array.getElem?_eq_getElem hlt
    have hsame : tags[((g.propagate find).placements[i]).component] =
        ((g.propagate find).placements[i]).tags := by
      refine (hcarries.increasing _ _ hown).ext hincreasing fun c => ?_
      rw [hmem c]
      exact ⟨hcarries.sound _ _ hown c, hcarries.complete _ _ (Nat.zero_le _) hown c⟩
    rw [← hsame]
    exact hown

/-! ## Histories -/

def step? (find : Finder) (t : FlowTables) : FlowGraph.Step → Option FlowTables
  | .add c => t.add? c
  | .propagate => t.propagate? find

def run? (find : Finder) (steps : List FlowGraph.Step) : Option FlowTables :=
  steps.foldlM (step? find) {}

theorem Shows.exists_step? (h : t.Shows g) (hfind : find.Exact) (hg : g.Numbered)
    (s : FlowGraph.Step) : ∃ t', t.step? find s = some t' ∧ t'.Shows (g.step find s) := by
  cases s with
  | add c => exact h.exists_add? hg c
  | propagate => exact h.exists_propagate? hfind hg

theorem exists_run? (hfind : find.Exact) (steps : List FlowGraph.Step) :
    ∃ t, run? find steps = some t ∧ t.Shows (FlowGraph.run find steps) := by
  refine exists_foldlM (I := fun done t => Shows t (FlowGraph.run find done)) shows_empty
    (fun done s t _ hdone => ?_)
  rw [FlowGraph.run_concat]
  exact hdone.exists_step? hfind (FlowGraph.holds_run find done).toNumbered s

end FlowTables

theorem FlowGraph.prefix_run_append (find : Finder) (steps later : List FlowGraph.Step) :
    (run find steps).nodes.toList <+: (run find (steps ++ later)).nodes.toList := by
  induction later using List.reverseRecOn with
  | nil => simp
  | append_singleton later s ih =>
    rw [← List.append_assoc, run_concat]
    cases s with
    | add c => exact ih.trans (prefix_add _ c)
    | propagate => exact ih

/-- Whichever way components are found, after any history no step has gone outside of a table. Numbers and
places are each other's inverse without gaps, a place that is new gets the next number, and none ever gets
another one. Each place has one set of classes, no flow is there twice, and every component that a place
has is one with classes, whatever has been added since the last propagation. So no question goes outside of
a table, either. The tables hold what the flow graph holds, and give the same answers. -/
theorem tables_in_step (find : Finder) (hfind : find.Exact) (steps : List FlowGraph.Step) :
    ∃ t, FlowTables.run? find steps = some t ∧ t.InStep ∧
      (∀ n, (t.addNode n).2 = (t.indices[n]?).getD t.nodes.size) ∧
      (∀ later, ∃ t', FlowTables.run? find (steps ++ later) = some t' ∧
        t.nodes.toList <+: t'.nodes.toList ∧
        ∀ (n : FlowNode) (i : Nat), t.indices[n]? = some i → t'.indices[n]? = some i) ∧
      t.Shows (FlowGraph.run find steps) ∧
      (∀ n, t.component? n = (FlowGraph.run find steps).component? n ∧
        t.tags? n = some ((FlowGraph.run find steps).tags n) ∧
        t.targets? n = some ((FlowGraph.run find steps).targets n).reverse) ∧
      t.tagged? = some (FlowGraph.run find steps).tagged := by
  obtain ⟨t, ht, hshows⟩ := FlowTables.exists_run? hfind steps
  have hnumbered := (FlowGraph.holds_run find steps).toNumbered
  refine ⟨t, ht, hshows.inStep hnumbered, fun n => ?_, fun later => ?_, hshows,
    fun n => ⟨hshows.component?_eq n, hshows.tags?_eq n, hshows.targets?_eq hnumbered n⟩,
    hshows.tagged?_eq hnumbered⟩
  · rw [(hshows.addNode hnumbered n).2, hshows.indices, hshows.size, FlowGraph.number]
  · obtain ⟨t', ht', hshows'⟩ := FlowTables.exists_run? hfind (steps ++ later)
    have hgrows := FlowGraph.prefix_run_append find steps later
    refine ⟨t', ht', by rw [hshows.nodes, hshows'.nodes]; exact hgrows, fun n i hi => ?_⟩
    rw [hshows.indices] at hi
    rw [hshows'.indices]
    exact (Roster.index?_iff_of_isPrefix hgrows (Roster.index?_lt hi)).mpr hi

/-- A place is added after a propagation. -/
def lateSteps : List FlowGraph.Step :=
  [.add (.edge (.field "A" "x") (.field "A" "y")), .propagate, .add (.seed (.field "A" "z") "C")]

/-- A place that is added after a propagation has a number and a set of classes, and no component yet. -/
theorem tables_in_step_late :
    Finder.Exact components ∧ ∃ t, FlowTables.run? components lateSteps = some t ∧ t.InStep ∧
      t.indices[FlowNode.field "A" "z"]? = some 2 ∧ t.component? (.field "A" "z") = none ∧
      t.tags? (.field "A" "z") = some [] := by
  obtain ⟨t, ht, hstep, -, -, hshows, hanswers, -⟩ :=
    tables_in_step components exact_components lateSteps
  obtain ⟨hcomponent, htags, -⟩ := hanswers (.field "A" "z")
  refine ⟨exact_components, t, ht, hstep, ?_, ?_, ?_⟩
  · rw [hshows.indices]
    rfl
  · rw [hcomponent]
    rfl
  · rw [htags]
    rfl

end Devirt
