import Devirt.Analysis.Algorithms
import Devirt.Proofs.Agreement
import Devirt.Proofs.Warnings

/-!
# More text, more calls

What an analysis finds grows with the entry points and the statements of a program, and depends on
them as sets only. Runs of two programs are not compared step by step: their graphs are least closed
sets, so it is enough that the calls of methods grow.

* `Program.TextWithin p q` : two programs that differ in their entry points and statements only, those
  of `p` being among those of `q`. It can be checked (`textWithin_of_declared`);
* `TextWithin.hierarchyCalls`, `TextWithin.instantiationCalls`, `TextWithin.valueFlowCalls` : a call
  by the rule of `p` is one by the rule of `q`. Flows grow, too, though a static call may have lost
  its result in `p` only (`TextWithin.flowEdge`);
* `TextWithin.graph_subset` : graphs grow. If both texts are the same up to order and repetition, so
  are the graphs and the warnings (`TextWithin.graph_eq`, `TextWithin.mem_warnings_iff`);
* `analyses_grow` : the result, for all analyses.
-/

namespace Devirt

/-- Two programs differ in their entry points and the statements of their bodies only. Every entry
point and every statement of the first is one of the second. -/
structure Program.TextWithin (p q : Program) : Prop where
  entryPoints : ∀ m ∈ p.entryPoints, m ∈ q.entryPoints
  outline : ∀ x, (q.class? x).map Class.outline = (p.class? x).map Class.outline
  statements : ∀ m, ∀ s ∈ p.statements m, s ∈ q.statements m

/-- For the statements it is enough to look at the declared methods. -/
theorem Program.textWithin_of_declared {p q : Program}
    (hentries : ∀ m ∈ p.entryPoints, m ∈ q.entryPoints)
    (hclasses : q.classes.map Class.outline = p.classes.map Class.outline)
    (hstatements : ∀ m ∈ p.declared, ∀ s ∈ p.statements m, s ∈ q.statements m) :
    p.TextWithin q where
  entryPoints := hentries
  outline x := by
    have hfind : ∀ r : Program, (r.class? x).map Class.outline =
        (r.classes.map Class.outline).find? (fun c => c.name = x) := by
      intro r
      rw [class?_eq_find?, List.find?_map]
      rfl
    rw [hfind, hfind, hclasses]
  statements m s hs :=
    hstatements m (mem_declared_of_hasBody (hasBody_of_mem_statements hs)) s hs

namespace Program.TextWithin

variable {p q : Program} {N : Set MethodRef} {m t : MethodRef} {call : Call}

/-! ## Declarations -/

theorem agreeOn (h : p.TextWithin q) : p.AgreeOn q Set.univ where
  outline x _ := h.outline x
  parents _ _ _ _ y _ := Set.mem_univ y

theorem superAcyclic (h : p.TextWithin q) (hp : p.SuperAcyclic) : q.SuperAcyclic :=
  h.agreeOn.symm.superAcyclic (fun x _ => Set.mem_univ x) hp

theorem hasBody (h : p.TextWithin q) (m : MethodRef) : q.hasBody m = p.hasBody m :=
  h.agreeOn.hasBody (Set.mem_univ _)

theorem calls (h : p.TextWithin q) (hcall : call ∈ p.calls m) : call ∈ q.calls m := by
  obtain ⟨s, hs, hsome⟩ := List.mem_filterMap.mp hcall
  exact List.mem_filterMap.mpr ⟨s, h.statements m s hs, hsome⟩

theorem isSubtype (h : p.TextWithin q) (x y : String) : q.isSubtype x y = p.isSubtype x y :=
  h.agreeOn.isSubtype (Set.mem_univ x) y

theorem isConcrete (h : p.TextWithin q) (x : String) : q.isConcrete x = p.isConcrete x :=
  h.agreeOn.isConcrete (Set.mem_univ x)

theorem dispatch (h : p.TextWithin q) (hp : p.SuperAcyclic) (x : String) (s : MethodRef) :
    q.dispatch x s = p.dispatch x s :=
  h.agreeOn.dispatch hp (h.superAcyclic hp) (Set.mem_univ x) s

theorem runsBelow (h : p.TextWithin q) (hp : p.SuperAcyclic) (s t : MethodRef) :
    q.RunsBelow s t ↔ p.RunsBelow s t := by
  simp only [RunsBelow, h.isSubtype, h.isConcrete, h.dispatch hp]

theorem isTarget (h : p.TextWithin q) (hp : p.SuperAcyclic) :
    q.IsTarget call t ↔ p.IsTarget call t := by
  obtain ⟨found, hfound, hmem⟩ := exists_mem_targets hp call
  obtain ⟨found', hfound', hmem'⟩ := exists_mem_targets (h.superAcyclic hp) call
  simp only [IsTarget, hfound, hfound', Except.ok.injEq, exists_eq_left', hmem, hmem',
    h.runsBelow hp, h.agreeOn.hasClass (Set.mem_univ _)]

/-! ## Calls -/

theorem hierarchyCalls (h : p.TextWithin q) (hp : p.SuperAcyclic) (hcalls : Hierarchy.Calls p m t) :
    Hierarchy.Calls q m t := by
  obtain ⟨call, hcall, htarget⟩ := hcalls
  exact ⟨call, h.calls hcall, (h.isTarget hp).mpr htarget⟩

theorem instantiated (h : p.TextWithin q) :
    Instantiation.Instantiated p N ⊆ Instantiation.Instantiated q N := by
  rintro c ⟨m, hm, hb, call, hcall, hnew⟩
  exact ⟨m, hm, (h.hasBody m).trans hb, call, h.calls hcall, hnew⟩

theorem instantiationCalls (h : p.TextWithin q) (hp : p.SuperAcyclic) {I : Set String}
    (hcalls : Instantiation.Calls p I m t) : Instantiation.Calls q I m t := by
  cases hcalls with
  | direct mem kind => exact .direct (h.calls mem) kind
  | @dispatched call c _ mem kind live concrete below found =>
    rw [← h.isConcrete] at concrete
    rw [← h.isSubtype] at below
    rw [← h.dispatch hp] at found
    exact .dispatched (h.calls mem) kind live concrete below found

/-! ## Flows -/

theorem creates (h : p.TextWithin q) {c : String} {n : FlowNode} (hc : Creates p N c n) :
    Creates q N c n := by
  obtain ⟨m, hm, hb, x, hs, hn⟩ := hc
  exact ⟨m, hm, (h.hasBody m).trans hb, x, h.statements m _ hs, hn⟩

/-- The flows of a call in a larger program, whose result may be lost in the smaller one. -/
theorem mem_callFlows (h : p.TextWithin q) (hp : p.SuperAcyclic) {result result' : Option FlowNode}
    (hresult : result = none ∨ result = result') {cs : List Contribution} {x : Contribution}
    (hcs : callFlows p m call result = .ok cs) (hx : x ∈ cs) :
    ∃ cs', callFlows q m call result' = .ok cs' ∧ x ∈ cs' := by
  obtain ⟨cs₁, hcs₁, hmem⟩ := exists_mem_callFlows hp m call result
  obtain ⟨cs', hcs', hmem'⟩ := exists_mem_callFlows (h.superAcyclic hp) m call result'
  cases hcs.symm.trans hcs₁
  obtain ⟨t, ht, hx⟩ := (hmem x).mp hx
  refine ⟨cs', hcs', (hmem' x).mpr ⟨t, (h.isTarget hp).mpr ht, ?_⟩⟩
  rcases hresult with rfl | rfl
  · rw [linkFlows, Option.toList_none, List.map_nil, List.append_nil] at hx
    exact List.mem_append_left _ hx
  · exact hx

/-- With more statements there are more returned values, so no further result is lost. -/
theorem lostResult (h : p.TextWithin q) (hlost : (lostResult? q call).isSome = true) :
    (lostResult? p call).isSome = true := by
  rw [lostResult?_isSome_iff] at hlost ⊢
  exact ⟨hlost.1, fun s hs => hlost.2 s (h.statements _ s hs)⟩

theorem edge_mem_statementFlows (h : p.TextWithin q) (hp : p.SuperAcyclic) {s : Statement}
    {cs : List Contribution} {a b : FlowNode} (hcs : statementFlows p m s = .ok cs)
    (hedge : .edge a b ∈ cs) : ∃ cs', statementFlows q m s = .ok cs' ∧ .edge a b ∈ cs' := by
  unfold statementFlows at hcs
  split at hcs
  · exact ⟨cs, hcs, hedge⟩
  · exact ⟨cs, hcs, hedge⟩
  · exact ⟨cs, hcs, hedge⟩
  · exact ⟨cs, hcs, hedge⟩
  · rename_i target call
    -- the result may be lost in both programs, in `p` only, or in neither
    by_cases hlost : (lostResult? p call).isSome = true
    · rw [if_pos hlost] at hcs
      obtain ⟨cs₁, hcs₁, hcs⟩ := exists_of_bind_ok hcs
      cases hcs
      have hedge : .edge a b ∈ cs₁ := by simpa using hedge
      by_cases hlost' : (lostResult? q call).isSome = true
      · obtain ⟨cs', hcs', hmem⟩ : ∃ cs', callFlows q m call none = .ok cs' ∧ .edge a b ∈ cs' :=
          h.mem_callFlows hp (.inl rfl) hcs₁ hedge
        refine ⟨.node (.of m target) :: cs', ?_, List.mem_cons_of_mem _ hmem⟩
        rw [statementFlows, if_pos hlost', hcs']
        rfl
      · rw [statementFlows, if_neg hlost']
        exact h.mem_callFlows hp (.inl rfl) hcs₁ hedge
    · rw [if_neg hlost] at hcs
      rw [statementFlows, if_neg (fun hlost' => hlost (h.lostResult hlost'))]
      exact h.mem_callFlows hp (.inr rfl) hcs hedge
  · exact h.mem_callFlows hp (.inr rfl) hcs hedge
  · exact ⟨cs, hcs, hedge⟩
  · exact ⟨cs, hcs, hedge⟩
  · exact ⟨cs, hcs, hedge⟩

theorem flowEdge (h : p.TextWithin q) (hp : p.SuperAcyclic) {a b : FlowNode}
    (hedge : FlowEdge p N a b) : FlowEdge q N a b := by
  obtain ⟨m, hm, hb, s, hs, cs, hcs, hmem⟩ := hedge
  obtain ⟨cs', hcs', hmem'⟩ := h.edge_mem_statementFlows hp hcs hmem
  exact ⟨m, hm, (h.hasBody m).trans hb, s, h.statements m s hs, cs', hcs', hmem'⟩

theorem flowsInto (h : p.TextWithin q) (hp : p.SuperAcyclic) {c : String} {n : FlowNode}
    (hf : FlowsInto p N c n) : FlowsInto q N c n := by
  obtain ⟨origin, hcreates, hpath⟩ := hf
  exact ⟨origin, h.creates hcreates,
    Relation.ReflTransGen.mono (fun _ _ he => h.flowEdge hp he) _ _ hpath⟩

theorem valueFlowCalls (h : p.TextWithin q) (hp : p.SuperAcyclic)
    {allows allows' : MethodRef → MethodRef → Bool}
    (hallows : ∀ m t, allows m t = true → allows' m t = true)
    (hcalls : ValueFlow.Calls p allows N m t) : ValueFlow.Calls q allows' N m t := by
  cases hcalls with
  | direct mem kind => exact .direct (h.calls mem) kind
  | @dispatched call r c _ mem kind receiver flows below found allowed =>
    rw [← h.isSubtype] at below
    rw [← h.dispatch hp] at found
    exact .dispatched (h.calls mem) kind receiver (h.flowsInto hp flows) below found
      (hallows m t allowed)

/-! ## Graphs -/

/-- Least closed sets are below those of a larger program if the calls of its rule are no fewer. -/
theorem subset_of_isLeast (h : p.TextWithin q) {rule : CallRule p} {rule' : CallRule q}
    {g g' : CallGraph} (hg : IsLeast rule.closed (g.nodeSet, g.edgeSet))
    (hg' : IsLeast rule'.closed (g'.nodeSet, g'.edgeSet))
    (hcalls : ∀ m t, rule.calls g'.nodeSet m t → rule'.calls g'.nodeSet m t) :
    g.nodeSet ⊆ g'.nodeSet ∧ g.edgeSet ⊆ g'.edgeSet := by
  -- the larger graph is closed under the rule of the smaller program, too
  have hclosed : (g'.nodeSet, g'.edgeSet) ∈ rule.closed := by
    refine ⟨fun m hm hb => ?_, hg'.1.callee, fun m hm hb t ht => ?_⟩
    · exact hg'.1.entry m (h.entryPoints m hm) ((h.hasBody m).trans hb)
    · exact hg'.1.call m hm ((h.hasBody m).trans hb) t (hcalls m t ht)
  exact hg.2 hclosed

theorem hierarchy_subset (h : p.TextWithin q) (hp : p.SuperAcyclic) {r r' : Told Run}
    (hr : Hierarchy.run p = .ok r) (hr' : Hierarchy.run q = .ok r') :
    r.result.graph.nodeSet ⊆ r'.result.graph.nodeSet ∧
      r.result.graph.edgeSet ⊆ r'.result.graph.edgeSet := by
  obtain ⟨_, hrun, hleast⟩ := Hierarchy.exists_done hp
  obtain ⟨_, hrun', hleast'⟩ := Hierarchy.exists_done (h.superAcyclic hp)
  cases hr.symm.trans hrun
  cases hr'.symm.trans hrun'
  exact h.subset_of_isLeast hleast hleast' (fun m t ht => h.hierarchyCalls hp ht)

/-- What an analysis finds is found in the larger program, too. -/
theorem graph_subset (h : p.TextWithin q) (hp : p.SuperAcyclic) (a : Algorithm) {r r' : Told Run}
    (hr : a.run p = .ok r) (hr' : a.run q = .ok r') :
    r.result.graph.nodeSet ⊆ r'.result.graph.nodeSet ∧
      r.result.graph.edgeSet ⊆ r'.result.graph.edgeSet := by
  have hq := h.superAcyclic hp
  cases a with
  | cha => exact h.hierarchy_subset hp hr hr'
  | rta =>
    refine h.subset_of_isLeast (Instantiation.isLeast_of_run hp hr)
      (Instantiation.isLeast_of_run hq hr') (fun m t ht => ?_)
    exact (h.instantiationCalls hp ht).mono h.instantiated
  | vta =>
    obtain ⟨hierarchy, _, hh, hrun, -, hleast⟩ := ValueFlow.exists_done hp
    obtain ⟨hierarchy', _, hh', hrun', -, hleast'⟩ := ValueFlow.exists_done hq
    cases hr.symm.trans hrun
    cases hr'.symm.trans hrun'
    have hallows : ∀ m t, hierarchy.result.graph.hasEdge m t = true →
        hierarchy'.result.graph.hasEdge m t = true := by
      intro m t
      rw [CallGraph.hasEdge_iff, CallGraph.hasEdge_iff]
      exact fun he => (h.hierarchy_subset hp hh hh').2 he
    refine h.subset_of_isLeast hleast hleast' (fun m t ht => ?_)
    exact ⟨h.valueFlowCalls hp hallows ht.1, hallows m t ht.2⟩

/-! ## The same text -/

variable {r r' : Told Run}

theorem graph_eq (h : p.TextWithin q) (hback : q.TextWithin p) (hp : p.SuperAcyclic) (a : Algorithm)
    (hr : a.run p = .ok r) (hr' : a.run q = .ok r') :
    r'.result.graph.nodeSet = r.result.graph.nodeSet ∧
      r'.result.graph.edgeSet = r.result.graph.edgeSet := by
  obtain ⟨hnodes, hedges⟩ := h.graph_subset hp a hr hr'
  obtain ⟨hnodes', hedges'⟩ := hback.graph_subset (h.superAcyclic hp) a hr' hr
  exact ⟨hnodes'.antisymm hnodes, hedges'.antisymm hedges⟩

theorem hasEdge_eq (h : p.TextWithin q) (hback : q.TextWithin p) (hp : p.SuperAcyclic)
    (hr : Hierarchy.run p = .ok r) (hr' : Hierarchy.run q = .ok r') :
    r'.result.graph.hasEdge = r.result.graph.hasEdge := by
  have hedges := (h.graph_eq hback hp .cha hr hr').2
  funext m t
  rw [Bool.eq_iff_iff, CallGraph.hasEdge_iff, CallGraph.hasEdge_iff, ← CallGraph.mem_edgeSet, hedges,
    CallGraph.mem_edgeSet]

theorem mem_calls_iff (h : p.TextWithin q) (hback : q.TextWithin p) :
    call ∈ q.calls m ↔ call ∈ p.calls m :=
  ⟨hback.calls, h.calls⟩

theorem instantiated_eq (h : p.TextWithin q) (hback : q.TextWithin p) :
    Instantiation.Instantiated q N = Instantiation.Instantiated p N :=
  hback.instantiated.antisymm h.instantiated

theorem flowsInto_iff (h : p.TextWithin q) (hback : q.TextWithin p) (hp : p.SuperAcyclic)
    {c : String} {n : FlowNode} : FlowsInto q N c n ↔ FlowsInto p N c n :=
  ⟨hback.flowsInto (h.superAcyclic hp), h.flowsInto hp⟩

/-- If two texts are the same up to order and repetition, the same calls resolve to nothing. -/
theorem mem_warnings_iff (h : p.TextWithin q) (hback : q.TextWithin p) (hp : p.SuperAcyclic)
    (a : Algorithm) (hr : a.run p = .ok r) (hr' : a.run q = .ok r') {w : UnresolvedCall} :
    w ∈ r'.result.warnings ↔ w ∈ r.result.warnings := by
  have hq := h.superAcyclic hp
  obtain ⟨hnodes, -⟩ := h.graph_eq hback hp a hr hr'
  cases a with
  | cha =>
    rw [Hierarchy.mem_warnings_iff hq hr', Hierarchy.mem_warnings_iff hp hr, hnodes]
    simp only [Hierarchy.Unresolved, targets_eq_nil_iff hq, targets_eq_nil_iff hp, h.hasBody,
      h.mem_calls_iff hback, h.agreeOn.hasClass (Set.mem_univ _), h.runsBelow hp]
  | rta =>
    rw [Instantiation.mem_warnings_iff hq hr', Instantiation.mem_warnings_iff hp hr, hnodes]
    simp only [Instantiation.Unresolved, Instantiation.Resolves, h.instantiated_eq hback, h.hasBody,
      h.mem_calls_iff hback, h.isConcrete, h.isSubtype, h.dispatch hp]
  | vta =>
    obtain ⟨hierarchy, -, hh, -⟩ := ValueFlow.exists_of_run hr
    obtain ⟨hierarchy', -, hh', -⟩ := ValueFlow.exists_of_run hr'
    rw [ValueFlow.mem_warnings_iff hq hh' hr', ValueFlow.mem_warnings_iff hp hh hr, hnodes,
      h.hasEdge_eq hback hp hh hh']
    simp only [ValueFlow.Unresolved, ValueFlow.Resolves, h.flowsInto_iff hback hp, h.hasBody,
      h.mem_calls_iff hback, h.isSubtype, h.dispatch hp]

end Program.TextWithin

/-! ## All analyses -/

theorem Algorithm.exists_run {p : Program} (a : Algorithm) (hp : p.SuperAcyclic) :
    ∃ r, a.run p = .ok r := by
  cases a with
  | cha =>
    obtain ⟨r, hr, -⟩ := Hierarchy.exists_done hp
    exact ⟨r, hr⟩
  | rta =>
    obtain ⟨_, r, -, hr, -⟩ := Instantiation.exists_done hp
    exact ⟨r, hr⟩
  | vta =>
    obtain ⟨_, r, -, hr, -⟩ := ValueFlow.exists_done hp
    exact ⟨r, hr⟩

/-- If the entry points and statements of one program are among those of another that has the same
declarations, every analysis finds in it no more methods and calls than in the other. If they are the
same up to order and repetition, methods, calls and warnings are the same. -/
theorem analyses_grow (p q : Program) (hp : p.SuperAcyclic) (h : p.TextWithin q) (a : Algorithm) :
    ∃ r r', a.run p = .ok r ∧ a.run q = .ok r' ∧
      r.result.graph.nodeSet ⊆ r'.result.graph.nodeSet ∧
      r.result.graph.edgeSet ⊆ r'.result.graph.edgeSet ∧
      (q.TextWithin p →
        r'.result.graph.nodeSet = r.result.graph.nodeSet ∧
        r'.result.graph.edgeSet = r.result.graph.edgeSet ∧
        ∀ w, w ∈ r'.result.warnings ↔ w ∈ r.result.warnings) := by
  obtain ⟨r, hr⟩ := a.exists_run hp
  obtain ⟨r', hr'⟩ := a.exists_run (h.superAcyclic hp)
  obtain ⟨hnodes, hedges⟩ := h.graph_subset hp a hr hr'
  refine ⟨r, r', hr, hr', hnodes, hedges, fun hback => ?_⟩
  obtain ⟨hnodes', hedges'⟩ := h.graph_eq hback hp a hr hr'
  exact ⟨hnodes', hedges', fun w => h.mem_warnings_iff hback hp a hr hr'⟩

/-- The statements that create, construct and draw an object, from the last to the first and with the
drawing repeated. There are two entry points, which are the same. -/
def shuffledProgram : Program where
  classes := [
    { name := "Main",
      methods := [{ name := "main", descriptor := "()V",
                    body := some [.invoke (relayCall "Dot" "draw" "x"), .invoke lateNew,
                      .assign (.localVar "x") (.new "Dot"),
                      .invoke (relayCall "Dot" "draw" "x")] }] },
    creationClass]
  entryPoints := [⟨"Main", "main", "()V"⟩, ⟨"Main", "main", "()V"⟩]

/-- The object is drawn though it is drawn before it is created. -/
theorem analyses_grow_shuffled :
    (creationProgram [.invoke lateNew]).SuperAcyclic ∧
      (creationProgram [.invoke lateNew]).TextWithin shuffledProgram ∧
      shuffledProgram.TextWithin (creationProgram [.invoke lateNew]) ∧
      ∃ flow, ValueFlow.run shuffledProgram = .ok flow ∧
        (⟨"Main", "main", "()V"⟩, ⟨"Dot", "draw", "()V"⟩) ∈ flow.result.graph.edgeSet := by
  have hp := superAcyclic_creation [.invoke lateNew]
  have hwithin : (creationProgram [.invoke lateNew]).TextWithin shuffledProgram :=
    Program.textWithin_of_declared (by decide) (by decide) (by decide)
  have hback : shuffledProgram.TextWithin (creationProgram [.invoke lateNew]) :=
    Program.textWithin_of_declared (by decide) (by decide) (by decide)
  obtain ⟨r, flow, hr, hflow, -, -, hsame⟩ := analyses_grow _ _ hp hwithin .vta
  refine ⟨hp, hwithin, hback, flow, hflow, ?_⟩
  obtain ⟨-, hedges, -⟩ := hsame hback
  rw [hedges]
  exact draw_mem_edges_creation hr

end Devirt
