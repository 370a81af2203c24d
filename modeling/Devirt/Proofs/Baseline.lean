import Devirt.Proofs.Simulation

/-!
# The hierarchy allows every call that can happen

The variable type analysis leaves out what the hierarchy analysis has not found. On objects of
concrete classes this leaves out nothing.

* `Passes p s now` : an analysis comes by this point, one walk or resolution after the other. The end
  is such a point (`passes_of_analyze`), and all of them are on track (`Passes.onTrack`);
* `Permits p g m` : the graph `g` has all calls of `m` that are not dispatched, and all that dispatch
  finds on objects of concrete classes. That of the hierarchy analysis permits every method it
  reaches (`Hierarchy.permits`), and the variable type analysis takes no others;
* `ValueFlow.visit_of_permits`, `ValueFlow.resolve_of_permits` : where new objects are of concrete
  classes, walks and resolutions may do without the hierarchy. So may the analysis
  (`valueFlow_within_baseline`).
-/

namespace Devirt

variable {σ : Type} {p : Program} {s : Strategy σ} {now later done : Progress σ}

/-! ## Points of an analysis -/

/-- An analysis comes by a point: the start, the end of a walk, or the end of a resolution. -/
inductive Passes (p : Program) (s : Strategy σ) : Progress σ → Prop where
  | start : Passes p s ⟨s.initial, Traversal.seed {} p, Traversal.seedEvents p, 0⟩
  | walk {now : Progress σ} {m : MethodRef} {t t' : Traversal} {v : Visit σ} (passes : Passes p s now)
    (next : now.traversal.next = some (m, t)) (visit : s.visit now.state m = .ok v)
    (link : t.linkAll p (v.callees.map (fun callee => (m, callee))) = .ok t') :
    Passes p s ⟨v.state, t', now.events ++ v.events, now.rounds⟩
  | resolve {now : Progress σ} {r : Resolution σ} {t : Traversal} (passes : Passes p s now)
    (next : now.traversal.next = none) (resolve : s.resolve (now.rounds + 1) now.state = .ok r)
    (link : now.traversal.linkAll p r.links = .ok t) :
    Passes p s ⟨r.state, t, now.events ++ r.events, now.rounds + 1⟩

namespace Passes

theorem drains {ms : List MethodRef} (h : Passes p s now) (hd : Drains p s now ms later) :
    Passes p s later ∧ later.traversal.next = none ∧ later.rounds = now.rounds := by
  induction hd with
  | idle next => exact ⟨h, next, rfl⟩
  | walk next visit link drains ih => exact ih (h.walk next visit link)

theorem round (h : Passes p s now) (hr : Devirt.round p s now = .ok later) : Passes p s later := by
  obtain ⟨drained, r, t, hd, hresolve, hlink, rfl⟩ := exists_of_round hr
  obtain ⟨ms, hms⟩ := exists_drains hd
  obtain ⟨hpasses, hnext, hrounds⟩ := h.drains hms
  rw [← hrounds] at hresolve ⊢
  exact hpasses.resolve hnext hresolve hlink

theorem saturate (h : Passes p s now) (hs : Devirt.saturate p s now = .ok done) :
    Passes p s done := by
  fun_induction Devirt.saturate p s now with
  | case1 => cases hs
  | case2 now later hr hidle =>
    cases hs
    exact h.round hr
  | case3 now later hr hbusy ih => exact ih (h.round hr) hs

/-- What a step keeps holds at all points. -/
theorem onTrack {rule : CallRule p} {Inv : σ → Set MethodRef → Set (MethodRef × MethodRef) → Prop}
    (hs : s.Follows rule Inv) (h : Passes p s now) : OnTrack rule Inv now.state now.traversal := by
  induction h with
  | start => exact .seed hs
  | walk passes next visit link ih =>
    obtain ⟨v, t, hvisit, hlink, htrack⟩ := ih.visit hs next
    cases visit.symm.trans hvisit
    cases link.symm.trans hlink
    exact htrack
  | @resolve now r t passes next resolve link ih =>
    obtain ⟨r', t', hresolve, hlink, htrack, -⟩ := ih.resolve hs (now.rounds + 1)
    cases resolve.symm.trans hresolve
    cases link.symm.trans hlink
    exact htrack

end Passes

theorem passes_of_analyze (h : analyze p s = .ok done) : Passes p s done := Passes.start.saturate h

/-! ## What the hierarchy permits -/

/-- A graph has the calls of a method that are not dispatched, and of those that are, the ones that run
on objects of concrete classes. -/
structure Permits (p : Program) (g : CallGraph) (m : MethodRef) : Prop where
  direct : ∀ call ∈ p.calls m, call.kind.isDispatched = false → g.hasEdge m call.method = true
  dispatched : ∀ call ∈ p.calls m, call.kind.isDispatched = true → ∀ c t, p.isConcrete c = true →
    p.isSubtype c call.method.owner = true → p.dispatch c call.method = .ok (some t) →
    p.IsTarget call t ∧ g.hasEdge m t = true

theorem Hierarchy.permits (hp : p.SuperAcyclic) {g : CallGraph} {m : MethodRef}
    (hg : (g.nodeSet, g.edgeSet) ∈ (Hierarchy.rule p).closed) (hm : m ∈ g.nodeSet)
    (hb : p.hasBody m = true) : Permits p g m where
  direct call hcall hd :=
    CallGraph.hasEdge_iff.mpr (hg.call m hm hb _ (Hierarchy.calls_direct hcall hd))
  dispatched call hcall hd c t hconcrete hbelow hfound := by
    refine ⟨Program.exists_targets_of_dispatch hp hd hbelow hconcrete hfound, ?_⟩
    exact CallGraph.hasEdge_iff.mpr
      (hg.call m hm hb t (Hierarchy.calls_dispatched hp hcall hd hbelow hconcrete hfound))

namespace ValueFlow

variable {g : CallGraph} {state : State} {t : Traversal}

/-- The methods taken are methods of the hierarchy analysis, so it permits them. -/
theorem permits_of_onTrack (hp : p.SuperAcyclic)
    (hg : (g.nodeSet, g.edgeSet) ∈ (Hierarchy.rule p).closed)
    (h : OnTrack (rule p g.hasEdge) (Noted p g.hasEdge) state t) {m : MethodRef}
    (hm : m ∈ t.taken) : Permits p g m := by
  obtain ⟨hnode, hb⟩ := h.consistent.of_taken hm
  exact Hierarchy.permits hp hg ((h.sound _ (closed_of_hierarchy hg)).1 hnode) hb

/-! ## Without the hierarchy -/

/-- The analysis that takes every call for allowed. -/
def freeStrategy (p : Program) : Strategy State := strategy p (fun _ _ => true)

theorem visit_of_permits {m : MethodRef} (h : Permits p g m) (state : State) :
    (freeStrategy p).visit state m = (strategy p g.hasEdge).visit state m := by
  have hall : (((p.calls m).filter (fun c => !c.kind.isDispatched)).map (·.method)).filter
      (g.hasEdge m) = ((p.calls m).filter (fun c => !c.kind.isDispatched)).map (·.method) := by
    rw [List.filter_eq_self]
    intro callee hcallee
    obtain ⟨call, hcall, rfl⟩ := List.mem_map.mp hcallee
    obtain ⟨hcall, hd⟩ := List.mem_filter.mp hcall
    exact h.direct call hcall (by simpa using hd)
  simp only [freeStrategy, strategy, hall, List.filter_true]

theorem site_resolve_of_permits (hp : p.SuperAcyclic) {flow : FlowGraph} {site : Site}
    (h : ∀ n, site.receiver = some n → ∀ c ∈ flow.tags n,
      p.isSubtype c site.signature.owner = true → ∀ t, p.dispatch c site.signature = .ok (some t) →
      g.hasEdge site.caller t = true) :
    site.resolve p (fun _ _ => true) flow = site.resolve p g.hasEdge flow := by
  obtain ⟨found, hfound, hmem⟩ := exists_refine hp flow site
  have hall : found.filter (g.hasEdge site.caller) = found := by
    rw [List.filter_eq_self]
    intro t ht
    obtain ⟨n, hn, c, hc, hbelow, hd⟩ := (hmem t).mp ht
    exact h n hn c hc hbelow t hd
  simp only [Site.resolve, hfound, bind, Except.bind, hall, List.filter_true]

/-- An object in a receiver is of a class that the methods taken create, and if this is a concrete one
the call is permitted. -/
theorem resolve_of_permits (hp : p.SuperAcyclic) {P : Set MethodRef}
    {E : Set (MethodRef × MethodRef)} (h : Noted p g.hasEdge state P E)
    (hpermits : ∀ m ∈ P, Permits p g m)
    (hnew : ∀ c n, Creates p P c n → p.hasClass c = true → p.isConcrete c = true) (number : Nat) :
    (freeStrategy p).resolve number state = (strategy p g.hasEdge).resolve number state := by
  have hsites : state.sites.mapM (Site.resolve p (fun _ _ => true) state.flow.propagate) =
      state.sites.mapM (Site.resolve p g.hasEdge state.flow.propagate) := by
    refine mapM_congr fun site hsite => site_resolve_of_permits hp fun n hn c hc hbelow t hd => ?_
    obtain ⟨hm, call, hcall, hkind, hsig, -⟩ :=
      (h.sites site.caller site.signature (some n)).mp ⟨site, hsite, rfl, rfl, hn⟩
    obtain ⟨origin, hcreates, -⟩ := (mem_tags_iff_flowsInto h.flow).mp hc
    have hconcrete := hnew c origin hcreates (Program.hasClass_of_dispatch hd)
    rw [← hsig] at hbelow hd
    exact ((hpermits _ hm).dispatched call hcall hkind c t hconcrete hbelow hd).2
  simp only [freeStrategy, strategy, hsites]

theorem simulates_free (hp : p.SuperAcyclic) {g' : CallGraph}
    (hg : (g.nodeSet, g.edgeSet) ∈ (Hierarchy.rule p).closed)
    (hg' : (g'.nodeSet, g'.edgeSet) ∈ (rule p g.hasEdge).closed)
    (hnew : ∀ c n, Creates p g'.nodeSet c n → p.hasClass c = true → p.isConcrete c = true) :
    Simulates p (strategy p g.hasEdge) (freeStrategy p) (fun state state' t =>
      state' = state ∧ OnTrack (rule p g.hasEdge) (Noted p g.hasEdge) state t) where
  initial := ⟨rfl, .seed (follows hp g.hasEdge)⟩
  visit := by
    rintro state _ t m t₁ v t₂ ⟨rfl, h⟩ hc hn hv hlink
    obtain ⟨w, u, hw, hu, htrack⟩ := h.visit (follows hp g.hasEdge) hn
    cases hv.symm.trans hw
    cases hlink.symm.trans hu
    -- the hierarchy permits the method, since after the walk it is among those taken
    have htaken : m ∈ t₂.taken := by
      obtain ⟨hc₁, -, -, -, -, htaken⟩ := hc.next hn
      rw [(Traversal.linked_of_linkAll hc₁ hlink).taken, htaken]
      exact Set.mem_insert m _
    exact ⟨v, by rw [visit_of_permits (permits_of_onTrack hp hg htrack htaken), hv], hlink, rfl,
      htrack⟩
  resolve := by
    rintro state _ t number r t₁ ⟨rfl, h⟩ hc hr hlink
    obtain ⟨w, u, hw, hu, htrack, -⟩ := h.resolve (follows hp g.hasEdge) number
    cases hr.symm.trans hw
    cases hlink.symm.trans hu
    have hwithin : t.taken ⊆ g'.nodeSet := fun m hm =>
      (h.sound _ hg').1 (hc.of_taken hm).1
    have hsame := resolve_of_permits hp h.inv (fun m hm => permits_of_onTrack hp hg h hm)
      (fun c n ⟨m, hm, hc⟩ => hnew c n ⟨m, hwithin hm, hc⟩) number
    exact ⟨r, hsame.trans hr, hlink, rfl, htrack⟩

end ValueFlow

/-- Without a superclass cycle the hierarchy analysis has, for every method that the variable type
analysis has taken at any point, all its calls that are not dispatched and all targets on objects of
concrete classes. So if the defined classes of new objects are concrete, the variable type analysis
finds the same in the same order without asking the hierarchy. -/
theorem valueFlow_within_baseline (p : Program) (hp : p.SuperAcyclic) :
    ∃ hierarchy told, Hierarchy.run p = .ok hierarchy ∧ ValueFlow.run p = .ok told ∧
      (∃ done, Passes p (ValueFlow.strategy p hierarchy.result.graph.hasEdge) done ∧
        done.traversal.graph = told.result.graph) ∧
      (∀ now, Passes p (ValueFlow.strategy p hierarchy.result.graph.hasEdge) now →
        ∀ m ∈ now.traversal.taken, Permits p hierarchy.result.graph m) ∧
      ((∀ c n, Creates p told.result.graph.nodeSet c n → p.hasClass c = true →
          p.isConcrete c = true) →
        ∃ free, ValueFlow.runBy p (fun _ => ValueFlow.freeStrategy p) = .ok free ∧
          free.result.graph.nodes.toList = told.result.graph.nodes.toList ∧
          free.result.graph.edges.toList = told.result.graph.edges.toList ∧
          free.result.warnings = told.result.warnings) := by
  obtain ⟨hierarchy, told, hrun, htold, hleast, hleast'⟩ := ValueFlow.exists_done hp
  refine ⟨hierarchy, told, hrun, htold, ?_, fun now hpasses m hm => ?_, fun hnew => ?_⟩
  · obtain ⟨done, hdone, hgraph, -⟩ := ValueFlow.endsOrderly hrun htold
    exact ⟨done, passes_of_analyze hdone, hgraph⟩
  · have htrack := hpasses.onTrack (ValueFlow.follows hp hierarchy.result.graph.hasEdge)
    exact ValueFlow.permits_of_onTrack hp hleast.1 htrack hm
  · obtain ⟨free, hfree, hsame⟩ := ValueFlow.exists_runBy (fun _ => ValueFlow.freeStrategy p) hrun
      (ValueFlow.simulates_free hp hleast.1 hleast'.1 hnew)
      (fun state state' t h => congrArg ValueFlow.State.unresolved h.1) htold
    exact ⟨free, hfree, by rw [hsame], by rw [hsame], by rw [hsame]⟩

theorem concrete_of_creates_tangled {N : Set MethodRef} {c : String} {n : FlowNode}
    (h : Creates tangledProgram N c n) : tangledProgram.isConcrete c = true := by
  obtain ⟨m, -, hb, x, hs, -⟩ := h
  have hstatements : ∀ m ∈ tangledProgram.declared, ∀ s ∈ tangledProgram.statements m,
      s = .assign (.localVar "x") (.new "Dot") ∨ s.call?.isSome = true := by decide
  rcases hstatements m (Program.mem_declared_of_hasBody hb) _ hs with heq | hcall
  · cases heq
    decide
  · cases hcall

/-- The hierarchy permits the call through the undefined class, and it is found without asking. -/
theorem valueFlow_within_baseline_tangled :
    tangledProgram.SuperAcyclic ∧ ∃ told free, ValueFlow.run tangledProgram = .ok told ∧
      ValueFlow.runBy tangledProgram (fun _ => ValueFlow.freeStrategy tangledProgram) = .ok free ∧
      free.result.graph.edges.toList = told.result.graph.edges.toList ∧
      (⟨"Main", "main", "()V"⟩, ⟨"Dot", "draw", "()V"⟩) ∈ free.result.graph.edges.toList := by
  have hp : tangledProgram.SuperAcyclic := by decide
  obtain ⟨-, told, -, htold, -, -, hfree⟩ := valueFlow_within_baseline tangledProgram hp
  obtain ⟨free, hfree, -, hedges, -⟩ := hfree (fun c n h _ => concrete_of_creates_tangled h)
  have htarget := Hierarchy.calls_dispatched hp draw_mem_calls_tangled rfl isSubtype_tangled
    (by decide) dispatch_tangled
  have hdraw := ValueFlow.mem_edges_of_created hp htold (by decide) (by decide) (by decide)
    draw_mem_calls_tangled rfl rfl isSubtype_tangled dispatch_tangled htarget
  refine ⟨hp, told, free, htold, hfree, hedges, ?_⟩
  rw [hedges, Roster.mem_toList]
  exact hdraw

end Devirt
