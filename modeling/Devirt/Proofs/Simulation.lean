import Devirt.Proofs.Rounds

/-!
# Analyses that stay abreast

Two strategies for one program may keep different states, and may say the same calls in different
words, and yet take the same methods in the same order and add the same calls.

* `Simulates p s s' R` : from states in the relation `R`, a walk or a resolution of `s'` leads to the
  traversal that one of `s` leads to, and to states in `R` again. `R` may look at the traversal;
* `Abreast p R now now'` : the two analyses have come equally far. One walk after the other:
  `Simulates.drains`; a round: `Simulates.round`; all rounds: `Simulates.saturate`,
  `Simulates.analyze`;
* `ValueFlow.exists_runBy` : the variable type analysis with another strategy finds what the analysis
  itself finds, if the strategies stay abreast. They do so if their flow graphs stay alike and have the
  same classes after a propagation (`ValueFlow.simulates_of_alike`);
* `ValueFlow.exists_runBy_find` : so it does not matter how components are found.
-/

namespace Devirt

variable {σ τ : Type} {p : Program} {s : Strategy σ} {s' : Strategy τ}
  {R : σ → τ → Traversal → Prop} {now later done : Progress σ} {now' : Progress τ}

/-- What the first strategy does to a traversal the second does, too, and the states stay in the
relation. -/
structure Simulates (p : Program) (s : Strategy σ) (s' : Strategy τ)
    (R : σ → τ → Traversal → Prop) : Prop where
  initial : R s.initial s'.initial (Traversal.seed {} p)
  visit : ∀ {state state' t m t₁ v t₂}, R state state' t → t.Consistent p →
    t.next = some (m, t₁) → s.visit state m = .ok v →
    t₁.linkAll p (v.callees.map (fun callee => (m, callee))) = .ok t₂ →
    ∃ v', s'.visit state' m = .ok v' ∧
      t₁.linkAll p (v'.callees.map (fun callee => (m, callee))) = .ok t₂ ∧ R v.state v'.state t₂
  resolve : ∀ {state state' t number r t₁}, R state state' t → t.Consistent p →
    s.resolve number state = .ok r → t.linkAll p r.links = .ok t₁ →
    ∃ r', s'.resolve number state' = .ok r' ∧ t.linkAll p r'.links = .ok t₁ ∧
      R r.state r'.state t₁

/-- Two analyses have the same traversal behind them, and states in the relation. -/
structure Abreast (p : Program) (R : σ → τ → Traversal → Prop) (now : Progress σ)
    (now' : Progress τ) : Prop where
  traversal : now'.traversal = now.traversal
  rounds : now'.rounds = now.rounds
  consistent : now.traversal.Consistent p
  state : R now.state now'.state now.traversal

namespace Simulates

theorem drains (h : Simulates p s s' R) {ms : List MethodRef} (hd : Drains p s now ms later)
    (ha : Abreast p R now now') :
    ∃ later', Drains p s' now' ms later' ∧ Abreast p R later later' := by
  induction hd generalizing now' with
  | idle next => exact ⟨now', .idle (ha.traversal ▸ next), ha⟩
  | @walk now later m t t' v rest next visit link drains ih =>
    obtain ⟨v', hvisit, hlink, hstate⟩ := h.visit ha.state ha.consistent next visit link
    have hcons := (Traversal.linked_of_linkAll (ha.consistent.next next).1 link).consistent
    have hnow : Abreast p R ⟨v.state, t', now.events ++ v.events, now.rounds⟩
        ⟨v'.state, t', now'.events ++ v'.events, now'.rounds⟩ := ⟨rfl, ha.rounds, hcons, hstate⟩
    obtain ⟨later', hrest, hlater⟩ := ih hnow
    exact ⟨later', .walk (ha.traversal ▸ next) hvisit hlink hrest, hlater⟩

theorem round (h : Simulates p s s' R) (hr : Devirt.round p s now = .ok later)
    (ha : Abreast p R now now') :
    ∃ later', Devirt.round p s' now' = .ok later' ∧ Abreast p R later later' := by
  obtain ⟨drained, r, t, hd, hresolve, hlink, rfl⟩ := exists_of_round hr
  obtain ⟨ms, hms⟩ := exists_drains hd
  obtain ⟨drained', hms', hdrained⟩ := h.drains hms ha
  obtain ⟨r', hresolve', hlink', hstate⟩ :=
    h.resolve hdrained.state hdrained.consistent hresolve hlink
  have hcons := (Traversal.linked_of_linkAll hdrained.consistent hlink).consistent
  refine ⟨⟨r'.state, t, drained'.events ++ r'.events, now'.rounds + 1⟩, ?_, rfl, ?_, hcons, hstate⟩
  · rw [← ha.rounds] at hresolve'
    simp only [Devirt.round, hms'.drain_eq, hresolve', hdrained.traversal, hlink']
  · exact congrArg (· + 1) ha.rounds

theorem saturate (h : Simulates p s s' R) (hs : Devirt.saturate p s now = .ok done)
    (ha : Abreast p R now now') :
    ∃ done', Devirt.saturate p s' now' = .ok done' ∧ Abreast p R done done' := by
  fun_induction Devirt.saturate p s now generalizing now' with
  | case1 => cases hs
  | case2 now later hr hidle =>
    cases hs
    obtain ⟨later', hr', hlater⟩ := h.round hr ha
    exact ⟨later', saturate_of_idle hr' (hlater.traversal ▸ hidle), hlater⟩
  | case3 now later hr hbusy ih =>
    obtain ⟨later', hr', hlater⟩ := h.round hr ha
    obtain ⟨done', hdone', hdone⟩ := ih hs hlater
    refine ⟨done', ?_, hdone⟩
    rw [saturate_of_busy hr' (by rw [hlater.traversal]; simpa using hbusy), hdone']

/-- If one analysis comes to an end the other does, too, after as many rounds and with the same
graph. -/
theorem analyze (h : Simulates p s s' R) (hs : Devirt.analyze p s = .ok done) :
    ∃ done', Devirt.analyze p s' = .ok done' ∧ Abreast p R done done' := by
  obtain ⟨hcons, -⟩ := Traversal.consistent_foldl_start p.entryPoints (Traversal.consistent_empty p)
  exact h.saturate hs ⟨rfl, rfl, hcons, h.initial⟩

end Simulates

/-! ## Variants of the variable type analysis -/

namespace ValueFlow

theorem exists_runBy (s' : CallGraph → Strategy State) {hierarchy told : Told Run}
    {R : State → State → Traversal → Prop} (hh : Hierarchy.run p = .ok hierarchy)
    (h : Simulates p (strategy p hierarchy.result.graph.hasEdge) (s' hierarchy.result.graph) R)
    (hsame : ∀ state state' t, R state state' t → state'.unresolved = state.unresolved)
    (hrun : run p = .ok told) : ∃ told', runBy p s' = .ok told' ∧ told'.result = told.result := by
  obtain ⟨_, hh', hrun⟩ := exists_of_bind_ok hrun
  cases hh.symm.trans hh'
  obtain ⟨done, hdone, htold⟩ := exists_of_bind_ok hrun
  cases htold
  obtain ⟨done', hdone', habreast⟩ := h.analyze hdone
  refine ⟨_, by simp only [runBy, hh, hdone', bind, Except.bind]; rfl, ?_⟩
  simp only [habreast.traversal, hsame _ _ _ habreast.state]

variable {allows : MethodRef → MethodRef → Bool} {add : FlowGraph → MethodRef → Analyzed FlowGraph}
  {find : Finder}

/-- A resolution looks at the classes of receivers and at nothing else in the graph. -/
theorem site_resolve_congr {flow flow' : FlowGraph} (h : ∀ n, flow'.tags n = flow.tags n)
    (site : Site) : site.resolve p allows flow' = site.resolve p allows flow := by
  simp only [Site.resolve, Site.refine, h]

theorem simulates_of_alike {Alike : FlowGraph → FlowGraph → Prop} (empty : Alike {} {})
    (added : ∀ {g g' : FlowGraph} (m : MethodRef), Alike g g' →
      ∃ k k', g.addMethod p m = .ok k ∧ add g' m = .ok k' ∧ Alike k k')
    (propagated : ∀ {g g' : FlowGraph}, Alike g g' → Alike g.propagate (g'.propagate find))
    (tags : ∀ {g g' : FlowGraph}, Alike g g' → ∀ n, (g'.propagate find).tags n = g.propagate.tags n) :
    Simulates p (strategy p allows) (strategy p allows add find)
      (fun state state' _ => state'.sites = state.sites ∧ Alike state.flow state'.flow) where
  initial := ⟨rfl, empty⟩
  visit := by
    rintro state state' t m t₁ v t₂ ⟨hsites, halike⟩ - - hv hlink
    obtain ⟨flow, flow', hflow, hflow', hnext⟩ := added m halike
    simp only [strategy, hflow] at hv
    cases hv
    exact ⟨⟨⟨flow', _⟩, _, _⟩, by simp only [strategy, hflow', hsites]; rfl, hlink, rfl, hnext⟩
  resolve := by
    rintro state state' t number r t₁ ⟨hsites, halike⟩ - hr hlink
    obtain ⟨resolved, hresolved, hr⟩ := exists_of_bind_ok hr
    cases hr
    have hresolved' : state'.sites.mapM (Site.resolve p allows (state'.flow.propagate find)) =
        .ok resolved := by
      rw [hsites, ← hresolved]
      exact mapM_congr (fun site _ => site_resolve_congr (tags halike) site)
    exact ⟨⟨⟨state'.flow.propagate find, _⟩, _, _⟩, by simp only [strategy, hresolved']; rfl,
      hlink, rfl, propagated halike⟩

/-- Two graphs hold the same contributions. -/
def Agree (g g' : FlowGraph) : Prop := ∃ S, g.Holds S ∧ g'.Holds S

/-- The classes of a place do not depend on the way components are found, and since they are sorted they
are the same list. -/
theorem Agree.tags_propagate {g g' : FlowGraph} (h : Agree g g') (hfind : find.Exact) (n : FlowNode) :
    (g'.propagate find).tags n = g.propagate.tags n := by
  obtain ⟨S, hS, hS'⟩ := h
  refine (g'.increasing_tags_propagate find n).ext (g.increasing_tags_propagate components n) fun c => ?_
  rw [hS'.mem_tags_iff hfind, hS.mem_tags_iff exact_components]

theorem Agree.addMethod (hp : p.SuperAcyclic) {g g' : FlowGraph} (h : Agree g g') (m : MethodRef) :
    ∃ k k', g.addMethod p m = .ok k ∧ g'.addMethod p m = .ok k' ∧ Agree k k' := by
  obtain ⟨S, hS, hS'⟩ := h
  obtain ⟨cs, hcs, -⟩ := exists_methodFlows hp m
  exact ⟨cs.foldl FlowGraph.add g, cs.foldl FlowGraph.add g', by rw [FlowGraph.addMethod, hcs]; rfl,
    by rw [FlowGraph.addMethod, hcs]; rfl, _, hS.addAll cs, hS'.addAll cs⟩

/-- The analysis in which components are found by `find`. -/
def findStrategy (p : Program) (allows : MethodRef → MethodRef → Bool) (find : Finder) :
    Strategy State :=
  strategy p allows (fun flow m => flow.addMethod p m) find

theorem simulates_find (hp : p.SuperAcyclic) (allows : MethodRef → MethodRef → Bool)
    (hfind : find.Exact) :
    Simulates p (strategy p allows) (findStrategy p allows find)
      (fun state state' _ => state'.sites = state.sites ∧ Agree state.flow state'.flow) := by
  refine simulates_of_alike ⟨∅, FlowGraph.holds_empty, FlowGraph.holds_empty⟩
    (fun m h => h.addMethod hp m) ?_ (fun h => h.tags_propagate hfind)
  rintro g g' ⟨S, hS, hS'⟩
  exact ⟨S, hS.propagate components, hS'.propagate find⟩

/-- Without a superclass cycle the variable type analysis finds the same in the same order whichever way
components are found. -/
theorem exists_runBy_find (hp : p.SuperAcyclic) (hfind : find.Exact) :
    ∃ told told', run p = .ok told ∧
      runBy p (fun baseline => findStrategy p baseline.hasEdge find) = .ok told' ∧
      told'.result = told.result := by
  obtain ⟨hierarchy, told, hrun, htold, -, -⟩ := exists_done hp
  obtain ⟨told', htold', hsame⟩ := exists_runBy
    (fun baseline => findStrategy p baseline.hasEdge find) hrun (simulates_find hp _ hfind)
    (fun state state' _ h => by rw [State.unresolved, h.1]; rfl) htold
  exact ⟨told, told', htold, htold', hsame⟩

end ValueFlow

end Devirt
