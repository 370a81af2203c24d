import Devirt.Analysis.ValueFlow
import Devirt.Proofs.Contributions
import Devirt.Proofs.Hierarchy
import Devirt.Proofs.Propagation

/-!
# What the variable type analysis finds

* `Calls p allows N m` : the methods that `m` calls when the methods of `N` are reached: on objects
  that flow into a receiver, only what is allowed counts;
* `rule p allows` : these calls, all of them subject to what is allowed;
* `Noted` : what the state of the analysis knows of the methods taken: the flow graph holds their
  contributions, and their dispatched calls are known. Every resolution propagates first, so the
  tags of a receiver are the classes that flow into it (`mem_tags_iff_flowsInto`);
* `exists_done`, `valueFlow_isLeast` : within the calls of the hierarchy, methods and calls are the
  least closed ones.
-/

namespace Devirt

namespace ValueFlow

variable {p : Program} {allows : MethodRef → MethodRef → Bool}

/-! ## The rule -/

/-- The methods that a method calls when these methods are reached. -/
inductive Calls (p : Program) (allows : MethodRef → MethodRef → Bool) (N : Set MethodRef)
    (m : MethodRef) : MethodRef → Prop where
  | direct {call : Call} (mem : call ∈ p.calls m) (kind : call.kind.isDispatched = false) :
    Calls p allows N m call.method
  | dispatched {call : Call} {r : Value} {c : String} {t : MethodRef} (mem : call ∈ p.calls m)
    (kind : call.kind.isDispatched = true) (receiver : call.receiver? = some r)
    (flows : FlowsInto p N c (.of m r)) (below : p.isSubtype c call.method.owner = true)
    (found : p.dispatch c call.method = .ok (some t)) (allowed : allows m t = true) :
    Calls p allows N m t

theorem Calls.map {N N' : Set MethodRef} {m t : MethodRef}
    (hflows : ∀ c n, FlowsInto p N c n → FlowsInto p N' c n) (h : Calls p allows N m t) :
    Calls p allows N' m t := by
  cases h with
  | direct mem kind => exact .direct mem kind
  | dispatched mem kind receiver flows below found allowed =>
    exact .dispatched mem kind receiver (hflows _ _ flows) below found allowed

/-- The calls of methods that are allowed. -/
def rule (p : Program) (allows : MethodRef → MethodRef → Bool) : CallRule p where
  calls N m t := Calls p allows N m t ∧ allows m t = true
  mono h hc := ⟨hc.1.map (fun _ _ hf => hf.mono h), hc.2⟩
  bodied hc := ⟨hc.1.map (fun _ _ hf => flowsInto_bodied hf), hc.2⟩

/-! ## Dispatched calls -/

/-- The tags of a place after a propagation are the classes that flow into it. -/
theorem mem_tags_iff_flowsInto {g : FlowGraph} {P : Set MethodRef}
    (h : g.Holds (Contributed p P)) {c : String} {n : FlowNode} :
    c ∈ g.propagate.tags n ↔ FlowsInto p P c n := by
  simp only [h.mem_tags_iff exact_components, seed_mem_contributed]
  rfl

/-- A site that has looked at its receiver, and the calls that the classes of the receiver give. -/
structure Resolved (p : Program) (allows : MethodRef → MethodRef → Bool) (flow : FlowGraph)
    (site : Site) (y : Site × List (MethodRef × MethodRef)) : Prop where
  caller : y.1.caller = site.caller
  signature : y.1.signature = site.signature
  receiver : y.1.receiver = site.receiver
  links : ∀ e, e ∈ y.2 ↔ e.1 = site.caller ∧ allows e.1 e.2 = true ∧ ∃ n, site.receiver = some n ∧
    ∃ c ∈ flow.tags n, p.isSubtype c site.signature.owner = true ∧
      p.dispatch c site.signature = .ok (some e.2)

theorem exists_refine (hp : p.SuperAcyclic) (flow : FlowGraph) (site : Site) :
    ∃ found, site.refine p flow = .ok found ∧ ∀ t, t ∈ found ↔ ∃ n, site.receiver = some n ∧
      ∃ c ∈ flow.tags n, p.isSubtype c site.signature.owner = true ∧
        p.dispatch c site.signature = .ok (some t) := by
  unfold Site.refine
  cases hr : site.receiver with
  | none => exact ⟨[], rfl, by simp⟩
  | some n =>
    obtain ⟨found, hfound, hmem⟩ := Program.exists_mapM_dispatch hp site.signature
      ((flow.tags n).filter (fun c => p.isSubtype c site.signature.owner))
    refine ⟨Ordered.ofList (found.filterMap id), by simp only [hfound]; rfl, fun t => ?_⟩
    rw [Ordered.mem_ofList, hmem]
    simp [and_assoc]

theorem exists_resolved (hp : p.SuperAcyclic) (allows : MethodRef → MethodRef → Bool)
    (flow : FlowGraph) (site : Site) :
    ∃ y, site.resolve p allows flow = .ok y ∧ Resolved p allows flow site y := by
  obtain ⟨found, hfound, hmem⟩ := exists_refine hp flow site
  refine ⟨_, by rw [Site.resolve, hfound]; rfl, rfl, rfl, rfl, ?_⟩
  rintro ⟨a, b⟩
  simp only [List.mem_map, List.mem_filter, Prod.mk.injEq, exists_eq_right_right, hmem]
  constructor
  · rintro ⟨⟨hb, hallowed⟩, rfl⟩
    exact ⟨rfl, hallowed, hb⟩
  · rintro ⟨rfl, hallowed, hb⟩
    exact ⟨⟨hb, hallowed⟩, rfl⟩

/-! ## What the state knows -/

/-- The state knows the flows and the dispatched calls of the methods taken, and their other calls
have been added as far as they are allowed. -/
structure Noted (p : Program) (allows : MethodRef → MethodRef → Bool) (state : State)
    (P : Set MethodRef) (E : Set (MethodRef × MethodRef)) : Prop where
  flow : state.flow.Holds (Contributed p P)
  sites : ∀ m s n, (∃ site ∈ state.sites, site.caller = m ∧ site.signature = s ∧ site.receiver = n) ↔
    m ∈ P ∧ ∃ call ∈ p.calls m, call.kind.isDispatched = true ∧ call.method = s ∧
      call.receiver?.map (FlowNode.of m) = n
  direct : ∀ m ∈ P, ∀ call ∈ p.calls m, call.kind.isDispatched = false →
    allows m call.method = true → (m, call.method) ∈ E

variable {state : State} {P : Set MethodRef} {E : Set (MethodRef × MethodRef)}

theorem noted_initial (p : Program) (allows : MethodRef → MethodRef → Bool) :
    Noted p allows {} ∅ ∅ where
  flow := by
    have hnone : Contributed p ∅ = ∅ := by
      ext x
      simp [Contributed]
    rw [hnone]
    exact FlowGraph.holds_empty
  sites m s n := by simp
  direct m hm := absurd hm (Set.notMem_empty m)

/-- A walk adds the contributions of the method and its dispatched calls, and calls the methods that
its other calls name, as far as they are allowed. -/
theorem exists_visit {m : MethodRef} (hp : p.SuperAcyclic)
    (allows : MethodRef → MethodRef → Bool) (hb : p.hasBody m = true)
    (h : state.flow.Holds (Contributed p P)) :
    ∃ v, (strategy p allows).visit state m = .ok v ∧
      v.state.flow.Holds (Contributed p (insert m P)) ∧
      v.state.sites =
        state.sites ++ ((p.calls m).filter (·.kind.isDispatched)).map (Site.of m) ∧
      ∀ t, t ∈ v.callees ↔
        (∃ call ∈ p.calls m, call.kind.isDispatched = false ∧ call.method = t) ∧
          allows m t = true := by
  obtain ⟨flow, hflow, hholds⟩ := FlowGraph.exists_addMethod hp hb h
  refine ⟨_, by simp only [strategy, hflow]; rfl, hholds, rfl, fun t => ?_⟩
  simp [and_assoc]

theorem Noted.visit {m : MethodRef} {v : Visit State} (h : Noted p allows state P E)
    (hflow : v.state.flow.Holds (Contributed p (insert m P)))
    (hsites : v.state.sites =
      state.sites ++ ((p.calls m).filter (·.kind.isDispatched)).map (Site.of m))
    (hcallees : ∀ t, t ∈ v.callees ↔
      (∃ call ∈ p.calls m, call.kind.isDispatched = false ∧ call.method = t) ∧
        allows m t = true) :
    Noted p allows v.state (insert m P) (E ∪ {e | e.1 = m ∧ e.2 ∈ v.callees}) where
  flow := hflow
  sites x s n := by
    rw [hsites]
    exact exists_kept_insert
      (R := fun site : Site => site.caller = x ∧ site.signature = s ∧ site.receiver = n)
      (Q := fun x call => call.method = s ∧ call.receiver?.map (FlowNode.of x) = n) _ (h.sites x s n)
      (fun call => Iff.rfl)
  direct x hx call hcall hd hallowed := by
    rcases hx with rfl | hx
    · exact .inr ⟨rfl, (hcallees _).mpr ⟨⟨call, hcall, hd, rfl⟩, hallowed⟩⟩
    · exact .inl (h.direct x hx call hcall hd hallowed)

/-! ## Resolutions -/

theorem exists_resolve (hp : p.SuperAcyclic) (allows : MethodRef → MethodRef → Bool) (number : Nat)
    (state : State) :
    ∃ (resolved : List (Site × List (MethodRef × MethodRef))) (events : List Event),
      (strategy p allows).resolve number state =
        .ok ⟨⟨state.flow.propagate, resolved.map (·.1)⟩, resolved.flatMap (·.2), events⟩ ∧
      (∀ y ∈ resolved, ∃ site ∈ state.sites, Resolved p allows state.flow.propagate site y) ∧
      ∀ site ∈ state.sites, ∃ y ∈ resolved, Resolved p allows state.flow.propagate site y := by
  obtain ⟨resolved, hresolved, hback, hforth⟩ := exists_mapM_rel
    (fun site (_ : site ∈ state.sites) => exists_resolved hp allows state.flow.propagate site)
  exact ⟨resolved, _, by simp only [strategy, hresolved]; rfl, hback, hforth⟩

theorem Noted.resolve {resolved : List (Site × List (MethodRef × MethodRef))}
    (h : Noted p allows state P E)
    (hback : ∀ y ∈ resolved, ∃ site ∈ state.sites, Resolved p allows state.flow.propagate site y)
    (hforth : ∀ site ∈ state.sites, ∃ y ∈ resolved,
      Resolved p allows state.flow.propagate site y) :
    Noted p allows ⟨state.flow.propagate, resolved.map (·.1)⟩ P
      (E ∪ {e | e ∈ resolved.flatMap (·.2)}) where
  flow := h.flow.propagate components
  sites m s n := by
    rw [← h.sites]
    refine exists_kept_resolved hback hforth (fun site y hres => ?_)
    rw [hres.caller, hres.signature, hres.receiver]
  direct m hm call hcall hd hallowed := .inl (h.direct m hm call hcall hd hallowed)

theorem follows (hp : p.SuperAcyclic) (allows : MethodRef → MethodRef → Bool) :
    (strategy p allows).Follows (rule p allows) (Noted p allows) where
  initial := noted_initial p allows
  visit {state P E m} h hb := by
    obtain ⟨v, hv, hflow, hsites, hcallees⟩ := exists_visit hp allows hb h.flow
    refine ⟨v, hv, fun t ht => ?_, h.visit hflow hsites hcallees⟩
    obtain ⟨⟨call, hcall, hd, rfl⟩, hallowed⟩ := (hcallees t).mp ht
    exact ⟨.direct hcall hd, hallowed⟩
  resolve {state P E} number h := by
    obtain ⟨resolved, events, hresolve, hback, hforth⟩ := exists_resolve hp allows number state
    refine ⟨_, hresolve, ?_, h.resolve hback hforth, ?_⟩
    · intro e he
      obtain ⟨y, hy, he⟩ := List.mem_flatMap.mp he
      obtain ⟨site, hsite, hres⟩ := hback y hy
      obtain ⟨hcaller, hallowed, n, hn, c, hc, hbelow, hd⟩ := (hres.links e).mp he
      obtain ⟨hm, call, hcall, hkind, hsig, hreceiver⟩ := (h.sites e.1 site.signature (some n)).mp
        ⟨site, hsite, hcaller.symm, rfl, hn⟩
      obtain ⟨r, hr, rfl⟩ := Option.map_eq_some_iff.mp hreceiver
      rw [← hsig] at hbelow hd
      have hflows := (mem_tags_iff_flowsInto h.flow).mp hc
      exact ⟨hm, .dispatched hcall hkind hr hflows hbelow hd hallowed, hallowed⟩
    · rintro m hm t ⟨hcalls, hallowed⟩
      cases hcalls with
      | direct mem kind => exact .inl (h.direct m hm _ mem kind hallowed)
      | @dispatched call r c _ mem kind receiver flows below found _ =>
        obtain ⟨site, hsite, rfl, hsig, hn⟩ := (h.sites m call.method (some (.of m r))).mpr
          ⟨hm, call, mem, kind, rfl, by rw [receiver]; rfl⟩
        obtain ⟨y, hy, hres⟩ := hforth site hsite
        have htag := (mem_tags_iff_flowsInto h.flow).mpr flows
        rw [← hsig] at below found
        refine .inr (List.mem_flatMap.mpr ⟨y, hy, (hres.links _).mpr ?_⟩)
        exact ⟨rfl, hallowed, _, hn, c, htag, below, found⟩

/-! ## The result -/

/-- The hierarchy analysis and this one have results, and the graph is the least one closed under the
calls that the hierarchy allows. -/
theorem exists_done (hp : p.SuperAcyclic) :
    ∃ hierarchy told, Hierarchy.run p = .ok hierarchy ∧ run p = .ok told ∧
      IsLeast (Hierarchy.rule p).closed
        (hierarchy.result.graph.nodeSet, hierarchy.result.graph.edgeSet) ∧
      IsLeast (rule p hierarchy.result.graph.hasEdge).closed
        (told.result.graph.nodeSet, told.result.graph.edgeSet) := by
  obtain ⟨hierarchy, hrun, hhierarchy⟩ := Hierarchy.exists_done hp
  obtain ⟨done, hdone, -, -, hleast⟩ :=
    exists_analyze (follows hp hierarchy.result.graph.hasEdge)
  obtain ⟨told, htold, hgraph⟩ : ∃ told, run p = .ok told ∧
      told.result.graph = done.traversal.graph := by
    refine ⟨?told, ?run, ?graph⟩
    case run =>
      simp only [run, runBy, hrun, hdone, bind, Except.bind]
      rfl
    case graph => rfl
  exact ⟨hierarchy, told, hrun, htold, hhierarchy, hgraph ▸ hleast⟩

/-- What is closed under the calls of the hierarchy is closed under those that it allows. -/
theorem closed_of_hierarchy {g : CallGraph}
    (hg : (g.nodeSet, g.edgeSet) ∈ (Hierarchy.rule p).closed) :
    (g.nodeSet, g.edgeSet) ∈ (rule p g.hasEdge).closed :=
  ⟨hg.entry, hg.callee, fun _ _ _ _ ht => CallGraph.hasEdge_iff.mp ht.2⟩

/-- Nothing is in the graph that is not in that of the hierarchy analysis. -/
theorem subset_hierarchy {g g' : CallGraph}
    (hg : IsLeast (Hierarchy.rule p).closed (g.nodeSet, g.edgeSet))
    (hg' : IsLeast (rule p g.hasEdge).closed (g'.nodeSet, g'.edgeSet)) :
    g'.nodeSet ⊆ g.nodeSet ∧ g'.edgeSet ⊆ g.edgeSet := hg'.2 (closed_of_hierarchy hg.1)

/-- The hierarchy allows all calls that are not dispatched, so for them it need not be asked. -/
theorem isLeast_of_rule {g g' : CallGraph}
    (hg : IsLeast (Hierarchy.rule p).closed (g.nodeSet, g.edgeSet))
    (hg' : IsLeast (rule p g.hasEdge).closed (g'.nodeSet, g'.edgeSet)) :
    IsLeast {s : Set MethodRef × Set (MethodRef × MethodRef) |
        CallsClosed p (Calls p g.hasEdge s.1) s.1 s.2} (g'.nodeSet, g'.edgeSet) := by
  refine ⟨⟨hg'.1.entry, hg'.1.callee, fun m hm hb t ht => ?_⟩, ?_⟩
  · refine hg'.1.call m hm hb t ⟨ht, ?_⟩
    cases ht with
    | direct mem kind =>
      have hnode : m ∈ g.nodeSet := (subset_hierarchy hg hg').1 hm
      exact CallGraph.hasEdge_iff.mpr (hg.1.call m hnode hb _ (Hierarchy.calls_direct mem kind))
    | dispatched mem kind receiver flows below found allowed => exact allowed
  · intro s hs
    exact hg'.2 ⟨hs.entry, hs.callee, fun m hm hb t ht => hs.call m hm hb t ht.1⟩

end ValueFlow

/-- Without a superclass cycle the variable type analysis has a result. Its methods and calls are the
least closed ones, where a dispatched call gives the methods of the classes whose objects flow into
its receiver, as far as the hierarchy analysis of the program has these calls. -/
theorem valueFlow_isLeast (p : Program) (hp : p.SuperAcyclic) :
    ∃ hierarchy told, Hierarchy.run p = .ok hierarchy ∧ ValueFlow.run p = .ok told ∧
      IsLeast {g : Set MethodRef × Set (MethodRef × MethodRef) |
          CallsClosed p (ValueFlow.Calls p hierarchy.result.graph.hasEdge g.1) g.1 g.2}
        (told.result.graph.nodeSet, told.result.graph.edgeSet) := by
  obtain ⟨hierarchy, told, hrun, htold, hhierarchy, hleast⟩ := ValueFlow.exists_done hp
  exact ⟨hierarchy, told, hrun, htold, ValueFlow.isLeast_of_rule hhierarchy hleast⟩

def relayCall (owner name holder : String) : Call :=
  { kind := .virtual, method := ⟨owner, name, "()V"⟩, receiver := some (.localVar holder) }

/-- A method draws the object of a field, which only a method creates that it calls by dispatch,
too. -/
def relayProgram : Program where
  classes := [
    { name := "Main",
      methods := [{ name := "main", descriptor := "()V",
                    body := some [.assign (.localVar "x") (.use (.field "Main" "shape")),
                      .invoke (relayCall "Dot" "draw" "x"),
                      .assign (.localVar "h") (.new "Helper"),
                      .invoke (relayCall "Helper" "help" "h")] }] },
    { name := "Helper",
      methods := [{ name := "help", descriptor := "()V",
                    body := some [.assign (.field "Main" "shape") (.new "Dot")] }] },
    { name := "Dot",
      methods := [{ name := "draw", descriptor := "()V", body := some [] }] }]
  entryPoints := [⟨"Main", "main", "()V"⟩]

theorem dispatch_relay_help : relayProgram.dispatch "Helper" ⟨"Helper", "help", "()V"⟩ =
    .ok (some ⟨"Helper", "help", "()V"⟩) := rfl

theorem dispatch_relay_draw : relayProgram.dispatch "Dot" ⟨"Dot", "draw", "()V"⟩ =
    .ok (some ⟨"Dot", "draw", "()V"⟩) := rfl

theorem help_mem_calls_relay :
    relayCall "Helper" "help" "h" ∈ relayProgram.calls ⟨"Main", "main", "()V"⟩ := by decide

theorem draw_mem_calls_relay :
    relayCall "Dot" "draw" "x" ∈ relayProgram.calls ⟨"Main", "main", "()V"⟩ := by decide

theorem hasEdge_relay {hierarchy : Told Run} (h : Hierarchy.run relayProgram = .ok hierarchy) :
    hierarchy.result.graph.hasEdge ⟨"Main", "main", "()V"⟩ ⟨"Dot", "draw", "()V"⟩ = true ∧
      hierarchy.result.graph.hasEdge ⟨"Main", "main", "()V"⟩ ⟨"Helper", "help", "()V"⟩ = true := by
  have hp : relayProgram.SuperAcyclic := by decide
  obtain ⟨_, h', hclosed, -⟩ := Hierarchy.exists_done hp
  cases h.symm.trans h'
  have hmain := hclosed.entry ⟨"Main", "main", "()V"⟩ (by decide) (by decide)
  have hdraw := Hierarchy.calls_dispatched hp draw_mem_calls_relay rfl
    (Program.isSubtype_iff.mpr (.refl _)) (by decide) dispatch_relay_draw
  have hhelp := Hierarchy.calls_dispatched hp help_mem_calls_relay rfl
    (Program.isSubtype_iff.mpr (.refl _)) (by decide) dispatch_relay_help
  exact ⟨CallGraph.hasEdge_iff.mpr (hclosed.call _ hmain (by decide) _ hdraw),
    CallGraph.hasEdge_iff.mpr (hclosed.call _ hmain (by decide) _ hhelp)⟩

/-- The drawing method is called, though the object is created in a method that is reached later. -/
theorem valueFlow_isLeast_relay :
    relayProgram.SuperAcyclic ∧ ∃ told, ValueFlow.run relayProgram = .ok told ∧
      (⟨"Main", "main", "()V"⟩, ⟨"Dot", "draw", "()V"⟩) ∈ told.result.graph.edges := by
  have hp : relayProgram.SuperAcyclic := by decide
  obtain ⟨hierarchy, told, hrun, htold, hclosed, -⟩ := valueFlow_isLeast relayProgram hp
  obtain ⟨hdraw, hhelp⟩ := hasEdge_relay hrun
  have hmain := hclosed.entry ⟨"Main", "main", "()V"⟩ (by decide) (by decide)
  -- the helper is reached, since the object that it is called on is created on the spot
  have hreached := hclosed.callee _ (hclosed.call _ hmain (by decide) _
    (.dispatched help_mem_calls_relay rfl rfl
      ⟨_, ⟨_, hmain, by decide, .localVar "h", by decide, rfl⟩, .refl⟩
      (Program.isSubtype_iff.mpr (.refl _)) dispatch_relay_help hhelp))
  have hflow : FlowEdge relayProgram told.result.graph.nodeSet (.field "Main" "shape")
      (.of ⟨"Main", "main", "()V"⟩ (.localVar "x")) :=
    ⟨_, hmain, by decide, .assign (.localVar "x") (.use (.field "Main" "shape")), by decide, _, rfl,
      List.mem_singleton_self _⟩
  exact ⟨hp, told, htold, hclosed.call _ hmain (by decide) _
    (.dispatched draw_mem_calls_relay rfl rfl
      ⟨_, ⟨_, hreached, by decide, .field "Main" "shape", by decide, rfl⟩, .single hflow⟩
      (Program.isSubtype_iff.mpr (.refl _)) dispatch_relay_draw hdraw)⟩

end Devirt
