import Devirt.Proofs.Instantiation
import Devirt.Proofs.ValueFlow

/-!
# The order of the analyses by precision

The graph of the hierarchy analysis is above the other two (`hierarchy_above_refinements`). The
variable type analysis follows new objects, and the rapid type analysis counts the constructor
calls on them, of concrete classes only. A program need not have both, so the graph of the first is
not always below that of the second.

* `Covered p allows N I m` : the calls of `m` on objects that flow into its receivers are calls on
  objects of the classes `I`;
* `valueFlow_subset_instantiation_iff` : the graph is below the other one exactly if this is so in
  the methods of both;
* `covered_of_created` : it is so if new objects are of concrete classes that are instantiated;
* `Uncounted p N I` : a method of `N` creates an object that the classes `I` leave out. Nothing else
  makes the graph of the first exceed the other (`valueFlow_excess_uncounted`).
-/

namespace Devirt

variable {p : Program}

/-! ## Below the hierarchy -/

theorem Instantiation.Calls.hierarchy (hp : p.SuperAcyclic) {I : Set String} {m t : MethodRef}
    (h : Instantiation.Calls p I m t) : Hierarchy.Calls p m t := by
  cases h with
  | direct mem kind => exact Hierarchy.calls_direct mem kind
  | dispatched mem kind live concrete below found =>
    exact Hierarchy.calls_dispatched hp mem kind below concrete found

theorem Instantiation.subset_hierarchy (hp : p.SuperAcyclic) {g g' : CallGraph}
    (hg : IsLeast (Hierarchy.rule p).closed (g.nodeSet, g.edgeSet))
    (hg' : IsLeast (Instantiation.rule p).closed (g'.nodeSet, g'.edgeSet)) :
    g'.nodeSet ⊆ g.nodeSet ∧ g'.edgeSet ⊆ g.edgeSet := by
  rw [CallRule.subset_iff hg' hg]
  intro m _ _ t ht
  exact Instantiation.Calls.hierarchy hp ht

/-- Without a superclass cycle all analyses have results, and what the rapid type analysis or the
variable type analysis finds is found by the class hierarchy analysis, too. -/
theorem hierarchy_above_refinements (p : Program) (hp : p.SuperAcyclic) :
    ∃ hierarchy rapid flow, Hierarchy.run p = .ok hierarchy ∧ Instantiation.run p = .ok rapid ∧
      ValueFlow.run p = .ok flow ∧
      rapid.result.graph.nodeSet ⊆ hierarchy.result.graph.nodeSet ∧
      rapid.result.graph.edgeSet ⊆ hierarchy.result.graph.edgeSet ∧
      flow.result.graph.nodeSet ⊆ hierarchy.result.graph.nodeSet ∧
      flow.result.graph.edgeSet ⊆ hierarchy.result.graph.edgeSet := by
  obtain ⟨hierarchy, flow, hhierarchy, hflow, hleast, hflowLeast⟩ := ValueFlow.exists_done hp
  obtain ⟨done, rapid, -, hrapid, hgraph, -, hrapidLeast⟩ := Instantiation.exists_done hp
  rw [← hgraph] at hrapidLeast
  have hbelow := Instantiation.subset_hierarchy hp hleast hrapidLeast
  have hbelow' := ValueFlow.subset_hierarchy hleast hflowLeast
  exact ⟨hierarchy, rapid, flow, hhierarchy, hrapid, hflow, hbelow.1, hbelow.2, hbelow'⟩

/-- An entry point that creates an object calls what dispatch finds on it, if the hierarchy has this
call. -/
theorem ValueFlow.mem_edges_of_created (hp : p.SuperAcyclic) {flow : Told Run} {m t : MethodRef}
    {call : Call} {r : Value} {c : String} (hrun : ValueFlow.run p = .ok flow)
    (hentry : m ∈ p.entryPoints) (hb : p.hasBody m = true)
    (hnew : .assign r (.new c) ∈ p.statements m) (hcall : call ∈ p.calls m)
    (hd : call.kind.isDispatched = true) (hr : call.receiver? = some r)
    (hbelow : p.isSubtype c call.method.owner = true)
    (hfound : p.dispatch c call.method = .ok (some t)) (htarget : Hierarchy.Calls p m t) :
    (m, t) ∈ flow.result.graph.edgeSet := by
  obtain ⟨hierarchy, flow', -, hrun', hhierarchy, hleast⟩ := ValueFlow.exists_done hp
  rw [hrun] at hrun'
  cases hrun'
  have hallowed : hierarchy.result.graph.hasEdge m t = true := by
    rw [CallGraph.hasEdge_iff]
    exact hhierarchy.1.call m (hhierarchy.1.entry m hentry hb) hb t htarget
  have hnode := hleast.1.entry m hentry hb
  have hflows : FlowsInto p flow.result.graph.nodeSet c (.of m r) :=
    ⟨_, ⟨m, hnode, hb, r, hnew, rfl⟩, .refl⟩
  exact hleast.1.call m hnode hb t
    ⟨.dispatched hcall hd hr hflows hbelow hfound hallowed, hallowed⟩

/-- A dispatched call through a class that is not defined. -/
def tangledDraw (receiver : Value) : Call :=
  { kind := .interface, method := ⟨"Drawable", "draw", "()V"⟩, receiver := some receiver }

/-- Two interfaces that extend each other, one of them also an interface that is not defined, and a
class that is defined twice, first below a class that is not defined and then below itself. Its method
calls itself, and one entry point has no code. -/
def tangledProgram : Program :=
  Program.new [
    { name := "Main",
      methods := [{ name := "main", descriptor := "()V",
                    body := some [.assign (.localVar "x") (.new "Dot"), .invoke lateNew,
                      .invoke (tangledDraw (.localVar "x"))] }] },
    { name := "Figure", isInterface := true, interfaces := ["Shape", "Drawable"],
      methods := [{ name := "draw", descriptor := "()V", access := { isAbstract := true } }] },
    { name := "Shape", isInterface := true, interfaces := ["Figure"] },
    { name := "Dot", superName := some "Base", interfaces := ["Shape"],
      methods := [{ name := "draw", descriptor := "()V",
                    body := some [.invoke (tangledDraw .self)] }] },
    { name := "Dot", superName := some "Dot" }]
    [⟨"Main", "main", "()V"⟩, ⟨"Figure", "draw", "()V"⟩, ⟨"Main", "main", "()V"⟩]

theorem isSubtype_tangled : tangledProgram.isSubtype "Dot" "Drawable" = true := by
  rw [Program.isSubtype_iff]
  exact .head (y := "Shape") (by decide) (.head (y := "Figure") (by decide)
    (.head (by decide) (.refl _)))

theorem dispatch_tangled : tangledProgram.dispatch "Dot" ⟨"Drawable", "draw", "()V"⟩ =
    .ok (some ⟨"Dot", "draw", "()V"⟩) := rfl

theorem draw_mem_calls_tangled :
    tangledDraw (.localVar "x") ∈ tangledProgram.calls ⟨"Main", "main", "()V"⟩ := by decide

theorem draw_mem_edges_tangled {rapid : Told Run}
    (h : Instantiation.run tangledProgram = .ok rapid) :
    (⟨"Main", "main", "()V"⟩, ⟨"Dot", "draw", "()V"⟩) ∈ rapid.result.graph.edgeSet := by
  have hp : tangledProgram.SuperAcyclic := by decide
  have hclosed := (Instantiation.isLeast_of_run hp h).1
  have hmain := hclosed.entry ⟨"Main", "main", "()V"⟩ (by decide) (by decide)
  have hlive : "Dot" ∈ Instantiation.Instantiated tangledProgram rapid.result.graph.nodeSet :=
    ⟨_, hmain, by decide, lateNew, by decide, rfl, rfl, by decide, rfl⟩
  exact hclosed.call _ hmain (by decide) _
    (.dispatched draw_mem_calls_tangled rfl hlive (by decide) isSubtype_tangled dispatch_tangled)

/-- Both refinements find the call through the undefined class, and so does the hierarchy. -/
theorem hierarchy_above_refinements_tangled :
    tangledProgram.SuperAcyclic ∧
      ∃ hierarchy rapid flow, Hierarchy.run tangledProgram = .ok hierarchy ∧
        Instantiation.run tangledProgram = .ok rapid ∧ ValueFlow.run tangledProgram = .ok flow ∧
        (⟨"Main", "main", "()V"⟩, ⟨"Dot", "draw", "()V"⟩) ∈
          rapid.result.graph.edgeSet ∩ flow.result.graph.edgeSet ∧
        rapid.result.graph.edgeSet ∪ flow.result.graph.edgeSet ⊆
          hierarchy.result.graph.edgeSet := by
  have hp : tangledProgram.SuperAcyclic := by decide
  obtain ⟨hierarchy, rapid, flow, hhierarchy, hrapid, hflow, -, hedges, -, hedges'⟩ :=
    hierarchy_above_refinements tangledProgram hp
  have htarget := Hierarchy.calls_dispatched hp draw_mem_calls_tangled rfl isSubtype_tangled
    (by decide) dispatch_tangled
  have hdraw := ValueFlow.mem_edges_of_created hp hflow (by decide) (by decide) (by decide)
    draw_mem_calls_tangled rfl rfl isSubtype_tangled dispatch_tangled htarget
  exact ⟨hp, hierarchy, rapid, flow, hhierarchy, hrapid, hflow,
    ⟨draw_mem_edges_tangled hrapid, hdraw⟩, Set.union_subset hedges hedges'⟩

/-! ## The condition -/

/-- The methods that objects flowing into receivers give are called on objects of classes in `I`,
too. -/
def Covered (p : Program) (allows : MethodRef → MethodRef → Bool) (N : Set MethodRef)
    (I : Set String) (m : MethodRef) : Prop :=
  ∀ call ∈ p.calls m, call.kind.isDispatched = true → ∀ r, call.receiver? = some r →
    ∀ c, FlowsInto p N c (.of m r) → p.isSubtype c call.method.owner = true →
      ∀ t, p.dispatch c call.method = .ok (some t) → allows m t = true → Instantiation.Calls p I m t

/-- Other calls are the same for both analyses. -/
theorem covered_iff {allows : MethodRef → MethodRef → Bool} {N : Set MethodRef} {I : Set String}
    {m : MethodRef} :
    Covered p allows N I m ↔
      ∀ t, (ValueFlow.rule p allows).calls N m t → Instantiation.Calls p I m t := by
  constructor
  · rintro h t ⟨hcalls, -⟩
    cases hcalls with
    | direct mem kind => exact .direct mem kind
    | dispatched mem kind receiver flows below found allowed =>
      exact h _ mem kind _ receiver _ flows below t found allowed
  · intro h call hcall hkind r hr c hflows hbelow t hfound hallowed
    exact h t ⟨.dispatched hcall hkind hr hflows hbelow hfound hallowed, hallowed⟩

/-- The condition holds if the defined classes of new objects are concrete and among the classes
`I`. -/
theorem covered_of_created {allows : MethodRef → MethodRef → Bool} {N : Set MethodRef}
    {I : Set String}
    (h : ∀ c n, Creates p N c n → p.hasClass c = true → p.isConcrete c = true ∧ c ∈ I)
    (m : MethodRef) : Covered p allows N I m := by
  intro call hcall hkind r _ c hflows hbelow t hfound _
  obtain ⟨origin, hcreates, -⟩ := hflows
  obtain ⟨hconcrete, hlive⟩ := h c origin hcreates (Program.hasClass_of_dispatch hfound)
  exact .dispatched hcall hkind hlive hconcrete hbelow hfound

/-! ## A new object, constructed or not -/

def creationClass : Class where
  name := "Dot"
  methods := [{ name := "draw", descriptor := "()V", body := some [] }]

/-- Statements that create an object, go on with others, and then draw the object. -/
def creationBody (rest : List Statement) : List Statement :=
  .assign (.localVar "x") (.new "Dot") :: rest ++ [.invoke (relayCall "Dot" "draw" "x")]

def creationProgram (rest : List Statement) : Program where
  classes := [
    { name := "Main",
      methods := [{ name := "main", descriptor := "()V", body := some (creationBody rest) }] },
    creationClass]
  entryPoints := [⟨"Main", "main", "()V"⟩]
  distinct := by simp [creationClass]

theorem superAcyclic_creation (rest : List Statement) : (creationProgram rest).SuperAcyclic := by
  intro sub sup h
  simp [superEdges, creationProgram, creationClass] at h

theorem method?_creation (rest : List Statement) :
    (creationProgram rest).method? ⟨"Main", "main", "()V"⟩ =
      some { name := "main", descriptor := "()V", body := some (creationBody rest) } := by
  rw [Program.method?, Program.class?_eq_find?]
  rfl

theorem class?_creation (rest : List Statement) :
    (creationProgram rest).class? "Dot" = some creationClass := by
  rw [Program.class?_eq_find?]
  rfl

theorem hasBody_creation (rest : List Statement) :
    (creationProgram rest).hasBody ⟨"Main", "main", "()V"⟩ = true := by
  rw [Program.hasBody, method?_creation]
  rfl

theorem statements_creation (rest : List Statement) :
    (creationProgram rest).statements ⟨"Main", "main", "()V"⟩ = creationBody rest := by
  rw [Program.statements, method?_creation]
  rfl

theorem isConcrete_creation (rest : List Statement) :
    (creationProgram rest).isConcrete "Dot" = true := by
  rw [Program.isConcrete, class?_creation]
  rfl

theorem dispatch_creation (rest : List Statement) :
    (creationProgram rest).dispatch "Dot" ⟨"Dot", "draw", "()V"⟩ =
      .ok (some ⟨"Dot", "draw", "()V"⟩) := by
  rw [Program.dispatch, Program.lineage, Program.lineageUpTo, class?_creation]
  rfl

theorem draw_mem_calls_creation (rest : List Statement) :
    relayCall "Dot" "draw" "x" ∈ (creationProgram rest).calls ⟨"Main", "main", "()V"⟩ := by
  rw [Program.calls, statements_creation]
  simp [creationBody, Statement.call?]

/-- Whatever else happens, the variable type analysis sees that the object is drawn. -/
theorem draw_mem_edges_creation {rest : List Statement} {flow : Told Run}
    (h : ValueFlow.run (creationProgram rest) = .ok flow) :
    (⟨"Main", "main", "()V"⟩, ⟨"Dot", "draw", "()V"⟩) ∈ flow.result.graph.edgeSet := by
  have hp := superAcyclic_creation rest
  have hbelow : (creationProgram rest).isSubtype "Dot" "Dot" = true :=
    Program.isSubtype_iff.mpr (.refl _)
  have hnew : .assign (.localVar "x") (.new "Dot") ∈
      (creationProgram rest).statements ⟨"Main", "main", "()V"⟩ := by
    rw [statements_creation]
    exact List.mem_cons_self
  have htarget := Hierarchy.calls_dispatched hp (draw_mem_calls_creation rest) rfl hbelow
    (isConcrete_creation rest) (dispatch_creation rest)
  exact ValueFlow.mem_edges_of_created hp h (List.mem_singleton_self _) (hasBody_creation rest)
    hnew (draw_mem_calls_creation rest) rfl rfl hbelow (dispatch_creation rest) htarget

theorem eq_of_hasBody_creation {rest : List Statement} {m : MethodRef}
    (h : (creationProgram rest).hasBody m = true) :
    m = ⟨"Main", "main", "()V"⟩ ∨ m = ⟨"Dot", "draw", "()V"⟩ := by
  simpa [Program.declared, creationProgram, creationClass] using Program.mem_declared_of_hasBody h

theorem statements_creation_draw (rest : List Statement) :
    (creationProgram rest).statements ⟨"Dot", "draw", "()V"⟩ = [] := by
  rw [Program.statements, Program.method?, class?_creation]
  rfl

/-- With nothing but a constructor call, only the one object is created. -/
theorem creates_creation {N : Set MethodRef} {c : String} {n : FlowNode}
    (h : Creates (creationProgram [.invoke lateNew]) N c n) :
    ⟨"Main", "main", "()V"⟩ ∈ N ∧ c = "Dot" := by
  obtain ⟨m, hm, hb, x, hs, rfl⟩ := h
  rcases eq_of_hasBody_creation hb with rfl | rfl
  · rw [statements_creation] at hs
    have hnew : x = .localVar "x" ∧ c = "Dot" := by simpa [creationBody] using hs
    exact ⟨hm, hnew.2⟩
  · rw [statements_creation_draw] at hs
    cases hs

/-- Without any constructor call the rapid type analysis sees nothing. -/
theorem not_calls_creation {N : Set MethodRef} {m t : MethodRef}
    (hb : (creationProgram []).hasBody m = true) :
    ¬ (Instantiation.rule (creationProgram [])).calls N m t := by
  have hkinds : ∀ m ∈ (creationProgram []).declared, ∀ call ∈ (creationProgram []).calls m,
      call.kind = .virtual := by decide
  intro h
  cases h with
  | direct mem kind =>
    rw [hkinds m (Program.mem_declared_of_hasBody hb) _ mem] at kind
    cases kind
  | dispatched mem kind live concrete below found =>
    obtain ⟨x, -, hx, call, hcall, hspecial, -⟩ := live
    rw [hkinds x (Program.mem_declared_of_hasBody hx) _ hcall] at hspecial
    cases hspecial

/-! ## The order -/

/-- Without a superclass cycle both analyses have results. The graph of the variable type analysis is
below that of the rapid type analysis exactly if, in the methods of both, what flows into receivers
is covered by the classes that the rapid type analysis takes for instantiated. -/
theorem valueFlow_subset_instantiation_iff (p : Program) (hp : p.SuperAcyclic) :
    ∃ hierarchy flow rapid, Hierarchy.run p = .ok hierarchy ∧ ValueFlow.run p = .ok flow ∧
      Instantiation.run p = .ok rapid ∧
      (flow.result.graph.nodeSet ⊆ rapid.result.graph.nodeSet ∧
          flow.result.graph.edgeSet ⊆ rapid.result.graph.edgeSet ↔
        ∀ m ∈ flow.result.graph.nodeSet ∩ rapid.result.graph.nodeSet, p.hasBody m = true →
          Covered p hierarchy.result.graph.hasEdge
            (flow.result.graph.nodeSet ∩ rapid.result.graph.nodeSet)
            (Instantiation.Instantiated p rapid.result.graph.nodeSet) m) := by
  obtain ⟨hierarchy, flow, hhierarchy, hflow, -, hleast⟩ := ValueFlow.exists_done hp
  obtain ⟨done, rapid, -, hrapid, hgraph, -, hleast'⟩ := Instantiation.exists_done hp
  rw [← hgraph] at hleast'
  refine ⟨hierarchy, flow, rapid, hhierarchy, hflow, hrapid, ?_⟩
  simp only [CallRule.subset_iff hleast hleast', covered_iff]
  rfl

/-- With a constructor call for the object, both analyses see that it is drawn. -/
theorem valueFlow_subset_instantiation_constructed :
    (creationProgram [.invoke lateNew]).SuperAcyclic ∧
      ∃ flow rapid, ValueFlow.run (creationProgram [.invoke lateNew]) = .ok flow ∧
        Instantiation.run (creationProgram [.invoke lateNew]) = .ok rapid ∧
        (⟨"Main", "main", "()V"⟩, ⟨"Dot", "draw", "()V"⟩) ∈ flow.result.graph.edgeSet ∧
        flow.result.graph.nodeSet ⊆ rapid.result.graph.nodeSet ∧
        flow.result.graph.edgeSet ⊆ rapid.result.graph.edgeSet := by
  have hp := superAcyclic_creation [.invoke lateNew]
  obtain ⟨hierarchy, flow, rapid, -, hflow, hrapid, horder⟩ :=
    valueFlow_subset_instantiation_iff _ hp
  refine ⟨hp, flow, rapid, hflow, hrapid, draw_mem_edges_creation hflow, horder.mpr ?_⟩
  refine fun m _ _ => covered_of_created (fun c n hcreates _ => ?_) m
  obtain ⟨hmain, rfl⟩ := creates_creation hcreates
  exact ⟨isConcrete_creation _, _, hmain.2, hasBody_creation _, lateNew, by decide, rfl, rfl,
    by decide, rfl⟩

/-- Without one, only the variable type analysis sees that the object is drawn. -/
theorem valueFlow_not_subset_instantiation :
    (creationProgram []).SuperAcyclic ∧
      ∃ flow rapid, ValueFlow.run (creationProgram []) = .ok flow ∧
        Instantiation.run (creationProgram []) = .ok rapid ∧
        ¬ flow.result.graph.nodeSet ⊆ rapid.result.graph.nodeSet ∧
        ¬ flow.result.graph.edgeSet ⊆ rapid.result.graph.edgeSet := by
  have hp := superAcyclic_creation []
  obtain ⟨hierarchy, flow, -, hflow, hhierarchy, hleast⟩ := ValueFlow.exists_done hp
  obtain ⟨done, rapid, -, hrapid, hgraph, -, hrapidLeast⟩ := Instantiation.exists_done hp
  rw [← hgraph] at hrapidLeast
  -- the entry point alone is closed for the rapid type analysis
  have hclosed : ({⟨"Main", "main", "()V"⟩}, ∅) ∈ (Instantiation.rule (creationProgram [])).closed :=
    ⟨fun m hm _ => List.mem_singleton.mp hm, fun e he => absurd he (Set.notMem_empty e),
      fun m _ hb t ht => absurd ht (not_calls_creation hb)⟩
  obtain ⟨hnodes, hedges⟩ := hrapidLeast.2 hclosed
  have hdraw := draw_mem_edges_creation hflow
  refine ⟨hp, flow, rapid, hflow, hrapid, fun h => ?_, fun h => hedges (h hdraw)⟩
  exact absurd (hnodes (h (hleast.1.callee _ hdraw))) (by decide)

/-! ## What explains a difference -/

/-- A method of a set creates an object of a defined class that is not concrete, or not among the
classes `I`. -/
def Uncounted (p : Program) (N : Set MethodRef) (I : Set String) : Prop :=
  ∃ m ∈ N, p.hasBody m = true ∧ ∃ x c, .assign x (.new c) ∈ p.statements m ∧
    p.hasClass c = true ∧ (p.isConcrete c = false ∨ c ∉ I)

theorem covered_of_counted {allows : MethodRef → MethodRef → Bool} {N : Set MethodRef}
    {I : Set String} (h : ¬ Uncounted p N I) (m : MethodRef) : Covered p allows N I m := by
  apply covered_of_created
  rintro c n ⟨x, hx, hb, target, hnew, -⟩ hclass
  by_contra hleft
  have hout : p.isConcrete c = false ∨ c ∉ I := by
    rw [not_and_or, Bool.not_eq_true] at hleft
    exact hleft
  exact h ⟨x, hx, hb, target, c, hnew, hclass, hout⟩

/-- Without a superclass cycle, where the variable type analysis finds a method or a call that the
rapid type analysis does not find, a method of both graphs creates an object of a defined class that
is not concrete or that the rapid type analysis does not take for instantiated. What it takes for
instantiated are the classes whose constructors its methods call on new objects. -/
theorem valueFlow_excess_uncounted (p : Program) (hp : p.SuperAcyclic) :
    ∃ flow done rapid, ValueFlow.run p = .ok flow ∧
      analyze p (Instantiation.strategy p) = .ok done ∧ Instantiation.run p = .ok rapid ∧
      rapid.result.graph = done.traversal.graph ∧
      {c | c ∈ done.state.instantiated} =
        Instantiation.Instantiated p rapid.result.graph.nodeSet ∧
      ((∃ m ∈ flow.result.graph.nodeSet, m ∉ rapid.result.graph.nodeSet) ∨
          (∃ e ∈ flow.result.graph.edgeSet, e ∉ rapid.result.graph.edgeSet) →
        Uncounted p (flow.result.graph.nodeSet ∩ rapid.result.graph.nodeSet)
          {c | c ∈ done.state.instantiated}) := by
  obtain ⟨hierarchy, flow, -, hflow, -, hleast⟩ := ValueFlow.exists_done hp
  obtain ⟨done, rapid, hdone, hrapid, hgraph, hlive, hleast'⟩ := Instantiation.exists_done hp
  rw [← hgraph] at hlive hleast'
  refine ⟨flow, done, rapid, hflow, hdone, hrapid, hgraph, hlive, fun hexcess => ?_⟩
  by_contra hcounted
  rw [hlive] at hcounted
  -- what flows into receivers is covered, so nothing can be missing
  have hbelow := (CallRule.subset_iff hleast hleast').mpr
    (fun m _ _ t ht => covered_iff.mp (covered_of_counted hcounted m) t ht)
  rcases hexcess with ⟨m, hm, hmissing⟩ | ⟨e, he, hmissing⟩
  · exact hmissing (hbelow.1 hm)
  · exact hmissing (hbelow.2 he)

/-- The constructor call of an abstract class. -/
def blankNew : Call :=
  { kind := .special, method := ⟨"Shape", "<init>", "()V"⟩, receiver := some (.localVar "x") }

/-- A method that creates, constructs and draws an object of an abstract class. A concrete class below
it inherits the drawing method, so the hierarchy has the call. -/
def blankProgram : Program where
  classes := [
    { name := "Main",
      methods := [{ name := "main", descriptor := "()V",
                    body := some [.assign (.localVar "x") (.new "Shape"), .invoke blankNew,
                      .invoke (relayCall "Shape" "draw" "x")] }] },
    { name := "Shape", isAbstract := true,
      methods := [{ name := "draw", descriptor := "()V", body := some [] }] },
    { name := "Dot", superName := some "Shape" }]
  entryPoints := [⟨"Main", "main", "()V"⟩]

theorem draw_mem_calls_blank :
    relayCall "Shape" "draw" "x" ∈ blankProgram.calls ⟨"Main", "main", "()V"⟩ := by decide

theorem draw_mem_edges_blank {flow : Told Run} (h : ValueFlow.run blankProgram = .ok flow) :
    (⟨"Main", "main", "()V"⟩, ⟨"Shape", "draw", "()V"⟩) ∈ flow.result.graph.edgeSet := by
  have hp : blankProgram.SuperAcyclic := by decide
  -- the target comes from the class below, the object is one of the abstract class itself
  have hbelow : blankProgram.isSubtype "Dot" "Shape" = true :=
    Program.isSubtype_iff.mpr (.head (by decide) (.refl _))
  have hinherited : blankProgram.dispatch "Dot" ⟨"Shape", "draw", "()V"⟩ =
      .ok (some ⟨"Shape", "draw", "()V"⟩) := rfl
  have hown : blankProgram.dispatch "Shape" ⟨"Shape", "draw", "()V"⟩ =
      .ok (some ⟨"Shape", "draw", "()V"⟩) := rfl
  have htarget := Hierarchy.calls_dispatched hp draw_mem_calls_blank rfl hbelow (by decide) hinherited
  exact ValueFlow.mem_edges_of_created hp h (by decide) (by decide) (by decide)
    draw_mem_calls_blank rfl rfl (Program.isSubtype_iff.mpr (.refl _)) hown htarget

theorem draw_not_mem_edges_blank {rapid : Told Run}
    (h : Instantiation.run blankProgram = .ok rapid) :
    (⟨"Main", "main", "()V"⟩, ⟨"Shape", "draw", "()V"⟩) ∉ rapid.result.graph.edgeSet := by
  have hspecial : ∀ m ∈ blankProgram.declared, ∀ call ∈ blankProgram.calls m,
      call.kind.isDispatched = false → call.method = ⟨"Shape", "<init>", "()V"⟩ := by decide
  have hp : blankProgram.SuperAcyclic := by decide
  intro hedge
  obtain ⟨-, hb, hcalls⟩ :=
    (CallRule.mem_edges_iff (Instantiation.isLeast_of_run hp h)).mp hedge
  generalize hdraw : (⟨"Shape", "draw", "()V"⟩ : MethodRef) = draw at hcalls
  cases hcalls with
  | direct mem kind =>
    rw [hspecial _ (Program.mem_declared_of_hasBody hb) _ mem kind] at hdraw
    exact absurd hdraw (by decide)
  | dispatched mem kind live concrete below found =>
    obtain ⟨x, -, hx, call, hcall, hkind, -, -, rfl⟩ := live
    rw [hspecial x (Program.mem_declared_of_hasBody hx) call hcall (by rw [hkind]; rfl)] at concrete
    exact absurd concrete (by decide)

/-- Only the variable type analysis sees that the object is drawn, and an object that is created
explains it. -/
theorem valueFlow_excess_uncounted_blank :
    blankProgram.SuperAcyclic ∧
      ∃ flow done rapid, ValueFlow.run blankProgram = .ok flow ∧
        analyze blankProgram (Instantiation.strategy blankProgram) = .ok done ∧
        Instantiation.run blankProgram = .ok rapid ∧
        (∃ e ∈ flow.result.graph.edgeSet, e ∉ rapid.result.graph.edgeSet) ∧
        Uncounted blankProgram (flow.result.graph.nodeSet ∩ rapid.result.graph.nodeSet)
          {c | c ∈ done.state.instantiated} := by
  have hp : blankProgram.SuperAcyclic := by decide
  obtain ⟨flow, done, rapid, hflow, hdone, hrapid, -, -, hexplained⟩ :=
    valueFlow_excess_uncounted blankProgram hp
  have hexcess : ∃ e ∈ flow.result.graph.edgeSet, e ∉ rapid.result.graph.edgeSet :=
    ⟨_, draw_mem_edges_blank hflow, draw_not_mem_edges_blank hrapid⟩
  exact ⟨hp, flow, done, rapid, hflow, hdone, hrapid, hexcess, hexplained (.inr hexcess)⟩

end Devirt
