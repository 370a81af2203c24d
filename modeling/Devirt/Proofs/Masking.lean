import Devirt.Proofs.Warnings

/-!
# Calls that only a refinement resolves

The hierarchy has no target for a call if no concrete class below the declared one has a method for
it. The rapid type analysis looks at concrete classes, too, so it cannot find more. The variable type
analysis takes any class that flows into a receiver, and asks the hierarchy only whether the caller
calls the method at all, in this call or in another.

* `Masked p allows tags m call` : a class that is not concrete flows into the receiver of a call and
  gives it a method that is allowed. Nothing else resolves what the hierarchy does not
  (`resolves_iff_masked`, `hierarchy_unresolved_kept`);
* `vacantProgram` : a program in which this happens, or not, as another call is made or not
  (`hierarchy_unresolved_lost`, `hierarchy_unresolved_kept_vacant`).
-/

namespace Devirt

variable {p : Program}

/-! ## Masked calls -/

/-- A class without objects of its own flows into the receiver of a call and gives it a method that
is allowed. -/
def Masked (p : Program) (allows : MethodRef → MethodRef → Bool) (tags : FlowNode → Set String)
    (m : MethodRef) (call : Call) : Prop :=
  ∃ r, call.receiver? = some r ∧ ∃ c ∈ tags (.of m r), p.hasClass c = true ∧
    p.isConcrete c = false ∧ p.isSubtype c call.method.owner = true ∧
    ∃ t, p.dispatch c call.method = .ok (some t) ∧ allows m t = true

theorem Hierarchy.Unresolved.runs (hp : p.SuperAcyclic) {m s : MethodRef}
    (h : Hierarchy.Unresolved p m s) :
    (∃ call ∈ p.calls m, call.kind.isDispatched = true ∧ call.method = s) ∧
      ∀ t, ¬ p.RunsBelow s t := by
  obtain ⟨call, hcall, rfl, hnone⟩ := h
  obtain ⟨hd, -, hruns⟩ := (Program.targets_eq_nil_iff hp).mp hnone
  exact ⟨⟨call, hcall, hd, rfl⟩, hruns⟩

theorem Hierarchy.Unresolved.instantiation (hp : p.SuperAcyclic) {I : Set String} {m s : MethodRef}
    (h : Hierarchy.Unresolved p m s) : Instantiation.Unresolved p I m s := by
  obtain ⟨⟨call, hcall, hd, rfl⟩, hruns⟩ := h.runs hp
  refine ⟨call, hcall, hd, rfl, ?_⟩
  rintro ⟨c, -, hconcrete, hbelow, t, ht⟩
  exact hruns t ⟨c, hbelow, hconcrete, ht⟩

/-- Where nothing runs below a signature, only a class without objects of its own resolves it. -/
theorem resolves_iff_masked {allows : MethodRef → MethodRef → Bool} {tags : FlowNode → Set String}
    {m : MethodRef} {call : Call} (hruns : ∀ t, ¬ p.RunsBelow call.method t) :
    (∃ r, call.receiver? = some r ∧
      ValueFlow.Resolves p allows (tags (.of m r)) m call.method) ↔ Masked p allows tags m call := by
  refine exists_congr fun r => and_congr_right fun _ => exists_congr fun c =>
    and_congr_right fun _ => ?_
  constructor
  · rintro ⟨hbelow, t, ht, hallowed⟩
    refine ⟨Program.hasClass_of_dispatch ht, Bool.eq_false_iff.mpr fun hconcrete => ?_, hbelow, t, ht,
      hallowed⟩
    exact hruns t ⟨c, hbelow, hconcrete, ht⟩
  · rintro ⟨-, -, hbelow, t, ht, hallowed⟩
    exact ⟨hbelow, t, ht, hallowed⟩

theorem Hierarchy.Unresolved.valueFlow_iff (hp : p.SuperAcyclic)
    {allows : MethodRef → MethodRef → Bool} {tags : FlowNode → Set String} {m s : MethodRef}
    (h : Hierarchy.Unresolved p m s) :
    ValueFlow.Unresolved p allows tags m s ↔ ∃ call ∈ p.calls m,
      call.kind.isDispatched = true ∧ call.method = s ∧ ¬ Masked p allows tags m call := by
  obtain ⟨-, hruns⟩ := h.runs hp
  refine exists_congr fun call => and_congr_right fun _ => and_congr_right fun _ =>
    and_congr_right fun hs => ?_
  subst hs
  rw [← resolves_iff_masked hruns]
  simp only [not_exists, not_and]

/-! ## What is kept -/

/-- Without a superclass cycle all analyses have results. A call that the hierarchy does not resolve
is not resolved by the rapid type analysis either, if it reaches the caller. The variable type
analysis warns of it, too, unless all dispatched calls of the caller to the signature are masked: a
class without objects of its own flows into their receivers, and the method that it gives is called
elsewhere in the caller. This cannot happen where only concrete classes are created. -/
theorem hierarchy_unresolved_kept (p : Program) (hp : p.SuperAcyclic) :
    ∃ hierarchy rapid flow, Hierarchy.run p = .ok hierarchy ∧ Instantiation.run p = .ok rapid ∧
      ValueFlow.run p = .ok flow ∧
      (∀ w ∈ hierarchy.result.warnings, w.caller ∈ rapid.result.graph.nodeSet →
        p.hasBody w.caller = true → w ∈ rapid.result.warnings) ∧
      (∀ w ∈ hierarchy.result.warnings, w.caller ∈ flow.result.graph.nodeSet →
        p.hasBody w.caller = true → (w ∈ flow.result.warnings ↔
          ∃ call ∈ p.calls w.caller, call.kind.isDispatched = true ∧ call.method = w.signature ∧
            ¬ Masked p hierarchy.result.graph.hasEdge
              (fun n => {c | FlowsInto p flow.result.graph.nodeSet c n}) w.caller call)) ∧
      ((∀ c n, Creates p flow.result.graph.nodeSet c n → p.hasClass c = true →
          p.isConcrete c = true) →
        ∀ w ∈ hierarchy.result.warnings, w.caller ∈ flow.result.graph.nodeSet →
          p.hasBody w.caller = true → w ∈ flow.result.warnings) := by
  obtain ⟨hierarchy, flow, hhierarchy, hflow, -⟩ := ValueFlow.exists_done hp
  obtain ⟨-, rapid, -, hrapid, -⟩ := Instantiation.exists_done hp
  have hunresolved : ∀ w ∈ hierarchy.result.warnings, Hierarchy.Unresolved p w.caller w.signature :=
    fun w hw => ((Hierarchy.mem_warnings_iff hp hhierarchy).mp hw).2.2
  refine ⟨hierarchy, rapid, flow, hhierarchy, hrapid, hflow, fun w hw hm hb => ?_,
    fun w hw hm hb => ?_, fun hcreated w hw hm hb => ?_⟩
  · exact (Instantiation.mem_warnings_iff hp hrapid).mpr
      ⟨hm, hb, (hunresolved w hw).instantiation hp⟩
  · rw [ValueFlow.mem_warnings_iff hp hhierarchy hflow, and_iff_right hm, and_iff_right hb]
    exact (hunresolved w hw).valueFlow_iff hp
  · refine (ValueFlow.mem_warnings_iff hp hhierarchy hflow).mpr
      ⟨hm, hb, ((hunresolved w hw).valueFlow_iff hp).mpr ?_⟩
    obtain ⟨⟨call, hcall, hd, hs⟩, -⟩ := (hunresolved w hw).runs hp
    refine ⟨call, hcall, hd, hs, ?_⟩
    rintro ⟨r, -, c, ⟨origin, hcreates, -⟩, hclass, habstract, -⟩
    rw [hcreated c origin hcreates hclass] at habstract
    cases habstract

/-- The call of the drawing method of an abstract class by its name. -/
def vacantSuper : Call :=
  { kind := .special, method := ⟨"Shape", "draw", "()V"⟩, receiver := some (.localVar "x") }

/-- A method that creates an object of an abstract class, goes on with other statements, and draws
the object. There is no class below the abstract one. -/
def vacantProgram (rest : List Statement) : Program where
  classes := [
    { name := "Main",
      methods := [{ name := "main", descriptor := "()V",
                    body := some (.assign (.localVar "x") (.new "Shape") :: rest ++
                      [.invoke (relayCall "Shape" "draw" "x")]) }] },
    { name := "Shape", isAbstract := true,
      methods := [{ name := "draw", descriptor := "()V", body := some [] }] }]
  entryPoints := [⟨"Main", "main", "()V"⟩]
  distinct := by simp

theorem superAcyclic_vacant (rest : List Statement) : (vacantProgram rest).SuperAcyclic := by
  intro sub sup h
  simp [superEdges, vacantProgram] at h

theorem hasBody_vacant (rest : List Statement) :
    (vacantProgram rest).hasBody ⟨"Main", "main", "()V"⟩ = true := by
  rw [Program.hasBody, Program.method?, Program.class?_eq_find?]
  rfl

theorem hasClass_vacant (rest : List Statement) : (vacantProgram rest).hasClass "Shape" = true := by
  rw [Program.hasClass, Program.class?_eq_find?]
  rfl

theorem isConcrete_vacant (rest : List Statement) :
    (vacantProgram rest).isConcrete "Shape" = false := by
  rw [Program.isConcrete, Program.class?_eq_find?]
  rfl

theorem calls_vacant (rest : List Statement) :
    (vacantProgram rest).calls ⟨"Main", "main", "()V"⟩ =
      rest.filterMap Statement.call? ++ [relayCall "Shape" "draw" "x"] := by
  rw [Program.calls, Program.statements, Program.method?, Program.class?_eq_find?]
  exact List.filterMap_append

theorem not_runsBelow_vacant (rest : List Statement) (t : MethodRef) :
    ¬ (vacantProgram rest).RunsBelow ⟨"Shape", "draw", "()V"⟩ t := by
  rintro ⟨c, hbelow, hconcrete, -⟩
  have hedges : parentEdges (vacantProgram rest).classes = [] := rfl
  rw [Program.isSubtype_iff, hedges] at hbelow
  cases hbelow with
  | refl =>
    rw [isConcrete_vacant] at hconcrete
    cases hconcrete
  | head edge => cases edge

/-- Whatever else happens, the hierarchy has no target for the call that draws. -/
theorem mem_warnings_vacant {rest : List Statement} {hierarchy : Told Run}
    (h : Hierarchy.run (vacantProgram rest) = .ok hierarchy) :
    ⟨⟨"Main", "main", "()V"⟩, ⟨"Shape", "draw", "()V"⟩⟩ ∈ hierarchy.result.warnings := by
  have hp := superAcyclic_vacant rest
  obtain ⟨_, hrun, hclosed, -⟩ := Hierarchy.exists_done hp
  cases h.symm.trans hrun
  have hcall : relayCall "Shape" "draw" "x" ∈
      (vacantProgram rest).calls ⟨"Main", "main", "()V"⟩ := by simp [calls_vacant]
  rw [Hierarchy.mem_warnings_iff hp h]
  refine ⟨hclosed.entry _ (List.mem_singleton_self _) (hasBody_vacant rest), hasBody_vacant rest,
    _, hcall, rfl, (Program.targets_eq_nil_iff hp).mpr ⟨rfl, hasClass_vacant rest, ?_⟩⟩
  exact not_runsBelow_vacant rest

theorem main_mem_flow_vacant {rest : List Statement} {flow : Told Run}
    (h : ValueFlow.run (vacantProgram rest) = .ok flow) :
    ⟨"Main", "main", "()V"⟩ ∈ flow.result.graph.nodeSet := by
  obtain ⟨_, _, -, hrun, -, hclosed, -⟩ := ValueFlow.exists_done (superAcyclic_vacant rest)
  cases h.symm.trans hrun
  exact hclosed.entry _ (List.mem_singleton_self _) (hasBody_vacant rest)

/-- Without another call nothing is called, and both refinements warn of the call, too. -/
theorem hierarchy_unresolved_kept_vacant :
    (vacantProgram []).SuperAcyclic ∧
      ∃ hierarchy rapid flow, Hierarchy.run (vacantProgram []) = .ok hierarchy ∧
        Instantiation.run (vacantProgram []) = .ok rapid ∧
        ValueFlow.run (vacantProgram []) = .ok flow ∧
        ⟨⟨"Main", "main", "()V"⟩, ⟨"Shape", "draw", "()V"⟩⟩ ∈ hierarchy.result.warnings ∧
        ⟨⟨"Main", "main", "()V"⟩, ⟨"Shape", "draw", "()V"⟩⟩ ∈ rapid.result.warnings ∧
        ⟨⟨"Main", "main", "()V"⟩, ⟨"Shape", "draw", "()V"⟩⟩ ∈ flow.result.warnings := by
  have hp := superAcyclic_vacant []
  obtain ⟨hierarchy, rapid, flow, hhierarchy, hrapid, hflow, hrapidKept, hflowKept, -⟩ :=
    hierarchy_unresolved_kept _ hp
  have hwarned := mem_warnings_vacant hhierarchy
  have hclosed := (Instantiation.isLeast_of_run hp hrapid).1
  refine ⟨hp, hierarchy, rapid, flow, hhierarchy, hrapid, hflow, hwarned, ?_, ?_⟩
  · exact hrapidKept _ hwarned (hclosed.entry _ (List.mem_singleton_self _) (hasBody_vacant []))
      (hasBody_vacant [])
  · refine (hflowKept _ hwarned (main_mem_flow_vacant hflow) (hasBody_vacant [])).mpr
      ⟨relayCall "Shape" "draw" "x", by simp [calls_vacant], rfl, rfl, ?_⟩
    rintro ⟨r, -, c, -, -, -, -, t, -, hallowed⟩
    obtain ⟨_, hrun, hleast⟩ := Hierarchy.exists_done hp
    cases hhierarchy.symm.trans hrun
    -- the only call has no target, so the hierarchy allows nothing
    obtain ⟨-, -, call, hcall, found, hfound, ht⟩ :=
      (CallRule.mem_edges_iff hleast).mp (CallGraph.hasEdge_iff.mp hallowed)
    rw [calls_vacant, List.filterMap_nil, List.nil_append, List.mem_singleton] at hcall
    subst hcall
    rw [(Program.targets_eq_nil_iff hp).mpr
      ⟨rfl, hasClass_vacant [], not_runsBelow_vacant []⟩] at hfound
    cases hfound
    cases ht

/-- If the drawing method is also called by its name, the variable type analysis takes the drawing
call for resolved. -/
theorem hierarchy_unresolved_lost :
    (vacantProgram [.invoke vacantSuper]).SuperAcyclic ∧
      ∃ hierarchy flow, Hierarchy.run (vacantProgram [.invoke vacantSuper]) = .ok hierarchy ∧
        ValueFlow.run (vacantProgram [.invoke vacantSuper]) = .ok flow ∧
        ⟨⟨"Main", "main", "()V"⟩, ⟨"Shape", "draw", "()V"⟩⟩ ∈ hierarchy.result.warnings ∧
        ⟨"Main", "main", "()V"⟩ ∈ flow.result.graph.nodeSet ∧
        (vacantProgram [.invoke vacantSuper]).hasBody ⟨"Main", "main", "()V"⟩ = true ∧
        ⟨⟨"Main", "main", "()V"⟩, ⟨"Shape", "draw", "()V"⟩⟩ ∉ flow.result.warnings := by
  have hp := superAcyclic_vacant [.invoke vacantSuper]
  obtain ⟨hierarchy, flow, hhierarchy, hflow, hleast, -⟩ := ValueFlow.exists_done hp
  have hmain := main_mem_flow_vacant hflow
  have hb := hasBody_vacant [.invoke vacantSuper]
  refine ⟨hp, hierarchy, flow, hhierarchy, hflow, mem_warnings_vacant hhierarchy, hmain, hb, ?_⟩
  rw [ValueFlow.mem_warnings_iff hp hhierarchy hflow]
  rintro ⟨-, -, call, hcall, hd, -, hnone⟩
  have hdraw : call = relayCall "Shape" "draw" "x" := by
    rw [calls_vacant] at hcall
    rcases List.mem_cons.mp hcall with rfl | hcall
    · cases hd
    · exact List.mem_singleton.mp hcall
  subst hdraw
  have hallowed : hierarchy.result.graph.hasEdge ⟨"Main", "main", "()V"⟩ ⟨"Shape", "draw", "()V"⟩ =
      true := by
    have hnode := hleast.1.entry ⟨"Main", "main", "()V"⟩ (List.mem_singleton_self _) hb
    have hcalls : Hierarchy.Calls (vacantProgram [.invoke vacantSuper]) ⟨"Main", "main", "()V"⟩
        vacantSuper.method := Hierarchy.calls_direct (by simp [calls_vacant, Statement.call?]) rfl
    exact CallGraph.hasEdge_iff.mpr (hleast.1.call _ hnode hb _ hcalls)
  exact hnone (.localVar "x") rfl ⟨"Shape", ⟨_, ⟨_, hmain, hb, .localVar "x", by decide, rfl⟩, .refl⟩,
    Program.isSubtype_iff.mpr (.refl _), _, rfl, hallowed⟩

end Devirt
