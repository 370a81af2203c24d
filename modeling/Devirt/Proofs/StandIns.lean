import Devirt.Proofs.Extension
import Devirt.Proofs.Hierarchy

/-!
# Stand-ins

A dispatched call on a class that is not defined, and below which nothing runs, has the method that it
names for its target. This method stands in for what would run, and it gives way as soon as something
does. So one class more may take a call away from the class hierarchy analysis, and this module says
which, and what comes in its place.

* `Program.TakesOver p y s u` : in the program with `y` it is `u` that runs for `s` on objects of `y`.
  Nothing else runs there that did not run before (`runsBelow_withClass`);
* `Hierarchy.StandsIn p m t` : `t` is of an undefined class, and `m` names it in dispatched calls only;
* `Hierarchy.calls_withClass_iff` : a call is kept unless it is to a stand-in that is taken over; then
  the method that takes over is called instead (`Hierarchy.calls_of_takesOver`);
* `hierarchy_withClass` : so it is in the whole graph. A stand-in has no code, so no method with code
  goes out of reach (`Hierarchy.Reachable.withClass`).
-/

namespace Devirt

namespace Program

variable {p : Program} {y : Class} {m s t u : MethodRef} {x : String}

/-! ## Owners -/

theorem hasClass_of_mem {c : Class} (hc : c ∈ p.classes) : p.hasClass c.name = true := by
  rw [hasClass, class?_name hc]
  rfl

theorem mem_names_of_hasClass (h : p.hasClass x = true) : x ∈ p.names := by
  obtain ⟨c, hc⟩ := Option.isSome_iff_exists.mp h
  obtain ⟨hmem, hname⟩ := mem_of_class? hc
  exact hname ▸ name_mem_names hmem

theorem hasClass_of_hasBody (h : p.hasBody m = true) : p.hasClass m.owner = true := by
  obtain ⟨c, hc, hm⟩ := List.mem_flatMap.mp (mem_declared_of_hasBody h)
  obtain ⟨method, -, rfl⟩ := List.mem_map.mp hm
  exact hasClass_of_mem hc

theorem owner_mem_names_of_hasBody (h : p.hasBody m = true) : m.owner ∈ p.names :=
  mem_names_of_hasClass (hasClass_of_hasBody h)

/-- What runs is declared by a class that is defined. -/
theorem hasClass_owner_of_dispatch (h : p.dispatch x s = .ok (some t)) :
    p.hasClass t.owner = true := by
  unfold dispatch at h
  split at h
  · rename_i found hfound
    cases h
    obtain ⟨c, hc, himpl⟩ := List.exists_of_findSome?_eq_some hfound
    rw [Class.owner_of_implementation? himpl]
    exact hasClass_of_mem (mem_lineageUpTo hc).1
  · split at h
    · obtain ⟨i, -, hdefault⟩ := List.exists_of_findSome?_eq_some (Except.ok.inj h)
      obtain ⟨c, hc, himpl⟩ := Option.bind_eq_some_iff.mp (Option.eq_some_of_filter_eq_some hdefault)
      rw [Class.owner_of_implementation? himpl]
      exact hasClass_of_mem (mem_of_class? hc).1
    · cases h

/-! ## What runs below a class -/

/-- Objects of the new class run `u` for a signature of a class above them. -/
structure TakesOver (p : Program) (y : Class) (s u : MethodRef) : Prop where
  below : (p.withClass y).isSubtype y.name s.owner = true
  concrete : (p.withClass y).isConcrete y.name = true
  found : (p.withClass y).dispatch y.name s = .ok (some u)

theorem TakesOver.runsBelow (h : p.TakesOver y s u) : (p.withClass y).RunsBelow s u :=
  ⟨y.name, h.below, h.concrete, h.found⟩

theorem runsBelow_withClass (hy : y.name ∉ p.names) (hq : (p.withClass y).SuperAcyclic) :
    (p.withClass y).RunsBelow s t ↔ p.RunsBelow s t ∨ p.TakesOver y s t := by
  have hp := superAcyclic_of_withClass hy hq
  have hagree := agreeOn_withClass hy
  -- on every other class both programs give the same answers
  have hother : ∀ c, c ≠ y.name →
      ((p.withClass y).isSubtype c s.owner = p.isSubtype c s.owner ∧
        (p.withClass y).isConcrete c = p.isConcrete c ∧
        (p.withClass y).dispatch c s = p.dispatch c s) := by
    intro c hc
    exact ⟨hagree.isSubtype hc _, hagree.isConcrete hc, hagree.dispatch hp hq hc s⟩
  constructor
  · intro h
    obtain ⟨c, hbelow, hconcrete, hfound⟩ := h
    by_cases hc : c = y.name
    · subst hc
      exact .inr ⟨hbelow, hconcrete, hfound⟩
    · obtain ⟨h₁, h₂, h₃⟩ := hother c hc
      rw [h₁] at hbelow
      rw [h₂] at hconcrete
      rw [h₃] at hfound
      exact .inl ⟨c, hbelow, hconcrete, hfound⟩
  · intro h
    rcases h with ⟨c, hbelow, hconcrete, hfound⟩ | h
    · have hc : c ≠ y.name := by
        intro he
        exact hy (he ▸ mem_names_of_hasClass (hasClass_of_dispatch hfound))
      obtain ⟨h₁, h₂, h₃⟩ := hother c hc
      exact ⟨c, h₁.trans hbelow, h₂.trans hconcrete, h₃.trans hfound⟩
    · exact h.runsBelow

theorem hasClass_withClass (hy : y.name ∉ p.names) (hx : x ∈ p.names) :
    (p.withClass y).hasClass x = p.hasClass x :=
  (agreeOn_withClass hy).hasClass (fun he => hy (he ▸ hx))

theorem hasBody_withClass (hy : y.name ∉ p.names) (hm : m.owner ∈ p.names) :
    (p.withClass y).hasBody m = p.hasBody m :=
  (agreeOn_withClass hy).hasBody (fun he => hy (he ▸ hm))

end Program

namespace Hierarchy

variable {p : Program} {y : Class} {m t u : MethodRef}

/-! ## The calls of a method -/

/-- The method is of a class that is not defined, and is named in dispatched calls only. If it is a
target of one of them, it stands in for what would run. -/
structure StandsIn (p : Program) (m t : MethodRef) : Prop where
  undefined : p.hasClass t.owner = false
  dispatched : ∀ call ∈ p.calls m, call.method = t → call.kind.isDispatched = true

/-- A method that is called runs below the class of a call, or is named by one. -/
theorem Calls.runs_or_named (hp : p.SuperAcyclic) (h : Calls p m t) :
    (∃ s, p.RunsBelow s t) ∨ ∃ call ∈ p.calls m, call.method = t := by
  obtain ⟨call, hcall, htarget⟩ := h
  rcases (Program.isTarget_iff hp).mp htarget with ⟨-, hruns⟩ | ⟨-, rfl⟩
  · exact .inl ⟨call.method, hruns⟩
  · exact .inr ⟨call, hcall, rfl⟩

theorem Calls.owner_mem_names (hp : p.SuperAcyclic) (h : Calls p m t) : t.owner ∈ p.names := by
  rcases h.runs_or_named hp with ⟨s, c, -, -, hfound⟩ | ⟨call, hcall, rfl⟩
  · exact Program.mem_names_of_hasClass (Program.hasClass_owner_of_dispatch hfound)
  · exact Program.owner_mem_names hcall

theorem StandsIn.exists_call (h : StandsIn p m t) (hp : p.SuperAcyclic) (hcalls : Calls p m t) :
    ∃ call ∈ p.calls m, call.method = t := by
  rcases hcalls.runs_or_named hp with ⟨s, c, -, -, hfound⟩ | hnamed
  · have hdefined := Program.hasClass_owner_of_dispatch hfound
    rw [h.undefined] at hdefined
    cases hdefined
  · exact hnamed

theorem calls_withClass (hy : y.name ∉ p.names) {call : Call} (hcall : call ∈ p.calls m) :
    call ∈ (p.withClass y).calls m := by
  have howner := Program.owner_mem_names_of_hasBody (Program.hasBody_of_mem_calls hcall)
  rw [Program.calls_withClass hy (fun he => hy (he ▸ howner))]
  exact hcall

/-- The method that takes over is called in place of the stand-in. -/
theorem calls_of_takesOver (hy : y.name ∉ p.names) (hq : (p.withClass y).SuperAcyclic)
    (hcalls : Calls p m t) (hstands : StandsIn p m t) (htakes : p.TakesOver y t u) :
    Calls (p.withClass y) m u := by
  have hp := Program.superAcyclic_of_withClass hy hq
  obtain ⟨call, hcall, rfl⟩ := hstands.exists_call hp hcalls
  refine ⟨call, calls_withClass hy hcall, (Program.isTarget_iff hq).mpr (.inl ?_)⟩
  exact ⟨hstands.dispatched call hcall rfl, htakes.runsBelow⟩

theorem calls_withClass_of_kept (hy : y.name ∉ p.names) (hq : (p.withClass y).SuperAcyclic)
    (hcalls : Calls p m t) (hkept : ¬ (StandsIn p m t ∧ ∃ u, p.TakesOver y t u)) :
    Calls (p.withClass y) m t := by
  have hp := Program.superAcyclic_of_withClass hy hq
  obtain ⟨call, hcall, htarget⟩ := hcalls
  rcases (Program.isTarget_iff hp).mp htarget with ⟨hd, hruns⟩ | ⟨hnone, rfl⟩
  · refine ⟨call, calls_withClass hy hcall, (Program.isTarget_iff hq).mpr (.inl ⟨hd, ?_⟩)⟩
    exact (Program.runsBelow_withClass hy hq).mpr (.inl hruns)
  · by_cases htakes : ∃ u, p.TakesOver y call.method u
    · -- the method is named by a direct call, or its class is defined and it is no stand-in
      have hdirect : ∃ direct ∈ p.calls m,
          direct.method = call.method ∧ direct.kind.isDispatched = false := by
        by_contra hno
        have hall : ∀ other ∈ p.calls m, other.method = call.method →
            other.kind.isDispatched = true := by
          intro other hother hname
          by_contra hd
          exact hno ⟨other, hother, hname, Bool.eq_false_iff.mpr hd⟩
        exact hkept ⟨⟨(hnone (hall call hcall rfl)).1, hall⟩, htakes⟩
      obtain ⟨direct, hmem, hname, hd⟩ := hdirect
      exact hname ▸ calls_direct (calls_withClass hy hmem) hd
    · -- nothing takes over, so nothing runs below the class as before
      refine ⟨call, calls_withClass hy hcall, (Program.isTarget_iff hq).mpr (.inr ⟨?_, rfl⟩)⟩
      intro hd
      obtain ⟨hundefined, hruns⟩ := hnone hd
      rw [Program.hasClass_withClass hy (Program.owner_mem_names hcall)]
      refine ⟨hundefined, fun u hu => ?_⟩
      rcases (Program.runsBelow_withClass hy hq).mp hu with hu | hu
      · exact hruns u hu
      · exact htakes ⟨u, hu⟩

theorem not_calls_withClass (hy : y.name ∉ p.names) (hq : (p.withClass y).SuperAcyclic)
    (hcalls : Calls p m t) (hstands : StandsIn p m t) (htakes : p.TakesOver y t u) :
    ¬ Calls (p.withClass y) m t := by
  have hp := Program.superAcyclic_of_withClass hy hq
  have howner := hcalls.owner_mem_names hp
  intro h
  obtain ⟨call, hcall, htarget⟩ := h
  rcases (Program.isTarget_iff hq).mp htarget with ⟨-, c, -, -, hfound⟩ | ⟨hnone, rfl⟩
  · have hdefined := Program.hasClass_owner_of_dispatch hfound
    rw [Program.hasClass_withClass hy howner, hstands.undefined] at hdefined
    cases hdefined
  · obtain ⟨named, hnamed, -⟩ := hstands.exists_call hp hcalls
    have hm := Program.owner_mem_names_of_hasBody (Program.hasBody_of_mem_calls hnamed)
    rw [Program.calls_withClass hy (fun he => hy (he ▸ hm))] at hcall
    exact (hnone (hstands.dispatched call hcall rfl)).2 u htakes.runsBelow

/-- Which calls of a method are kept when a class is added. -/
theorem calls_withClass_iff (hy : y.name ∉ p.names) (hq : (p.withClass y).SuperAcyclic)
    (hcalls : Calls p m t) :
    Calls (p.withClass y) m t ↔ ¬ (StandsIn p m t ∧ ∃ u, p.TakesOver y t u) := by
  constructor
  · intro h hlost
    obtain ⟨hstands, u, htakes⟩ := hlost
    exact not_calls_withClass hy hq hcalls hstands htakes h
  · exact calls_withClass_of_kept hy hq hcalls

/-! ## Reachable methods -/

/-- The graph of the analysis by the reachable methods. -/
theorem exists_reachable (hp : p.SuperAcyclic) :
    ∃ told, run p = .ok told ∧
      (∀ m, m ∈ told.result.graph.nodeSet ↔ Reachable p m) ∧
      ∀ m t, (m, t) ∈ told.result.graph.edgeSet ↔ Reachable p m ∧ Step p m t := by
  obtain ⟨told, hrun, hleast⟩ := exists_done hp
  obtain ⟨hnodes, hedges⟩ := Prod.mk.inj (hleast.unique (isLeast_reachable p))
  refine ⟨told, hrun, fun m => ?_, fun m t => ?_⟩
  · rw [hnodes]
    rfl
  · rw [hedges]
    rfl

/-- A method with code stays reachable: no stand-in is on the way to it. -/
theorem Reachable.withClass (hy : y.name ∉ p.names) (hq : (p.withClass y).SuperAcyclic)
    (h : Reachable p m) (hb : p.hasBody m = true) : Reachable (p.withClass y) m := by
  have hbody : ∀ x, p.hasBody x = true → (p.withClass y).hasBody x = true := by
    intro x hx
    rw [Program.hasBody_withClass hy (Program.owner_mem_names_of_hasBody hx)]
    exact hx
  obtain ⟨entry, hentry, hstart, hpath⟩ := h
  induction hpath with
  | refl => exact reachable_entry hentry (hbody entry hstart)
  | @tail a b _ hstep ih =>
    refine (ih hstep.1).step ⟨hbody a hstep.1, ?_⟩
    apply calls_withClass_of_kept hy hq hstep.2
    intro hlost
    have hdefined := Program.hasClass_of_hasBody hb
    rw [hlost.1.undefined] at hdefined
    cases hdefined

/-- A reachable method without code is called. -/
theorem Reachable.exists_step (h : Reachable p t) (hb : p.hasBody t = false) :
    ∃ m, Reachable p m ∧ Step p m t := by
  obtain ⟨entry, hentry, hstart, hpath⟩ := h
  cases hpath with
  | refl =>
    rw [hb] at hstart
    cases hstart
  | @tail a _ hpath hstep => exact ⟨a, ⟨entry, hentry, hstart, hpath⟩, hstep⟩

end Hierarchy

/-- The class hierarchy analysis of a program and of the program with one more class, of a name that
the program does not use. A call of the smaller graph is kept unless it is to a stand-in that the new
class takes over, and then the method that takes over is called by the same caller. A method goes out
of reach only with such a call to it. -/
theorem hierarchy_withClass (p : Program) (y : Class) (hy : y.name ∉ p.names)
    (hq : (p.withClass y).SuperAcyclic) :
    ∃ r r', Hierarchy.run p = .ok r ∧ Hierarchy.run (p.withClass y) = .ok r' ∧
      (∀ m t, (m, t) ∈ r.result.graph.edgeSet →
        ((m, t) ∈ r'.result.graph.edgeSet ↔
          ¬ (Hierarchy.StandsIn p m t ∧ ∃ u, p.TakesOver y t u)) ∧
        ((m, t) ∉ r'.result.graph.edgeSet →
          ∃ u, p.TakesOver y t u ∧ (m, u) ∈ r'.result.graph.edgeSet)) ∧
      ∀ t ∈ r.result.graph.nodeSet, t ∉ r'.result.graph.nodeSet →
        ∃ m, (m, t) ∈ r.result.graph.edgeSet ∧ (m, t) ∉ r'.result.graph.edgeSet := by
  obtain ⟨r, hr, hnodes, hedges⟩ :=
    Hierarchy.exists_reachable (Program.superAcyclic_of_withClass hy hq)
  obtain ⟨r', hr', hnodes', hedges'⟩ := Hierarchy.exists_reachable hq
  -- the callers of the smaller graph are reached, so only their calls decide
  have hcaller : ∀ m t u, (m, t) ∈ r.result.graph.edgeSet →
      ((m, u) ∈ r'.result.graph.edgeSet ↔ Hierarchy.Calls (p.withClass y) m u) := by
    intro m t u hedge
    obtain ⟨hm, hb, -⟩ := (hedges m t).mp hedge
    have howner := Program.owner_mem_names_of_hasBody hb
    rw [hedges', Hierarchy.Step, Program.hasBody_withClass hy howner]
    exact ⟨fun h => h.2.2, fun h => ⟨hm.withClass hy hq hb, hb, h⟩⟩
  refine ⟨r, r', hr, hr', fun m t hedge => ?_, fun t ht hlost => ?_⟩
  · obtain ⟨-, -, hcalls⟩ := (hedges m t).mp hedge
    have hkept := (hcaller m t t hedge).trans (Hierarchy.calls_withClass_iff hy hq hcalls)
    refine ⟨hkept, fun hlost => ?_⟩
    obtain ⟨hstands, u, htakes⟩ := not_not.mp (mt hkept.mpr hlost)
    exact ⟨u, htakes, (hcaller m t u hedge).mpr
      (Hierarchy.calls_of_takesOver hy hq hcalls hstands htakes)⟩
  · have hreach := (hnodes t).mp ht
    have hb : p.hasBody t = false := by
      by_contra hb
      exact hlost ((hnodes' t).mpr (hreach.withClass hy hq (by simpa using hb)))
    obtain ⟨m, hm, hstep⟩ := hreach.exists_step hb
    refine ⟨m, (hedges m t).mpr ⟨hm, hstep⟩, fun hedge => hlost ?_⟩
    obtain ⟨hm', hstep'⟩ := (hedges' m t).mp hedge
    exact (hnodes' t).mpr (hm'.step hstep')

/-! ## A stand-in that is taken over -/

/-- A call to be dispatched on a class that `sketchProgram` does not define. -/
def sketchDraw : Call :=
  { kind := .virtual, method := ⟨"Shape", "draw", "()V"⟩, receiver := some (.localVar "x") }

/-- Two calls of methods whose classes are not defined: one is dispatched, the other names its
method. -/
def sketchProgram : Program where
  classes := [
    { name := "Main",
      methods := [{ name := "main", descriptor := "()V",
                    body := some [.invoke sketchDraw, .invoke (ringCall "System" "gc")] }] }]
  entryPoints := [⟨"Main", "main", "()V"⟩]

/-- A class below the undefined one, with a method for the dispatched call. -/
def sketchClass : Class where
  name := "Dot"
  superName := some "Shape"
  methods := [{ name := "draw", descriptor := "()V", body := some [] }]

theorem reachable_sketch : Hierarchy.Reachable sketchProgram ⟨"Main", "main", "()V"⟩ :=
  Hierarchy.reachable_entry (by decide) (by decide)

theorem calls_sketch :
    Hierarchy.Calls sketchProgram ⟨"Main", "main", "()V"⟩ ⟨"Shape", "draw", "()V"⟩ := by
  refine ⟨sketchDraw, by decide, (Program.isTarget_iff (by decide)).mpr (.inr ⟨fun _ => ?_, rfl⟩)⟩
  refine ⟨by decide, fun u hu => ?_⟩
  obtain ⟨c, hbelow, hconcrete, -⟩ := hu
  -- no class of the program has a supertype
  have hedges : parentEdges sketchProgram.classes = [] := rfl
  rw [Program.isSubtype_iff, hedges] at hbelow
  cases hbelow with
  | refl => exact absurd hconcrete (by decide)
  | head edge => cases edge

theorem standsIn_sketch :
    Hierarchy.StandsIn sketchProgram ⟨"Main", "main", "()V"⟩ ⟨"Shape", "draw", "()V"⟩ :=
  ⟨by decide, by decide⟩

theorem takesOver_sketch :
    sketchProgram.TakesOver sketchClass ⟨"Shape", "draw", "()V"⟩ ⟨"Dot", "draw", "()V"⟩ :=
  ⟨Program.isSubtype_iff.mpr (.head (by decide) (.refl _)), by decide, rfl⟩

/-- The call that names its method is kept, and the dispatched one is to the new class. -/
theorem hierarchy_withClass_sketch :
    sketchClass.name ∉ sketchProgram.names ∧
      (sketchProgram.withClass sketchClass).SuperAcyclic ∧
      ∃ r', Hierarchy.run (sketchProgram.withClass sketchClass) = .ok r' ∧
        (⟨"Main", "main", "()V"⟩, ⟨"System", "gc", "()V"⟩) ∈ r'.result.graph.edgeSet ∧
        (⟨"Main", "main", "()V"⟩, ⟨"Dot", "draw", "()V"⟩) ∈ r'.result.graph.edgeSet := by
  have hname : sketchClass.name ∉ sketchProgram.names := by decide
  have hq : (sketchProgram.withClass sketchClass).SuperAcyclic := by decide
  obtain ⟨r, r', hr, hr', hedge, -⟩ := hierarchy_withClass sketchProgram sketchClass hname hq
  obtain ⟨_, hrun, -, hedges⟩ :=
    Hierarchy.exists_reachable (Program.superAcyclic_of_withClass hname hq)
  cases hr.symm.trans hrun
  refine ⟨hname, hq, r', hr', ?_, ?_⟩
  · have hcall : ringCall "System" "gc" ∈ sketchProgram.calls ⟨"Main", "main", "()V"⟩ := by decide
    have hcalls := Hierarchy.calls_direct hcall rfl
    refine (hedge _ _ ((hedges _ _).mpr ⟨reachable_sketch, by decide, hcalls⟩)).1.mpr ?_
    intro hlost
    cases hlost.1.dispatched _ hcall rfl
  · obtain ⟨hkept, hinstead⟩ :=
      hedge _ _ ((hedges _ _).mpr ⟨reachable_sketch, by decide, calls_sketch⟩)
    obtain ⟨u, htakes, hu⟩ :=
      hinstead (fun h => hkept.mp h ⟨standsIn_sketch, _, takesOver_sketch⟩)
    cases htakes.found.symm.trans takesOver_sketch.found
    exact hu

/-- With the new class the analysis forgets a method and a call that it had without it. -/
theorem hierarchy_withClass_forgets :
    sketchClass.name ∉ sketchProgram.names ∧
      (sketchProgram.withClass sketchClass).SuperAcyclic ∧
      ∃ r r', Hierarchy.run sketchProgram = .ok r ∧
        Hierarchy.run (sketchProgram.withClass sketchClass) = .ok r' ∧
        ¬ r.result.graph.nodeSet ⊆ r'.result.graph.nodeSet ∧
        ¬ r.result.graph.edgeSet ⊆ r'.result.graph.edgeSet := by
  have hname : sketchClass.name ∉ sketchProgram.names := by decide
  have hq : (sketchProgram.withClass sketchClass).SuperAcyclic := by decide
  obtain ⟨r, hr, hnodes, hedges⟩ :=
    Hierarchy.exists_reachable (Program.superAcyclic_of_withClass hname hq)
  obtain ⟨r', hr', hnodes', hedges'⟩ := Hierarchy.exists_reachable hq
  have hstep : Hierarchy.Step sketchProgram ⟨"Main", "main", "()V"⟩ ⟨"Shape", "draw", "()V"⟩ :=
    ⟨by decide, calls_sketch⟩
  have hlost := Hierarchy.not_calls_withClass hname hq calls_sketch standsIn_sketch takesOver_sketch
  refine ⟨hname, hq, r, r', hr, hr', fun hsub => ?_, fun hsub => ?_⟩
  · have hreach := (hnodes' _).mp (hsub ((hnodes _).mpr (reachable_sketch.step hstep)))
    obtain ⟨m, -, hb, hcalls⟩ := hreach.exists_step (by decide)
    -- the other method with code is that of the new class, and calls nothing
    have hm : m = ⟨"Main", "main", "()V"⟩ ∨
        (sketchProgram.withClass sketchClass).calls m = [] := by
      have hall : ∀ x ∈ (sketchProgram.withClass sketchClass).declared,
          x = ⟨"Main", "main", "()V"⟩ ∨
            (sketchProgram.withClass sketchClass).calls x = [] := by decide
      exact hall m (Program.mem_declared_of_hasBody hb)
    rcases hm with rfl | hnone
    · exact hlost hcalls
    · obtain ⟨call, hcall, -⟩ := hcalls
      rw [hnone] at hcall
      cases hcall
  · have hedge := hsub ((hedges _ _).mpr ⟨reachable_sketch, hstep⟩)
    exact hlost ((hedges' _ _).mp hedge).2.2

end Devirt
