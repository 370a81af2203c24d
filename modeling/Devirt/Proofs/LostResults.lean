import Devirt.Proofs.Simulation

/-!
# Results that are left out carry nothing

A static call to a method that returns no value leaves the place of its result without a flow. Such a
flow would start where no object ever is.

* `Dry p n` : the place `n` holds the result of a method that returns no value. No statement lets
  anything flow into it (`spares_of_mem_statementFlows`);
* `statementFlowsKept`, `FlowGraph.addMethodKept` : what statements and methods add when the result of
  every call counts;
* `Dilutes p S S'` : `S'` has, beside the contributions of `S`, only flows that start in dry places. So
  the same classes flow into all places (`Dilutes.flowsFrom_iff`), whatever methods are added
  (`Alike.addMethod`, `Alike.tags_propagate`);
* `ValueFlow.keptStrategy` : the variable type analysis with these flows, which finds the same
  (`lost_results_carry_nothing`).
-/

namespace Devirt

variable {p : Program} {m : MethodRef} {n : FlowNode}

/-! ## Dry places -/

/-- A place that holds the result of a method that returns no value. -/
def Dry (p : Program) (n : FlowNode) : Prop :=
  ∃ t, n = .result t ∧ ∀ s ∈ p.statements t, s.returned? = none

/-- A contribution brings nothing into a dry place. -/
def Spares (p : Program) : Contribution → Prop
  | .node _ => True
  | .seed n _ => ¬ Dry p n
  | .edge _ target => ¬ Dry p target

theorem not_dry_of (m : MethodRef) (v : Value) : ¬ Dry p (.of m v) := by
  rintro ⟨t, ht, -⟩
  cases v <;> cases ht

theorem spares_of_mem_linkFlows {call : Call} {result : Option FlowNode} {t : MethodRef}
    {x : Contribution} (hresult : ∀ r ∈ result, ¬ Dry p r)
    (hx : x ∈ linkFlows m call result t) : Spares p x := by
  simp only [linkFlows, List.mem_append, List.mem_map, List.mem_mapIdx, Option.mem_toList] at hx
  rcases hx with (⟨r, -, rfl⟩ | ⟨i, hi, rfl⟩) | ⟨r, hr, rfl⟩
  · rintro ⟨_, ht, -⟩
    cases ht
  · rintro ⟨_, ht, -⟩
    cases ht
  · exact hresult r hr

theorem spares_of_mem_callFlows (hp : p.SuperAcyclic) {call : Call} {result : Option FlowNode}
    {cs : List Contribution} {x : Contribution} (hresult : ∀ r ∈ result, ¬ Dry p r)
    (h : callFlows p m call result = .ok cs) (hx : x ∈ cs) : Spares p x := by
  obtain ⟨cs', hcs', hmem⟩ := exists_mem_callFlows hp m call result
  cases h.symm.trans hcs'
  obtain ⟨t, -, hx⟩ := (hmem x).mp hx
  exact spares_of_mem_linkFlows hresult hx

/-- Only a method that returns a value lets something flow into its result. -/
theorem spares_of_mem_statementFlows (hp : p.SuperAcyclic) {s : Statement} {cs : List Contribution}
    {x : Contribution} (hs : s ∈ p.statements m) (h : statementFlows p m s = .ok cs) (hx : x ∈ cs) :
    Spares p x := by
  cases s with
  | assign target value =>
    cases value with
    | new name =>
      cases h
      rw [List.mem_singleton.mp hx]
      exact not_dry_of m target
    | use source =>
      cases h
      rw [List.mem_singleton.mp hx]
      exact not_dry_of m target
    | cast name source =>
      cases h
      rw [List.mem_singleton.mp hx]
      exact not_dry_of m target
    | constant =>
      cases h
      rw [List.mem_singleton.mp hx]
      trivial
    | invoke call =>
      rw [statementFlows] at h
      split at h
      · obtain ⟨cs', hcs', h⟩ := exists_of_bind_ok h
        cases h
        rcases List.mem_cons.mp hx with rfl | hx
        · trivial
        · exact spares_of_mem_callFlows hp (by simp) hcs' hx
      · refine spares_of_mem_callFlows hp (fun r hr => ?_) h hx
        cases hr
        exact not_dry_of m target
  | invoke call => exact spares_of_mem_callFlows hp (by simp) h hx
  | ret value =>
    cases value with
    | none =>
      cases h
      cases hx
    | some value =>
      -- the statement itself returns a value, so the result of its method is not dry
      cases h
      rw [List.mem_singleton.mp hx]
      rintro ⟨t, ht, hnone⟩
      cases ht
      cases hnone _ hs
  | other =>
    cases h
    cases hx

/-! ## Flows that are kept -/

/-- What a statement adds if the result of every call counts. -/
def statementFlowsKept (p : Program) (m : MethodRef) : Statement → Analyzed (List Contribution)
  | .assign target (.invoke call) => callFlows p m call (some (.of m target))
  | s => statementFlows p m s

/-- All that the statements of a method add if the result of every call counts. -/
def methodFlowsKept (p : Program) (m : MethodRef) : Analyzed (List Contribution) := do
  return (← (p.statements m).mapM (statementFlowsKept p m)).flatten

/-- A graph with all that a method adds if the result of every call counts. -/
def FlowGraph.addMethodKept (g : FlowGraph) (p : Program) (m : MethodRef) : Analyzed FlowGraph := do
  return (← methodFlowsKept p m).foldl FlowGraph.add g

/-- The graph of all that these methods add, one after the other. -/
def FlowGraph.ofMethods (p : Program) (ms : List MethodRef) : Analyzed FlowGraph :=
  ms.foldlM (fun g m => g.addMethod p m) {}

/-- The graph of all that these methods add if the result of every call counts. -/
def FlowGraph.ofMethodsKept (p : Program) (ms : List MethodRef) : Analyzed FlowGraph :=
  ms.foldlM (fun g m => g.addMethodKept p m) {}

/-- Beside the first contributions the second ones have flows that start in dry places, and none of
them brings anything into one. Places without flows and objects do not matter. -/
structure Dilutes (p : Program) (S S' : Set Contribution) : Prop where
  spares : ∀ x ∈ S', Spares p x
  kept : ∀ x ∈ S, x ∈ S' ∨ ∃ n, x = .node n
  extra : ∀ x ∈ S', x ∈ S ∨ ∃ a b, x = .edge a b ∧ Dry p a

namespace Dilutes

variable {S S' T T' : Set Contribution}

theorem refl (h : ∀ x ∈ S, Spares p x) : Dilutes p S S := ⟨h, fun _ => .inl, fun _ => .inl⟩

theorem union (h : Dilutes p S S') (h' : Dilutes p T T') : Dilutes p (S ∪ T) (S' ∪ T') where
  spares x hx := hx.elim (h.spares x) (h'.spares x)
  kept x hx := hx.elim (fun hx => (h.kept x hx).imp_left .inl)
    (fun hx => (h'.kept x hx).imp_left .inr)
  extra x hx := hx.elim (fun hx => (h.extra x hx).imp_left .inl)
    (fun hx => (h'.extra x hx).imp_left .inr)

theorem flatten {css css' : List (List Contribution)}
    (h : List.Forall₂ (fun cs cs' => Dilutes p {x | x ∈ cs} {x | x ∈ cs'}) css css') :
    Dilutes p {x | x ∈ css.flatten} {x | x ∈ css'.flatten} := by
  induction h with
  | nil => exact refl (by simp)
  | cons h _ ih =>
    simp only [List.flatten_cons, List.mem_append]
    exact h.union ih

/-- A path from a place that is not dry never comes to a dry one, so it has no other flows. -/
theorem path_iff (h : Dilutes p S S') {a b : FlowNode} (ha : ¬ Dry p a) :
    Relation.ReflTransGen (fun a b => .edge a b ∈ S') a b ↔
      Relation.ReflTransGen (fun a b => .edge a b ∈ S) a b := by
  constructor
  · intro hpath
    induction hpath using Relation.ReflTransGen.head_induction_on with
    | refl => exact .refl
    | head hedge _ ih =>
      -- the flow leaves a place that is not dry and leads to one, so it is an old one
      refine .head ?_ (ih (h.spares _ hedge))
      rcases h.extra _ hedge with hedge | ⟨a', b', heq, hdry⟩
      · exact hedge
      · cases heq
        exact absurd hdry ha
  · refine Relation.ReflTransGen.mono (fun a b hedge => ?_) _ _
    exact (h.kept _ hedge).resolve_right (by simp)

theorem seed_iff (h : Dilutes p S S') {c : String} : .seed n c ∈ S' ↔ .seed n c ∈ S :=
  ⟨fun hs => (h.extra _ hs).resolve_right (by simp),
    fun hs => (h.kept _ hs).resolve_right (by simp)⟩

theorem flowsFrom_iff (h : Dilutes p S S') {c : String} :
    (∃ s, .seed s c ∈ S' ∧ Relation.ReflTransGen (fun a b => .edge a b ∈ S') s n) ↔
      ∃ s, .seed s c ∈ S ∧ Relation.ReflTransGen (fun a b => .edge a b ∈ S) s n := by
  refine exists_congr fun s => ?_
  rw [h.seed_iff, and_congr_right_iff]
  intro hseed
  exact h.path_iff (h.spares _ (h.seed_iff.mpr hseed))

end Dilutes

theorem mem_linkFlows_some {call : Call} {r : FlowNode} {t : MethodRef} {x : Contribution} :
    x ∈ linkFlows m call (some r) t ↔ x ∈ linkFlows m call none t ∨ x = .edge (.result t) r := by
  simp [linkFlows, or_assoc]

/-- A static call calls the method that it names, and if the result is left out, the result of this
method is dry. -/
theorem dry_of_lostResult {call : Call} {t : MethodRef} (h : (lostResult? p call).isSome = true)
    (ht : p.IsTarget call t) : Dry p (.result t) := by
  obtain ⟨hstatic, hnone⟩ := lostResult?_isSome_iff.mp h
  obtain ⟨found, hfound, ht⟩ := ht
  rw [Program.targets_direct (by rw [hstatic]; rfl)] at hfound
  cases hfound
  rw [List.mem_singleton.mp ht]
  exact ⟨call.method, rfl, hnone⟩

theorem exists_callFlows_kept (hp : p.SuperAcyclic) {call : Call} {target : Value}
    {cs : List Contribution} (hlost : (lostResult? p call).isSome = true)
    (h : callFlows p m call none = .ok cs) :
    ∃ cs', callFlows p m call (some (.of m target)) = .ok cs' ∧
      Dilutes p {x | x ∈ Contribution.node (.of m target) :: cs} {x | x ∈ cs'} := by
  obtain ⟨cs', hcs', hmem'⟩ := exists_mem_callFlows hp m call (some (.of m target))
  obtain ⟨cs₁, hcs₁, hmem⟩ := exists_mem_callFlows hp m call none
  cases h.symm.trans hcs₁
  refine ⟨cs', hcs', fun x hx => ?_, fun x hx => ?_, fun x hx => ?_⟩
  · refine spares_of_mem_callFlows hp (fun r hr => ?_) hcs' hx
    cases hr
    exact not_dry_of m target
  · rcases List.mem_cons.mp hx with rfl | hx
    · exact .inr ⟨_, rfl⟩
    · obtain ⟨t, ht, hx⟩ := (hmem x).mp hx
      exact .inl ((hmem' x).mpr ⟨t, ht, mem_linkFlows_some.mpr (.inl hx)⟩)
  · obtain ⟨t, ht, hx⟩ := (hmem' x).mp hx
    rcases mem_linkFlows_some.mp hx with hx | rfl
    · exact .inl (List.mem_cons_of_mem _ ((hmem x).mpr ⟨t, ht, hx⟩))
    · exact .inr ⟨_, _, rfl, dry_of_lostResult hlost ht⟩

theorem exists_statementFlowsKept (hp : p.SuperAcyclic) {s : Statement} {cs : List Contribution}
    (hs : s ∈ p.statements m) (h : statementFlows p m s = .ok cs) :
    ∃ cs', statementFlowsKept p m s = .ok cs' ∧ Dilutes p {x | x ∈ cs} {x | x ∈ cs'} := by
  have hsame : Dilutes p {x | x ∈ cs} {x | x ∈ cs} :=
    .refl (fun x hx => spares_of_mem_statementFlows hp hs h hx)
  unfold statementFlowsKept
  split
  · rename_i target call
    rw [statementFlows] at h
    split at h
    · rename_i hlost
      obtain ⟨cs₁, hcs₁, h⟩ := exists_of_bind_ok h
      cases h
      exact exists_callFlows_kept hp hlost hcs₁
    · exact ⟨cs, h, hsame⟩
  · exact ⟨cs, h, hsame⟩

theorem exists_methodFlowsKept (hp : p.SuperAcyclic) (m : MethodRef) :
    ∃ cs cs', methodFlows p m = .ok cs ∧ methodFlowsKept p m = .ok cs' ∧
      Dilutes p {x | x ∈ cs} {x | x ∈ cs'} := by
  obtain ⟨css, hcss, -⟩ := exists_mapM_ok
    (fun s (_ : s ∈ p.statements m) => exists_statementFlows hp m s)
  have hsame : List.Forall₂ (fun s s' => s' = s ∧ s ∈ p.statements m) (p.statements m)
      (p.statements m) := List.forall₂_same.mpr (fun s hs => ⟨rfl, hs⟩)
  obtain ⟨css', hcss', hdilutes⟩ := exists_mapM_of_forall₂
    (g := statementFlowsKept p m) (S := fun cs cs' => Dilutes p {x | x ∈ cs} {x | x ∈ cs'})
    (by
      rintro s _ ⟨rfl, hs⟩ cs hcs
      exact exists_statementFlowsKept hp hs hcs) hsame hcss
  exact ⟨css.flatten, css'.flatten, by rw [methodFlows, hcss]; rfl,
    by rw [methodFlowsKept, hcss']; rfl, .flatten hdilutes⟩

/-! ## Graphs that are alike -/

/-- Two graphs hold contributions that differ by flows from dry places only. -/
def Alike (p : Program) (g g' : FlowGraph) : Prop :=
  ∃ S S', g.Holds S ∧ g'.Holds S' ∧ Dilutes p S S'

namespace Alike

variable {g g' : FlowGraph}

theorem empty (p : Program) : Alike p {} {} :=
  ⟨∅, ∅, FlowGraph.holds_empty, FlowGraph.holds_empty, .refl (by simp)⟩

theorem propagate (h : Alike p g g') : Alike p g.propagate g'.propagate := by
  obtain ⟨S, S', hS, hS', hdilutes⟩ := h
  exact ⟨S, S', hS.propagate components, hS'.propagate components, hdilutes⟩

theorem addMethod (hp : p.SuperAcyclic) (h : Alike p g g') (m : MethodRef) :
    ∃ k k', g.addMethod p m = .ok k ∧ g'.addMethodKept p m = .ok k' ∧ Alike p k k' := by
  obtain ⟨S, S', hS, hS', hdilutes⟩ := h
  obtain ⟨cs, cs', hcs, hcs', hadded⟩ := exists_methodFlowsKept hp m
  exact ⟨cs.foldl FlowGraph.add g, cs'.foldl FlowGraph.add g',
    by rw [FlowGraph.addMethod, hcs]; rfl, by rw [FlowGraph.addMethodKept, hcs']; rfl,
    _, _, hS.addAll cs, hS'.addAll cs', hdilutes.union hadded⟩

theorem addMethods (hp : p.SuperAcyclic) (h : Alike p g g') (ms : List MethodRef) :
    ∃ k k', ms.foldlM (fun g m => g.addMethod p m) g = .ok k ∧
      ms.foldlM (fun g m => g.addMethodKept p m) g' = .ok k' ∧ Alike p k k' := by
  induction ms generalizing g g' with
  | nil => exact ⟨g, g', rfl, rfl, h⟩
  | cons m rest ih =>
    obtain ⟨g₁, g₁', hg₁, hg₁', halike⟩ := h.addMethod hp m
    obtain ⟨k, k', hk, hk', hdone⟩ := ih halike
    refine ⟨k, k', ?_, ?_, hdone⟩
    · rw [List.foldlM_cons, hg₁]
      exact hk
    · rw [List.foldlM_cons, hg₁']
      exact hk'

/-- The same classes flow into a place, and since they are sorted they are the same list. -/
theorem tags_propagate (h : Alike p g g') (n : FlowNode) :
    g'.propagate.tags n = g.propagate.tags n := by
  obtain ⟨S, S', hS, hS', hdilutes⟩ := h
  refine (g'.increasing_tags_propagate components n).ext (g.increasing_tags_propagate components n)
    fun c => ?_
  rw [hS'.mem_tags_iff exact_components, hS.mem_tags_iff exact_components]
  exact hdilutes.flowsFrom_iff

end Alike

/-! ## The analysis with all results -/

namespace ValueFlow

/-- The analysis in which the result of every call counts. -/
def keptStrategy (p : Program) (allows : MethodRef → MethodRef → Bool) : Strategy State :=
  strategy p allows (fun flow m => flow.addMethodKept p m)

theorem simulates_kept (hp : p.SuperAcyclic) (allows : MethodRef → MethodRef → Bool) :
    Simulates p (strategy p allows) (keptStrategy p allows)
      (fun state state' _ => state'.sites = state.sites ∧ Alike p state.flow state'.flow) :=
  simulates_of_alike (.empty p) (fun m h => h.addMethod hp m) Alike.propagate Alike.tags_propagate

end ValueFlow

/-- Without a superclass cycle flow graphs have the same classes in all places whether the results of
static calls to methods without a returned value are left out or not, whatever methods have been
added. So the variable type analysis finds the same in the same order either way. -/
theorem lost_results_carry_nothing (p : Program) (hp : p.SuperAcyclic) :
    (∀ ms : List MethodRef, ∃ g g', FlowGraph.ofMethods p ms = .ok g ∧
      FlowGraph.ofMethodsKept p ms = .ok g' ∧ ∀ n, g'.propagate.tags n = g.propagate.tags n) ∧
    ∃ told told', ValueFlow.run p = .ok told ∧
      ValueFlow.runBy p (fun baseline => ValueFlow.keptStrategy p baseline.hasEdge) = .ok told' ∧
      told'.result.graph.nodes.toList = told.result.graph.nodes.toList ∧
      told'.result.graph.edges.toList = told.result.graph.edges.toList ∧
      told'.result.warnings = told.result.warnings := by
  constructor
  · intro ms
    obtain ⟨g, g', hg, hg', halike⟩ := (Alike.empty p).addMethods hp ms
    exact ⟨g, g', hg, hg', halike.tags_propagate⟩
  · obtain ⟨hierarchy, told, hrun, htold, -, -⟩ := ValueFlow.exists_done hp
    obtain ⟨told', htold', hsame⟩ := ValueFlow.exists_runBy
      (fun baseline => ValueFlow.keptStrategy p baseline.hasEdge) hrun
      (ValueFlow.simulates_kept hp hierarchy.result.graph.hasEdge)
      (fun state state' _ h => by rw [ValueFlow.State.unresolved, h.1]; rfl) htold
    exact ⟨told, told', htold, htold', by rw [hsame], by rw [hsame], by rw [hsame]⟩

def borrowCall (name : String) : Call := { kind := .static, method := ⟨"Lender", name, "()V"⟩ }

/-- Objects are drawn that static calls have given: a native method has no known result, and another
method gives one that it has created. -/
def borrowProgram : Program where
  classes := [
    { name := "Main",
      methods := [{ name := "main", descriptor := "()V",
                    body := some [.assign (.localVar "x") (.invoke (borrowCall "lend")),
                      .assign (.localVar "y") (.invoke (borrowCall "make")),
                      .invoke (relayCall "Dot" "draw" "x"),
                      .invoke (relayCall "Dot" "draw" "y")] }] },
    { name := "Lender",
      methods := [
        { name := "lend", descriptor := "()V", access := { isStatic := true, isNative := true } },
        { name := "make", descriptor := "()V", access := { isStatic := true },
          body := some [.assign (.localVar "d") (.new "Dot"), .ret (some (.localVar "d"))] }] },
    { name := "Dot",
      methods := [{ name := "draw", descriptor := "()V", body := some [] }] }]
  entryPoints := [⟨"Main", "main", "()V"⟩]

/-- The two ways differ in what the call to the native method adds, and in no class of any place. -/
theorem lost_results_carry_nothing_borrow :
    borrowProgram.SuperAcyclic ∧
      statementFlows borrowProgram ⟨"Main", "main", "()V"⟩
        (.assign (.localVar "x") (.invoke (borrowCall "lend"))) =
          .ok [.node (.localVar ⟨"Main", "main", "()V"⟩ "x")] ∧
      statementFlowsKept borrowProgram ⟨"Main", "main", "()V"⟩
        (.assign (.localVar "x") (.invoke (borrowCall "lend"))) =
          .ok [.edge (.result ⟨"Lender", "lend", "()V"⟩)
            (.localVar ⟨"Main", "main", "()V"⟩ "x")] ∧
      ∃ g g', FlowGraph.ofMethods borrowProgram borrowProgram.declared = .ok g ∧
        FlowGraph.ofMethodsKept borrowProgram borrowProgram.declared = .ok g' ∧
        ∀ n, g'.propagate.tags n = g.propagate.tags n := by
  have hp : borrowProgram.SuperAcyclic := by decide
  obtain ⟨htags, -⟩ := lost_results_carry_nothing borrowProgram hp
  exact ⟨hp, rfl, rfl, htags borrowProgram.declared⟩

end Devirt
