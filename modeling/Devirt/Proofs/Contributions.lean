import Devirt.Proofs.Dispatch
import Devirt.Proofs.FlowGraph
import Mathlib.Logic.Relation

/-!
# What methods contribute to a flow graph

* `exists_statementFlows`, `exists_methodFlows` : without a superclass cycle every statement and every
  method has its contributions;
* `Contributed p N` : what the methods of `N` contribute; `FlowGraph.exists_addMethod` : a graph that
  holds this for some methods holds it for one more when its flows are added;
* `Creates p N c n`, `FlowsInto p N c n` : objects of the class `c` are created in the place `n`, or in
  a place from which flows lead to it.
-/

namespace Devirt

variable {p : Program}

/-! ## Statements -/

theorem exists_mem_callFlows (hp : p.SuperAcyclic) (m : MethodRef) (call : Call)
    (result : Option FlowNode) :
    ∃ cs, callFlows p m call result = .ok cs ∧
      ∀ x, x ∈ cs ↔ ∃ t, p.IsTarget call t ∧ x ∈ linkFlows m call result t := by
  obtain ⟨found, hfound⟩ := Program.exists_targets hp call
  refine ⟨found.flatMap (linkFlows m call result), by rw [callFlows, hfound]; rfl, fun x => ?_⟩
  simp only [List.mem_flatMap, Program.IsTarget, hfound, Except.ok.injEq, exists_eq_left']

theorem exists_callFlows (hp : p.SuperAcyclic) (m : MethodRef) (call : Call)
    (result : Option FlowNode) : ∃ cs, callFlows p m call result = .ok cs := by
  obtain ⟨cs, hcs, -⟩ := exists_mem_callFlows hp m call result
  exact ⟨cs, hcs⟩

theorem lostResult?_isSome_iff {call : Call} :
    (lostResult? p call).isSome = true ↔
      call.kind = .static ∧ ∀ s ∈ p.statements call.method, s.returned? = none := by
  unfold lostResult?
  by_cases hkind : call.kind = .static
  · rw [if_pos hkind, and_iff_right hkind, ← List.filterMap_eq_nil_iff, returnedValues]
    cases (p.statements call.method).filterMap Statement.returned? <;> simp
  · simp [hkind]

theorem exists_statementFlows (hp : p.SuperAcyclic) (m : MethodRef) (s : Statement) :
    ∃ cs, statementFlows p m s = .ok cs := by
  unfold statementFlows
  split
  · exact ⟨_, rfl⟩
  · exact ⟨_, rfl⟩
  · exact ⟨_, rfl⟩
  · exact ⟨_, rfl⟩
  · rename_i target call
    split
    · obtain ⟨cs, hcs⟩ := exists_callFlows hp m call none
      rw [hcs]
      exact ⟨_, rfl⟩
    · exact exists_callFlows hp m call _
  · exact exists_callFlows hp m _ none
  · exact ⟨_, rfl⟩
  · exact ⟨_, rfl⟩
  · exact ⟨_, rfl⟩

theorem not_seed_mem_callFlows {m : MethodRef} {call : Call} {result : Option FlowNode}
    {cs : List Contribution} (h : callFlows p m call result = .ok cs) (n : FlowNode) (c : String) :
    .seed n c ∉ cs := by
  unfold callFlows at h
  cases hfound : p.targets call with
  | error e =>
    rw [hfound] at h
    cases h
  | ok found =>
    rw [hfound] at h
    cases h
    simp [linkFlows]

/-- Only an assignment of a new object creates one. -/
theorem seed_mem_statementFlows {m : MethodRef} {s : Statement} {cs : List Contribution}
    (h : statementFlows p m s = .ok cs) {n : FlowNode} {c : String} (hs : .seed n c ∈ cs) :
    ∃ x, s = .assign x (.new c) ∧ n = .of m x := by
  unfold statementFlows at h
  split at h
  · cases h
    obtain ⟨rfl, rfl⟩ : n = _ ∧ c = _ := by simpa using hs
    exact ⟨_, rfl, rfl⟩
  · cases h
    simp at hs
  · cases h
    simp at hs
  · cases h
    simp at hs
  · rename_i target call
    split at h
    · cases hcs : callFlows p m call none with
      | error e =>
        rw [hcs] at h
        cases h
      | ok cs' =>
        rw [hcs] at h
        cases h
        have hcall : .seed n c ∈ cs' := by simpa using hs
        exact absurd hcall (not_seed_mem_callFlows hcs n c)
    · exact absurd hs (not_seed_mem_callFlows h n c)
  · exact absurd hs (not_seed_mem_callFlows h n c)
  · cases h
    simp at hs
  · cases h
    simp at hs
  · cases h
    simp at hs

/-! ## Methods -/

/-- What the statements of methods with code contribute. -/
def Contributed (p : Program) (N : Set MethodRef) : Set Contribution :=
  {x | ∃ m ∈ N, p.hasBody m = true ∧ ∃ s ∈ p.statements m, ∃ cs, statementFlows p m s = .ok cs ∧
    x ∈ cs}

theorem contributed_mono {N N' : Set MethodRef} (h : N ⊆ N') :
    Contributed p N ⊆ Contributed p N' := fun _ ⟨m, hm, hx⟩ => ⟨m, h hm, hx⟩

theorem exists_methodFlows (hp : p.SuperAcyclic) (m : MethodRef) :
    ∃ cs, methodFlows p m = .ok cs ∧
      ∀ x, x ∈ cs ↔ ∃ s ∈ p.statements m, ∃ cs', statementFlows p m s = .ok cs' ∧ x ∈ cs' := by
  obtain ⟨css, hcss, hmem⟩ := exists_mapM_ok
    (fun s (_ : s ∈ p.statements m) => exists_statementFlows hp m s)
  refine ⟨css.flatten, by rw [methodFlows, hcss]; rfl, fun x => ?_⟩
  simp only [List.mem_flatten, hmem]
  constructor
  · rintro ⟨cs, ⟨s, hs, hflows⟩, hx⟩
    exact ⟨s, hs, cs, hflows, hx⟩
  · rintro ⟨s, hs, cs, hflows, hx⟩
    exact ⟨cs, ⟨s, hs, hflows⟩, hx⟩

theorem FlowGraph.exists_addMethod {g : FlowGraph} {P : Set MethodRef} {m : MethodRef}
    (hp : p.SuperAcyclic) (hb : p.hasBody m = true) (h : g.Holds (Contributed p P)) :
    ∃ g', g.addMethod p m = .ok g' ∧ g'.Holds (Contributed p (insert m P)) := by
  obtain ⟨cs, hcs, hmem⟩ := exists_methodFlows hp m
  refine ⟨cs.foldl FlowGraph.add g, by rw [addMethod, hcs]; rfl, ?_⟩
  have hset : Contributed p (insert m P) = Contributed p P ∪ {x | x ∈ cs} := by
    ext x
    constructor
    · rintro ⟨y, rfl | hy, hyb, hx⟩
      · exact .inr ((hmem x).mpr hx)
      · exact .inl ⟨y, hy, hyb, hx⟩
    · rintro (hx | hx)
      · exact contributed_mono (Set.subset_insert m P) hx
      · exact ⟨m, Set.mem_insert m P, hb, (hmem x).mp hx⟩
  rw [hset]
  exact h.addAll cs

/-! ## Objects -/

/-- A method with code creates objects of a class in a place. -/
def Creates (p : Program) (N : Set MethodRef) (c : String) (n : FlowNode) : Prop :=
  ∃ m ∈ N, p.hasBody m = true ∧ ∃ x, .assign x (.new c) ∈ p.statements m ∧ n = .of m x

/-- Methods with code let a place flow into another. -/
def FlowEdge (p : Program) (N : Set MethodRef) (source target : FlowNode) : Prop :=
  .edge source target ∈ Contributed p N

/-- Objects of a class are created in a place, or in one from which flows lead to it. -/
def FlowsInto (p : Program) (N : Set MethodRef) (c : String) (n : FlowNode) : Prop :=
  ∃ origin, Creates p N c origin ∧ Relation.ReflTransGen (FlowEdge p N) origin n

variable {N N' : Set MethodRef} {c : String} {n : FlowNode}

theorem seed_mem_contributed : .seed n c ∈ Contributed p N ↔ Creates p N c n := by
  constructor
  · rintro ⟨m, hm, hb, s, hs, cs, hcs, hseed⟩
    obtain ⟨x, rfl, rfl⟩ := seed_mem_statementFlows hcs hseed
    exact ⟨m, hm, hb, x, hs, rfl⟩
  · rintro ⟨m, hm, hb, x, hs, rfl⟩
    exact ⟨m, hm, hb, _, hs, [.seed (.of m x) c], rfl, by simp⟩

theorem FlowsInto.mono (h : N ⊆ N') (hf : FlowsInto p N c n) : FlowsInto p N' c n := by
  obtain ⟨origin, ⟨m, hm, hcreates⟩, hpath⟩ := hf
  refine ⟨origin, ⟨m, h hm, hcreates⟩, ?_⟩
  exact Relation.ReflTransGen.mono (fun _ _ he => contributed_mono h he) _ _ hpath

theorem contributed_bodied : Contributed p {m ∈ N | p.hasBody m = true} = Contributed p N := by
  ext x
  constructor
  · rintro ⟨m, hm, hx⟩
    exact ⟨m, hm.1, hx⟩
  · rintro ⟨m, hm, hb, hx⟩
    exact ⟨m, ⟨hm, hb⟩, hb, hx⟩

theorem flowsInto_bodied (h : FlowsInto p N c n) :
    FlowsInto p {m ∈ N | p.hasBody m = true} c n := by
  obtain ⟨origin, ⟨m, hm, hb, hcreates⟩, hpath⟩ := h
  refine ⟨origin, ⟨m, ⟨hm, hb⟩, hb, hcreates⟩, ?_⟩
  rwa [show FlowEdge p {m ∈ N | p.hasBody m = true} = FlowEdge p N by
    funext a b
    rw [FlowEdge, contributed_bodied]
    rfl]

end Devirt
