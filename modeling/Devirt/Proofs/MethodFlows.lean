import Devirt.Proofs.LostResults

/-!
# Flow graphs of methods

What methods add to a flow graph is a set, whatever the order in which they are added and however often.

* `Adds p m s x` : a statement `s` of the method `m` adds `x`, one rule for each kind of flow. The
  contributions of a statement are exactly these (`exists_mem_statementFlows`);
* `MethodAdds p m x` : some statement of `m` adds `x`. A graph gets all of these and nothing else
  (`FlowGraph.exists_addMethod_holds`), and none of them is added twice
  (`FlowGraph.addMethod_of_holds`);
* `methods_contribute` : so the graph of a list of methods holds what its members add.
-/

namespace Devirt

variable {p : Program} {m : MethodRef} {g : FlowGraph} {S : Set Contribution}

/-! ## Statements -/

/-- A static call to a method that returns no value. -/
def LosesResult (p : Program) (call : Call) : Prop :=
  call.kind = .static ∧ ∀ s ∈ p.statements call.method, s.returned? = none

/-- What a statement in the body of a method adds to a flow graph. -/
inductive Adds (p : Program) (m : MethodRef) : Statement → Contribution → Prop where
  | constant {target : Value} : Adds p m (.assign target .constant) (.node (.of m target))
  | lost {target : Value} {call : Call} (loses : LosesResult p call) :
    Adds p m (.assign target (.invoke call)) (.node (.of m target))
  | new {target : Value} {name : String} :
    Adds p m (.assign target (.new name)) (.seed (.of m target) name)
  | use {target value : Value} :
    Adds p m (.assign target (.use value)) (.edge (.of m value) (.of m target))
  | cast {target value : Value} {name : String} :
    Adds p m (.assign target (.cast name value)) (.edge (.of m value) (.of m target))
  | ret {value : Value} : Adds p m (.ret (some value)) (.edge (.of m value) (.result m))
  | receiver {s : Statement} {call : Call} {t : MethodRef} {r : Value} (calls : s.call? = some call)
    (isTarget : p.IsTarget call t) (notStatic : call.kind ≠ .static)
    (given : call.receiver = some r) : Adds p m s (.edge (.of m r) (.self t))
  | argument {s : Statement} {call : Call} {t : MethodRef} {i : Nat} {v : Value}
    (calls : s.call? = some call) (isTarget : p.IsTarget call t) (given : call.args[i]? = some v) :
    Adds p m s (.edge (.of m v) (.parameter t i))
  | result {target : Value} {call : Call} {t : MethodRef} (isTarget : p.IsTarget call t)
    (keeps : ¬ LosesResult p call) :
    Adds p m (.assign target (.invoke call)) (.edge (.result t) (.of m target))

theorem Call.receiver?_eq_some_iff {call : Call} {r : Value} :
    call.receiver? = some r ↔ call.kind ≠ .static ∧ call.receiver = some r := by
  unfold Call.receiver?
  cases call.kind <;> simp

theorem mem_linkFlows_none {call : Call} {t : MethodRef} {x : Contribution} :
    x ∈ linkFlows m call none t ↔
      (∃ r, call.kind ≠ .static ∧ call.receiver = some r ∧ x = .edge (.of m r) (.self t)) ∨
      ∃ (i : Nat) (v : Value), call.args[i]? = some v ∧ x = .edge (.of m v) (.parameter t i) := by
  rw [linkFlows, Option.toList_none, List.map_nil, List.append_nil, List.mem_append]
  refine or_congr ?_ ?_
  · simp only [List.mem_map, Option.mem_toList, Call.receiver?_eq_some_iff, and_assoc,
      eq_comm (a := x)]
  · simp only [List.mem_mapIdx, List.getElem?_eq_some_iff, eq_comm (a := x)]
    constructor
    · rintro ⟨i, hi, rfl⟩
      exact ⟨i, _, ⟨hi, rfl⟩, rfl⟩
    · rintro ⟨i, v, ⟨hi, rfl⟩, rfl⟩
      exact ⟨i, hi, rfl⟩

/-- A statement without a call adds one thing at most. -/
theorem Adds.unique {s : Statement} {x y : Contribution} (hs : s.call? = none) (hx : Adds p m s x)
    (hy : Adds p m s y) : x = y := by
  cases hx with
  | receiver calls => cases hs.symm.trans calls
  | argument calls => cases hs.symm.trans calls
  | lost => cases hs
  | result => cases hs
  | _ =>
    cases hy with
    | receiver calls => cases calls
    | argument calls => cases calls
    | _ => rfl

theorem mem_singleton_iff_adds {s : Statement} {y : Contribution} (hs : s.call? = none)
    (hy : Adds p m s y) (x : Contribution) : x ∈ [y] ↔ Adds p m s x := by
  rw [List.mem_singleton]
  constructor
  · rintro rfl
    exact hy
  · intro hx
    exact hx.unique hs hy

theorem not_adds_of_idle {s : Statement} {x : Contribution} (hs : s = .ret none ∨ s = .other) :
    ¬ Adds p m s x := by
  intro h
  rcases hs with rfl | rfl
  all_goals
    cases h with
    | receiver calls => cases calls
    | argument calls => cases calls

/-- A statement with a call adds what links the call to its targets, and what becomes of its result. -/
theorem adds_call_iff {s : Statement} {call : Call} {x : Contribution} (hs : s.call? = some call) :
    Adds p m s x ↔
      (∃ t, p.IsTarget call t ∧ x ∈ linkFlows m call none t) ∨
      ∃ target, s = .assign target (.invoke call) ∧
        (LosesResult p call ∧ x = .node (.of m target) ∨
          ¬ LosesResult p call ∧ ∃ t, p.IsTarget call t ∧ x = .edge (.result t) (.of m target)) := by
  simp only [mem_linkFlows_none]
  constructor
  · intro h
    cases h with
    | lost loses =>
      cases hs
      exact .inr ⟨_, rfl, .inl ⟨loses, rfl⟩⟩
    | receiver calls isTarget notStatic given =>
      cases hs.symm.trans calls
      exact .inl ⟨_, isTarget, .inl ⟨_, notStatic, given, rfl⟩⟩
    | argument calls isTarget given =>
      cases hs.symm.trans calls
      exact .inl ⟨_, isTarget, .inr ⟨_, _, given, rfl⟩⟩
    | result isTarget keeps =>
      cases hs
      exact .inr ⟨_, rfl, .inr ⟨keeps, _, isTarget, rfl⟩⟩
    | _ => cases hs
  · rintro (⟨t, ht, ⟨r, hkind, hr, rfl⟩ | ⟨i, v, hv, rfl⟩⟩ |
      ⟨target, rfl, ⟨hloses, rfl⟩ | ⟨hkeeps, t, ht, rfl⟩⟩)
    · exact .receiver hs ht hkind hr
    · exact .argument hs ht hv
    · exact .lost hloses
    · exact .result ht hkeeps

theorem exists_mem_statementFlows_assign (hp : p.SuperAcyclic) (m : MethodRef) (target : Value)
    (call : Call) :
    ∃ cs, statementFlows p m (.assign target (.invoke call)) = .ok cs ∧
      ∀ x, x ∈ cs ↔ Adds p m (.assign target (.invoke call)) x := by
  have hlost : (lostResult? p call).isSome = true ↔ LosesResult p call := lostResult?_isSome_iff
  rw [statementFlows]
  by_cases hloses : LosesResult p call
  · obtain ⟨cs, hcs, hmem⟩ := exists_mem_callFlows hp m call none
    rw [if_pos (hlost.mpr hloses), hcs]
    refine ⟨_, rfl, fun x => ?_⟩
    rw [adds_call_iff rfl, List.mem_cons, hmem]
    simp [hloses, or_comm]
  · obtain ⟨cs, hcs, hmem⟩ := exists_mem_callFlows hp m call (some (.of m target))
    rw [if_neg (mt hlost.mp hloses), hcs]
    refine ⟨_, rfl, fun x => ?_⟩
    rw [adds_call_iff rfl, hmem]
    simp [hloses, mem_linkFlows_some, and_or_left, exists_or]

/-- The contributions of a statement are what the rules say. -/
theorem exists_mem_statementFlows (hp : p.SuperAcyclic) (m : MethodRef) (s : Statement) :
    ∃ cs, statementFlows p m s = .ok cs ∧ ∀ x, x ∈ cs ↔ Adds p m s x := by
  cases s with
  | assign target value =>
    cases value with
    | new name => exact ⟨_, rfl, mem_singleton_iff_adds rfl .new⟩
    | use value => exact ⟨_, rfl, mem_singleton_iff_adds rfl .use⟩
    | cast name value => exact ⟨_, rfl, mem_singleton_iff_adds rfl .cast⟩
    | constant => exact ⟨_, rfl, mem_singleton_iff_adds rfl .constant⟩
    | invoke call => exact exists_mem_statementFlows_assign hp m target call
  | invoke call =>
    obtain ⟨cs, hcs, hmem⟩ := exists_mem_callFlows hp m call none
    refine ⟨cs, hcs, fun x => ?_⟩
    rw [adds_call_iff rfl, hmem]
    simp
  | ret value =>
    cases value with
    | some value => exact ⟨_, rfl, mem_singleton_iff_adds rfl .ret⟩
    | none => exact ⟨[], rfl, fun x => by simp [not_adds_of_idle (.inl rfl)]⟩
  | other => exact ⟨[], rfl, fun x => by simp [not_adds_of_idle (.inr rfl)]⟩

/-! ## Methods -/

def MethodAdds (p : Program) (m : MethodRef) (x : Contribution) : Prop :=
  ∃ s ∈ p.statements m, Adds p m s x

theorem exists_mem_methodFlows (hp : p.SuperAcyclic) (m : MethodRef) :
    ∃ cs, methodFlows p m = .ok cs ∧ ∀ x, x ∈ cs ↔ MethodAdds p m x := by
  obtain ⟨cs, hcs, hmem⟩ := exists_methodFlows hp m
  refine ⟨cs, hcs, fun x => (hmem x).trans (exists_congr fun s => and_congr_right fun _ => ?_)⟩
  obtain ⟨cs', hcs', hmem'⟩ := exists_mem_statementFlows hp m s
  rw [hcs', ← hmem' x]
  simp

namespace FlowGraph

/-- What a graph holds is not added again. -/
theorem add_of_holds {c : Contribution} (h : g.Holds S) (hc : c ∈ S) : g.add c = g := by
  have hmentioned : ∀ n, c.Mentions n → g.addNode n = g :=
    fun n hn => addNode_of_mem ((h.node_iff n).mpr ⟨c, hc, hn⟩)
  cases c with
  | node n => exact hmentioned n rfl
  | seed n name =>
    obtain ⟨i, hi, hseed⟩ := (h.seed_iff n name).mpr hc
    rw [add, tag, hmentioned n rfl, number_of_index? hi, Roster.insert_of_mem hseed]
  | edge source target =>
    obtain ⟨i, j, hi, hj, hedge⟩ := (h.flow_iff source target).mpr hc
    rw [add, addEdge, hmentioned source (.inl rfl), hmentioned target (.inr rfl),
      number_of_index? hi, number_of_index? hj, Roster.insert_of_mem hedge]

theorem addAll_of_holds (h : g.Holds S) {cs : List Contribution} (hcs : ∀ c ∈ cs, c ∈ S) :
    cs.foldl add g = g := by
  induction cs with
  | nil => rfl
  | cons c rest ih =>
    rw [List.foldl_cons, add_of_holds h (hcs c List.mem_cons_self)]
    exact ih (fun d hd => hcs d (List.mem_cons_of_mem c hd))

theorem addMethod_of_holds (hp : p.SuperAcyclic) (h : g.Holds S) (hm : ∀ x, MethodAdds p m x → x ∈ S) :
    g.addMethod p m = .ok g := by
  obtain ⟨cs, hcs, hmem⟩ := exists_mem_methodFlows hp m
  have hsame : cs.foldl add g = g := addAll_of_holds h (fun c hc => hm c ((hmem c).mp hc))
  rw [addMethod, hcs]
  exact congrArg Except.ok hsame

theorem exists_addMethod_holds (hp : p.SuperAcyclic) (h : g.Holds S) (m : MethodRef) :
    ∃ g', g.addMethod p m = .ok g' ∧ g'.Holds (S ∪ {x | MethodAdds p m x}) := by
  obtain ⟨cs, hcs, hmem⟩ := exists_mem_methodFlows hp m
  refine ⟨cs.foldl add g, by rw [addMethod, hcs]; rfl, ?_⟩
  have hset : {x | MethodAdds p m x} = {x | x ∈ cs} := by
    ext x
    exact (hmem x).symm
  rw [hset]
  exact h.addAll cs

theorem exists_addMethods_holds (hp : p.SuperAcyclic) (h : g.Holds S) (ms : List MethodRef) :
    ∃ g', ms.foldlM (fun g m => g.addMethod p m) g = .ok g' ∧
      g'.Holds (S ∪ {x | ∃ m ∈ ms, MethodAdds p m x}) := by
  induction ms generalizing g S with
  | nil => exact ⟨g, rfl, by simpa using h⟩
  | cons m rest ih =>
    obtain ⟨g₁, hg₁, hfirst⟩ := exists_addMethod_holds hp h m
    obtain ⟨g', hg', hrest⟩ := ih hfirst
    have hset : S ∪ {x | ∃ m' ∈ m :: rest, MethodAdds p m' x} =
        S ∪ {x | MethodAdds p m x} ∪ {x | ∃ m' ∈ rest, MethodAdds p m' x} := by
      ext x
      simp [or_assoc]
    rw [hset]
    refine ⟨g', ?_, hrest⟩
    rw [List.foldlM_cons, hg₁]
    exact hg'

/-- The graph of methods holds what they add and nothing else. -/
theorem exists_ofMethods_holds (hp : p.SuperAcyclic) (ms : List MethodRef) :
    ∃ g, ofMethods p ms = .ok g ∧ g.Holds {x | ∃ m ∈ ms, MethodAdds p m x} := by
  have hall := exists_addMethods_holds hp holds_empty ms
  rwa [Set.empty_union] at hall

end FlowGraph

/-- Without a superclass cycle, for every list of methods. The graph of the methods has the places, the
flows and the created objects that their statements add, and no others. Adding one of the methods once
more changes nothing at all. Any list of the same methods, in another order or with repetitions, gives
the same places, flows and created objects. -/
theorem methods_contribute (p : Program) (hp : p.SuperAcyclic) (ms : List MethodRef) :
    ∃ g, FlowGraph.ofMethods p ms = .ok g ∧
      (∀ n, n ∈ g.nodes ↔
        ∃ m ∈ ms, ∃ s ∈ p.statements m, ∃ x, Adds p m s x ∧ x.Mentions n) ∧
      (∀ a b, g.HasFlow a b ↔ ∃ m ∈ ms, ∃ s ∈ p.statements m, Adds p m s (.edge a b)) ∧
      (∀ n c, g.HasSeed n c ↔ ∃ m ∈ ms, ∃ s ∈ p.statements m, Adds p m s (.seed n c)) ∧
      (∀ m ∈ ms, g.addMethod p m = .ok g) ∧
      ∀ ms', (∀ m, m ∈ ms' ↔ m ∈ ms) → ∃ g', FlowGraph.ofMethods p ms' = .ok g' ∧
        (∀ n, n ∈ g'.nodes ↔ n ∈ g.nodes) ∧ (∀ a b, g'.HasFlow a b ↔ g.HasFlow a b) ∧
        ∀ n c, g'.HasSeed n c ↔ g.HasSeed n c := by
  obtain ⟨g, hg, hholds⟩ := FlowGraph.exists_ofMethods_holds hp ms
  refine ⟨g, hg, fun n => ?_, hholds.flow_iff, hholds.seed_iff, fun m hm => ?_, fun ms' hsame => ?_⟩
  · rw [hholds.node_iff]
    constructor
    · rintro ⟨x, ⟨m, hm, s, hs, hx⟩, hn⟩
      exact ⟨m, hm, s, hs, x, hx, hn⟩
    · rintro ⟨m, hm, s, hs, x, hx, hn⟩
      exact ⟨x, ⟨m, hm, s, hs, hx⟩, hn⟩
  · exact FlowGraph.addMethod_of_holds hp hholds (fun x hx => ⟨m, hm, hx⟩)
  · obtain ⟨g', hg', hholds'⟩ := FlowGraph.exists_ofMethods_holds hp ms'
    simp only [hsame] at hholds'
    refine ⟨g', hg', fun n => ?_, fun a b => ?_, fun n c => ?_⟩
    · rw [hholds'.node_iff, hholds.node_iff]
    · rw [hholds'.flow_iff, hholds.flow_iff]
    · rw [hholds'.seed_iff, hholds.seed_iff]

/-- Adding a method once or twice, before or after another one, makes no difference but in numbers. -/
theorem methods_contribute_borrow :
    borrowProgram.SuperAcyclic ∧
      ∃ g g', FlowGraph.ofMethods borrowProgram [⟨"Main", "main", "()V"⟩, ⟨"Lender", "make", "()V"⟩] =
          .ok g ∧
        FlowGraph.ofMethods borrowProgram [⟨"Lender", "make", "()V"⟩, ⟨"Main", "main", "()V"⟩,
          ⟨"Lender", "make", "()V"⟩] = .ok g' ∧
        g.addMethod borrowProgram ⟨"Main", "main", "()V"⟩ = .ok g ∧
        g.HasSeed (.localVar ⟨"Lender", "make", "()V"⟩ "d") "Dot" ∧
        (∀ n, n ∈ g'.nodes ↔ n ∈ g.nodes) ∧ (∀ a b, g'.HasFlow a b ↔ g.HasFlow a b) ∧
        ∀ n c, g'.HasSeed n c ↔ g.HasSeed n c := by
  have hp : borrowProgram.SuperAcyclic := by decide
  obtain ⟨g, hg, -, -, hseeds, hagain, hsame⟩ := methods_contribute borrowProgram hp
    [⟨"Main", "main", "()V"⟩, ⟨"Lender", "make", "()V"⟩]
  obtain ⟨g', hg', hothers⟩ := hsame [⟨"Lender", "make", "()V"⟩, ⟨"Main", "main", "()V"⟩,
    ⟨"Lender", "make", "()V"⟩] (by intro m; simp only [List.mem_cons]; tauto)
  refine ⟨hp, g, g', hg, hg', hagain _ List.mem_cons_self, ?_, hothers⟩
  exact (hseeds _ _).mpr ⟨_, .tail _ (.head _), .assign (.localVar "d") (.new "Dot"), by decide, .new⟩

end Devirt
