import Devirt.Analysis.Hierarchy
import Devirt.Proofs.Dispatch
import Devirt.Proofs.Saturation
import Mathlib.Logic.Relation

/-!
# What the class hierarchy analysis finds

* `Hierarchy.Calls p m` : the targets of the calls of `m`;
* `Hierarchy.exists_walk` : a walk adds the targets of all calls;
* `Hierarchy.exists_done` : the graph is the least one closed under these calls;
* `Hierarchy.Reachable p m` : calls of methods with code lead from an entry point to `m`. Here the
  calls of a method do not depend on what else is reached, so the least closed graph is that of the
  reachable methods and their calls (`Hierarchy.isLeast_reachable`, `hierarchy_reachable`).
-/

namespace Devirt

namespace Hierarchy

variable {p : Program}

/-- The methods that a method calls: all targets of its calls. -/
def Calls (p : Program) (m t : MethodRef) : Prop :=
  ∃ call ∈ p.calls m, ∃ found, p.targets call = .ok found ∧ t ∈ found

/-- The calls of methods, whatever is reached. -/
def rule (p : Program) : CallRule p where
  calls _ := Calls p
  mono _ h := h
  bodied h := h

theorem calls_direct {m : MethodRef} {call : Call} (hcall : call ∈ p.calls m)
    (hd : call.kind.isDispatched = false) : Calls p m call.method :=
  ⟨call, hcall, [call.method], Program.targets_direct hd, by simp⟩

theorem calls_dispatched (hp : p.SuperAcyclic) {m t : MethodRef} {call : Call} {c : String}
    (hcall : call ∈ p.calls m) (hd : call.kind.isDispatched = true)
    (hbelow : p.isSubtype c call.method.owner = true) (hconcrete : p.isConcrete c = true)
    (ht : p.dispatch c call.method = .ok (some t)) : Calls p m t :=
  ⟨call, hcall, Program.exists_targets_of_dispatch hp hd hbelow hconcrete ht⟩

/-! ## Walks -/

theorem exists_visitCall (hp : p.SuperAcyclic) (m : MethodRef) (v : Visit (List UnresolvedCall))
    (call : Call) :
    ∃ w, visitCall p m v call = .ok w ∧
      ∀ t, t ∈ w.callees ↔ t ∈ v.callees ∨ ∃ found, p.targets call = .ok found ∧ t ∈ found := by
  obtain ⟨found, hfound⟩ := Program.exists_targets hp call
  unfold visitCall
  rw [hfound]
  cases found with
  | nil => exact ⟨_, rfl, by simp⟩
  | cons x rest => exact ⟨_, rfl, by simp⟩

theorem exists_walk (hp : p.SuperAcyclic) (m : MethodRef) (calls : List Call)
    (v : Visit (List UnresolvedCall)) :
    ∃ w, calls.foldlM (visitCall p m) v = .ok w ∧
      ∀ t, t ∈ w.callees ↔
        t ∈ v.callees ∨ ∃ call ∈ calls, ∃ found, p.targets call = .ok found ∧ t ∈ found := by
  induction calls generalizing v with
  | nil => exact ⟨v, rfl, by simp⟩
  | cons call rest ih =>
    obtain ⟨u, hu, hcallees⟩ := exists_visitCall hp m v call
    obtain ⟨w, hw, hrest⟩ := ih u
    refine ⟨w, ?_, fun t => ?_⟩
    · rw [List.foldlM_cons, hu]
      exact hw
    · simp only [hrest, hcallees, List.mem_cons, exists_eq_or_imp, or_assoc]

/-! ## The result -/

theorem follows (hp : p.SuperAcyclic) :
    (strategy p).Follows (rule p) (fun _ P E => ∀ m ∈ P, ∀ t, Calls p m t → (m, t) ∈ E) where
  initial m hm := absurd hm (Set.notMem_empty m)
  visit {warnings P E m} h _ := by
    obtain ⟨w, hw, hcallees⟩ := exists_walk hp m (p.calls m) ⟨warnings, [], []⟩
    have hmade : ∀ t, t ∈ w.callees ↔ Calls p m t := fun t => by simp [hcallees, Calls]
    refine ⟨w, hw, fun t ht => (hmade t).mp ht, ?_⟩
    rintro x (rfl | hx) t ht
    · exact .inr ⟨rfl, (hmade t).mpr ht⟩
    · exact .inl (h x hx t ht)
  resolve {warnings P E} number h :=
    ⟨_, rfl, by simp, fun m hm t ht => .inl (h m hm t ht), fun m hm t ht => .inl (h m hm t ht)⟩

theorem exists_done (hp : p.SuperAcyclic) :
    ∃ told, run p = .ok told ∧
      IsLeast (rule p).closed (told.result.graph.nodeSet, told.result.graph.edgeSet) := by
  obtain ⟨done, hdone, -, -, hleast⟩ := exists_analyze (follows hp)
  exact ⟨_, by rw [run, hdone]; rfl, hleast⟩

/-! ## Reachable methods -/

/-- A method with code has a call with this target. -/
def Step (p : Program) (m t : MethodRef) : Prop := p.hasBody m = true ∧ Calls p m t

/-- Steps lead from an entry point with code to a method. -/
def Reachable (p : Program) (m : MethodRef) : Prop :=
  ∃ entry ∈ p.entryPoints, p.hasBody entry = true ∧ Relation.ReflTransGen (Step p) entry m

theorem reachable_entry {m : MethodRef} (hm : m ∈ p.entryPoints) (hb : p.hasBody m = true) :
    Reachable p m := ⟨m, hm, hb, .refl⟩

theorem Reachable.step {m t : MethodRef} (h : Reachable p m) (hs : Step p m t) :
    Reachable p t := by
  obtain ⟨entry, hentry, hb, hpath⟩ := h
  exact ⟨entry, hentry, hb, hpath.tail hs⟩

theorem Reachable.mem_of_closed {m : MethodRef} {N : Set MethodRef}
    {E : Set (MethodRef × MethodRef)} (h : Reachable p m) (hclosed : (N, E) ∈ (rule p).closed) :
    m ∈ N := by
  obtain ⟨entry, hentry, hb, hpath⟩ := h
  induction hpath with
  | refl => exact hclosed.entry entry hentry hb
  | tail _ hs ih =>
    have hedge := hclosed.call _ ih hs.1 _ hs.2
    exact hclosed.callee _ hedge

theorem isLeast_reachable (p : Program) :
    IsLeast (rule p).closed
      ({m | Reachable p m}, {e | Reachable p e.1 ∧ Step p e.1 e.2}) := by
  constructor
  · refine ⟨fun m hm hb => reachable_entry hm hb, fun e he => he.1.step he.2, ?_⟩
    intro m hm hb t ht
    exact ⟨hm, hb, ht⟩
  · rintro ⟨N, E⟩ hclosed
    refine ⟨fun m hm => hm.mem_of_closed hclosed, ?_⟩
    rintro ⟨m, t⟩ ⟨hm, hb, ht⟩
    exact hclosed.call m (hm.mem_of_closed hclosed) hb t ht

end Hierarchy

/-- Without a superclass cycle the class hierarchy analysis has a result. Its methods are those that
are reachable, and its calls are the steps from reachable methods; each is listed once. -/
theorem hierarchy_reachable (p : Program) (hp : p.SuperAcyclic) :
    ∃ told, Hierarchy.run p = .ok told ∧
      told.result.graph.nodes.toList.Nodup ∧
      (∀ m, m ∈ told.result.graph.nodes.toList ↔ Hierarchy.Reachable p m) ∧
      told.result.graph.edges.toList.Nodup ∧
      ∀ m t, (m, t) ∈ told.result.graph.edges.toList ↔
        Hierarchy.Reachable p m ∧ Hierarchy.Step p m t := by
  obtain ⟨told, hrun, hleast⟩ := Hierarchy.exists_done hp
  have hgraph := hleast.unique (Hierarchy.isLeast_reachable p)
  obtain ⟨hnodes, hedges⟩ := Prod.mk.inj hgraph
  refine ⟨told, hrun, Roster.nodup_toList _, fun m => ?_, Roster.nodup_toList _, fun m t => ?_⟩
  · rw [Roster.mem_toList]
    exact Set.ext_iff.mp hnodes m
  · rw [Roster.mem_toList]
    exact Set.ext_iff.mp hedges (m, t)

def ringCall (owner name : String) : Call := { kind := .static, method := ⟨owner, name, "()V"⟩ }

/-- Two methods that call each other, one of them itself, too, and two leaves: a native method, and
one of a class that is not defined. A third method is never called. -/
def ringProgram : Program where
  classes := [
    { name := "Main",
      methods := [{ name := "main", descriptor := "()V",
                    body := some [.invoke (ringCall "Ring" "f"), .invoke (ringCall "Ring" "f")] }] },
    { name := "Ring",
      methods := [
        { name := "f", descriptor := "()V",
          body := some [.invoke (ringCall "Ring" "f"), .invoke (ringCall "Ring" "g")] },
        { name := "g", descriptor := "()V",
          body := some [.invoke (ringCall "Ring" "f"), .invoke (ringCall "Ring" "hash"),
            .invoke (ringCall "System" "gc")] },
        { name := "hash", descriptor := "()V", access := { isNative := true } },
        { name := "unused", descriptor := "()V", body := some [.invoke (ringCall "Ring" "f")] }] }]
  entryPoints := [⟨"Main", "main", "()V"⟩]

/-- The methods that are reached from the entry point. -/
def ringMethods : List MethodRef :=
  [⟨"Main", "main", "()V"⟩, ⟨"Ring", "f", "()V"⟩, ⟨"Ring", "g", "()V"⟩, ⟨"Ring", "hash", "()V"⟩,
    ⟨"System", "gc", "()V"⟩]

theorem step_ring {m : MethodRef} (call : Call) (hb : ringProgram.hasBody m = true)
    (hcall : call ∈ ringProgram.calls m) (hd : call.kind.isDispatched = false) :
    Hierarchy.Step ringProgram m call.method := ⟨hb, Hierarchy.calls_direct hcall hd⟩

theorem reachable_ring_iff {m : MethodRef} :
    Hierarchy.Reachable ringProgram m ↔ m ∈ ringMethods := by
  have hcalls : ∀ m ∈ ringMethods, ∀ call ∈ ringProgram.calls m,
      call.kind.isDispatched = false ∧ call.method ∈ ringMethods := by decide
  constructor
  · rintro ⟨entry, hentry, -, hpath⟩
    induction hpath with
    | refl =>
      rw [List.mem_singleton.mp hentry]
      exact List.mem_cons_self
    | tail _ hs ih =>
      obtain ⟨-, call, hcall, found, hfound, ht⟩ := hs
      obtain ⟨hd, hmem⟩ := hcalls _ ih call hcall
      rw [Program.targets_direct hd] at hfound
      cases hfound
      rw [List.mem_singleton.mp ht]
      exact hmem
  · have hmain : Hierarchy.Reachable ringProgram ⟨"Main", "main", "()V"⟩ :=
      Hierarchy.reachable_entry (by decide) (by decide)
    have hf := hmain.step (step_ring (ringCall "Ring" "f") (by decide) (by decide) rfl)
    have hg := hf.step (step_ring (ringCall "Ring" "g") (by decide) (by decide) rfl)
    have hhash := hg.step (step_ring (ringCall "Ring" "hash") (by decide) (by decide) rfl)
    have hgc := hg.step (step_ring (ringCall "System" "gc") (by decide) (by decide) rfl)
    intro hm
    simp only [ringMethods, List.mem_cons, List.not_mem_nil, or_false] at hm
    rcases hm with rfl | rfl | rfl | rfl | rfl
    · exact hmain
    · exact hf
    · exact hg
    · exact hhash
    · exact hgc

/-- The recursion ends, both leaves are reached, and the call that is made twice is listed once. -/
theorem hierarchy_reachable_ring :
    ringProgram.SuperAcyclic ∧ ∃ told, Hierarchy.run ringProgram = .ok told ∧
      (∀ m, m ∈ told.result.graph.nodes.toList ↔ m ∈ ringMethods) ∧
      told.result.graph.edges.toList.count (⟨"Main", "main", "()V"⟩, ⟨"Ring", "f", "()V"⟩) = 1 := by
  have hp : ringProgram.SuperAcyclic := by decide
  obtain ⟨told, hrun, -, hnodes, hnodup, hedges⟩ := hierarchy_reachable ringProgram hp
  refine ⟨hp, told, hrun, fun m => (hnodes m).trans reachable_ring_iff, ?_⟩
  apply List.count_eq_one_of_mem hnodup
  rw [hedges, reachable_ring_iff]
  exact ⟨by decide, step_ring (ringCall "Ring" "f") (by decide) (by decide) rfl⟩

end Devirt
