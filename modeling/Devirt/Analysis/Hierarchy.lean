import Devirt.Analysis

/-!
# Class hierarchy analysis

Every class below the declared class of a receiver is taken for possible.

* `Hierarchy.strategy` : each call adds all its targets, or a warning if it has none;
* `Hierarchy.run` : the analysis of a program.
-/

namespace Devirt.Hierarchy

def visitCall (p : Program) (caller : MethodRef) (v : Visit (List UnresolvedCall)) (call : Call) :
    Analyzed (Visit (List UnresolvedCall)) :=
  match p.targets call with
  | .error e => .error e
  | .ok [] =>
    .ok ⟨(recordUnresolved v.state ⟨caller, call.method⟩).result, v.callees,
      v.events ++ (recordUnresolved v.state ⟨caller, call.method⟩).events⟩
  | .ok targets => .ok ⟨v.state, v.callees ++ targets, v.events⟩

/-- All calls are resolved when they are met. -/
def strategy (p : Program) : Strategy (List UnresolvedCall) where
  initial := []
  visit warnings m := (p.calls m).foldlM (visitCall p m) ⟨warnings, [], []⟩
  resolve _ warnings := .ok ⟨warnings, [], []⟩

def run (p : Program) : Analyzed (Told Run) := do
  let done ← analyze p (strategy p)
  let graph := done.traversal.graph
  return ⟨⟨.cha, graph, done.state⟩,
    done.events ++ [.hierarchyBuilt graph.nodes.size graph.edges.size]⟩

end Devirt.Hierarchy
