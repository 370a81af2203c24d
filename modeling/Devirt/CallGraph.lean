import Devirt.AnalysisError
import Devirt.Roster

/-!
# Call graphs

Methods and calls between them, in the order of their discovery. Nothing is ever taken away, and
an edge joins nodes only.

* `CallGraph.addNode`, `CallGraph.addEdge` : the graph with one more node or edge, and whether it
  is new.
-/

namespace Devirt

/-- Methods, and pairs of a caller and a callee. -/
structure CallGraph where
  nodes : Roster MethodRef := ∅
  edges : Roster (MethodRef × MethodRef) := ∅
deriving DecidableEq, Repr, Inhabited

namespace CallGraph

def hasNode (g : CallGraph) (m : MethodRef) : Bool := g.nodes.contains m

def hasEdge (g : CallGraph) (caller callee : MethodRef) : Bool := g.edges.contains (caller, callee)

/-- Adds a node; `false` if it is one already. -/
def addNode (g : CallGraph) (m : MethodRef) : CallGraph × Bool :=
  if g.hasNode m then (g, false) else ({ g with nodes := g.nodes.insert m }, true)

/-- Adds an edge between nodes; `false` if it is one already. The caller is looked at first. -/
def addEdge (g : CallGraph) (caller callee : MethodRef) : Analyzed (CallGraph × Bool) :=
  if !g.hasNode caller then .error (.unknownNode caller)
  else if !g.hasNode callee then .error (.unknownNode callee)
  else if g.hasEdge caller callee then .ok (g, false)
  else .ok ({ g with edges := g.edges.insert (caller, callee) }, true)

end CallGraph

end Devirt
