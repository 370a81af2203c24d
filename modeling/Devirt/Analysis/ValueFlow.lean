import Devirt.Analysis.Hierarchy
import Devirt.FlowGraph.Statements

/-!
# Variable type analysis

Only classes whose objects flow into a receiver are taken for possible, among the calls that the
class hierarchy allows.

* `ValueFlow.State` : the flows of the methods reached, and the dispatched calls;
* `Site.refine` : the calls that the classes of a receiver give;
* `ValueFlow.strategy p allows` : the analysis within the calls that are allowed. What a method adds to
  the flows and how components are found may be given, too;
* `ValueFlow.runBy p s` : an analysis of a program that is given the calls of its hierarchy analysis;
* `ValueFlow.run` : the analysis of a program within these calls.
-/

namespace Devirt.ValueFlow

/-- A dispatched call with the place of its receiver, and whether it has got a target. -/
structure Site where
  caller : MethodRef
  signature : MethodRef
  receiver : Option FlowNode
  resolved : Bool := false
deriving DecidableEq, Repr

structure State where
  flow : FlowGraph := {}
  sites : List Site := []
deriving DecidableEq, Repr

def Site.of (caller : MethodRef) (call : Call) : Site where
  caller := caller
  signature := call.method
  receiver := call.receiver?.map (FlowNode.of caller)

/-- The methods that the classes of a receiver give, in order. -/
def Site.refine (p : Program) (flow : FlowGraph) (site : Site) : Analyzed (List MethodRef) :=
  match site.receiver with
  | none => .ok []
  | some receiver => do
    let classes := (flow.tags receiver).filter (fun c => p.isSubtype c site.signature.owner)
    let found ← classes.mapM (fun c => p.dispatch c site.signature)
    return Ordered.ofList (found.filterMap id)

def Site.resolve (p : Program) (allows : MethodRef → MethodRef → Bool) (flow : FlowGraph)
    (site : Site) : Analyzed (Site × List (MethodRef × MethodRef)) := do
  let found := (← site.refine p flow).filter (allows site.caller)
  return ({ site with resolved := site.resolved || !found.isEmpty },
    found.map (fun m => (site.caller, m)))

/-- Dispatched calls wait for the flows of a round; all others are resolved when they are met. Only
calls that are allowed count. -/
def strategy (p : Program) (allows : MethodRef → MethodRef → Bool)
    (add : FlowGraph → MethodRef → Analyzed FlowGraph := fun flow m => flow.addMethod p m)
    (find : Finder := components) : Strategy State where
  initial := {}
  visit state m := do
    let flow ← add state.flow m
    let calls := p.calls m
    let sites := (calls.filter (·.kind.isDispatched)).map (Site.of m)
    let callees := ((calls.filter (fun c => !c.kind.isDispatched)).map (·.method)).filter (allows m)
    return ⟨⟨flow, state.sites ++ sites⟩, callees, (p.statements m).flatMap (statementEvents p m)⟩
  resolve number state := do
    let flow := state.flow.propagate find
    let resolved ← state.sites.mapM (Site.resolve p allows flow)
    return ⟨⟨flow, resolved.map (·.1)⟩, resolved.flatMap (·.2),
      [.flowPropagated number flow.nodes.size flow.edges.size flow.componentCount
        flow.tagged.length]⟩

def State.unresolved (state : State) : List UnresolvedCall :=
  (state.sites.filter (fun s => !s.resolved)).map (fun s => ⟨s.caller, s.signature⟩)

/-- The analysis of a program with a strategy that is given the calls of its hierarchy analysis. -/
def runBy (p : Program) (s : CallGraph → Strategy State) : Analyzed (Told Run) := do
  let hierarchy ← Hierarchy.run p
  let baseline := hierarchy.result.graph
  let done ← analyze p (s baseline)
  let graph := done.traversal.graph
  let warnings := recordAllUnresolved done.state.unresolved
  return ⟨⟨.vta, graph, warnings.result⟩,
    hierarchy.events ++ done.events ++ warnings.events ++
      [.flowBuilt graph.nodes.size graph.edges.size baseline.edges.size done.rounds]⟩

def run (p : Program) : Analyzed (Told Run) := runBy p (fun baseline => strategy p baseline.hasEdge)

end Devirt.ValueFlow
