import Devirt.Event
import Devirt.FlowGraph
import Devirt.Program.Dispatch

/-!
# Flows of statements

* `returnedValues p m` : the values that a method returns, of which there has to be one;
* `Contribution` : one thing that a statement adds to a flow graph;
* `statementFlows p m s` : all that a statement in the body of `m` adds;
* `FlowGraph.addMethod g p m` : a graph with all that the body of `m` adds.

What a statement adds depends on the program, its method and itself only.
-/

namespace Devirt

/-! ## Returned values -/

def Statement.returned? : Statement → Option Value
  | .ret value => value
  | _ => none

def returnedValues (p : Program) (m : MethodRef) : Analyzed (List Value) :=
  match (p.statements m).filterMap Statement.returned? with
  | [] => .error (.noReturnValue m)
  | values => .ok values

/-- Why the result of a call is left out: a static call to a method that returns no value. -/
def lostResult? (p : Program) (call : Call) : Option AnalysisError :=
  if call.kind = .static then
    match returnedValues p call.method with
    | .error e => some e
    | .ok _ => none
  else none

/-! ## Contributions -/

inductive Contribution where
  | node (n : FlowNode)
  | seed (n : FlowNode) (name : String)
  | edge (source target : FlowNode)
deriving DecidableEq, Repr

def FlowGraph.add (g : FlowGraph) : Contribution → FlowGraph
  | .node n => g.addNode n
  | .seed n name => g.tag n name
  | .edge source target => g.addEdge source target

/-- The flows between a call and one of its targets: receiver, arguments, result. -/
def linkFlows (caller : MethodRef) (call : Call) (result : Option FlowNode) (target : MethodRef) :
    List Contribution :=
  (call.receiver?.toList.map (fun r => .edge (.of caller r) (.self target))) ++
    call.args.mapIdx (fun i a => .edge (.of caller a) (.parameter target i)) ++
    (result.toList.map (fun r => .edge (.result target) r))

def callFlows (p : Program) (caller : MethodRef) (call : Call) (result : Option FlowNode) :
    Analyzed (List Contribution) := do
  return (← p.targets call).flatMap (linkFlows caller call result)

def statementFlows (p : Program) (m : MethodRef) : Statement → Analyzed (List Contribution)
  | .assign target (.new name) => .ok [.seed (.of m target) name]
  | .assign target (.use value) => .ok [.edge (.of m value) (.of m target)]
  | .assign target (.cast _ value) => .ok [.edge (.of m value) (.of m target)]
  | .assign target .constant => .ok [.node (.of m target)]
  | .assign target (.invoke call) =>
    if (lostResult? p call).isSome then do
      return .node (.of m target) :: (← callFlows p m call none)
    else callFlows p m call (some (.of m target))
  | .invoke call => callFlows p m call none
  | .ret (some value) => .ok [.edge (.of m value) (.result m)]
  | .ret none => .ok []
  | .other => .ok []

def statementEvents (p : Program) (m : MethodRef) : Statement → List Event
  | .assign _ (.invoke call) => (lostResult? p call).toList.map (Event.resultUntagged m)
  | _ => []

def methodFlows (p : Program) (m : MethodRef) : Analyzed (List Contribution) := do
  return (← (p.statements m).mapM (statementFlows p m)).flatten

def FlowGraph.addMethod (g : FlowGraph) (p : Program) (m : MethodRef) : Analyzed FlowGraph := do
  return (← methodFlows p m).foldl FlowGraph.add g

end Devirt
