import Devirt.Analysis

/-!
# Rapid type analysis

Only classes that reached code instantiates are taken for possible.

* `Instantiation.State` : the classes instantiated so far, in order, and the dispatched calls;
* `Site.catchUp` : resolves a dispatched call against the classes that it has not looked at;
* `Instantiation.strategy` : other calls are added when they are met, and each round every
  dispatched call catches up, unless another way to look at the classes is given;
* `Instantiation.run` : the analysis of a program, `Instantiation.runBy` : with any such strategy.
-/

namespace Devirt.Instantiation

/-- A dispatched call: how many instantiated classes it has looked at, and how many of them gave a
target. -/
structure Site where
  caller : MethodRef
  signature : MethodRef
  seen : Nat := 0
  targets : Nat := 0
deriving DecidableEq, Repr

structure State where
  instantiated : List String := []
  sites : List Site := []
deriving DecidableEq, Repr

def noteCall (caller : MethodRef) (state : State) (call : Call) : State × List Event :=
  if call.kind.isDispatched then
    ({ state with sites := state.sites ++ [{ caller, signature := call.method }] }, [])
  else if call.isInstantiation && !state.instantiated.contains call.method.owner then
    ({ state with instantiated := state.instantiated ++ [call.method.owner] },
      [.classInstantiated call.method.owner caller])
  else (state, [])

/-- Adds a call to a walk: the method it names is called, unless dispatch decides. -/
def visitCall (caller : MethodRef) (v : Visit State) (call : Call) : Visit State :=
  ⟨(noteCall caller v.state call).1,
    if call.kind.isDispatched then v.callees else v.callees ++ [call.method],
    v.events ++ (noteCall caller v.state call).2⟩

/-- Whether an object of a class can be the receiver of a call to a signature. -/
def admits (p : Program) (signature : MethodRef) (name : String) : Bool :=
  p.isConcrete name && p.isSubtype name signature.owner

/-- The methods that run for a signature on objects of these classes, class by class. -/
def resolveAgainst (p : Program) (signature : MethodRef) (classes : List String) :
    Analyzed (List MethodRef) := do
  let found ← (classes.filter (admits p signature)).mapM (fun c => p.dispatch c signature)
  return found.filterMap id

/-- Resolves a dispatched call against the classes instantiated since it last looked. -/
def Site.catchUp (p : Program) (instantiated : List String) (site : Site) :
    Analyzed (Site × List (MethodRef × MethodRef)) := do
  let found ← resolveAgainst p site.signature (instantiated.drop site.seen)
  return ({ site with seen := instantiated.length, targets := site.targets + found.length },
    found.map (fun m => (site.caller, m)))

/-- Dispatched calls wait for classes; all others are resolved when they are met. -/
def strategy (p : Program)
    (look : List String → Site → Analyzed (Site × List (MethodRef × MethodRef)) := Site.catchUp p) :
    Strategy State where
  initial := {}
  visit state m := .ok ((p.calls m).foldl (visitCall m) ⟨state, [], []⟩)
  resolve _ state := do
    let resolved ← state.sites.mapM (look state.instantiated)
    return ⟨{ state with sites := resolved.map (·.1) }, resolved.flatMap (·.2), []⟩

def State.unresolved (state : State) : List UnresolvedCall :=
  (state.sites.filter (fun s => s.targets == 0)).map (fun s => ⟨s.caller, s.signature⟩)

/-- The analysis of a program with a strategy that notes classes and dispatched calls. -/
def runBy (p : Program) (s : Strategy State) : Analyzed (Told Run) := do
  let done ← analyze p s
  let graph := done.traversal.graph
  let warnings := recordAllUnresolved done.state.unresolved
  return ⟨⟨.rta, graph, warnings.result⟩,
    done.events ++ warnings.events ++
      [.instantiationBuilt graph.nodes.size graph.edges.size done.state.instantiated.length
        done.rounds]⟩

def run (p : Program) : Analyzed (Told Run) := runBy p (strategy p)

end Devirt.Instantiation
