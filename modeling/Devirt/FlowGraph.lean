import Devirt.Code
import Devirt.Components
import Devirt.Ordered

/-!
# Flow graphs

Places that hold objects, the flows between them, and the classes of the objects created in them.

* `FlowNode` : a place of one method, or a field; `FlowNode.of m v` : the place of a value in `m`;
* `FlowGraph.addNode`, `FlowGraph.tag`, `FlowGraph.addEdge` : grow a graph;
* `FlowGraph.propagate` : puts places that flow into each other into one component, and gives each
  component the classes of everything that flows into it. How components are found is up to a
  `Finder`;
* `FlowGraph.component?`, `FlowGraph.tags`, `FlowGraph.tagged` : answers as of the last
  propagation.
-/

namespace Devirt

/-! ## Places -/

/-- A place that objects flow through. -/
inductive FlowNode where
  | localVar (method : MethodRef) (name : String)
  | self (method : MethodRef)
  | parameter (method : MethodRef) (index : Nat)
  | field (owner name : String)
  | result (method : MethodRef)
deriving DecidableEq, Repr, Inhabited

/-- The place of a value in the body of a method. A field is one place for all methods. -/
def FlowNode.of (m : MethodRef) : Value → FlowNode
  | .localVar name => .localVar m name
  | .self => .self m
  | .parameter index => .parameter m index
  | .field owner name => .field owner name

namespace FlowNode

def kind : FlowNode → Nat
  | localVar .. => 0
  | self .. => 1
  | parameter .. => 2
  | field .. => 3
  | result .. => 4

/-- What a place is ordered by: its kind, then its parts. -/
def orderKey : FlowNode → Nat × MethodRef × Nat × String
  | localVar m name => (0, m, 0, name)
  | self m => (1, m, 0, "")
  | parameter m index => (2, m, index, "")
  | field owner name => (3, ⟨owner, name, ""⟩, 0, "")
  | result m => (4, m, 0, "")

instance : Ord FlowNode where
  compare
    | localVar m x, localVar n y => (compare m n).then (compare x y)
    | self m, self n => compare m n
    | parameter m i, parameter n j => (compare m n).then (compare i j)
    | field m x, field n y => (compare m n).then (compare x y)
    | result m, result n => compare m n
    | a, b => compare a.kind b.kind

/-- Places of one kind compare by their parts, others by their kind. -/
theorem compare_eq (a b : FlowNode) : compare a b = compare a.orderKey b.orderKey := by
  have hself : ∀ n : Nat, compare n n = .eq := fun _ => Std.ReflOrd.compare_self
  have htext : compare "" "" = .eq := Std.ReflOrd.compare_self
  have hempty : ∀ o : Ordering, o.then .eq = o := fun o => by cases o <;> rfl
  cases a <;> cases b <;>
    simp only [orderKey, compare_pair, hself, htext, hempty, MethodRef.compare_mk] <;> rfl

instance : Std.TransOrd FlowNode := transOrd_of_key orderKey compare_eq

instance : Std.LawfulEqOrd FlowNode :=
  lawfulEqOrd_of_key orderKey compare_eq (fun a b h => by
    cases a <;> cases b <;> simp_all [orderKey])

end FlowNode

/-! ## Graphs -/

/-- Where a place was put by a propagation: the number of its component, and the classes of the
objects that the component can hold. -/
structure Placement where
  component : Nat
  tags : List String
deriving DecidableEq, Repr, Inhabited

/-- Places in the order of their first mention, flows between them, and the classes created in
them. Flows and classes name places by their numbers. The placements are those of the last
propagation; later places have none yet. -/
structure FlowGraph where
  nodes : Roster FlowNode := ∅
  edges : Roster (Nat × Nat) := ∅
  seeds : Roster (Nat × String) := ∅
  placements : Array Placement := #[]
  componentCount : Nat := 0
deriving DecidableEq, Repr, Inhabited

namespace FlowGraph

def addNode (g : FlowGraph) (n : FlowNode) : FlowGraph := { g with nodes := g.nodes.insert n }

def index? (g : FlowGraph) (n : FlowNode) : Option Nat := g.nodes.index? n

/-- The number that a place has, or gets when it is added. -/
def number (g : FlowGraph) (n : FlowNode) : Nat := (g.index? n).getD g.nodes.size

/-- Notes that objects of a class are created in a place. -/
def tag (g : FlowGraph) (n : FlowNode) (name : String) : FlowGraph :=
  { g.addNode n with seeds := g.seeds.insert (g.number n, name) }

/-- Adds a flow and its places, the source first. -/
def addEdge (g : FlowGraph) (source target : FlowNode) : FlowGraph :=
  { (g.addNode source).addNode target with
    edges := g.edges.insert (g.number source, (g.addNode source).number target) }

def targets (g : FlowGraph) (n : FlowNode) : List FlowNode :=
  let nodes := g.nodes.toList.toArray
  match g.index? n with
  | some i => (successors g.edges.toList i).filterMap (fun j => nodes[j]?)
  | none => []

/-! ## Components -/

def flows (g : FlowGraph) : Arrows Nat := .ofList g.edges.toList

/-- The classes of a component: those created in its places, and those of the places that flow into
it and have been placed. -/
def classesOf (seeds : Std.TreeMap Nat (List String)) (inflow : Arrows Nat)
    (placed : Std.TreeMap Nat Placement) (part : List Nat) : List String :=
  part.foldl
    (fun tags i =>
      (inflow.next i).foldl
        (fun tags j =>
          match placed[j]? with
          | some p => Ordered.union p.tags tags
          | none => tags)
        (Ordered.union (Ordered.ofList (seeds.getD i [])) tags))
    []

/-- Places the places of components, the last component first, so that all that flows into a
component is placed before it. -/
def placeAll (seeds : Std.TreeMap Nat (List String)) (inflow : Arrows Nat)
    (parts : List (List Nat)) : Std.TreeMap Nat Placement :=
  parts.zipIdx.foldr
    (fun (part, number) placed =>
      let tags := classesOf seeds inflow placed part
      part.foldl (fun placed i => placed.insert i ⟨number, tags⟩) placed)
    ∅

/-- The components of a graph, by the numbers of their places. -/
abbrev parts (g : FlowGraph) (find : Finder) : List (List Nat) := find g.flows (List.range g.nodes.size)

/-- Gives each component that `find` finds its number and its classes. -/
def propagate (g : FlowGraph) (find : Finder := components) : FlowGraph :=
  let placed := placeAll (targetTable g.seeds.toList) g.flows.flip (g.parts find)
  { g with
    placements := ((List.range g.nodes.size).map (fun i => placed.getD i default)).toArray
    componentCount := (g.parts find).length }

def placement? (g : FlowGraph) (n : FlowNode) : Option Placement :=
  (g.index? n).bind (fun i => g.placements[i]?)

def component? (g : FlowGraph) (n : FlowNode) : Option Nat := (g.placement? n).map (·.component)

/-- The classes of the objects that a place can hold. -/
def tags (g : FlowGraph) (n : FlowNode) : List String :=
  match g.placement? n with
  | some p => p.tags
  | none => []

/-- The places that can hold objects, with their classes. -/
def tagged (g : FlowGraph) : List (FlowNode × List String) :=
  (g.nodes.toList.zip (g.placements.toList.map (·.tags))).filter (fun (_, tags) => !tags.isEmpty)

end FlowGraph

end Devirt
