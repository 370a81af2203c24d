import Devirt.Reach

/-!
# Components of a graph

A component is a set of nodes that reach each other, together with all nodes of that kind.

* `leaveOrder a nodes` : the nodes in the order in which a depth-first walk leaves them, the last
  one first;
* `Finder` : a way to find the components of a graph;
* `components a nodes` : the components. The walk against the arrows leaves last a node of a
  component that no arrow leaves, so what that node reaches is its component; and without it the
  next such node is left last. So a component comes after those that it leads to.
-/

namespace Devirt

variable {α : Type} [Ord α] [Std.TransOrd α] [Std.LawfulEqOrd α]

/-! ## The order of leaving -/

/-- What a depth-first walk has to do: enter a node, or leave one that it entered. -/
inductive Task (α : Type) where
  | enter (x : α)
  | leave (x : α)
deriving DecidableEq, Repr

/-- The steps of a task itself: a node that is entered is left, too. -/
def Task.steps : Task α → Nat
  | .enter _ => 2
  | .leave _ => 1

def stepsOf : List (Task α) → Nat
  | [] => 0
  | t :: rest => t.steps + stepsOf rest

omit [Ord α] [Std.TransOrd α] [Std.LawfulEqOrd α] in
/-- Nodes to enter count twice. -/
theorem stepsOf_enter_append (xs : List α) (tasks : List (Task α)) :
    stepsOf (xs.map Task.enter ++ tasks) = 2 * xs.length + stepsOf tasks := by
  induction xs with
  | nil => simp
  | cons x xs ih =>
    simp only [List.map_cons, List.cons_append, stepsOf, Task.steps, List.length_cons, ih]
    omega

/-- The nodes that a depth-first walk leaves, the last one first: a node is left when all that its
arrows lead to has been entered and left. -/
def leaving (a : Arrows α) (tasks : List (Task α)) (seen : Roster α) (left : List α) : List α :=
  match tasks with
  | [] => left
  | .leave x :: rest => leaving a rest seen (x :: left)
  | .enter x :: rest =>
    if seen.contains x then leaving a rest seen left
    else leaving a ((a.next x).map .enter ++ .leave x :: rest) (seen.insert x) left
termination_by 2 * (unwalked a.edges seen).length + stepsOf tasks
decreasing_by
  · simp only [stepsOf, Task.steps]
    omega
  · simp only [stepsOf, Task.steps]
    omega
  · rename_i hx
    have := length_unwalked_insert (a := a) (Bool.eq_false_iff.mpr hx)
    simp only [stepsOf_enter_append, stepsOf, Task.steps]
    omega

/-- Nodes in the order in which a depth-first walk along the arrows leaves them, the last one
first. -/
def leaveOrder (a : Arrows α) (nodes : List α) : List α := leaving a (nodes.map .enter) ∅ []

/-! ## Components -/

/-- Components found so far, the last one first, and all their nodes. -/
structure Division (α : Type) [Ord α] where
  parts : List (List α)
  seen : Roster α

/-- Adds the component of a node, unless it is there: what the node reaches and no component has
yet. -/
def Division.add (a : Arrows α) (d : Division α) (x : α) : Division α :=
  if d.seen.contains x then d
  else
    let seen := walk a [x] [] d.seen
    ⟨seen.latest.take (seen.size - d.seen.size) :: d.parts, seen⟩

/-- A way to find the components of a graph with these arrows and nodes. -/
abbrev Finder := Arrows Nat → List Nat → List (List Nat)

/-- The components of a graph, each after those that it leads to. -/
def components (a : Arrows α) (nodes : List α) : List (List α) :=
  ((leaveOrder a.flip nodes).foldl (Division.add a) ⟨[], ∅⟩).parts.reverse

end Devirt
