import Devirt.CallGraph
import Devirt.Event
import Devirt.Program

/-!
# Traversals

A call graph that grows while the bodies of its methods are walked through, each at most once.

* `Traversal` : the graph, the methods scheduled for walking and the stack of those still to take;
* `Traversal.seed`, `Traversal.next`, `Traversal.link` : start, take a method, add a call;
* `Traversal.pending` : how many methods can still be taken. `link` never raises it and `next`
  lowers it (`pending_link`, `pending_next`), so every loop over a traversal ends.
-/

namespace Devirt

/-- A growing call graph with its worklist, and all methods that have ever been on it. -/
structure Traversal where
  graph : CallGraph := {}
  scheduled : Roster MethodRef := ∅
  worklist : List MethodRef := []
deriving DecidableEq, Repr, Inhabited

namespace Traversal

def isVisited (t : Traversal) (m : MethodRef) : Bool := t.scheduled.contains m

/-- Puts a method with code on the worklist, unless it has been there before. -/
def schedule (t : Traversal) (p : Program) (m : MethodRef) : Traversal :=
  if p.hasBody m && !t.isVisited m then
    { t with scheduled := t.scheduled.insert m, worklist := m :: t.worklist }
  else t

def addNode (t : Traversal) (m : MethodRef) : Traversal :=
  { t with graph := (t.graph.addNode m).1 }

/-- Starts from one entry point, if it has code. -/
def start (p : Program) (t : Traversal) (m : MethodRef) : Traversal :=
  if p.hasBody m then (t.addNode m).schedule p m else t

/-- Starts from all entry points that have code. -/
def seed (t : Traversal) (p : Program) : Traversal := p.entryPoints.foldl (start p) t

def seedEvents (p : Program) : List Event :=
  (p.entryPoints.filter (fun m => !p.hasBody m)).map Event.entryPointSkipped

/-- Takes the method scheduled last. -/
def next (t : Traversal) : Option (MethodRef × Traversal) :=
  match t.worklist with
  | [] => none
  | m :: rest => some (m, { t with worklist := rest })

def isIdle (t : Traversal) : Bool := t.worklist.isEmpty

/-- Adds the callee, and the call if the caller is a node; then the callee is scheduled. The answer
is whether the call is new. -/
def link (t : Traversal) (p : Program) (caller callee : MethodRef) : Traversal × Analyzed Bool :=
  match (t.addNode callee).graph.addEdge caller callee with
  | .error e => (t.addNode callee, .error e)
  | .ok (g, isNew) => (schedule { t with graph := g } p callee, .ok isNew)

/-- Adds calls one after the other, up to the first that fails. -/
def linkAll (t : Traversal) (p : Program) : List (MethodRef × MethodRef) → Analyzed Traversal
  | [] => .ok t
  | (caller, callee) :: rest =>
    match t.link p caller callee with
    | (_, .error e) => .error e
    | (t', .ok _) => linkAll t' p rest

/-! ## What is left to take -/

/-- The number of declared methods that have not been visited, and of those on the worklist. -/
def pending (t : Traversal) (p : Program) : Nat :=
  (p.declared.filter (fun m => !t.isVisited m)).length + t.worklist.length

theorem pending_schedule (t : Traversal) (p : Program) (m : MethodRef) :
    (t.schedule p m).pending p ≤ t.pending p := by
  unfold schedule
  split
  · rename_i h
    simp only [Bool.and_eq_true, Bool.not_eq_true'] at h
    obtain ⟨hbody, hnew⟩ := h
    have hmem : m ∈ p.declared.filter (fun x => !t.isVisited x) := by
      simp [Program.mem_declared_of_hasBody hbody, hnew]
    have hsub : p.declared.filter (fun x => !isVisited
        { t with scheduled := t.scheduled.insert m, worklist := m :: t.worklist } x) =
        (p.declared.filter (fun x => !t.isVisited x)).filter (fun x => x ≠ m) := by
      rw [List.filter_filter]
      apply List.filter_congr
      intro x _
      simp [isVisited]
    have hlt : ((p.declared.filter (fun x => !t.isVisited x)).filter (fun x => x ≠ m)).length <
        (p.declared.filter (fun x => !t.isVisited x)).length :=
      List.length_filter_lt_length_iff_exists.mpr ⟨m, hmem, by simp⟩
    simp only [pending, hsub, List.length_cons]
    omega
  · exact Nat.le_refl _

theorem pending_link (t : Traversal) (p : Program) (caller callee : MethodRef) :
    (t.link p caller callee).1.pending p ≤ t.pending p := by
  unfold link
  split
  · exact Nat.le_refl _
  · exact pending_schedule _ p callee

theorem pending_linkAll {p : Program} {t t' : Traversal} {links : List (MethodRef × MethodRef)}
    (h : t.linkAll p links = .ok t') : t'.pending p ≤ t.pending p := by
  induction links generalizing t with
  | nil =>
    cases h
    exact Nat.le_refl _
  | cons l rest ih =>
    rw [linkAll] at h
    split at h
    · cases h
    · rename_i t₁ _ heq
      have hle : t₁.pending p ≤ t.pending p := by
        simpa [heq] using pending_link t p l.1 l.2
      exact Nat.le_trans (ih h) hle

theorem pending_next {p : Program} {t t' : Traversal} {m : MethodRef} (h : t.next = some (m, t')) :
    t'.pending p < t.pending p := by
  unfold next at h
  split at h
  · cases h
  · rename_i x rest hw
    obtain ⟨rfl, rfl⟩ : x = m ∧ _ = t' := by simpa using h
    simp [pending, isVisited, hw]

end Traversal

end Devirt
