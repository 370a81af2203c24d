import Devirt.Proofs.Agreement
import Devirt.Proofs.Hierarchy
import Mathlib.Data.List.Induction
import Mathlib.Tactic.IntervalCases

/-!
# Any use of a traversal

The analyses use a traversal in one way. Here it is used in any way: entry points are seeded at any
time and more than once, methods are taken while others are added, and calls are added between any
methods, also if that fails.

* `Traversal.Command`, `Traversal.use p commands` : commands on a new traversal, and what they lead to:
  the traversal, and the methods that were given out;
* `CallGraph.Extends` : no command takes anything away or changes an order (`extends_exec`,
  `extends_use`);
* `Traversal.Sound` : what any command keeps. The methods scheduled are those given out and those on the
  worklist, each once, and are nodes with code;
* `Traversal.Disciplined` : calls are only added to methods that were given out. Then the traversal is
  consistent, and calls lead to every node from an entry point (`Rooted`, `Disciplined.rooted`);
* `traversal_sound` : both, for all commands.
-/

namespace Devirt

namespace Traversal

/-! ## Commands -/

inductive Command where
  | seed
  | next
  | link (caller callee : MethodRef)
deriving DecidableEq, Repr

/-- A traversal in use, and the methods that it has given out, in this order. -/
structure Session where
  traversal : Traversal := {}
  given : List MethodRef := []

/-- One command. A call that cannot be added leaves behind what `link` leaves behind. -/
def Session.exec (p : Program) (s : Session) : Command → Session
  | .seed => { s with traversal := s.traversal.seed p }
  | .next =>
    match s.traversal.next with
    | none => s
    | some (m, t) => ⟨t, s.given ++ [m]⟩
  | .link caller callee => { s with traversal := (s.traversal.link p caller callee).1 }

def use (p : Program) (commands : List Command) : Session := commands.foldl (Session.exec p) {}

theorem use_append (p : Program) (commands more : List Command) :
    use p (commands ++ more) = more.foldl (Session.exec p) (use p commands) := List.foldl_append

theorem use_concat (p : Program) (commands : List Command) (c : Command) :
    use p (commands ++ [c]) = (use p commands).exec p c := use_append p commands [c]

variable {p : Program} {t : Traversal} {s : Session} {m caller callee : MethodRef}

/-! ## Growth -/

theorem graph_schedule (t : Traversal) (p : Program) (m : MethodRef) :
    (t.schedule p m).graph = t.graph := by
  obtain ⟨-, -, heq⟩ | ⟨-, heq⟩ := schedule_cases t p m
  · rw [heq]
  · rw [heq]

theorem extends_foldl_start (entries : List MethodRef) (t : Traversal) :
    t.graph.Extends (entries.foldl (start p) t).graph := by
  induction entries generalizing t with
  | nil => exact .refl _
  | cons x rest ih =>
    refine .trans ?_ (ih (start p t x))
    unfold start
    split
    · rw [graph_schedule]
      exact t.graph.extends_addNode x
    · exact .refl _

theorem extends_link (t : Traversal) (p : Program) (caller callee : MethodRef) :
    t.graph.Extends (t.link p caller callee).1.graph := by
  by_cases hc : caller = callee ∨ caller ∈ t.graph.nodes
  · obtain ⟨g, isNew, hlink, hext, -⟩ := exists_link_graph (p := p) hc
    rw [hlink, graph_schedule]
    exact hext
  · rw [link_of_unknown hc]
    exact t.graph.extends_addNode callee

theorem extends_exec (p : Program) (s : Session) (c : Command) :
    s.traversal.graph.Extends (s.exec p c).traversal.graph := by
  cases c with
  | seed => exact extends_foldl_start p.entryPoints s.traversal
  | next =>
    unfold Session.exec Traversal.next
    cases s.traversal.worklist with
    | nil => exact .refl _
    | cons m rest => exact .refl _
  | link caller callee => exact extends_link s.traversal p caller callee

theorem extends_use (p : Program) (commands more : List Command) :
    (use p commands).traversal.graph.Extends (use p (commands ++ more)).traversal.graph := by
  rw [use_append]
  generalize use p commands = s
  induction more generalizing s with
  | nil => exact .refl _
  | cons c rest ih => exact (extends_exec p s c).trans (ih (s.exec p c))

/-! ## Any commands -/

/-- What any use keeps: edges join nodes, and the methods scheduled are those given out and those on
the worklist. Each of them is a node with code and is there once. -/
structure Sound (p : Program) (t : Traversal) (given : List MethodRef) : Prop where
  joins : ∀ e ∈ t.graph.edges, e.1 ∈ t.graph.nodes ∧ e.2 ∈ t.graph.nodes
  scheduled_iff : ∀ m, m ∈ t.scheduled ↔ m ∈ given ++ t.worklist
  bodied : ∀ m ∈ t.scheduled, m ∈ t.graph.nodes ∧ p.hasBody m = true
  nodup : (given ++ t.worklist).Nodup

namespace Sound

variable {given : List MethodRef}

theorem empty (p : Program) : Sound p {} [] where
  joins e he := absurd he Roster.not_mem_empty
  scheduled_iff m := by simp
  bodied m hm := absurd hm Roster.not_mem_empty
  nodup := List.nodup_nil

theorem withGraph (h : Sound p t given) {g : CallGraph} (hnodes : ∀ x ∈ t.graph.nodes, x ∈ g.nodes)
    (hjoins : ∀ e ∈ g.edges, e.1 ∈ g.nodes ∧ e.2 ∈ g.nodes) :
    Sound p { t with graph := g } given where
  joins := hjoins
  scheduled_iff := h.scheduled_iff
  bodied x hx := ⟨hnodes x (h.bodied x hx).1, (h.bodied x hx).2⟩
  nodup := h.nodup

theorem addNode (h : Sound p t given) (m : MethodRef) : Sound p (t.addNode m) given := by
  have hnodes : ∀ x ∈ t.graph.nodes, x ∈ (t.graph.addNode m).1.nodes :=
    fun x hx => CallGraph.mem_nodes_addNode.mpr (.inr hx)
  refine h.withGraph hnodes (fun e he => ?_)
  rw [CallGraph.edges_addNode] at he
  exact ⟨hnodes _ (h.joins e he).1, hnodes _ (h.joins e he).2⟩

theorem schedule (h : Sound p t given) (hm : m ∈ t.graph.nodes) :
    Sound p (t.schedule p m) given := by
  obtain ⟨hbody, hnew, heq⟩ | ⟨-, heq⟩ := schedule_cases t p m
  · rw [heq]
    have hmiddle : (given ++ m :: t.worklist).Perm (m :: (given ++ t.worklist)) :=
      List.perm_middle
    refine ⟨h.joins, fun x => ?_, fun x hx => ?_, ?_⟩
    · rw [Roster.mem_insert, h.scheduled_iff, hmiddle.mem_iff, List.mem_cons]
    · rcases Roster.mem_insert.mp hx with rfl | hx
      · exact ⟨hm, hbody⟩
      · exact h.bodied x hx
    · rw [hmiddle.nodup_iff, List.nodup_cons]
      exact ⟨fun hx => hnew ((h.scheduled_iff m).mpr hx), h.nodup⟩
  · rw [heq]
    exact h

theorem foldl_start (h : Sound p t given) (entries : List MethodRef) :
    Sound p (entries.foldl (start p) t) given := by
  induction entries generalizing t with
  | nil => exact h
  | cons x rest ih =>
    apply ih
    unfold start
    split
    · exact (h.addNode x).schedule (CallGraph.mem_nodes_addNode.mpr (.inl rfl))
    · exact h

theorem link (h : Sound p t given) (caller callee : MethodRef) :
    Sound p (t.link p caller callee).1 given := by
  by_cases hc : caller = callee ∨ caller ∈ t.graph.nodes
  · obtain ⟨g, isNew, hlink, -, hnodes, hedges⟩ := exists_link_graph (p := p) hc
    rw [hlink]
    have hgraph := h.withGraph (fun x hx => (hnodes x).mpr (.inr hx))
      (joins_of_link hc h.joins hnodes hedges)
    exact hgraph.schedule ((hnodes callee).mpr (.inl rfl))
  · rw [link_of_unknown hc]
    exact h.addNode callee

theorem exec (h : Sound p s.traversal s.given) (c : Command) :
    Sound p (s.exec p c).traversal (s.exec p c).given := by
  cases c with
  | seed => exact h.foldl_start p.entryPoints
  | next =>
    unfold Session.exec Traversal.next
    cases hw : s.traversal.worklist with
    | nil => exact h
    | cons m rest =>
      -- the method goes from the head of the worklist to the end of those given out
      have hmoved : s.given ++ s.traversal.worklist = (s.given ++ [m]) ++ rest := by
        rw [hw, List.append_assoc, List.singleton_append]
      refine ⟨h.joins, fun x => ?_, h.bodied, ?_⟩
      · rw [h.scheduled_iff, hmoved]
      · rw [← hmoved]
        exact h.nodup
  | link caller callee => exact h.link caller callee

theorem use (p : Program) (commands : List Command) :
    Sound p (use p commands).traversal (use p commands).given := by
  induction commands using List.reverseRecOn with
  | nil => exact .empty p
  | append_singleton rest c ih =>
    rw [use_concat]
    exact ih.exec c

theorem of_given (h : Sound p t given) (hm : m ∈ given) :
    m ∈ t.graph.nodes ∧ p.hasBody m = true :=
  h.bodied m ((h.scheduled_iff m).mpr (List.mem_append_left _ hm))

end Sound

/-! ## Calls that cannot be added -/

theorem link_fails_iff :
    (∃ e, (t.link p caller callee).2 = .error e) ↔ caller ∉ t.graph.nodes ∧ caller ≠ callee := by
  by_cases hc : caller = callee ∨ caller ∈ t.graph.nodes
  · obtain ⟨g, isNew, hlink, -⟩ := exists_link_graph (p := p) hc
    rw [hlink]
    constructor
    · intro h
      obtain ⟨e, he⟩ := h
      cases he
    · intro h
      exact absurd hc (not_or.mpr ⟨h.2, h.1⟩)
  · rw [link_of_unknown hc]
    exact ⟨fun _ => ⟨fun h => hc (.inr h), fun h => hc (.inl h)⟩, fun _ => ⟨_, rfl⟩⟩

/-- A call that cannot be added makes its callee a node at most. -/
theorem link_failed {e : AnalysisError} (h : (t.link p caller callee).2 = .error e) :
    (t.link p caller callee).1 = t.addNode callee := by
  obtain ⟨hnode, hne⟩ := link_fails_iff.mp ⟨e, h⟩
  rw [link_of_unknown (not_or.mpr ⟨hne, hnode⟩)]

/-! ## Calls of methods that were given out -/

/-- Every call that is added is from a method that was given out before. -/
def Disciplined (p : Program) (commands : List Command) : Prop :=
  ∀ before caller callee after, commands = before ++ .link caller callee :: after →
    caller ∈ (use p before).given

theorem Disciplined.of_concat {commands : List Command} {c : Command}
    (h : Disciplined p (commands ++ [c])) : Disciplined p commands := by
  intro before caller callee after heq
  apply h before caller callee (after ++ [c])
  rw [heq, List.append_assoc, List.cons_append]

/-- Recorded calls lead to a method from an entry point with code. -/
def Rooted (p : Program) (g : CallGraph) (m : MethodRef) : Prop :=
  ∃ entry ∈ p.entryPoints, p.hasBody entry = true ∧ Reaches g.edges.toList entry m

theorem Rooted.mono {g g' : CallGraph} (h : Rooted p g m) (hedges : ∀ e ∈ g.edges, e ∈ g'.edges) :
    Rooted p g' m := by
  obtain ⟨entry, hentry, hb, hpath⟩ := h
  refine ⟨entry, hentry, hb, hpath.mono_on (S := Set.univ) ?_ (Set.mem_univ entry)⟩
  intro x _ y hxy
  exact ⟨Roster.mem_toList.mpr (hedges _ (Roster.mem_toList.mp hxy)), Set.mem_univ y⟩

theorem Rooted.tail {g : CallGraph} (h : Rooted p g caller) (hedge : (caller, callee) ∈ g.edges) :
    Rooted p g callee := by
  obtain ⟨entry, hentry, hb, hpath⟩ := h
  exact ⟨entry, hentry, hb, hpath.tail (Roster.mem_toList.mpr hedge)⟩

theorem rooted_seed (h : t.Consistent p) (hroot : ∀ m ∈ t.graph.nodes, Rooted p t.graph m) :
    (t.seed p).Consistent p ∧ ∀ m ∈ (t.seed p).graph.nodes, Rooted p (t.seed p).graph m := by
  obtain ⟨hcons, hnodes, hedges, -⟩ := consistent_foldl_start p.entryPoints h
  refine ⟨hcons, fun m hm => ?_⟩
  rcases (hnodes m).mp hm with hm | ⟨hm, hb⟩
  · exact (hroot m hm).mono (fun e he => by rw [seed, hedges]; exact he)
  · exact ⟨m, hm, hb, .refl m⟩

theorem rooted_link (h : t.Consistent p) (hroot : ∀ m ∈ t.graph.nodes, Rooted p t.graph m)
    (hc : caller ∈ t.graph.nodes) :
    (t.link p caller callee).1.Consistent p ∧
      ∀ m ∈ (t.link p caller callee).1.graph.nodes,
        Rooted p (t.link p caller callee).1.graph m := by
  obtain ⟨t', isNew, hlink, hlinked⟩ := exists_link h (.inr hc)
  rw [hlink]
  have hold : ∀ m ∈ t.graph.nodes, Rooted p t'.graph m :=
    fun m hm => (hroot m hm).mono (fun e he => (hlinked.edges e).mpr (.inl he))
  refine ⟨hlinked.consistent, fun m hm => ?_⟩
  rcases (hlinked.nodes m).mp hm with hm | ⟨e, he, rfl⟩
  · exact hold m hm
  · obtain rfl := List.mem_singleton.mp he
    exact (hold caller hc).tail ((hlinked.edges _).mpr (.inr he))

theorem Disciplined.rooted {commands : List Command} (h : Disciplined p commands) :
    (use p commands).traversal.Consistent p ∧
      ∀ m ∈ (use p commands).traversal.graph.nodes,
        Rooted p (use p commands).traversal.graph m := by
  induction commands using List.reverseRecOn with
  | nil => exact ⟨consistent_empty p, fun m hm => absurd hm Roster.not_mem_empty⟩
  | append_singleton rest c ih =>
    obtain ⟨hcons, hroot⟩ := ih h.of_concat
    rw [use_concat]
    cases c with
    | seed => exact rooted_seed hcons hroot
    | next =>
      unfold Session.exec
      cases hn : (use p rest).traversal.next with
      | none => exact ⟨hcons, hroot⟩
      | some taken =>
        obtain ⟨hcons', hgraph, -⟩ := hcons.next hn
        refine ⟨hcons', ?_⟩
        show ∀ m ∈ taken.2.graph.nodes, Rooted p taken.2.graph m
        rw [hgraph]
        exact hroot
    | link caller callee =>
      have hgiven := h rest caller callee [] rfl
      exact rooted_link hcons hroot ((Sound.use p rest).of_given hgiven).1

end Traversal

open Traversal

/-- For all commands on a new traversal. Nodes and edges are listed once, and later commands add to
them at the end only. Edges join nodes. A call cannot be added just if its caller is neither a node nor
the callee, and then no edge is added and nothing is scheduled. No method is given out twice, and only
nodes with code are. If calls are only added to methods that were given out, then all of them can be
added, the methods given out and those on the worklist are the nodes with code, and recorded calls
lead to every node from an entry point with code. -/
theorem traversal_sound (p : Program) (commands : List Command) :
    (use p commands).traversal.graph.nodes.toList.Nodup ∧
    (use p commands).traversal.graph.edges.toList.Nodup ∧
    (∀ more, (use p commands).traversal.graph.nodes.toList <+:
        (use p (commands ++ more)).traversal.graph.nodes.toList ∧
      (use p commands).traversal.graph.edges.toList <+:
        (use p (commands ++ more)).traversal.graph.edges.toList) ∧
    (∀ e ∈ (use p commands).traversal.graph.edges,
      e.1 ∈ (use p commands).traversal.graph.nodes ∧
        e.2 ∈ (use p commands).traversal.graph.nodes) ∧
    (∀ caller callee,
      ((∃ e, ((use p commands).traversal.link p caller callee).2 = .error e) ↔
        caller ∉ (use p commands).traversal.graph.nodes ∧ caller ≠ callee) ∧
      ∀ e, ((use p commands).traversal.link p caller callee).2 = .error e →
        (use p (commands ++ [.link caller callee])).traversal.graph.edges =
          (use p commands).traversal.graph.edges ∧
        (use p (commands ++ [.link caller callee])).traversal.scheduled =
          (use p commands).traversal.scheduled ∧
        (use p (commands ++ [.link caller callee])).traversal.worklist =
          (use p commands).traversal.worklist) ∧
    (use p commands).given.Nodup ∧
    (∀ m ∈ (use p commands).given,
      m ∈ (use p commands).traversal.graph.nodes ∧ p.hasBody m = true) ∧
    (Disciplined p commands →
      (∀ before caller callee after, commands = before ++ .link caller callee :: after →
        ∃ isNew, ((use p before).traversal.link p caller callee).2 = .ok isNew) ∧
      (∀ m, m ∈ (use p commands).given ∨ m ∈ (use p commands).traversal.worklist ↔
        m ∈ (use p commands).traversal.graph.nodes ∧ p.hasBody m = true) ∧
      ∀ m ∈ (use p commands).traversal.graph.nodes,
        Rooted p (use p commands).traversal.graph m) := by
  have hsound := Sound.use p commands
  refine ⟨Roster.nodup_toList _, Roster.nodup_toList _, fun more => ?_, hsound.joins,
    fun caller callee => ⟨link_fails_iff, fun e he => ?_⟩, (List.nodup_append.mp hsound.nodup).1,
    fun m hm => hsound.of_given hm, fun hd => ⟨?_, fun m => ?_, hd.rooted.2⟩⟩
  · have hext := extends_use p commands more
    exact ⟨hext.nodes, hext.edges⟩
  · have hleft : (use p (commands ++ [.link caller callee])).traversal =
        (use p commands).traversal.addNode callee := by
      rw [use_concat]
      exact link_failed he
    rw [hleft]
    exact ⟨CallGraph.edges_addNode _ _, rfl, rfl⟩
  · intro before caller callee after heq
    have hnode := ((Sound.use p before).of_given (hd before caller callee after heq)).1
    obtain ⟨g, isNew, hlink, -⟩ := exists_link_graph (p := p) (Or.inr hnode : caller = callee ∨ _)
    exact ⟨isNew, by rw [hlink]⟩
  · rw [← List.mem_append, ← hsound.scheduled_iff]
    exact hd.rooted.1.scheduled_iff m

/-- Both methods of the ring are entered by calls of methods given out before, and the entry points
are seeded once more at the end. -/
def ringCommands : List Command :=
  [.seed, .next, .link ⟨"Main", "main", "()V"⟩ ⟨"Ring", "f", "()V"⟩, .next,
    .link ⟨"Ring", "f", "()V"⟩ ⟨"Ring", "f", "()V"⟩, .link ⟨"Ring", "f", "()V"⟩ ⟨"Ring", "g", "()V"⟩,
    .seed]

theorem disciplined_ring : Disciplined ringProgram ringCommands := by
  intro before caller callee after heq
  have hget : ringCommands[before.length]? = some (.link caller callee) := by simp [heq]
  have htake : before = ringCommands.take before.length := by simp [heq]
  have hshort : before.length < 7 := (List.getElem?_eq_some_iff.mp hget).1
  rw [htake]
  generalize before.length = n at hget hshort
  interval_cases n <;> cases hget <;> decide

/-- One method of the ring has been given out and the other is still to be taken; calls lead to both
from the entry point. -/
theorem traversal_sound_ring :
    Disciplined ringProgram ringCommands ∧
      ⟨"Ring", "f", "()V"⟩ ∈ (use ringProgram ringCommands).given ∧
      ⟨"Ring", "g", "()V"⟩ ∈ (use ringProgram ringCommands).traversal.worklist ∧
      Rooted ringProgram (use ringProgram ringCommands).traversal.graph ⟨"Ring", "f", "()V"⟩ ∧
      Rooted ringProgram (use ringProgram ringCommands).traversal.graph ⟨"Ring", "g", "()V"⟩ := by
  obtain ⟨-, -, -, -, -, -, -, hdisciplined⟩ := traversal_sound ringProgram ringCommands
  obtain ⟨-, hexact, hrooted⟩ := hdisciplined disciplined_ring
  have hf : ⟨"Ring", "f", "()V"⟩ ∈ (use ringProgram ringCommands).given := by decide
  have hg : ⟨"Ring", "g", "()V"⟩ ∈ (use ringProgram ringCommands).traversal.worklist := by decide
  exact ⟨disciplined_ring, hf, hg, hrooted _ ((hexact _).mp (.inl hf)).1,
    hrooted _ ((hexact _).mp (.inr hg)).1⟩

end Devirt
