import Devirt.Proofs.Simulation
import Devirt.Proofs.Warnings

/-!
# Marks of dispatched calls save work and nothing else

In the rapid type analysis a dispatched call remembers how many of the instantiated classes it has
looked at, and looks at the others only. Without this mark it would look at all of them in every
round.

* `Traversal.link_of_mem_edges`, `Traversal.linkAll_filter` : a call that has been added may be added
  again, or be left out;
* `Instantiation.plainStrategy`, `Instantiation.plainRun` : the analysis without marks;
* `Instantiation.Twin` : a site with a mark beside one without. The calls of the classes below the
  mark have been counted and are in the graph, so only the classes past it can give a new one. This is
  kept when classes and calls are added (`Twin.grow`) and when both look at the classes
  (`Twin.lookAgain`);
* `Instantiation.simulates_plain` : so both analyses stay abreast, and find the same in the same order
  (`instantiation_marks_exact`).
-/

namespace Devirt

variable {p : Program}

/-! ## Calls that are there -/

namespace Traversal

variable {t : Traversal}

theorem link_of_mem_edges {caller callee : MethodRef} (h : t.Consistent p)
    (he : (caller, callee) ∈ t.graph.edges) : t.link p caller callee = (t, .ok false) := by
  obtain ⟨hcaller, hcallee⟩ := h.joins _ he
  have hnode : t.addNode callee = t := by
    rw [addNode, CallGraph.addNode, if_pos (CallGraph.hasNode_iff.mpr hcallee)]
  have hedge : t.graph.addEdge caller callee = .ok (t.graph, false) := by
    unfold CallGraph.addEdge
    rw [if_neg (by simpa using hcaller), if_neg (by simpa using hcallee),
      if_pos (CallGraph.hasEdge_iff.mpr he)]
  have hscheduled : t.schedule p callee = t := by
    obtain ⟨hbody, hnew, -⟩ | ⟨-, hsame⟩ := schedule_cases t p callee
    · exact absurd ((h.scheduled_iff callee).mpr ⟨hcallee, hbody⟩) hnew
    · exact hsame
  rw [link, hnode, hedge]
  exact congrArg (·, _) hscheduled

/-- Calls of which it is known that they are there may be left out. -/
theorem linkAll_filter {known : MethodRef × MethodRef → Bool} {links : List (MethodRef × MethodRef)}
    (h : t.Consistent p) (hknown : ∀ l, known l = true → l ∈ t.graph.edges) :
    t.linkAll p (links.filter (fun l => !known l)) = t.linkAll p links := by
  induction links generalizing t with
  | nil => rfl
  | cons l rest ih =>
    by_cases hl : known l = true
    · rw [List.filter_cons_of_neg (by simpa using hl), ih h hknown, linkAll,
        link_of_mem_edges h (hknown l hl)]
    · rw [List.filter_cons_of_pos (by simpa using hl), linkAll, linkAll]
      split
      · rfl
      · rename_i t₁ isNew hlink
        have hlinked := linked_of_link h hlink
        exact ih hlinked.consistent (fun l hl => (hlinked.edges l).mpr (.inl (hknown l hl)))

end Traversal

namespace Instantiation

/-! ## The analysis without marks -/

/-- Resolves a dispatched call against all instantiated classes, whatever it has looked at. -/
def Site.lookAgain (p : Program) (instantiated : List String) (site : Site) :
    Analyzed (Site × List (MethodRef × MethodRef)) := do
  let found ← resolveAgainst p site.signature instantiated
  return ({ site with targets := site.targets + found.length },
    found.map (fun m => (site.caller, m)))

/-- In every round every dispatched call looks at all instantiated classes. -/
def plainStrategy (p : Program) : Strategy State := strategy p (Site.lookAgain p)

def plainRun (p : Program) : Analyzed (Told Run) := runBy p (plainStrategy p)

/-! ## Sites with and without a mark -/

/-- A site has counted the calls of the classes below its mark, and they are in the graph. The other
site is for the same call, and has got a target if this one has. -/
structure Twin (p : Program) (classes : List String) (g : CallGraph) (site plain : Site) : Prop where
  caller : plain.caller = site.caller
  signature : plain.signature = site.signature
  seen : site.seen ≤ classes.length
  counted : ∃ found, resolveAgainst p site.signature (classes.take site.seen) = .ok found ∧
    site.targets = found.length ∧ ∀ m ∈ found, (site.caller, m) ∈ g.edges
  unresolved : plain.targets = 0 ↔ site.targets = 0

variable {classes classes' : List String} {g g' : CallGraph} {site plain : Site}

theorem twin_fresh (p : Program) (classes : List String) (g : CallGraph) (caller signature : MethodRef) :
    Twin p classes g { caller, signature } { caller, signature } where
  caller := rfl
  signature := rfl
  seen := Nat.zero_le _
  counted := ⟨[], rfl, rfl, by simp⟩
  unresolved := Iff.rfl

theorem Twin.grow (h : Twin p classes g site plain) (hclasses : classes <+: classes')
    (hedges : ∀ e ∈ g.edges, e ∈ g'.edges) : Twin p classes' g' site plain where
  caller := h.caller
  signature := h.signature
  seen := h.seen.trans hclasses.length_le
  counted := by
    obtain ⟨found, hfound, hcount, hadded⟩ := h.counted
    obtain ⟨new, rfl⟩ := hclasses
    refine ⟨found, ?_, hcount, fun m hm => hedges _ (hadded m hm)⟩
    rw [List.take_append_of_le_length h.seen, hfound]
  unresolved := h.unresolved

theorem resolveAgainst_append {signature : MethodRef} {xs ys : List String} {found new : List MethodRef}
    (hx : resolveAgainst p signature xs = .ok found) (hy : resolveAgainst p signature ys = .ok new) :
    resolveAgainst p signature (xs ++ ys) = .ok (found ++ new) := by
  obtain ⟨xfound, hxfound, hx⟩ := exists_of_bind_ok hx
  obtain ⟨yfound, hyfound, hy⟩ := exists_of_bind_ok hy
  cases hx
  cases hy
  rw [resolveAgainst, List.filter_append, List.mapM_append, hxfound, hyfound,
    List.filterMap_append.symm]
  rfl

/-- Both sites have looked at the classes. The one without a mark has also got the calls that the other
had before, and once the new calls are in the graph the two go on side by side. -/
structure TwinLinks (p : Program) (classes : List String) (g : CallGraph)
    (y y' : Site × List (MethodRef × MethodRef)) : Prop where
  links : ∃ old, y'.2 = old ++ y.2 ∧ ∀ l ∈ old, l ∈ g.edges
  twin : ∀ g' : CallGraph, (∀ e ∈ g.edges, e ∈ g'.edges) → (∀ l ∈ y.2, l ∈ g'.edges) →
    Twin p classes g' y.1 y'.1

theorem Twin.lookAgain {y : Site × List (MethodRef × MethodRef)} (h : Twin p classes g site plain)
    (hy : site.catchUp p classes = .ok y) :
    ∃ y', plain.lookAgain p classes = .ok y' ∧ TwinLinks p classes g y y' := by
  obtain ⟨new, hnew, hy⟩ := exists_of_bind_ok hy
  cases hy
  obtain ⟨found, hfound, hcount, hadded⟩ := h.counted
  have hall : resolveAgainst p site.signature classes = .ok (found ++ new) := by
    rw [← List.take_append_drop site.seen classes]
    exact resolveAgainst_append hfound hnew
  refine ⟨_, by rw [Site.lookAgain, h.signature, hall]; rfl, ⟨?_, fun g' hg hlinks => ?_⟩⟩
  · refine ⟨found.map (fun m => (site.caller, m)), ?_, fun l hl => ?_⟩
    · rw [h.caller, List.map_append]
    · obtain ⟨m, hm, rfl⟩ := List.mem_map.mp hl
      exact hadded m hm
  · refine ⟨h.caller, rfl, le_rfl, ⟨found ++ new, ?_, ?_, fun m hm => ?_⟩, ?_⟩
    · rw [List.take_length, hall]
    · rw [hcount, List.length_append]
    · rcases List.mem_append.mp hm with hm | hm
      · exact hg _ (hadded m hm)
      · exact hlinks _ (List.mem_map_of_mem hm)
    · -- what was found below the mark has been counted, so it resolves neither site anew
      have hsame := h.unresolved
      simp only [List.length_append]
      omega

/-! ## Staying abreast -/

/-- The same classes are instantiated, and every site has its twin. -/
def Twins (p : Program) (state plain : State) (t : Traversal) : Prop :=
  plain.instantiated = state.instantiated ∧
    List.Forall₂ (Twin p state.instantiated t.graph) state.sites plain.sites

theorem visitCall_sites (m : MethodRef) (v : Visit State) (call : Call) (sites : List Site) :
    visitCall m { v with state := { v.state with sites } } call =
      { visitCall m v call with
        state := { (visitCall m v call).state with
          sites := sites ++ ([call].filter (·.kind.isDispatched)).map
            (fun call => { caller := m, signature := call.method }) } } := by
  by_cases hd : call.kind.isDispatched = true
  · simp [visitCall, noteCall_dispatched hd, hd]
  · rw [Bool.not_eq_true] at hd
    by_cases hknown : call.isInstantiation = true → call.method.owner ∈ v.state.instantiated
    · have hsites : noteCall m { v.state with sites } call = ({ v.state with sites }, []) :=
        noteCall_known hd hknown
      simp [visitCall, noteCall_known hd hknown, hsites, hd]
    · obtain ⟨hnew, hfresh⟩ := Classical.not_imp.mp hknown
      have hsites : noteCall m { v.state with sites } call =
          ({ instantiated := v.state.instantiated ++ [call.method.owner], sites },
            [.classInstantiated call.method.owner m]) := noteCall_new hnew hfresh
      simp [visitCall, noteCall_new hnew hfresh, hsites, hd]

/-- A walk does the same whatever sites there are; it puts new ones behind them. -/
theorem foldl_visitCall_sites (m : MethodRef) (calls : List Call) (v : Visit State)
    (sites : List Site) :
    calls.foldl (visitCall m) { v with state := { v.state with sites } } =
      { calls.foldl (visitCall m) v with
        state := { (calls.foldl (visitCall m) v).state with
          sites := sites ++ (calls.filter (·.kind.isDispatched)).map
            (fun call => { caller := m, signature := call.method }) } } := by
  induction calls generalizing v sites with
  | nil => simp
  | cons call rest ih =>
    rw [List.foldl_cons, List.foldl_cons, visitCall_sites, ih, List.append_assoc, ← List.map_append,
      ← List.filter_append, List.singleton_append]

theorem Twins.visit {state plain : State} {t t₁ t₂ : Traversal} {m : MethodRef} {v : Visit State}
    (h : Twins p state plain t) (hc : t.Consistent p) (hn : t.next = some (m, t₁))
    (hv : (strategy p).visit state m = .ok v)
    (hlink : t₁.linkAll p (v.callees.map (fun callee => (m, callee))) = .ok t₂) :
    ∃ v', (plainStrategy p).visit plain m = .ok v' ∧ v'.callees = v.callees ∧
      Twins p v.state v'.state t₂ := by
  cases hv
  obtain ⟨classes, sites⟩ := plain
  obtain ⟨hclasses, hsites⟩ := h
  obtain rfl : classes = state.instantiated := hclasses
  have hwalk := foldl_visitCall_sites m (p.calls m) ⟨state, [], []⟩ sites
  have hwalked := walked_foldl m (p.calls m) ⟨state, [], []⟩
  have hedges : ∀ e ∈ t.graph.edges, e ∈ t₂.graph.edges := by
    obtain ⟨hc₁, hgraph, -⟩ := hc.next hn
    intro e he
    exact ((Traversal.linked_of_linkAll hc₁ hlink).edges e).mpr (.inl (hgraph ▸ he))
  refine ⟨_, congrArg Except.ok hwalk, rfl, rfl, ?_⟩
  rw [hwalked.sites]
  refine List.rel_append (hsites.imp fun _ _ htwin => htwin.grow hwalked.grows hedges) ?_
  rw [List.forall₂_map_left_iff, List.forall₂_map_right_iff, List.forall₂_same]
  exact fun call _ => twin_fresh p _ _ m call.method

theorem filter_flatMap_links {t : Traversal} {classes : List String}
    {resolved resolved' : List (Site × List (MethodRef × MethodRef))}
    (h : List.Forall₂ (TwinLinks p classes t.graph) resolved resolved') :
    (resolved'.flatMap (·.2)).filter (fun l => !t.graph.edges.contains l) =
      (resolved.flatMap (·.2)).filter (fun l => !t.graph.edges.contains l) := by
  induction h with
  | nil => rfl
  | cons hy _ ih =>
    obtain ⟨old, hold, hknown⟩ := hy.links
    have hnone : old.filter (fun l => !t.graph.edges.contains l) = [] := by
      rw [List.filter_eq_nil_iff]
      exact fun l hl => by simpa using hknown l hl
    simp only [List.flatMap_cons, List.filter_append, ih, hold, hnone, List.nil_append]

theorem Twins.resolve {state plain : State} {t t₁ : Traversal} {number : Nat}
    {r : Resolution State} (h : Twins p state plain t) (hc : t.Consistent p)
    (hr : (strategy p).resolve number state = .ok r) (hlink : t.linkAll p r.links = .ok t₁) :
    ∃ r', (plainStrategy p).resolve number plain = .ok r' ∧ t.linkAll p r'.links = .ok t₁ ∧
      Twins p r.state r'.state t₁ := by
  obtain ⟨resolved, hresolved, hr⟩ := exists_of_bind_ok hr
  cases hr
  obtain ⟨hclasses, hsites⟩ := h
  obtain ⟨resolved', hresolved', hlinks⟩ : ∃ resolved',
      plain.sites.mapM (Site.lookAgain p state.instantiated) = .ok resolved' ∧
        List.Forall₂ (TwinLinks p state.instantiated t.graph) resolved resolved' :=
    exists_mapM_of_forall₂ (fun _ _ htwin _ hy => htwin.lookAgain hy) hsites hresolved
  have hlinked := Traversal.linked_of_linkAll hc hlink
  refine ⟨⟨⟨state.instantiated, resolved'.map (·.1)⟩, resolved'.flatMap (·.2), []⟩, ?_, ?_, rfl, ?_⟩
  · simp only [plainStrategy, strategy, hclasses, hresolved']
    rfl
  · rw [← Traversal.linkAll_filter hc (fun l hl => Roster.contains_iff.mp hl),
      filter_flatMap_links hlinks, Traversal.linkAll_filter hc (fun l hl => Roster.contains_iff.mp hl),
      hlink]
  · rw [List.forall₂_map_left_iff, List.forall₂_map_right_iff]
    have hadded : ∀ y ∈ resolved, ∀ l ∈ y.2, l ∈ t₁.graph.edges := fun y hy l hl =>
      (hlinked.edges l).mpr (.inr (List.mem_flatMap.mpr ⟨y, hy, hl⟩))
    refine ((List.forall₂_and_left _ _).mpr ⟨hadded, hlinks⟩).imp fun y y' hboth => ?_
    obtain ⟨hy, htwin⟩ := hboth
    exact htwin.twin t₁.graph (fun e he => (hlinked.edges e).mpr (.inl he)) hy

theorem simulates_plain (p : Program) :
    Simulates p (strategy p) (plainStrategy p) (Twins p) where
  initial := ⟨rfl, .nil⟩
  visit h hc hn hv hlink := by
    obtain ⟨v', hv', hcallees, htwins⟩ := h.visit hc hn hv hlink
    exact ⟨v', hv', hcallees ▸ hlink, htwins⟩
  resolve h hc hr hlink := h.resolve hc hr hlink

theorem Twins.unresolved_eq {state plain : State} {t : Traversal} (h : Twins p state plain t) :
    plain.unresolved = state.unresolved := by
  obtain ⟨-, hsites⟩ := h
  unfold State.unresolved
  generalize state.sites = sites at hsites ⊢
  generalize plain.sites = plains at hsites ⊢
  induction hsites with
  | nil => rfl
  | @cons site plain sites plains htwin _ ih =>
    have hsame : (plain.targets == 0) = (site.targets == 0) := by
      rw [Bool.eq_iff_iff, beq_iff_eq, beq_iff_eq]
      exact htwin.unresolved
    rw [List.filter_cons, List.filter_cons, hsame]
    split
    · rw [List.map_cons, List.map_cons, ih, htwin.caller, htwin.signature]
    · exact ih

end Instantiation

/-- Without a superclass cycle the rapid type analysis and the one without marks have results. They
find the same methods and the same calls in the same order, after as many rounds, and warn of the
same calls. -/
theorem instantiation_marks_exact (p : Program) (hp : p.SuperAcyclic) :
    ∃ marked plain told told', analyze p (Instantiation.strategy p) = .ok marked ∧
      analyze p (Instantiation.plainStrategy p) = .ok plain ∧
      Instantiation.run p = .ok told ∧ Instantiation.plainRun p = .ok told' ∧
      told'.result.graph.nodes.toList = told.result.graph.nodes.toList ∧
      told'.result.graph.edges.toList = told.result.graph.edges.toList ∧
      told'.result.warnings = told.result.warnings ∧ plain.rounds = marked.rounds := by
  obtain ⟨marked, told, hmarked, hrun, -⟩ := Instantiation.exists_done hp
  obtain ⟨plain, hplain, habreast⟩ := (Instantiation.simulates_plain p).analyze hmarked
  rw [Instantiation.run, Instantiation.runBy, hmarked] at hrun
  cases hrun
  refine ⟨marked, plain, _, _, hmarked, hplain,
    by rw [Instantiation.run, Instantiation.runBy, hmarked]; rfl,
    by rw [Instantiation.plainRun, Instantiation.runBy, hplain]; rfl, ?_, ?_, ?_, habreast.rounds⟩
  · exact congrArg (fun t => t.graph.nodes.toList) habreast.traversal
  · exact congrArg (fun t => t.graph.edges.toList) habreast.traversal
  · exact congrArg Ordered.ofList habreast.state.unresolved_eq

/-- The constructor call of a second class. -/
def echoNew : Call :=
  { kind := .special, method := ⟨"Blot", "<init>", "()V"⟩, receiver := some (.localVar "y") }

/-- A dispatched call reaches a method that instantiates a second class, whose method the same call
can run, too. -/
def echoProgram : Program where
  classes := [
    { name := "Main",
      methods := [{ name := "main", descriptor := "()V",
                    body := some [.invoke lateDraw, .invoke lateNew] }] },
    { name := "Shape", isInterface := true },
    { name := "Dot", interfaces := ["Shape"],
      methods := [{ name := "draw", descriptor := "()V", body := some [.invoke echoNew] }] },
    { name := "Blot", interfaces := ["Shape"],
      methods := [{ name := "draw", descriptor := "()V", body := some [] }] }]
  entryPoints := [⟨"Main", "main", "()V"⟩]

/-- The first class is below the mark when the second one is met, and both analyses find the methods of
both. -/
theorem instantiation_marks_exact_echo :
    echoProgram.SuperAcyclic ∧ ∃ told told', Instantiation.run echoProgram = .ok told ∧
      Instantiation.plainRun echoProgram = .ok told' ∧
      told'.result.graph.edges.toList = told.result.graph.edges.toList ∧
      (⟨"Main", "main", "()V"⟩, ⟨"Dot", "draw", "()V"⟩) ∈ told'.result.graph.edges.toList ∧
      (⟨"Main", "main", "()V"⟩, ⟨"Blot", "draw", "()V"⟩) ∈ told'.result.graph.edges.toList := by
  have hp : echoProgram.SuperAcyclic := by decide
  obtain ⟨-, -, told, told', -, -, hrun, hplain, -, hedges, -⟩ := instantiation_marks_exact _ hp
  have hclosed := (Instantiation.isLeast_of_run hp hrun).1
  have hmain := hclosed.entry ⟨"Main", "main", "()V"⟩ (by decide) (by decide)
  have hcall : lateDraw ∈ echoProgram.calls ⟨"Main", "main", "()V"⟩ := by decide
  have hdot : (⟨"Main", "main", "()V"⟩, ⟨"Dot", "draw", "()V"⟩) ∈ told.result.graph.edgeSet :=
    hclosed.call _ hmain (by decide) _ (.dispatched hcall rfl
      ⟨_, hmain, by decide, lateNew, by decide, rfl, rfl, by decide, rfl⟩ (by decide)
      (Program.isSubtype_iff.mpr (.head (by decide) (.refl _))) rfl)
  have hblot : (⟨"Main", "main", "()V"⟩, ⟨"Blot", "draw", "()V"⟩) ∈ told.result.graph.edgeSet :=
    hclosed.call _ hmain (by decide) _ (.dispatched hcall rfl
      ⟨_, hclosed.callee _ hdot, by decide, echoNew, by decide, rfl, rfl, by decide, rfl⟩ (by decide)
      (Program.isSubtype_iff.mpr (.head (by decide) (.refl _))) rfl)
  refine ⟨hp, told, told', hrun, hplain, hedges, ?_, ?_⟩
  · rw [hedges, Roster.mem_toList]
    exact hdot
  · rw [hedges, Roster.mem_toList]
    exact hblot

end Devirt
