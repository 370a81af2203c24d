import Devirt.Proofs.Extension
import Devirt.Proofs.Rounds

/-!
# Two analyses in lockstep

If an analysis asks only about methods and classes on which two programs agree, it does the same for
both, step by step.

* `Lockstep p q s s' M K` : from states in `K` and methods in `M` the strategies `s` for `p` and `s'`
  for `q` do the same, and stay within `K` and `M`;
* `Within p M K now` : an analysis of `p` has met methods in `M` only, and its state is in `K`. One
  step: `Within.link`; draining and a round: `Lockstep.drains`, `Lockstep.round`; all rounds:
  `Lockstep.saturate`, `Lockstep.analyze`;
* `Instantiation.lockstep` : rapid type analysis asks only about classes that methods of the program
  construct. So a class that the program does not name changes no step (`instantiation_withClass`).
-/

namespace Devirt

variable {σ : Type} {p q : Program} {s s' : Strategy σ} {M : Set MethodRef} {K : Set σ}
  {now later done : Progress σ}

/-! ## Traversals -/

namespace Traversal

variable {t : Traversal}

theorem link_congr {caller callee : MethodRef} (h : q.hasBody callee = p.hasBody callee) :
    t.link q caller callee = t.link p caller callee := by
  simp only [link, schedule, h]

theorem linkAll_congr {links : List (MethodRef × MethodRef)}
    (h : ∀ l ∈ links, q.hasBody l.2 = p.hasBody l.2) : t.linkAll q links = t.linkAll p links := by
  induction links generalizing t with
  | nil => rfl
  | cons l rest ih =>
    rw [linkAll, linkAll, link_congr (h l List.mem_cons_self)]
    split
    · rfl
    · exact ih (fun l hl => h l (List.mem_cons_of_mem _ hl))

theorem seed_congr (hentries : q.entryPoints = p.entryPoints)
    (h : ∀ m ∈ p.entryPoints, q.hasBody m = p.hasBody m) : seed t q = seed t p := by
  rw [seed, seed, hentries]
  exact List.foldl_ext _ _ t (fun t m hm => by simp only [start, schedule, h m hm])

theorem seedEvents_congr (hentries : q.entryPoints = p.entryPoints)
    (h : ∀ m ∈ p.entryPoints, q.hasBody m = p.hasBody m) : seedEvents q = seedEvents p := by
  rw [seedEvents, seedEvents, hentries, List.filter_congr (fun m hm => by rw [h m hm])]

end Traversal

/-! ## Lockstep -/

/-- From states and methods of these sets two strategies do the same, and lead to no others. -/
structure Lockstep (p q : Program) (s s' : Strategy σ) (M : Set MethodRef) (K : Set σ) : Prop where
  entryPoints : q.entryPoints = p.entryPoints
  entries : ∀ m ∈ p.entryPoints, m ∈ M
  hasBody : ∀ m ∈ M, q.hasBody m = p.hasBody m
  initial : s'.initial = s.initial
  initial_mem : s.initial ∈ K
  visit : ∀ state ∈ K, ∀ m ∈ M, s'.visit state m = s.visit state m
  visit_mem : ∀ state ∈ K, ∀ m ∈ M, ∀ v, s.visit state m = .ok v →
    v.state ∈ K ∧ ∀ t ∈ v.callees, t ∈ M
  resolve : ∀ number, ∀ state ∈ K, s'.resolve number state = s.resolve number state
  resolve_mem : ∀ number, ∀ state ∈ K, ∀ r, s.resolve number state = .ok r →
    r.state ∈ K ∧ ∀ l ∈ r.links, l.2 ∈ M

/-- The methods met so far, and the state, are in these sets. -/
structure Within (p : Program) (M : Set MethodRef) (K : Set σ) (now : Progress σ) : Prop where
  state : now.state ∈ K
  consistent : now.traversal.Consistent p
  nodes : now.traversal.graph.nodeSet ⊆ M

theorem Within.link (h : Within p M K now) {state : σ} (hstate : state ∈ K)
    {links : List (MethodRef × MethodRef)} (hlinks : ∀ l ∈ links, l.2 ∈ M) {t : Traversal}
    (hall : now.traversal.linkAll p links = .ok t) (events : List Event) (rounds : Nat) :
    Within p M K ⟨state, t, events, rounds⟩ := by
  have hlinked := Traversal.linked_of_linkAll h.consistent hall
  refine ⟨hstate, hlinked.consistent, fun m hm => ?_⟩
  rcases (hlinked.nodes m).mp hm with hm | ⟨l, hl, rfl⟩
  · exact h.nodes hm
  · exact hlinks l hl

namespace Lockstep

theorem linkAll (h : Lockstep p q s s' M K) {t : Traversal} {links : List (MethodRef × MethodRef)}
    (hlinks : ∀ l ∈ links, l.2 ∈ M) : t.linkAll q links = t.linkAll p links :=
  Traversal.linkAll_congr (fun l hl => h.hasBody l.2 (hlinks l hl))

theorem drains (h : Lockstep p q s s' M K) {ms : List MethodRef} (hd : Drains p s now ms later)
    (hw : Within p M K now) : Drains q s' now ms later ∧ Within p M K later := by
  induction hd with
  | idle next => exact ⟨.idle next, hw⟩
  | @walk now later m t t' v rest next visit link drains ih =>
    obtain ⟨hcons, hgraph, hnode, -⟩ := hw.consistent.next next
    have hm : m ∈ M := hw.nodes hnode
    obtain ⟨hstate, hcallees⟩ := h.visit_mem _ hw.state m hm v visit
    have hlinks : ∀ l ∈ v.callees.map (fun callee => (m, callee)), l.2 ∈ M := by
      intro l hl
      obtain ⟨callee, hcallee, rfl⟩ := List.mem_map.mp hl
      exact hcallees callee hcallee
    -- nothing but the worklist has changed when the method was taken
    have htaken : Within p M K ⟨now.state, t, now.events, now.rounds⟩ :=
      ⟨hw.state, hcons, hgraph ▸ hw.nodes⟩
    obtain ⟨hrest, hlater⟩ := ih (htaken.link hstate hlinks link _ _)
    refine ⟨.walk next ?_ ?_ hrest, hlater⟩
    · rw [h.visit _ hw.state m hm, visit]
    · rw [h.linkAll hlinks, link]

theorem round (h : Lockstep p q s s' M K) (hr : Devirt.round p s now = .ok later)
    (hw : Within p M K now) : Devirt.round q s' now = .ok later ∧ Within p M K later := by
  obtain ⟨drained, r, t, hd, hresolve, hlink, rfl⟩ := exists_of_round hr
  obtain ⟨ms, hms⟩ := exists_drains hd
  obtain ⟨hms', hwithin⟩ := h.drains hms hw
  obtain ⟨hstate, hlinks⟩ := h.resolve_mem _ _ hwithin.state r hresolve
  refine ⟨?_, hwithin.link hstate hlinks hlink _ _⟩
  simp only [Devirt.round, hms'.drain_eq, h.resolve _ _ hwithin.state, hresolve, h.linkAll hlinks,
    hlink]

theorem saturate (h : Lockstep p q s s' M K) (hs : Devirt.saturate p s now = .ok done)
    (hw : Within p M K now) : Devirt.saturate q s' now = .ok done := by
  fun_induction Devirt.saturate p s now with
  | case1 => cases hs
  | case2 now later hr hidle =>
    cases hs
    exact saturate_of_idle (h.round hr hw).1 hidle
  | case3 now later hr hbusy ih =>
    obtain ⟨hr', hlater⟩ := h.round hr hw
    rw [saturate_of_busy hr' (by simpa using hbusy)]
    exact ih hs hlater

theorem within_seed (h : Lockstep p q s s' M K) :
    Within p M K ⟨s.initial, Traversal.seed {} p, Traversal.seedEvents p, 0⟩ := by
  obtain ⟨hcons, hnodes, -⟩ :=
    Traversal.consistent_foldl_start p.entryPoints (Traversal.consistent_empty p)
  refine ⟨h.initial_mem, hcons, fun m hm => ?_⟩
  rcases (hnodes m).mp hm with hm | ⟨hm, -⟩
  · exact absurd hm Roster.not_mem_empty
  · exact h.entries m hm

/-- What an analysis does for one program it does for the other. -/
theorem analyze (h : Lockstep p q s s' M K) (hs : Devirt.analyze p s = .ok done) :
    Devirt.analyze q s' = .ok done := by
  have hbody : ∀ m ∈ p.entryPoints, q.hasBody m = p.hasBody m :=
    fun m hm => h.hasBody m (h.entries m hm)
  rw [Devirt.analyze, h.initial, Traversal.seed_congr h.entryPoints hbody,
    Traversal.seedEvents_congr h.entryPoints hbody]
  exact h.saturate hs h.within_seed

end Lockstep

/-! ## Classes that are never instantiated -/

namespace Instantiation

variable {S : Set String}

theorem resolveAgainst_congr (h : p.AgreeOn q S) (hp : p.SuperAcyclic) (hq : q.SuperAcyclic)
    {classes : List String} (hclasses : ∀ c ∈ classes, c ∈ S) (signature : MethodRef) :
    resolveAgainst q signature classes = resolveAgainst p signature classes := by
  have hadmits : classes.filter (admits q signature) = classes.filter (admits p signature) := by
    refine List.filter_congr (fun c hc => ?_)
    rw [admits, admits, h.isConcrete (hclasses c hc), h.isSubtype (hclasses c hc)]
  have hdispatch : (classes.filter (admits p signature)).mapM (fun c => q.dispatch c signature) =
      (classes.filter (admits p signature)).mapM (fun c => p.dispatch c signature) := by
    refine mapM_congr (fun c hc => ?_)
    exact h.dispatch hp hq (hclasses c (List.mem_of_mem_filter hc)) signature
  rw [resolveAgainst, resolveAgainst, hadmits, hdispatch]

theorem catchUp_congr (h : p.AgreeOn q S) (hp : p.SuperAcyclic) (hq : q.SuperAcyclic)
    {classes : List String} (hclasses : ∀ c ∈ classes, c ∈ S) :
    Site.catchUp q classes = Site.catchUp p classes := by
  funext site
  rw [Site.catchUp, Site.catchUp,
    resolveAgainst_congr h hp hq (fun c hc => hclasses c (List.mem_of_mem_drop hc))]

/-- If both programs agree on the owners of entry points and of called methods, and if their methods
make the same calls, nothing else is asked about. -/
theorem lockstep (h : p.AgreeOn q S) (hp : p.SuperAcyclic) (hq : q.SuperAcyclic)
    (hentries : q.entryPoints = p.entryPoints) (hstart : ∀ m ∈ p.entryPoints, m.owner ∈ S)
    (hcalls : ∀ m, m.owner ∈ S → q.calls m = p.calls m)
    (howners : ∀ m, ∀ call ∈ p.calls m, call.method.owner ∈ S) :
    Lockstep p q (strategy p) (strategy q) {m | m.owner ∈ S}
      {state | ∀ c ∈ state.instantiated, c ∈ S} where
  entryPoints := hentries
  entries := hstart
  hasBody m hm := h.hasBody hm
  initial := rfl
  initial_mem c hc := absurd hc List.not_mem_nil
  visit state _ m hm := by
    rw [strategy, strategy]
    simp only [hcalls m hm]
  visit_mem state hstate m _ v hv := by
    cases hv
    have hwalked := walked_foldl m (p.calls m) ⟨state, [], []⟩
    constructor
    · intro c hc
      rcases (hwalked.instantiated c).mp hc with hc | ⟨call, hcall, -, rfl⟩
      · exact hstate c hc
      · exact howners m call hcall
    · intro t ht
      rcases (hwalked.callees t).mp ht with ht | ⟨call, hcall, -, rfl⟩
      · cases ht
      · exact howners m call hcall
  resolve number state hstate := by
    rw [strategy, strategy]
    simp only [catchUp_congr h hp hq hstate]
  -- what dispatch finds on a class in `S` is declared by a class in `S`
  resolve_mem number state hstate r hr := by
    obtain ⟨resolved, hresolved, hback, -⟩ := exists_resolve hp number state
    cases hr.symm.trans hresolved
    refine ⟨hstate, fun l hl => ?_⟩
    obtain ⟨y, hy, hl⟩ := List.mem_flatMap.mp hl
    obtain ⟨site, -, hcaught⟩ := hback y hy
    obtain ⟨-, c, hc, -, ht⟩ := (hcaught.links l).mp hl
    exact h.owner_of_dispatch (hstate c (List.mem_of_mem_drop hc)) ht

end Instantiation

/-- A class of a name that a program does not use changes nothing for the rapid type analysis, whatever
it extends, implements or declares, unless it makes a superclass cycle: methods, calls and warnings
are the same, and in the same order. -/
theorem instantiation_withClass (p : Program) (y : Class) (hy : y.name ∉ p.names)
    (hq : (p.withClass y).SuperAcyclic) :
    ∃ told, Instantiation.run p = .ok told ∧ Instantiation.run (p.withClass y) = .ok told := by
  have hp := Program.superAcyclic_of_withClass hy hq
  have hused : ∀ x ∈ p.names, x ≠ y.name := fun x hx he => hy (he ▸ hx)
  have hlockstep := Instantiation.lockstep (Program.agreeOn_withClass hy) hp hq rfl
    (fun m hm => hused _ (Program.entry_mem_names hm))
    (fun m hm => Program.calls_withClass hy hm)
    (fun m call hcall => hused _ (Program.owner_mem_names hcall))
  obtain ⟨done, told, hdone, htold, -⟩ := Instantiation.exists_done hp
  refine ⟨told, htold, ?_⟩
  rw [Instantiation.run, Instantiation.runBy, hdone] at htold
  rw [Instantiation.run, Instantiation.runBy, hlockstep.analyze hdone]
  exact htold

/-- A class below those of `lateProgram`, with a method of its own for the call that is dispatched
there. -/
def blotClass : Class where
  name := "Blot"
  superName := some "Dot"
  interfaces := ["Shape"]
  methods := [{ name := "draw", descriptor := "()V", body := some [.invoke lateDraw] }]

/-- By the hierarchy the method of the new class may be called, and yet the rapid type analysis is
the same with and without the class. -/
theorem instantiation_withClass_blot :
    blotClass.name ∉ lateProgram.names ∧ (lateProgram.withClass blotClass).SuperAcyclic ∧
      (∃ hierarchy, Hierarchy.run (lateProgram.withClass blotClass) = .ok hierarchy ∧
        (⟨"Main", "main", "()V"⟩, ⟨"Blot", "draw", "()V"⟩) ∈ hierarchy.result.graph.edgeSet) ∧
      ∃ told, Instantiation.run lateProgram = .ok told ∧
        Instantiation.run (lateProgram.withClass blotClass) = .ok told := by
  have hname : blotClass.name ∉ lateProgram.names := by decide
  have hq : (lateProgram.withClass blotClass).SuperAcyclic := by decide
  refine ⟨hname, hq, ?_, instantiation_withClass _ _ hname hq⟩
  obtain ⟨hierarchy, hrun, hclosed, -⟩ := Hierarchy.exists_done hq
  have hmain := hclosed.entry ⟨"Main", "main", "()V"⟩ (by decide) (by decide)
  have hcall : lateDraw ∈ (lateProgram.withClass blotClass).calls ⟨"Main", "main", "()V"⟩ := by
    decide
  have hbelow : (lateProgram.withClass blotClass).isSubtype "Blot" "Shape" = true :=
    Program.isSubtype_iff.mpr (.head (by decide) (.refl _))
  exact ⟨hierarchy, hrun, hclosed.call _ hmain (by decide) _
    (Hierarchy.calls_dispatched hq hcall rfl hbelow (by decide) rfl)⟩

end Devirt
