import Devirt.Analysis
import Devirt.Proofs.Traversal
import Mathlib.Order.Bounds.Basic
import Mathlib.Order.Lattice

/-!
# Analyses find the least closed graph

An analysis is compared with a rule that says which calls the methods of a set make, if the methods
of that set are all that is reached.

* `CallsClosed p calls N E` : `N` and `E` hold the entry points, the calls of their methods and the
  callees of these;
* `CallRule` : what is called from a set of methods; a larger set makes no fewer calls, and only its
  methods with code matter;
* `Strategy.Follows s rule Inv` : each walk and each resolution of `s` adds calls of the rule only,
  and after a resolution no call of the rule is missing. `Inv` relates the state of `s` to the
  methods taken and the calls added so far;
* `OnTrack` : what every step of the loop keeps: nothing is in the graph that is not in all closed
  sets. One step: `OnTrack.visit`, `OnTrack.resolve`; all steps: `exists_drain`, `exists_saturate`;
* `exists_analyze` : so the analysis has a result, and its graph is the least closed one.
-/

namespace Devirt

/-! ## Closed sets -/

/-- Sets of methods and calls with the entry points that have code, the callees of the calls, and
the calls that their methods with code make. -/
structure CallsClosed (p : Program) (calls : MethodRef → MethodRef → Prop) (N : Set MethodRef)
    (E : Set (MethodRef × MethodRef)) : Prop where
  entry : ∀ m ∈ p.entryPoints, p.hasBody m = true → m ∈ N
  callee : ∀ e ∈ E, e.2 ∈ N
  call : ∀ m ∈ N, p.hasBody m = true → ∀ t, calls m t → (m, t) ∈ E

/-- The calls that methods make when a set of methods is reached. -/
structure CallRule (p : Program) where
  calls : Set MethodRef → MethodRef → MethodRef → Prop
  mono : ∀ {N N' : Set MethodRef} {m t : MethodRef}, N ⊆ N' → calls N m t → calls N' m t
  bodied : ∀ {N : Set MethodRef} {m t : MethodRef}, calls N m t →
    calls {x ∈ N | p.hasBody x = true} m t

/-- The sets of methods and calls that are closed under a rule. -/
def CallRule.closed {p : Program} (rule : CallRule p) :
    Set (Set MethodRef × Set (MethodRef × MethodRef)) :=
  {g | CallsClosed p (rule.calls g.1) g.1 g.2}

/-- In the least closed sets there are no calls but those of the rule. -/
theorem CallRule.mem_edges_iff {p : Program} {rule : CallRule p} {N : Set MethodRef}
    {E : Set (MethodRef × MethodRef)} (h : IsLeast rule.closed (N, E)) {m t : MethodRef} :
    (m, t) ∈ E ↔ m ∈ N ∧ p.hasBody m = true ∧ rule.calls N m t := by
  obtain ⟨hclosed, hleast⟩ := h
  constructor
  · intro he
    have hmade : (N, {e ∈ E | e.1 ∈ N ∧ p.hasBody e.1 = true ∧ rule.calls N e.1 e.2}) ∈
        rule.closed :=
      ⟨hclosed.entry, fun e he => hclosed.callee e he.1,
        fun m hm hb t ht => ⟨hclosed.call m hm hb t ht, hm, hb, ht⟩⟩
    exact ((hleast hmade).2 he).2
  · rintro ⟨hm, hb, ht⟩
    exact hclosed.call m hm hb t ht

/-- The least closed sets of a rule are below those of another exactly if, in methods of both, calls
of the first rule are calls of the second. -/
theorem CallRule.subset_iff {p : Program} {rule rule' : CallRule p} {N N' : Set MethodRef}
    {E E' : Set (MethodRef × MethodRef)} (h : IsLeast rule.closed (N, E))
    (h' : IsLeast rule'.closed (N', E')) :
    N ⊆ N' ∧ E ⊆ E' ↔ ∀ m ∈ N ∩ N', p.hasBody m = true → ∀ t, rule.calls (N ∩ N') m t →
      rule'.calls N' m t := by
  constructor
  · rintro ⟨-, hE⟩ m hm hb t ht
    have hedge : (m, t) ∈ E := h.1.call m hm.1 hb t (rule.mono Set.inter_subset_left ht)
    exact ((mem_edges_iff h').mp (hE hedge)).2.2
  · intro hcalls
    -- what both have is closed under the first rule, so its least closed sets are in it
    have hboth : (N ∩ N', E ∩ E') ∈ rule.closed := by
      refine ⟨fun m hm hb => ⟨h.1.entry m hm hb, h'.1.entry m hm hb⟩,
        fun e he => ⟨h.1.callee e he.1, h'.1.callee e he.2⟩, fun m hm hb t ht => ⟨?_, ?_⟩⟩
      · exact h.1.call m hm.1 hb t (rule.mono Set.inter_subset_left ht)
      · exact h'.1.call m hm.2 hb t (hcalls m hm hb t ht)
    obtain ⟨hN, hE⟩ := h.2 hboth
    exact ⟨fun m hm => (hN hm).2, fun e he => (hE he).2⟩

/-! ## Strategies that follow a rule -/

variable {σ : Type} {p : Program}

/-- Each walk and each resolution adds calls of the rule only, and a resolution leaves none out. The
state stands in a relation to the methods taken and the calls added. -/
structure Strategy.Follows (s : Strategy σ) (rule : CallRule p)
    (Inv : σ → Set MethodRef → Set (MethodRef × MethodRef) → Prop) : Prop where
  initial : Inv s.initial ∅ ∅
  visit : ∀ {state P E m}, Inv state P E → p.hasBody m = true →
    ∃ v, s.visit state m = .ok v ∧ (∀ t ∈ v.callees, rule.calls (insert m P) m t) ∧
      Inv v.state (insert m P) (E ∪ {e | e.1 = m ∧ e.2 ∈ v.callees})
  resolve : ∀ {state P E} (number : Nat), Inv state P E →
    ∃ r, s.resolve number state = .ok r ∧ (∀ e ∈ r.links, e.1 ∈ P ∧ rule.calls P e.1 e.2) ∧
      Inv r.state P (E ∪ {e | e ∈ r.links}) ∧
      ∀ m ∈ P, ∀ t, rule.calls P m t → (m, t) ∈ E ∪ {e | e ∈ r.links}

/-- Entry points with code are nodes, and nothing is in the graph that is not in all closed sets. -/
structure Grounded (rule : CallRule p) (t : Traversal) : Prop where
  consistent : t.Consistent p
  entry : ∀ m ∈ p.entryPoints, p.hasBody m = true → m ∈ t.graph.nodes
  sound : ∀ g ∈ rule.closed, t.graph.nodeSet ⊆ g.1 ∧ t.graph.edgeSet ⊆ g.2

/-- What holds between any two steps of an analysis. -/
structure OnTrack (rule : CallRule p)
    (Inv : σ → Set MethodRef → Set (MethodRef × MethodRef) → Prop) (state : σ) (t : Traversal) :
    Prop extends Grounded rule t where
  inv : Inv state t.taken t.graph.edgeSet

variable {s : Strategy σ} {rule : CallRule p}
  {Inv : σ → Set MethodRef → Set (MethodRef × MethodRef) → Prop} {state : σ} {t t' : Traversal}

/-- Among the dispatched calls that are kept for the methods taken, those of one more method. -/
theorem exists_kept_insert {κ : Type} {kept : List κ} {P : Set MethodRef} {m x : MethodRef}
    (make : Call → κ) {R : κ → Prop} {Q : MethodRef → Call → Prop}
    (hkept : (∃ site ∈ kept, R site) ↔
      x ∈ P ∧ ∃ call ∈ p.calls x, call.kind.isDispatched = true ∧ Q x call)
    (hmake : ∀ call, R (make call) ↔ m = x ∧ Q m call) :
    (∃ site ∈ kept ++ ((p.calls m).filter (·.kind.isDispatched)).map make, R site) ↔
      x ∈ insert m P ∧ ∃ call ∈ p.calls x, call.kind.isDispatched = true ∧ Q x call := by
  have hnew : (∃ site ∈ ((p.calls m).filter (·.kind.isDispatched)).map make, R site) ↔
      x = m ∧ ∃ call ∈ p.calls x, call.kind.isDispatched = true ∧ Q x call := by
    refine ⟨fun ⟨_, hsite, hr⟩ => ?_, fun ⟨hx, call, hcall, hd, hq⟩ => ?_⟩
    · obtain ⟨call, hcall, rfl⟩ := List.mem_map.mp hsite
      obtain ⟨rfl, hq⟩ := (hmake call).mp hr
      exact ⟨rfl, call, (List.mem_filter.mp hcall).1, (List.mem_filter.mp hcall).2, hq⟩
    · subst hx
      exact ⟨_, List.mem_map_of_mem (List.mem_filter.mpr ⟨hcall, hd⟩), (hmake call).mpr ⟨rfl, hq⟩⟩
  simp only [List.mem_append, or_and_right, exists_or, hkept, hnew, Set.mem_insert_iff]
  exact or_comm

/-- A resolution that keeps what identifies a call leaves the same calls. -/
theorem exists_kept_resolved {κ : Type} {kept : List κ}
    {resolved : List (κ × List (MethodRef × MethodRef))} {R : κ → Prop}
    {S : κ → κ × List (MethodRef × MethodRef) → Prop}
    (hback : ∀ y ∈ resolved, ∃ site ∈ kept, S site y)
    (hforth : ∀ site ∈ kept, ∃ y ∈ resolved, S site y)
    (hsame : ∀ site y, S site y → (R y.1 ↔ R site)) :
    (∃ site ∈ resolved.map (·.1), R site) ↔ ∃ site ∈ kept, R site := by
  refine ⟨fun ⟨_, hsite, hr⟩ => ?_, fun ⟨site, hsite, hr⟩ => ?_⟩
  · obtain ⟨y, hy, rfl⟩ := List.mem_map.mp hsite
    obtain ⟨site, hsite, hs⟩ := hback y hy
    exact ⟨site, hsite, (hsame site y hs).mp hr⟩
  · obtain ⟨y, hy, hs⟩ := hforth site hsite
    exact ⟨y.1, List.mem_map_of_mem hy, (hsame site y hs).mpr hr⟩

/-! ## One step -/

theorem edgeSet_seed (p : Program) : (Traversal.seed {} p).graph.edgeSet = ∅ := by
  have hedges := (Traversal.consistent_foldl_start p.entryPoints
    (Traversal.consistent_empty p)).2.2.1
  ext e
  simp only [CallGraph.mem_edgeSet, Traversal.seed, hedges, Set.mem_empty_iff_false, iff_false]
  exact Roster.not_mem_empty

theorem taken_seed (p : Program) : (Traversal.seed {} p).taken = ∅ := by
  have htaken := (Traversal.consistent_foldl_start p.entryPoints
    (Traversal.consistent_empty p)).2.2.2
  rw [Traversal.seed, htaken]
  ext m
  simp [Traversal.taken]

theorem Grounded.seed : Grounded rule (Traversal.seed {} p) := by
  obtain ⟨hcons, hnodes, -, -⟩ :=
    Traversal.consistent_foldl_start p.entryPoints (Traversal.consistent_empty p)
  refine ⟨hcons, fun m hm hb => (hnodes m).mpr (.inr ⟨hm, hb⟩), fun g hg => ⟨fun m hm => ?_, ?_⟩⟩
  · rcases (hnodes m).mp hm with hm | ⟨hm, hb⟩
    · exact absurd hm Roster.not_mem_empty
    · exact hg.entry m hm hb
  · rw [edgeSet_seed]
    exact Set.empty_subset _

/-- Calls of the rule may be added, if methods that have been taken make them. -/
theorem Grounded.link {links : List (MethodRef × MethodRef)} (h : Grounded rule t)
    (hlinked : Traversal.Linked p t links t')
    (hcalls : ∀ e ∈ links, e.1 ∈ t.taken ∧ rule.calls t.taken e.1 e.2) : Grounded rule t' := by
  refine ⟨hlinked.consistent, fun m hm hb => (hlinked.nodes m).mpr (.inl (h.entry m hm hb)),
    fun g hg => ?_⟩
  obtain ⟨hnode, hedge⟩ := h.sound g hg
  have htaken : t.taken ⊆ g.1 := fun m hm => hnode (h.consistent.of_taken hm).1
  have hlink : ∀ e ∈ links, e ∈ g.2 := by
    intro e he
    obtain ⟨hm, hcall⟩ := hcalls e he
    exact hg.call e.1 (htaken hm) (h.consistent.of_taken hm).2 e.2 (rule.mono htaken hcall)
  refine ⟨fun m hm => ?_, fun e he => ?_⟩
  · rcases (hlinked.nodes m).mp hm with hm | ⟨e, he, rfl⟩
    · exact hnode hm
    · exact hg.callee e (hlink e he)
  · exact ((hlinked.edges e).mp he).elim (fun he => hedge he) (hlink e)

theorem Traversal.Linked.edgeSet_eq {links : List (MethodRef × MethodRef)}
    (h : Traversal.Linked p t links t') :
    t'.graph.edgeSet = t.graph.edgeSet ∪ {e | e ∈ links} := Set.ext h.edges

/-- A walk through the method that is taken next stays on track. -/
theorem OnTrack.visit {m : MethodRef} {t₁ : Traversal} (hs : s.Follows rule Inv)
    (h : OnTrack rule Inv state t) (hn : t.next = some (m, t₁)) :
    ∃ v t₂, s.visit state m = .ok v ∧
      t₁.linkAll p (v.callees.map (fun callee => (m, callee))) = .ok t₂ ∧
      OnTrack rule Inv v.state t₂ := by
  obtain ⟨hcons, hgraph, hnode, hbody, -, htaken⟩ := h.consistent.next hn
  obtain ⟨v, hv, hcalls, hinv⟩ := hs.visit h.inv hbody
  have hlinks : {e | e ∈ v.callees.map (fun callee => (m, callee))} =
      {e : MethodRef × MethodRef | e.1 = m ∧ e.2 ∈ v.callees} := by
    ext ⟨a, b⟩
    simp [eq_comm, and_comm]
  have hmade : ∀ e ∈ v.callees.map (fun callee => (m, callee)), e.1 = m ∧ e.2 ∈ v.callees :=
    fun e he => hlinks.subset he
  have hground : Grounded rule t₁ :=
    ⟨hcons, by rw [hgraph]; exact h.entry, by rw [hgraph]; exact h.sound⟩
  obtain ⟨t₂, hall, hlinked⟩ := Traversal.exists_linkAll hcons (fun e he => by
    rw [hgraph, (hmade e he).1]
    exact hnode)
  refine ⟨v, t₂, hv, hall, hground.link hlinked (fun e he => ?_), ?_⟩
  · rw [htaken, (hmade e he).1]
    exact ⟨Set.mem_insert m _, hcalls e.2 (hmade e he).2⟩
  · rw [hlinked.taken, hlinked.edgeSet_eq, htaken, hgraph, hlinks]
    exact hinv

/-- A resolution stays on track, and leaves out no call of the methods taken. -/
theorem OnTrack.resolve (hs : s.Follows rule Inv) (number : Nat) (h : OnTrack rule Inv state t) :
    ∃ r t', s.resolve number state = .ok r ∧ t.linkAll p r.links = .ok t' ∧
      OnTrack rule Inv r.state t' ∧
      ∀ m ∈ t'.taken, ∀ callee, rule.calls t'.taken m callee → (m, callee) ∈ t'.graph.edges := by
  obtain ⟨r, hr, hcalls, hinv, hall⟩ := hs.resolve number h.inv
  obtain ⟨t', hlink, hlinked⟩ := Traversal.exists_linkAll h.consistent
    (fun e he => (h.consistent.of_taken (hcalls e he).1).1)
  refine ⟨r, t', hr, hlink, ⟨h.toGrounded.link hlinked hcalls, ?_⟩, ?_⟩
  · rw [hlinked.taken, hlinked.edgeSet_eq]
    exact hinv
  · rw [hlinked.taken]
    exact fun m hm callee hcall => (hlinked.edges _).mpr (hall m hm callee hcall)

/-! ## All steps -/

theorem exists_drain (hs : s.Follows rule Inv) {now : Progress σ}
    (h : OnTrack rule Inv now.state now.traversal) :
    ∃ later, drain p s now = .ok later ∧ OnTrack rule Inv later.state later.traversal := by
  fun_induction drain p s now with
  | case1 now hn => exact ⟨now, rfl, h⟩
  | case2 now m t hn e he =>
    obtain ⟨v, t₂, hv, -, -⟩ := h.visit hs hn
    cases he.symm.trans hv
  | case3 now m t hn v hv e hl =>
    obtain ⟨v', t₂, hv', hall, -⟩ := h.visit hs hn
    cases hv.symm.trans hv'
    cases hl.symm.trans hall
  | case4 now m t hn v hv t' hl ih =>
    obtain ⟨v', t₂, hv', hall, htrack⟩ := h.visit hs hn
    cases hv.symm.trans hv'
    cases hl.symm.trans hall
    exact ih htrack

/-- A round stays on track, and leaves out no call of the methods that have been taken by then. -/
theorem exists_round (hs : s.Follows rule Inv) {now : Progress σ}
    (h : OnTrack rule Inv now.state now.traversal) :
    ∃ later, round p s now = .ok later ∧ OnTrack rule Inv later.state later.traversal ∧
      ∀ m ∈ later.traversal.taken, ∀ callee, rule.calls later.traversal.taken m callee →
        (m, callee) ∈ later.traversal.graph.edges := by
  obtain ⟨drained, hd, htrack⟩ := exists_drain hs h
  obtain ⟨r, t', hr, hlink, hafter, hall⟩ := htrack.resolve hs (now.rounds + 1)
  refine ⟨⟨r.state, t', drained.events ++ r.events, now.rounds + 1⟩, ?_, hafter, hall⟩
  unfold round
  simp only [hd, hr, hlink]

/-- The rounds come to an end on track, with no call left out and no method left to take. -/
theorem exists_saturate (hs : s.Follows rule Inv) (now : Progress σ)
    (h : OnTrack rule Inv now.state now.traversal) :
    ∃ done, saturate p s now = .ok done ∧ OnTrack rule Inv done.state done.traversal ∧
      done.traversal.worklist = [] ∧
      ∀ m ∈ done.traversal.taken, ∀ callee, rule.calls done.traversal.taken m callee →
        (m, callee) ∈ done.traversal.graph.edges := by
  fun_induction saturate p s now with
  | case1 now e he =>
    obtain ⟨later, hr, -⟩ := exists_round hs h
    cases he.symm.trans hr
  | case2 now later hr hidle =>
    obtain ⟨later', hr', htrack, hall⟩ := exists_round hs h
    cases hr.symm.trans hr'
    exact ⟨later, rfl, htrack, List.isEmpty_iff.mp hidle, hall⟩
  | case3 now later hr hbusy ih =>
    obtain ⟨later', hr', htrack, -⟩ := exists_round hs h
    cases hr.symm.trans hr'
    exact ih htrack

theorem OnTrack.seed (hs : s.Follows rule Inv) :
    OnTrack rule Inv s.initial (Traversal.seed {} p) :=
  ⟨Grounded.seed, by rw [taken_seed, edgeSet_seed]; exact hs.initial⟩

/-- An analysis that follows a rule has a result, and its graph is the least closed one. -/
theorem exists_analyze (hs : s.Follows rule Inv) :
    ∃ done, analyze p s = .ok done ∧ done.traversal.Consistent p ∧
      Inv done.state {m ∈ done.traversal.graph.nodeSet | p.hasBody m = true}
        done.traversal.graph.edgeSet ∧
      IsLeast rule.closed (done.traversal.graph.nodeSet, done.traversal.graph.edgeSet) := by
  obtain ⟨done, hdone, htrack, hidle, hall⟩ := exists_saturate hs
    ⟨s.initial, Traversal.seed {} p, Traversal.seedEvents p, 0⟩ (OnTrack.seed hs)
  have htaken := htrack.consistent.taken_of_idle hidle
  refine ⟨done, hdone, htrack.consistent, htaken ▸ htrack.inv, ⟨htrack.entry, ?_, ?_⟩, ?_⟩
  · exact fun e he => (htrack.consistent.joins e he).2
  · intro m hm hb callee hcall
    refine hall m ?_ callee ?_
    · rw [htaken]
      exact ⟨hm, hb⟩
    · rw [htaken]
      exact rule.bodied hcall
  · exact fun g hg => htrack.sound g hg

/-! ## What else is kept -/

/-- A further fact that walks and resolutions keep, given the relation they stand in. -/
theorem Strategy.Follows.and {Kept : σ → Set MethodRef → Prop} (hs : s.Follows rule Inv)
    (initial : Kept s.initial ∅)
    (visit : ∀ {state P E m v}, Inv state P E → Kept state P → s.visit state m = .ok v →
      Kept v.state (insert m P))
    (resolve : ∀ {state P E number r}, Inv state P E → Kept state P →
      s.resolve number state = .ok r → Kept r.state P) :
    s.Follows rule (fun state P E => Inv state P E ∧ Kept state P) where
  initial := ⟨hs.initial, initial⟩
  visit {state P E m} h hb := by
    obtain ⟨v, hv, hcalls, hinv⟩ := hs.visit h.1 hb
    exact ⟨v, hv, hcalls, hinv, visit h.1 h.2 hv⟩
  resolve {state P E} number h := by
    obtain ⟨r, hr, hcalls, hinv, hall⟩ := hs.resolve number h.1
    exact ⟨r, hr, hcalls, ⟨hinv, resolve h.1 h.2 hr⟩, hall⟩

theorem exists_last_resolve_of_saturate (hs : s.Follows rule Inv) {now done : Progress σ}
    (h : OnTrack rule Inv now.state now.traversal) (hdone : saturate p s now = .ok done) :
    ∃ number state E r, Inv state {m ∈ done.traversal.graph.nodeSet | p.hasBody m = true} E ∧
      s.resolve number state = .ok r ∧ r.state = done.state := by
  fun_induction saturate p s now with
  | case1 => cases hdone
  | case2 now later hr hidle =>
    cases hdone
    obtain ⟨drained, hd, htrack⟩ := exists_drain hs h
    obtain ⟨r, t', hresolve, hlink, hafter, -⟩ := htrack.resolve hs (now.rounds + 1)
    simp only [round, hd, hresolve, hlink] at hr
    cases hr
    -- a resolution takes no method, so those taken before it are all that have code
    have htaken := (Traversal.linked_of_linkAll htrack.consistent hlink).taken
    rw [hafter.consistent.taken_of_idle (List.isEmpty_iff.mp hidle)] at htaken
    exact ⟨now.rounds + 1, drained.state, _, r, htaken ▸ htrack.inv, hresolve, rfl⟩
  | case3 now later hr hbusy ih =>
    obtain ⟨later', hr', htrack, -⟩ := exists_round hs h
    cases hr.symm.trans hr'
    exact ih htrack hdone

/-- An analysis ends with a resolution, before which all methods with code had been taken. -/
theorem exists_last_resolve (hs : s.Follows rule Inv) {done : Progress σ}
    (hdone : analyze p s = .ok done) :
    ∃ number state E r, Inv state {m ∈ done.traversal.graph.nodeSet | p.hasBody m = true} E ∧
      s.resolve number state = .ok r ∧ r.state = done.state :=
  exists_last_resolve_of_saturate hs (OnTrack.seed hs) hdone

end Devirt
