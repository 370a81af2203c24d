import Devirt.Proofs.Precision

/-!
# Which calls resolve to nothing

A warning names a method and a signature that it calls. While an analysis runs it counts targets, or
marks sites that have got one; what is known only grows, so at the end counts and marks say what
holds of everything known.

* `Hierarchy.Unresolved p m s` : `m` has a call to `s` without targets;
* `Instantiation.Resolves p I s`, `Instantiation.Unresolved p I m s` : dispatch of `s` finds a method
  on one of the classes `I`, or a dispatched call of `m` to `s` finds none;
* `ValueFlow.Resolves p allows C m s`, `ValueFlow.Unresolved p allows tags m s` : the same for the
  classes of a receiver, among the calls that are allowed;
* `Hierarchy.Warned`, `Instantiation.Counted`, `ValueFlow.Marked` : what warnings, counts and marks
  say in the middle of a run. One step: `Warned.visit`, `Counted.visit`, `Marked.visit`, and the same
  for `resolve`; at the end: `mem_warnings_iff` of each analysis, and `warnings_exact`.
-/

namespace Devirt

variable {p : Program}

/-! ## By the hierarchy -/

namespace Hierarchy

/-- A call of a method to this signature has no target. -/
def Unresolved (p : Program) (m s : MethodRef) : Prop :=
  ∃ call ∈ p.calls m, call.method = s ∧ p.targets call = .ok []

theorem mem_state_visitCall {m : MethodRef} {v w : Visit (List UnresolvedCall)} {call : Call}
    (h : visitCall p m v call = .ok w) {u : UnresolvedCall} :
    u ∈ w.state ↔ u ∈ v.state ∨ u = ⟨m, call.method⟩ ∧ p.targets call = .ok [] := by
  unfold visitCall at h
  split at h
  · cases h
  · rename_i hfound
    cases h
    simp [recordUnresolved, hfound, or_comm]
  · rename_i found hne hfound
    cases h
    rw [hfound]
    simp only [Except.ok.injEq]
    exact ⟨.inl, fun hu => hu.resolve_right (fun ⟨_, he⟩ => hne he)⟩

theorem mem_state_walk {m : MethodRef} {calls : List Call} {v w : Visit (List UnresolvedCall)}
    (h : calls.foldlM (visitCall p m) v = .ok w) {u : UnresolvedCall} :
    u ∈ w.state ↔ u ∈ v.state ∨
      u.caller = m ∧ ∃ call ∈ calls, call.method = u.signature ∧ p.targets call = .ok [] := by
  induction calls generalizing v with
  | nil =>
    cases h
    simp
  | cons call rest ih =>
    rw [List.foldlM_cons] at h
    obtain ⟨next, hnext, h⟩ := exists_of_bind_ok h
    rw [ih h, mem_state_visitCall hnext]
    obtain ⟨caller, signature⟩ := u
    simp only [UnresolvedCall.mk.injEq, List.mem_cons, exists_eq_or_imp]
    tauto

/-- The warnings so far are the unresolved calls of the methods taken. -/
def Warned (p : Program) (warnings : List UnresolvedCall) (P : Set MethodRef) : Prop :=
  ∀ m s, ⟨m, s⟩ ∈ warnings ↔ m ∈ P ∧ Unresolved p m s

theorem Warned.visit {warnings : List UnresolvedCall} {P : Set MethodRef} {m : MethodRef}
    {v : Visit (List UnresolvedCall)} (h : Warned p warnings P)
    (hv : (strategy p).visit warnings m = .ok v) : Warned p v.state (insert m P) := by
  intro x s
  rw [mem_state_walk hv, h x s, Set.mem_insert_iff, or_and_right, or_comm]
  refine or_congr_left ⟨?_, ?_⟩
  · rintro ⟨rfl, hcall⟩
    exact ⟨rfl, hcall⟩
  · rintro ⟨rfl, hcall⟩
    exact ⟨rfl, hcall⟩

theorem followsWarned (hp : p.SuperAcyclic) :
    (strategy p).Follows (rule p)
      (fun warnings P E => (∀ m ∈ P, ∀ t, Calls p m t → (m, t) ∈ E) ∧ Warned p warnings P) := by
  refine (follows hp).and (fun m s => ?_) (fun _ h hv => h.visit hv) (fun _ h hr => ?_)
  · simp [strategy]
  · cases hr
    exact h

theorem exists_of_run {told : Told Run} (h : run p = .ok told) :
    ∃ done, analyze p (strategy p) = .ok done ∧ told.result.graph = done.traversal.graph ∧
      told.result.warnings = done.state := by
  obtain ⟨done, hdone, h⟩ := exists_of_bind_ok h
  cases h
  exact ⟨done, hdone, rfl, rfl⟩

theorem mem_warnings_iff (hp : p.SuperAcyclic) {told : Told Run} (h : run p = .ok told)
    {m s : MethodRef} :
    ⟨m, s⟩ ∈ told.result.warnings ↔
      m ∈ told.result.graph.nodeSet ∧ p.hasBody m = true ∧ Unresolved p m s := by
  obtain ⟨done, hdone, hgraph, hwarnings⟩ := exists_of_run h
  obtain ⟨done', hdone', -, ⟨-, hwarned⟩, -⟩ := exists_analyze (followsWarned hp)
  cases hdone.symm.trans hdone'
  rw [hwarnings, hwarned m s, hgraph, ← and_assoc]
  rfl

end Hierarchy

/-! ## By the classes instantiated -/

namespace Instantiation

/-- Dispatch of a signature finds a method on an object of one of these classes. -/
def Resolves (p : Program) (I : Set String) (s : MethodRef) : Prop :=
  ∃ c ∈ I, p.isConcrete c = true ∧ p.isSubtype c s.owner = true ∧
    ∃ t, p.dispatch c s = .ok (some t)

/-- A dispatched call of a method to this signature finds no method on objects of these classes. -/
def Unresolved (p : Program) (I : Set String) (m s : MethodRef) : Prop :=
  ∃ call ∈ p.calls m, call.kind.isDispatched = true ∧ call.method = s ∧ ¬ Resolves p I s

theorem resolves_append {xs ys : List String} {s : MethodRef} :
    Resolves p {c | c ∈ xs ++ ys} s ↔ Resolves p {c | c ∈ xs} s ∨ Resolves p {c | c ∈ ys} s := by
  simp only [Resolves, Set.mem_ofPred_eq, List.mem_append, or_and_right, exists_or]

/-- A site counts the calls that it finds, and finds one if the classes it has not looked at
resolve its signature. -/
theorem targets_catchUp (hp : p.SuperAcyclic) {classes : List String} {site : Site}
    {y : Site × List (MethodRef × MethodRef)} (h : site.catchUp p classes = .ok y) :
    0 < y.1.targets ↔
      0 < site.targets ∨ Resolves p {c | c ∈ classes.drop site.seen} site.signature := by
  obtain ⟨y', h', hcaught⟩ := exists_catchUp hp classes site
  cases h.symm.trans h'
  have hcount : y.1.targets = site.targets + y.2.length := by
    obtain ⟨found, -, h⟩ := exists_of_bind_ok h
    cases h
    simp
  have hfound : 0 < y.2.length ↔ Resolves p {c | c ∈ classes.drop site.seen} site.signature := by
    rw [List.length_pos_iff_exists_mem]
    constructor
    · rintro ⟨e, he⟩
      obtain ⟨-, c, hc, hadmits, ht⟩ := (hcaught.links e).mp he
      obtain ⟨hconcrete, hbelow⟩ := Bool.and_eq_true_iff.mp hadmits
      exact ⟨c, hc, hconcrete, hbelow, e.2, ht⟩
    · rintro ⟨c, hc, hconcrete, hbelow, t, ht⟩
      exact ⟨(site.caller, t), (hcaught.links _).mpr
        ⟨rfl, c, hc, Bool.and_eq_true_iff.mpr ⟨hconcrete, hbelow⟩, ht⟩⟩
  rw [hcount, ← hfound]
  omega

/-- Every site has a target exactly if the classes that it has looked at resolve its signature. -/
def Counted (p : Program) (state : State) : Prop :=
  ∀ site ∈ state.sites,
    (0 < site.targets ↔ Resolves p {c | c ∈ state.instantiated.take site.seen} site.signature)

theorem Counted.visit {state : State} {P : Set MethodRef} {E : Set (MethodRef × MethodRef)}
    {m : MethodRef} {v : Visit State} (h : Counted p state) (hnoted : Noted p state P E)
    (hv : (strategy p).visit state m = .ok v) : Counted p v.state := by
  cases hv
  have hw := walked_foldl m (p.calls m) ⟨state, [], []⟩
  intro site hsite
  rw [hw.sites] at hsite
  rcases List.mem_append.mp hsite with hsite | hsite
  · obtain ⟨new, hnew⟩ := hw.grows
    rw [← hnew, List.take_append_of_le_length (hnoted.seen site hsite)]
    exact h site hsite
  · obtain ⟨call, -, rfl⟩ := List.mem_map.mp hsite
    simp [Resolves]

theorem exists_catchUp_of_resolve {state : State} {number : Nat} {r : Resolution State}
    (h : (strategy p).resolve number state = .ok r) :
    r.state.instantiated = state.instantiated ∧ ∀ site ∈ r.state.sites, ∃ old ∈ state.sites,
      ∃ links, old.catchUp p state.instantiated = .ok (site, links) := by
  obtain ⟨resolved, hresolved, h⟩ := exists_of_bind_ok h
  cases h
  refine ⟨rfl, fun site hsite => ?_⟩
  obtain ⟨y, hy, rfl⟩ := List.mem_map.mp hsite
  obtain ⟨old, hold, hcatch⟩ := mem_of_mapM_ok hresolved hy
  exact ⟨old, hold, y.2, hcatch⟩

/-- Once all sites have caught up, they have a target if any class that is known gives them one. -/
theorem Counted.resolve (hp : p.SuperAcyclic) {state : State} {number : Nat} {r : Resolution State}
    (h : Counted p state) (hr : (strategy p).resolve number state = .ok r) :
    ∀ site ∈ r.state.sites, site.seen = r.state.instantiated.length ∧
      (0 < site.targets ↔ Resolves p {c | c ∈ r.state.instantiated} site.signature) := by
  obtain ⟨hinstantiated, hsites⟩ := exists_catchUp_of_resolve hr
  intro site hsite
  obtain ⟨old, hold, links, hcatch⟩ := hsites site hsite
  obtain ⟨y, hcatch', hcaught⟩ := exists_catchUp hp state.instantiated old
  cases hcatch.symm.trans hcatch'
  rw [hinstantiated]
  refine ⟨hcaught.seen, ?_⟩
  rw [targets_catchUp hp hcatch, h old hold, hcaught.signature, ← resolves_append,
    List.take_append_drop]

theorem followsCounted (hp : p.SuperAcyclic) :
    (strategy p).Follows (rule p) (fun state P E => Noted p state P E ∧ Counted p state) := by
  refine (follows hp).and (fun site hsite => absurd hsite List.not_mem_nil)
    (fun hnoted h hv => h.visit hnoted hv) (fun _ h hr site hsite => ?_)
  obtain ⟨hseen, htargets⟩ := h.resolve hp hr site hsite
  rw [htargets, hseen, List.take_length]

theorem mem_unresolved {state : State} {m s : MethodRef} :
    ⟨m, s⟩ ∈ state.unresolved ↔
      ∃ site ∈ state.sites, site.caller = m ∧ site.signature = s ∧ site.targets = 0 := by
  simp only [State.unresolved, List.mem_map, List.mem_filter, UnresolvedCall.mk.injEq,
    beq_iff_eq, and_assoc]
  exact exists_congr fun site => and_congr_right fun _ => by rw [and_comm, and_assoc]

theorem exists_of_run {told : Told Run} (h : run p = .ok told) :
    ∃ done, analyze p (strategy p) = .ok done ∧ told.result.graph = done.traversal.graph ∧
      told.result.warnings = Ordered.ofList done.state.unresolved := by
  obtain ⟨done, hdone, h⟩ := exists_of_bind_ok h
  cases h
  exact ⟨done, hdone, rfl, rfl⟩

theorem mem_warnings_iff (hp : p.SuperAcyclic) {told : Told Run} (h : run p = .ok told)
    {m s : MethodRef} :
    ⟨m, s⟩ ∈ told.result.warnings ↔ m ∈ told.result.graph.nodeSet ∧ p.hasBody m = true ∧
      Unresolved p (Instantiated p told.result.graph.nodeSet) m s := by
  obtain ⟨done, hdone, hgraph, hwarnings⟩ := exists_of_run h
  obtain ⟨done₁, told₁, hdone₁, -, -, hlive, -⟩ := exists_done hp
  cases hdone.symm.trans hdone₁
  obtain ⟨done₂, hdone₂, -, ⟨hnoted, -⟩, -⟩ := exists_analyze (followsCounted hp)
  cases hdone.symm.trans hdone₂
  obtain ⟨number, state, E, r, ⟨-, hcounted⟩, hr, hstate⟩ :=
    exists_last_resolve (followsCounted hp) hdone
  have hsites := hcounted.resolve hp hr
  rw [hstate, hlive, ← hgraph] at hsites
  have hkept := hnoted.sites m s
  rw [← hgraph] at hkept
  rw [hwarnings, Ordered.mem_ofList, mem_unresolved]
  constructor
  · rintro ⟨site, hsite, rfl, rfl, hnone⟩
    obtain ⟨⟨hm, hb⟩, call, hcall, hd, hs⟩ := hkept.mp ⟨site, hsite, rfl, rfl⟩
    refine ⟨hm, hb, call, hcall, hd, hs, fun hres => ?_⟩
    have hsome := (hsites site hsite).2.mpr hres
    omega
  · rintro ⟨hm, hb, call, hcall, hd, hs, hnone⟩
    obtain ⟨site, hsite, rfl, rfl⟩ := hkept.mpr ⟨⟨hm, hb⟩, call, hcall, hd, hs⟩
    have hzero := mt (hsites site hsite).2.mp hnone
    exact ⟨site, hsite, rfl, rfl, by omega⟩

end Instantiation

/-! ## By the classes of a receiver -/

namespace ValueFlow

variable {allows : MethodRef → MethodRef → Bool}

/-- On an object of one of these classes dispatch finds a method that is allowed. -/
def Resolves (p : Program) (allows : MethodRef → MethodRef → Bool) (C : Set String)
    (m s : MethodRef) : Prop :=
  ∃ c ∈ C, p.isSubtype c s.owner = true ∧ ∃ t, p.dispatch c s = .ok (some t) ∧ allows m t = true

/-- A dispatched call of a method to this signature has no receiver, or finds no method that is
allowed on the objects in its receiver. -/
def Unresolved (p : Program) (allows : MethodRef → MethodRef → Bool) (tags : FlowNode → Set String)
    (m s : MethodRef) : Prop :=
  ∃ call ∈ p.calls m, call.kind.isDispatched = true ∧ call.method = s ∧
    ∀ r, call.receiver? = some r → ¬ Resolves p allows (tags (.of m r)) m s

theorem Resolves.mono {C D : Set String} {m s : MethodRef} (hC : C ⊆ D)
    (h : Resolves p allows C m s) : Resolves p allows D m s := by
  obtain ⟨c, hc, hfound⟩ := h
  exact ⟨c, hC hc, hfound⟩

/-- A site is marked once the classes of its receiver resolve its signature. -/
theorem resolved_resolve (hp : p.SuperAcyclic) {flow : FlowGraph} {site : Site}
    {y : Site × List (MethodRef × MethodRef)} (h : site.resolve p allows flow = .ok y) :
    y.1.resolved = true ↔ site.resolved = true ∨ ∃ n, site.receiver = some n ∧
      Resolves p allows {c | c ∈ flow.tags n} site.caller site.signature := by
  obtain ⟨y', h', hres⟩ := exists_resolved hp allows flow site
  cases h.symm.trans h'
  have hmark : y.1.resolved = (site.resolved || !y.2.isEmpty) := by
    obtain ⟨found, -, h⟩ := exists_of_bind_ok h
    cases h
    simp
  have hfound : (∃ e, e ∈ y.2) ↔ ∃ n, site.receiver = some n ∧
      Resolves p allows {c | c ∈ flow.tags n} site.caller site.signature := by
    constructor
    · rintro ⟨e, he⟩
      obtain ⟨hcaller, hallowed, n, hn, c, hc, hbelow, ht⟩ := (hres.links e).mp he
      exact ⟨n, hn, c, hc, hbelow, e.2, ht, hcaller ▸ hallowed⟩
    · rintro ⟨n, hn, c, hc, hbelow, t, ht, hallowed⟩
      exact ⟨(site.caller, t), (hres.links _).mpr ⟨rfl, hallowed, n, hn, c, hc, hbelow, ht⟩⟩
  rw [hmark, ← hfound, Bool.or_eq_true, Bool.not_eq_true', List.isEmpty_eq_false_iff_exists_mem]

/-- A site that is marked is resolved by the classes that flow into its receiver. -/
def Marked (p : Program) (allows : MethodRef → MethodRef → Bool) (state : State)
    (P : Set MethodRef) : Prop :=
  ∀ site ∈ state.sites, site.resolved = true → ∃ n, site.receiver = some n ∧
    Resolves p allows {c | FlowsInto p P c n} site.caller site.signature

theorem Marked.visit {state : State} {P : Set MethodRef} {m : MethodRef} {v : Visit State}
    (h : Marked p allows state P) (hv : (strategy p allows).visit state m = .ok v) :
    Marked p allows v.state (insert m P) := by
  obtain ⟨flow, -, hv⟩ := exists_of_bind_ok hv
  cases hv
  intro site hsite hmark
  rcases List.mem_append.mp hsite with hsite | hsite
  · obtain ⟨n, hn, hres⟩ := h site hsite hmark
    exact ⟨n, hn, hres.mono (fun c hc => FlowsInto.mono (Set.subset_insert m P) hc)⟩
  · obtain ⟨call, -, rfl⟩ := List.mem_map.mp hsite
    cases hmark

theorem exists_resolve_of_resolve {state : State} {number : Nat} {r : Resolution State}
    (h : (strategy p allows).resolve number state = .ok r) :
    r.state.flow = state.flow.propagate ∧ ∀ site ∈ r.state.sites, ∃ old ∈ state.sites,
      ∃ links, old.resolve p allows state.flow.propagate = .ok (site, links) := by
  obtain ⟨resolved, hresolved, h⟩ := exists_of_bind_ok h
  cases h
  refine ⟨rfl, fun site hsite => ?_⟩
  obtain ⟨y, hy, rfl⟩ := List.mem_map.mp hsite
  obtain ⟨old, hold, hresolve⟩ := mem_of_mapM_ok hresolved hy
  exact ⟨old, hold, y.2, hresolve⟩

/-- After a resolution exactly those sites are marked whose receivers have a class that resolves
them. Old marks are right since no class ever leaves a receiver. -/
theorem Marked.resolve (hp : p.SuperAcyclic) {state : State} {P : Set MethodRef} {number : Nat}
    {r : Resolution State} (hflow : state.flow.Holds (Contributed p P))
    (h : Marked p allows state P) (hr : (strategy p allows).resolve number state = .ok r) :
    ∀ site ∈ r.state.sites, (site.resolved = true ↔ ∃ n, site.receiver = some n ∧
      Resolves p allows {c | FlowsInto p P c n} site.caller site.signature) := by
  obtain ⟨-, hsites⟩ := exists_resolve_of_resolve hr
  intro site hsite
  obtain ⟨old, hold, links, hresolve⟩ := hsites site hsite
  obtain ⟨y, hresolve', hres⟩ := exists_resolved hp allows state.flow.propagate old
  cases hresolve.symm.trans hresolve'
  rw [resolved_resolve hp hresolve, hres.caller, hres.signature, hres.receiver]
  simp only [mem_tags_iff_flowsInto hflow]
  exact ⟨fun hmark => hmark.elim (h old hold) id, .inr⟩

theorem followsMarked (hp : p.SuperAcyclic) (allows : MethodRef → MethodRef → Bool) :
    (strategy p allows).Follows (rule p allows)
      (fun state P E => Noted p allows state P E ∧ Marked p allows state P) :=
  (follows hp allows).and (fun _ hsite => absurd hsite List.not_mem_nil)
    (fun _ h hv => h.visit hv)
    (fun hnoted h hr site hsite => (h.resolve hp hnoted.flow hr site hsite).mp)

theorem mem_unresolved {state : State} {m s : MethodRef} :
    ⟨m, s⟩ ∈ state.unresolved ↔
      ∃ site ∈ state.sites, site.caller = m ∧ site.signature = s ∧ site.resolved = false := by
  simp only [State.unresolved, List.mem_map, List.mem_filter, UnresolvedCall.mk.injEq,
    Bool.not_eq_true', and_assoc]
  exact exists_congr fun site => and_congr_right fun _ => by rw [and_comm, and_assoc]

theorem exists_of_run {told : Told Run} (h : run p = .ok told) :
    ∃ hierarchy done, Hierarchy.run p = .ok hierarchy ∧
      analyze p (strategy p hierarchy.result.graph.hasEdge) = .ok done ∧
      told.result.graph = done.traversal.graph ∧
      told.result.warnings = Ordered.ofList done.state.unresolved := by
  obtain ⟨hierarchy, hhierarchy, h⟩ := exists_of_bind_ok h
  obtain ⟨done, hdone, h⟩ := exists_of_bind_ok h
  cases h
  exact ⟨hierarchy, done, hhierarchy, hdone, rfl, rfl⟩

/-- At the end the tags of a place are the classes that flow into it. -/
theorem mem_tags_of_analyze (hp : p.SuperAcyclic) {done : Progress State}
    (h : analyze p (strategy p allows) = .ok done) {c : String} {n : FlowNode} :
    c ∈ done.state.flow.tags n ↔ FlowsInto p done.traversal.graph.nodeSet c n := by
  obtain ⟨number, state, E, r, hnoted, hr, hstate⟩ := exists_last_resolve (follows hp allows) h
  obtain ⟨hflow, -⟩ := exists_resolve_of_resolve hr
  rw [← hstate, hflow, mem_tags_iff_flowsInto hnoted.flow]
  exact ⟨fun hc => hc.mono (fun m hm => hm.1), flowsInto_bodied⟩

theorem mem_warnings_iff (hp : p.SuperAcyclic) {hierarchy told : Told Run}
    (hh : Hierarchy.run p = .ok hierarchy) (h : run p = .ok told) {m s : MethodRef} :
    ⟨m, s⟩ ∈ told.result.warnings ↔ m ∈ told.result.graph.nodeSet ∧ p.hasBody m = true ∧
      Unresolved p hierarchy.result.graph.hasEdge
        (fun n => {c | FlowsInto p told.result.graph.nodeSet c n}) m s := by
  obtain ⟨hierarchy', done, hh', hdone, hgraph, hwarnings⟩ := exists_of_run h
  cases hh.symm.trans hh'
  obtain ⟨done', hdone', -, ⟨hnoted, -⟩, -⟩ := exists_analyze (followsMarked hp _)
  cases hdone.symm.trans hdone'
  obtain ⟨number, state, E, r, ⟨hbefore, hmarked⟩, hr, hstate⟩ :=
    exists_last_resolve (followsMarked hp _) hdone
  have hsites := hmarked.resolve hp hbefore.flow hr
  have hflows : ∀ n, {c | FlowsInto p {x ∈ told.result.graph.nodeSet | p.hasBody x = true} c n} =
      {c | FlowsInto p told.result.graph.nodeSet c n} := fun n =>
    Set.ext fun c => ⟨fun hc => hc.mono (fun m hm => hm.1), flowsInto_bodied⟩
  rw [hstate, ← hgraph] at hsites
  simp only [hflows] at hsites
  have hkept := hnoted.sites m s
  rw [← hgraph] at hkept
  rw [hwarnings, Ordered.mem_ofList, mem_unresolved]
  constructor
  · rintro ⟨site, hsite, rfl, rfl, hnone⟩
    obtain ⟨⟨hm, hb⟩, call, hcall, hd, hs, hr⟩ :=
      (hkept site.receiver).mp ⟨site, hsite, rfl, rfl, rfl⟩
    refine ⟨hm, hb, call, hcall, hd, hs, fun r hreceiver hres => ?_⟩
    rw [hreceiver] at hr
    have hmark := (hsites site hsite).mpr ⟨_, hr.symm, hres⟩
    rw [hnone] at hmark
    cases hmark
  · rintro ⟨hm, hb, call, hcall, hd, hs, hnone⟩
    obtain ⟨site, hsite, rfl, rfl, hr⟩ := (hkept _).mpr ⟨⟨hm, hb⟩, call, hcall, hd, hs, rfl⟩
    refine ⟨site, hsite, rfl, rfl, Bool.eq_false_iff.mpr fun hmark => ?_⟩
    obtain ⟨n, hn, hres⟩ := (hsites site hsite).mp hmark
    rw [hr] at hn
    obtain ⟨r, hreceiver, rfl⟩ := Option.map_eq_some_iff.mp hn
    exact hnone r hreceiver hres

end ValueFlow

/-! ## Exact warnings -/

/-- Without a superclass cycle all analyses have results, and each warns of the unresolved calls of
its methods with code, and of no others: of calls without targets, of dispatched calls for which no
instantiated class gives a method, and of those for which no class in the receiver gives a method
that the hierarchy allows. Classes and receivers are those at the end of the analysis. -/
theorem warnings_exact (p : Program) (hp : p.SuperAcyclic) :
    ∃ hierarchy rapidDone rapid flowDone flow, Hierarchy.run p = .ok hierarchy ∧
      analyze p (Instantiation.strategy p) = .ok rapidDone ∧ Instantiation.run p = .ok rapid ∧
      analyze p (ValueFlow.strategy p hierarchy.result.graph.hasEdge) = .ok flowDone ∧
      ValueFlow.run p = .ok flow ∧
      (∀ m s, ⟨m, s⟩ ∈ hierarchy.result.warnings ↔
        m ∈ hierarchy.result.graph.nodeSet ∧ p.hasBody m = true ∧ Hierarchy.Unresolved p m s) ∧
      (∀ m s, ⟨m, s⟩ ∈ rapid.result.warnings ↔
        m ∈ rapid.result.graph.nodeSet ∧ p.hasBody m = true ∧
          Instantiation.Unresolved p {c | c ∈ rapidDone.state.instantiated} m s) ∧
      ∀ m s, ⟨m, s⟩ ∈ flow.result.warnings ↔
        m ∈ flow.result.graph.nodeSet ∧ p.hasBody m = true ∧
          ValueFlow.Unresolved p hierarchy.result.graph.hasEdge
            (fun n => {c | c ∈ flowDone.state.flow.tags n}) m s := by
  obtain ⟨rapidDone, rapid, hrapidDone, hrapid, hgraph, hlive, -⟩ := Instantiation.exists_done hp
  obtain ⟨_, flow, -, hflow, -, -⟩ := ValueFlow.exists_done hp
  obtain ⟨hierarchy, flowDone, hhierarchy, hflowDone, hflowGraph, -⟩ := ValueFlow.exists_of_run hflow
  refine ⟨hierarchy, rapidDone, rapid, flowDone, flow, hhierarchy, hrapidDone, hrapid, hflowDone,
    hflow, fun m s => Hierarchy.mem_warnings_iff hp hhierarchy, fun m s => ?_, fun m s => ?_⟩
  · rw [hlive, ← hgraph]
    exact Instantiation.mem_warnings_iff hp hrapid
  · simp only [ValueFlow.mem_tags_of_analyze hp hflowDone, ← hflowGraph]
    exact ValueFlow.mem_warnings_iff hp hhierarchy hflow

/-- A dispatched call that has no receiver. -/
def strayDraw : Call := { kind := .virtual, method := ⟨"Dot", "draw", "()V"⟩ }

/-- What stands between the creation of an object and the call that draws it: its constructor call,
and a call of the drawing method without a receiver. -/
def strayBody : List Statement := [.invoke lateNew, .invoke strayDraw]

/-- Two calls of one method have the same signature. For the variable type analysis only one of them
resolves, so it warns; the others resolve both. -/
theorem warnings_exact_stray :
    (creationProgram strayBody).SuperAcyclic ∧
      ∃ hierarchy rapid flow, Hierarchy.run (creationProgram strayBody) = .ok hierarchy ∧
        Instantiation.run (creationProgram strayBody) = .ok rapid ∧
        ValueFlow.run (creationProgram strayBody) = .ok flow ∧
        ⟨⟨"Main", "main", "()V"⟩, ⟨"Dot", "draw", "()V"⟩⟩ ∉ hierarchy.result.warnings ∧
        ⟨⟨"Main", "main", "()V"⟩, ⟨"Dot", "draw", "()V"⟩⟩ ∉ rapid.result.warnings ∧
        ⟨⟨"Main", "main", "()V"⟩, ⟨"Dot", "draw", "()V"⟩⟩ ∈ flow.result.warnings := by
  have hp := superAcyclic_creation strayBody
  have hbelow : (creationProgram strayBody).isSubtype "Dot" "Dot" = true :=
    Program.isSubtype_iff.mpr (.refl _)
  obtain ⟨hierarchy, rapidDone, rapid, flowDone, flow, hhierarchy, hrapidDone, hrapid, -, hflow,
    hunresolved, hunresolved', hunresolved''⟩ := warnings_exact _ hp
  refine ⟨hp, hierarchy, rapid, flow, hhierarchy, hrapid, hflow, ?_, ?_, ?_⟩
  · rw [hunresolved]
    rintro ⟨-, -, call, -, hs, hnone⟩
    obtain ⟨-, -, hruns⟩ := (Program.targets_eq_nil_iff hp).mp hnone
    rw [hs] at hruns
    exact hruns _ ⟨"Dot", hbelow, isConcrete_creation _, dispatch_creation _⟩
  · rw [hunresolved']
    rintro ⟨-, -, call, -, -, -, hnone⟩
    obtain ⟨done, told, hdone, -, -, hlive, hclosed, -⟩ := Instantiation.exists_done hp
    cases hrapidDone.symm.trans hdone
    have hmain := hclosed.entry ⟨"Main", "main", "()V"⟩ (List.mem_singleton_self _)
      (hasBody_creation _)
    rw [hlive] at hnone
    exact hnone ⟨"Dot", ⟨_, hmain, hasBody_creation _, lateNew, by decide, rfl, rfl, by decide, rfl⟩,
      isConcrete_creation _, hbelow, _, dispatch_creation _⟩
  · rw [hunresolved'']
    obtain ⟨_, told, -, hrun, -, hclosed, -⟩ := ValueFlow.exists_done hp
    cases hflow.symm.trans hrun
    refine ⟨hclosed.entry _ (List.mem_singleton_self _) (hasBody_creation _), hasBody_creation _,
      strayDraw, by decide, rfl, rfl, ?_⟩
    rintro r ⟨⟩

end Devirt
