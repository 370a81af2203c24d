import Devirt.Analysis.Instantiation
import Devirt.Proofs.Dispatch
import Devirt.Proofs.Saturation

/-!
# What the rapid type analysis finds

* `Instantiated p N` : the classes that the methods of `N` create objects of;
* `Calls p I m` : the methods that `m` calls when the classes `I` have objects;
* `Noted` : what the state of the analysis knows of the methods taken. A dispatched call has got the
  targets of all classes below its mark (`Noted.caught_up`), and the classes only grow at their end,
  so a later look at the classes past the mark is enough;
* `exists_done`, `instantiation_isLeast` : methods, calls and classes are the least closed ones.
-/

namespace Devirt

theorem Call.isInstantiation_iff {call : Call} :
    call.isInstantiation = true ↔
      call.kind = .special ∧ call.method.name = "<init>" ∧ call.receiver ≠ some .self := by
  simp [isInstantiation, MethodRef.isConstructor, and_assoc]

theorem Call.not_isDispatched {call : Call} (h : call.isInstantiation = true) :
    call.kind.isDispatched = false := by
  rw [(isInstantiation_iff.mp h).1]
  rfl

namespace Instantiation

/-! ## The rule -/

/-- The classes whose constructors the methods of a set call on new objects. -/
def Instantiated (p : Program) (N : Set MethodRef) : Set String :=
  {c | ∃ m ∈ N, p.hasBody m = true ∧ ∃ call ∈ p.calls m, call.kind = .special ∧
    call.method.name = "<init>" ∧ call.receiver ≠ some .self ∧ c = call.method.owner}

/-- The methods that a method calls when these classes have objects. -/
inductive Calls (p : Program) (I : Set String) (m : MethodRef) : MethodRef → Prop where
  | direct {call : Call} (mem : call ∈ p.calls m) (kind : call.kind.isDispatched = false) :
    Calls p I m call.method
  | dispatched {call : Call} {c : String} {t : MethodRef} (mem : call ∈ p.calls m)
    (kind : call.kind.isDispatched = true) (live : c ∈ I) (concrete : p.isConcrete c = true)
    (below : p.isSubtype c call.method.owner = true)
    (found : p.dispatch c call.method = .ok (some t)) : Calls p I m t

theorem Calls.mono {p : Program} {I I' : Set String} {m t : MethodRef} (hI : I ⊆ I')
    (h : Calls p I m t) : Calls p I' m t := by
  cases h with
  | direct mem kind => exact .direct mem kind
  | dispatched mem kind live concrete below found =>
    exact .dispatched mem kind (hI live) concrete below found

theorem instantiated_mono {p : Program} {N N' : Set MethodRef} (h : N ⊆ N') :
    Instantiated p N ⊆ Instantiated p N' := fun _ ⟨m, hm, hc⟩ => ⟨m, h hm, hc⟩

/-- The calls of methods, where the classes are those that reached methods create objects of. -/
def rule (p : Program) : CallRule p where
  calls N := Calls p (Instantiated p N)
  mono h hc := hc.mono (instantiated_mono h)
  bodied h := h.mono (by
    rintro c ⟨m, hm, hb, hcall⟩
    exact ⟨m, ⟨hm, hb⟩, hb, hcall⟩)

theorem mem_instantiated_insert {p : Program} {P : Set MethodRef} {m : MethodRef} {c : String}
    (hb : p.hasBody m = true) :
    c ∈ Instantiated p (insert m P) ↔
      c ∈ Instantiated p P ∨
        ∃ call ∈ p.calls m, call.isInstantiation = true ∧ c = call.method.owner := by
  constructor
  · rintro ⟨x, rfl | hx, hxb, call, hmem, hkind, hname, hreceiver, howner⟩
    · exact .inr ⟨call, hmem, Call.isInstantiation_iff.mpr ⟨hkind, hname, hreceiver⟩, howner⟩
    · exact .inl ⟨x, hx, hxb, call, hmem, hkind, hname, hreceiver, howner⟩
  · rintro (h | ⟨call, hmem, hnew, howner⟩)
    · exact instantiated_mono (Set.subset_insert m P) h
    · obtain ⟨hkind, hname, hreceiver⟩ := Call.isInstantiation_iff.mp hnew
      exact ⟨m, Set.mem_insert m P, hb, call, hmem, hkind, hname, hreceiver, howner⟩

/-! ## Walks -/

/-- What a walk through calls of a method adds: the methods that calls without dispatch name, the
dispatched calls, and the classes of new objects behind those that were there. -/
structure Walked (m : MethodRef) (calls : List Call) (v w : Visit State) : Prop where
  callees : ∀ t, t ∈ w.callees ↔
    t ∈ v.callees ∨ ∃ call ∈ calls, call.kind.isDispatched = false ∧ t = call.method
  sites : w.state.sites = v.state.sites ++
    (calls.filter (·.kind.isDispatched)).map (fun call => { caller := m, signature := call.method })
  grows : v.state.instantiated <+: w.state.instantiated
  instantiated : ∀ c, c ∈ w.state.instantiated ↔ c ∈ v.state.instantiated ∨
    ∃ call ∈ calls, call.isInstantiation = true ∧ c = call.method.owner

theorem noteCall_dispatched {m : MethodRef} {state : State} {call : Call}
    (h : call.kind.isDispatched = true) :
    noteCall m state call =
      ({ state with sites := state.sites ++ [{ caller := m, signature := call.method }] }, []) :=
  if_pos h

theorem noteCall_new {m : MethodRef} {state : State} {call : Call}
    (h : call.isInstantiation = true) (hfresh : call.method.owner ∉ state.instantiated) :
    noteCall m state call =
      ({ state with instantiated := state.instantiated ++ [call.method.owner] },
        [.classInstantiated call.method.owner m]) := by
  simp [noteCall, Call.not_isDispatched h, h, hfresh]

theorem noteCall_known {m : MethodRef} {state : State} {call : Call}
    (h : call.kind.isDispatched = false)
    (hknown : call.isInstantiation = true → call.method.owner ∈ state.instantiated) :
    noteCall m state call = (state, []) := by
  simp only [noteCall, h, Bool.false_eq_true, if_false]
  exact if_neg (by simpa using hknown)

theorem walked_visitCall (m : MethodRef) (v : Visit State) (call : Call) :
    Walked m [call] v (visitCall m v call) := by
  by_cases hd : call.kind.isDispatched = true
  · have hnew : call.isInstantiation = false := by
      by_contra hn
      simp [Call.not_isDispatched (Bool.eq_true_of_not_eq_false hn)] at hd
    constructor <;> simp [visitCall, noteCall_dispatched hd, hd, hnew]
  · simp only [Bool.not_eq_true] at hd
    by_cases hknown : call.isInstantiation = true → call.method.owner ∈ v.state.instantiated
    · constructor
      · simp [visitCall, noteCall_known hd hknown, hd]
      · simp [visitCall, noteCall_known hd hknown, hd]
      · simp [visitCall, noteCall_known hd hknown]
      · intro c
        simp only [visitCall, noteCall_known hd hknown, List.mem_singleton, exists_eq_left]
        exact ⟨.inl, fun h => h.elim id (fun ⟨hn, hc⟩ => hc ▸ hknown hn)⟩
    · obtain ⟨hnew, hfresh⟩ := Classical.not_imp.mp hknown
      constructor <;> simp [visitCall, noteCall_new hnew hfresh, hd, hnew]

theorem Walked.trans {m : MethodRef} {xs ys : List Call} {u v w : Visit State}
    (h₁ : Walked m xs u v) (h₂ : Walked m ys v w) : Walked m (xs ++ ys) u w where
  callees t := by
    simp only [h₂.callees, h₁.callees, List.mem_append, or_assoc, or_and_right, exists_or]
  sites := by
    rw [h₂.sites, h₁.sites, List.filter_append, List.map_append, List.append_assoc]
  grows := h₁.grows.trans h₂.grows
  instantiated c := by
    simp only [h₂.instantiated, h₁.instantiated, List.mem_append, or_assoc, or_and_right, exists_or]

theorem walked_foldl (m : MethodRef) (calls : List Call) (v : Visit State) :
    Walked m calls v (calls.foldl (visitCall m) v) := by
  induction calls generalizing v with
  | nil => constructor <;> simp
  | cons call rest ih => exact (walked_visitCall m v call).trans (ih _)

/-! ## Dispatched calls -/

/-- A site that has looked at all classes, and the calls that those past its old mark gave. -/
structure CaughtUp (p : Program) (classes : List String) (site : Site)
    (y : Site × List (MethodRef × MethodRef)) : Prop where
  caller : y.1.caller = site.caller
  signature : y.1.signature = site.signature
  seen : y.1.seen = classes.length
  links : ∀ e, e ∈ y.2 ↔ e.1 = site.caller ∧ ∃ c ∈ classes.drop site.seen,
    admits p site.signature c = true ∧ p.dispatch c site.signature = .ok (some e.2)

theorem exists_catchUp {p : Program} (h : p.SuperAcyclic) (classes : List String) (site : Site) :
    ∃ y, site.catchUp p classes = .ok y ∧ CaughtUp p classes site y := by
  obtain ⟨found, hfound, hmem⟩ := Program.exists_mapM_dispatch h site.signature
    ((classes.drop site.seen).filter (admits p site.signature))
  refine ⟨({ site with seen := classes.length, targets := site.targets + (found.filterMap id).length },
    (found.filterMap id).map (fun m => (site.caller, m))), ?_, rfl, rfl, rfl, ?_⟩
  · rw [Site.catchUp, resolveAgainst, hfound]
    rfl
  · rintro ⟨a, b⟩
    simp only [List.mem_map, Prod.mk.injEq, exists_eq_right_right, hmem, List.mem_filter]
    constructor
    · rintro ⟨⟨c, ⟨hc, hadmits⟩, hd⟩, rfl⟩
      exact ⟨rfl, c, hc, hadmits, hd⟩
    · rintro ⟨rfl, c, hc, hadmits, hd⟩
      exact ⟨⟨c, ⟨hc, hadmits⟩, hd⟩, rfl⟩

/-! ## What the state knows -/

/-- The state knows the classes and the dispatched calls of the methods taken; their other calls have
been added, and those that dispatch finds on classes below the mark of a site. -/
structure Noted (p : Program) (state : State) (P : Set MethodRef)
    (E : Set (MethodRef × MethodRef)) : Prop where
  instantiated : ∀ c, c ∈ state.instantiated ↔ c ∈ Instantiated p P
  sites : ∀ m s, (∃ site ∈ state.sites, site.caller = m ∧ site.signature = s) ↔
    m ∈ P ∧ ∃ call ∈ p.calls m, call.kind.isDispatched = true ∧ call.method = s
  direct : ∀ m ∈ P, ∀ call ∈ p.calls m, call.kind.isDispatched = false → (m, call.method) ∈ E
  seen : ∀ site ∈ state.sites, site.seen ≤ state.instantiated.length
  caught_up : ∀ site ∈ state.sites, ∀ c ∈ state.instantiated.take site.seen,
    admits p site.signature c = true → ∀ t, p.dispatch c site.signature = .ok (some t) →
      (site.caller, t) ∈ E

theorem noted_initial (p : Program) : Noted p {} ∅ ∅ := by
  constructor <;> simp [Instantiated]

variable {p : Program} {state : State} {P : Set MethodRef} {E : Set (MethodRef × MethodRef)}

theorem Noted.visit {m : MethodRef} {w : Visit State} (h : Noted p state P E)
    (hb : p.hasBody m = true) (hw : Walked m (p.calls m) ⟨state, [], []⟩ w) :
    Noted p w.state (insert m P) (E ∪ {e | e.1 = m ∧ e.2 ∈ w.callees}) where
  instantiated c := by
    rw [hw.instantiated, h.instantiated, mem_instantiated_insert hb]
  sites x s := by
    rw [hw.sites]
    exact exists_kept_insert (R := fun site : Site => site.caller = x ∧ site.signature = s)
      (Q := fun _ call => call.method = s) _ (h.sites x s) (fun call => Iff.rfl)
  direct x hx call hcall hd := by
    rcases hx with rfl | hx
    · exact .inr ⟨rfl, (hw.callees _).mpr (.inr ⟨call, hcall, hd, rfl⟩)⟩
    · exact .inl (h.direct x hx call hcall hd)
  seen site hsite := by
    rw [hw.sites] at hsite
    rcases List.mem_append.mp hsite with hsite | hsite
    · exact (h.seen site hsite).trans hw.grows.length_le
    · obtain ⟨call, -, rfl⟩ := List.mem_map.mp hsite
      exact Nat.zero_le _
  caught_up site hsite c hc hadmits t ht := by
    rw [hw.sites] at hsite
    rcases List.mem_append.mp hsite with hsite | hsite
    · -- the mark of an old site lies in front of the classes that the walk has added
      obtain ⟨new, hnew⟩ := hw.grows
      rw [← hnew, List.take_append_of_le_length (h.seen site hsite)] at hc
      exact .inl (h.caught_up site hsite c hc hadmits t ht)
    · obtain ⟨call, -, rfl⟩ := List.mem_map.mp hsite
      simp at hc

/-! ## Resolutions -/

theorem exists_resolve (hp : p.SuperAcyclic) (number : Nat) (state : State) :
    ∃ resolved : List (Site × List (MethodRef × MethodRef)),
      (strategy p).resolve number state =
        .ok ⟨{ state with sites := resolved.map (·.1) }, resolved.flatMap (·.2), []⟩ ∧
      (∀ y ∈ resolved, ∃ site ∈ state.sites, CaughtUp p state.instantiated site y) ∧
      ∀ site ∈ state.sites, ∃ y ∈ resolved, CaughtUp p state.instantiated site y := by
  obtain ⟨resolved, hresolved, hback, hforth⟩ :=
    exists_mapM_rel (fun site (_ : site ∈ state.sites) => exists_catchUp hp state.instantiated site)
  refine ⟨resolved, ?_, hback, hforth⟩
  simp only [strategy, hresolved]
  rfl

/-- A site has the targets of all classes, below its old mark from before and past it from now. -/
theorem CaughtUp.complete {site : Site} {y : Site × List (MethodRef × MethodRef)}
    (h : Noted p state P E) (hsite : site ∈ state.sites) (hy : CaughtUp p state.instantiated site y)
    {c : String} {t : MethodRef} (hc : c ∈ state.instantiated)
    (hadmits : admits p site.signature c = true)
    (ht : p.dispatch c site.signature = .ok (some t)) :
    (site.caller, t) ∈ E ∨ (site.caller, t) ∈ y.2 := by
  rw [← List.take_append_drop site.seen state.instantiated] at hc
  rcases List.mem_append.mp hc with hc | hc
  · exact .inl (h.caught_up site hsite c hc hadmits t ht)
  · exact .inr ((hy.links _).mpr ⟨rfl, c, hc, hadmits, ht⟩)

theorem Noted.resolve {resolved : List (Site × List (MethodRef × MethodRef))}
    (h : Noted p state P E)
    (hback : ∀ y ∈ resolved, ∃ site ∈ state.sites, CaughtUp p state.instantiated site y)
    (hforth : ∀ site ∈ state.sites, ∃ y ∈ resolved, CaughtUp p state.instantiated site y) :
    Noted p { state with sites := resolved.map (·.1) } P
      (E ∪ {e | e ∈ resolved.flatMap (·.2)}) where
  instantiated := h.instantiated
  sites m s := by
    rw [← h.sites]
    refine exists_kept_resolved hback hforth (fun site y hcaught => ?_)
    rw [hcaught.caller, hcaught.signature]
  direct m hm call hcall hd := .inl (h.direct m hm call hcall hd)
  seen _ hsite := by
    obtain ⟨y, hy, rfl⟩ := List.mem_map.mp hsite
    obtain ⟨site, -, hcaught⟩ := hback y hy
    exact hcaught.seen.le
  caught_up _ hsite c hc hadmits t ht := by
    obtain ⟨y, hy, rfl⟩ := List.mem_map.mp hsite
    obtain ⟨site, hsite, hcaught⟩ := hback y hy
    rw [hcaught.signature] at hadmits ht
    rw [hcaught.caller]
    have hadded := hcaught.complete h hsite (List.mem_of_mem_take hc) hadmits ht
    exact hadded.imp_right (fun he => List.mem_flatMap.mpr ⟨y, hy, he⟩)

theorem follows (hp : p.SuperAcyclic) : (strategy p).Follows (rule p) (Noted p) where
  initial := noted_initial p
  visit {state P E m} h hb := by
    have hw := walked_foldl m (p.calls m) ⟨state, [], []⟩
    refine ⟨_, rfl, fun t ht => ?_, h.visit hb hw⟩
    obtain ⟨call, hcall, hd, rfl⟩ := ((hw.callees t).mp ht).resolve_left (by simp)
    exact .direct hcall hd
  resolve {state P E} number h := by
    obtain ⟨resolved, hresolve, hback, hforth⟩ := exists_resolve hp number state
    refine ⟨_, hresolve, ?_, h.resolve hback hforth, ?_⟩
    · intro e he
      obtain ⟨y, hy, he⟩ := List.mem_flatMap.mp he
      obtain ⟨site, hsite, hcaught⟩ := hback y hy
      obtain ⟨hcaller, c, hc, hadmits, hd⟩ := (hcaught.links e).mp he
      obtain ⟨hm, call, hcall, hkind, hsig⟩ := (h.sites e.1 site.signature).mp
        ⟨site, hsite, hcaller.symm, rfl⟩
      rw [← hsig] at hadmits hd
      obtain ⟨hconcrete, hbelow⟩ := Bool.and_eq_true_iff.mp hadmits
      have hlive : c ∈ Instantiated p P := (h.instantiated c).mp (List.mem_of_mem_drop hc)
      exact ⟨hm, .dispatched hcall hkind hlive hconcrete hbelow hd⟩
    · intro m hm t ht
      cases ht with
      | direct mem kind => exact .inl (h.direct m hm _ mem kind)
      | @dispatched call c _ mem kind live concrete below found =>
        obtain ⟨site, hsite, rfl, hsig⟩ := (h.sites m call.method).mpr ⟨hm, call, mem, kind, rfl⟩
        obtain ⟨y, hy, hcaught⟩ := hforth site hsite
        have hadmits : admits p site.signature c = true := by
          rw [hsig]
          exact Bool.and_eq_true_iff.mpr ⟨concrete, below⟩
        have hadded := hcaught.complete h hsite ((h.instantiated c).mpr live) hadmits
          (hsig ▸ found)
        exact hadded.imp_right (fun he => List.mem_flatMap.mpr ⟨y, hy, he⟩)

/-! ## The result -/

/-- The analysis has a result: the least graph closed under the rule, together with the classes that
its methods create objects of. -/
theorem exists_done (hp : p.SuperAcyclic) :
    ∃ done told, analyze p (strategy p) = .ok done ∧ run p = .ok told ∧
      told.result.graph = done.traversal.graph ∧
      {c | c ∈ done.state.instantiated} = Instantiated p done.traversal.graph.nodeSet ∧
      IsLeast (rule p).closed (done.traversal.graph.nodeSet, done.traversal.graph.edgeSet) := by
  obtain ⟨done, hdone, -, hnoted, hleast⟩ := exists_analyze (follows hp)
  refine ⟨done, _, hdone, by rw [run, runBy, hdone]; rfl, rfl, ?_, hleast⟩
  ext c
  refine (hnoted.instantiated c).trans ⟨?_, ?_⟩
  · exact fun hc => instantiated_mono (fun m hm => hm.1) hc
  · rintro ⟨m, hm, hb, hcall⟩
    exact ⟨m, ⟨hm, hb⟩, hb, hcall⟩

theorem isLeast_of_run (hp : p.SuperAcyclic) {told : Told Run} (h : run p = .ok told) :
    IsLeast (rule p).closed (told.result.graph.nodeSet, told.result.graph.edgeSet) := by
  obtain ⟨done, told', -, h', hgraph, -, hleast⟩ := exists_done hp
  rw [h] at h'
  cases h'
  rw [hgraph]
  exact hleast

/-- Methods, calls and classes that are closed: the calls are those that the classes give, and every
class that a method with code creates an object of is among them. -/
structure Closed (p : Program) (N : Set MethodRef) (E : Set (MethodRef × MethodRef))
    (I : Set String) : Prop extends CallsClosed p (Calls p I) N E where
  instantiated : ∀ m ∈ N, p.hasBody m = true → ∀ call ∈ p.calls m, call.kind = .special →
    call.method.name = "<init>" → call.receiver ≠ some .self → call.method.owner ∈ I

theorem closed_iff {N : Set MethodRef} {I : Set String} :
    Closed p N E I ↔ CallsClosed p (Calls p I) N E ∧ Instantiated p N ⊆ I := by
  constructor
  · intro h
    refine ⟨h.toCallsClosed, ?_⟩
    rintro c ⟨m, hm, hb, call, hcall, hkind, hname, hreceiver, rfl⟩
    exact h.instantiated m hm hb call hcall hkind hname hreceiver
  · rintro ⟨h, hI⟩
    refine ⟨h, fun m hm hb call hcall hkind hname hreceiver => hI ?_⟩
    exact ⟨m, hm, hb, call, hcall, hkind, hname, hreceiver, rfl⟩

end Instantiation

/-- Without a superclass cycle the rapid type analysis has a result. Its methods, its calls and the
classes that it takes for instantiated are the least closed ones. -/
theorem instantiation_isLeast (p : Program) (hp : p.SuperAcyclic) :
    ∃ done told, analyze p (Instantiation.strategy p) = .ok done ∧
      Instantiation.run p = .ok told ∧ told.result.graph = done.traversal.graph ∧
      IsLeast {g : Set MethodRef × Set (MethodRef × MethodRef) × Set String |
          Instantiation.Closed p g.1 g.2.1 g.2.2}
        (told.result.graph.nodeSet, told.result.graph.edgeSet,
          {c | c ∈ done.state.instantiated}) := by
  obtain ⟨done, told, hdone, hrun, hgraph, hlive, hclosed, hleast⟩ := Instantiation.exists_done hp
  refine ⟨done, told, hdone, hrun, hgraph, ?_, ?_⟩
  · rw [hgraph, hlive]
    exact Instantiation.closed_iff.mpr ⟨hclosed, subset_rfl⟩
  · rintro ⟨N, E, I⟩ hg
    obtain ⟨hcalls, hI⟩ := Instantiation.closed_iff.mp hg
    -- with fewer classes there are fewer calls, so the graph is closed under the rule
    have hrule : (N, E) ∈ (Instantiation.rule p).closed :=
      ⟨hcalls.entry, hcalls.callee, fun m hm hb t ht => hcalls.call m hm hb t (ht.mono hI)⟩
    obtain ⟨hN, hE⟩ := hleast hrule
    rw [hgraph, hlive]
    exact ⟨hN, hE, (Instantiation.instantiated_mono hN).trans hI⟩

/-- A dispatched call on a local variable. -/
def lateDraw : Call :=
  { kind := .interface, method := ⟨"Shape", "draw", "()V"⟩, receiver := some (.localVar "x") }

/-- The constructor call of the object in that variable. -/
def lateNew : Call :=
  { kind := .special, method := ⟨"Dot", "<init>", "()V"⟩, receiver := some (.localVar "x") }

/-- A method that dispatches before the only class below the declared one is instantiated. -/
def lateProgram : Program where
  classes := [
    { name := "Main",
      methods := [{ name := "main", descriptor := "()V",
                    body := some [.invoke lateDraw, .invoke lateNew] }] },
    { name := "Shape", isInterface := true },
    { name := "Point", isAbstract := true, interfaces := ["Shape"],
      methods := [{ name := "draw", descriptor := "()V", body := some [] }] },
    { name := "Dot", superName := some "Point" }]
  entryPoints := [⟨"Main", "main", "()V"⟩]

/-- The inherited method is called, though its class was unknown when the call was met. -/
theorem instantiation_isLeast_late :
    lateProgram.SuperAcyclic ∧ ∃ told, Instantiation.run lateProgram = .ok told ∧
      (⟨"Main", "main", "()V"⟩, ⟨"Point", "draw", "()V"⟩) ∈ told.result.graph.edges := by
  have hp : lateProgram.SuperAcyclic := by decide
  obtain ⟨done, told, -, hrun, -, hclosed, -⟩ := instantiation_isLeast lateProgram hp
  refine ⟨hp, told, hrun, ?_⟩
  have hmain := hclosed.entry ⟨"Main", "main", "()V"⟩ (by decide) (by decide)
  have hlive := hclosed.instantiated _ hmain (by decide) lateNew (by decide) rfl rfl (by decide)
  have hbelow : lateProgram.isSubtype "Dot" "Shape" = true :=
    Program.isSubtype_iff.mpr (.head (y := "Point") (by decide) (.head (by decide) (.refl _)))
  have hfound : lateProgram.dispatch "Dot" lateDraw.method =
      .ok (some ⟨"Point", "draw", "()V"⟩) := rfl
  have hcall : lateDraw ∈ lateProgram.calls ⟨"Main", "main", "()V"⟩ := by decide
  exact hclosed.call _ hmain (by decide) _
    (.dispatched hcall rfl hlive (by decide) hbelow hfound)

end Devirt
