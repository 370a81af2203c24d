import Devirt.Proofs.Agreement
import Devirt.Proofs.BreadthFirst

/-!
# What dispatch finds

Dispatch looks for a method along the superclasses of a class, and then among the interfaces that are
listed there. This module says which method it finds.

* `Program.Lineage p x cs` : from `x` on, superclasses lead through the classes `cs` and then end. This
  is what `lineageEnds` decides, and then the lineage is `cs` (`lineage_iff`). Without a superclass
  cycle it is so for every name (`SuperAcyclic.exists_lineage`);
* `Class.Implements c s` : the first method of `c` that answers to `s` is not abstract;
* `Program.HasDefault p i s` : the first method of `i` that answers to `s` has code;
* `Program.InterfaceSteps p cs n i` : an interface that the classes `cs` list leads to `i` by `n`
  extensions;
* `dispatch_exact` : dispatch finds the nearest class of the lineage that implements the signature; if
  there is none, a default of fewest extensions; and nothing exactly if there is no default, either.
-/

namespace Devirt

namespace Program

variable {p : Program} {x y : String} {cs : List Class} {s t : MethodRef} {i : String}

/-! ## Lineages that end -/

/-- Superclasses lead from a name through these classes, and then to a class without superclass or to
a name that is not defined. -/
inductive Lineage (p : Program) : String → List Class → Prop where
  | undefined {x : String} (missing : p.class? x = none) : Lineage p x []
  | top {x : String} {c : Class} (found : p.class? x = some c) (last : c.superName = none) :
    Lineage p x [c]
  | super {x y : String} {c : Class} {cs : List Class} (found : p.class? x = some c)
    (next : c.superName = some y) (rest : Lineage p y cs) : Lineage p x (c :: cs)

namespace Lineage

theorem lineageUpTo (h : p.Lineage x cs) {n : Nat} (hn : cs.length ≤ n) :
    p.lineageUpTo n x = cs := by
  induction h generalizing n with
  | undefined missing => cases n <;> simp only [Program.lineageUpTo, missing]
  | top found last =>
    obtain ⟨k, rfl⟩ : ∃ k, n = k + 1 := Nat.exists_eq_add_one.mpr hn
    simp only [Program.lineageUpTo, found, last]
  | super found next _ ih =>
    rw [List.length_cons] at hn
    obtain ⟨k, rfl⟩ : ∃ k, n = k + 1 := Nat.exists_eq_add_one.mpr (by omega)
    simp only [Program.lineageUpTo, found, next, ih (by omega : _ ≤ k)]

theorem unique {ds : List Class} (h : p.Lineage x cs) (h' : p.Lineage x ds) : cs = ds :=
  (h.lineageUpTo (Nat.le_max_left _ ds.length)).symm.trans (h'.lineageUpTo (Nat.le_max_right _ _))

/-- The lineage of a superclass is an end of the whole lineage. -/
theorem exists_suffix (h : p.Lineage x cs) {c : Class} (hc : c ∈ cs) :
    ∃ ds, p.Lineage c.name ds ∧ ds <:+ cs := by
  induction h with
  | undefined => cases hc
  | @top x d found last =>
    obtain rfl := List.mem_singleton.mp hc
    rw [(mem_of_class? found).2]
    exact ⟨_, .top found last, List.suffix_refl _⟩
  | @super x y d ds found next rest ih =>
    rcases List.mem_cons.mp hc with rfl | hc
    · rw [(mem_of_class? found).2]
      exact ⟨_, .super found next rest, List.suffix_refl _⟩
    · obtain ⟨es, hes, hsuffix⟩ := ih hc
      exact ⟨es, hes, hsuffix.trans (List.suffix_cons d ds)⟩

/-- A class that came twice would have a lineage that is longer than itself. -/
theorem nodup (h : p.Lineage x cs) : (cs.map Class.name).Nodup := by
  induction h with
  | undefined => exact List.nodup_nil
  | top => exact List.nodup_singleton _
  | @super x y c ds found next rest ih =>
    rw [List.map_cons, List.nodup_cons]
    refine ⟨fun hmem => ?_, ih⟩
    obtain ⟨d, hd, hname⟩ := List.mem_map.mp hmem
    obtain ⟨es, hes, hsuffix⟩ := rest.exists_suffix hd
    rw [hname, (mem_of_class? found).2] at hes
    have hlength := hsuffix.length_le
    rw [hes.unique (.super found next rest), List.length_cons] at hlength
    omega

theorem mem_classes (h : p.Lineage x cs) {c : Class} (hc : c ∈ cs) : c ∈ p.classes := by
  rw [← h.lineageUpTo (Nat.le_refl _)] at hc
  exact (mem_lineageUpTo hc).1

theorem length_le (h : p.Lineage x cs) : cs.length ≤ p.classes.length := by
  have hsub : cs.map Class.name ⊆ p.classes.map Class.name := by
    intro name hname
    obtain ⟨c, hc, rfl⟩ := List.mem_map.mp hname
    exact List.mem_map_of_mem (h.mem_classes hc)
  simpa only [List.length_map] using (List.subperm_of_subset h.nodup hsub).length_le

theorem lineage_eq (h : p.Lineage x cs) : p.lineage x = cs :=
  h.lineageUpTo (Nat.le_succ_of_le h.length_le)

theorem ends (h : p.Lineage x cs) : p.lineageEnds x = true := by
  rw [lineageEnds, h.lineage_eq]
  exact decide_eq_true h.length_le

end Lineage

theorem lineage_of_length_lt {n : Nat} (h : (p.lineageUpTo n x).length < n) :
    p.Lineage x (p.lineageUpTo n x) := by
  fun_induction lineageUpTo p n x with
  | case1 => cases h
  | case2 n name hc => exact .undefined hc
  | case3 n name c hc hs => exact .top hc hs
  | case4 n name c hc sup hs ih =>
    rw [List.length_cons] at h
    exact .super hc hs (ih (by omega))

theorem lineage_iff : p.Lineage x cs ↔ p.lineageEnds x = true ∧ p.lineage x = cs := by
  constructor
  · intro h
    exact ⟨h.ends, h.lineage_eq⟩
  · intro h
    obtain ⟨hends, rfl⟩ := h
    have hlength : (p.lineage x).length ≤ p.classes.length := of_decide_eq_true hends
    exact lineage_of_length_lt (Nat.lt_succ_of_le hlength)

theorem SuperAcyclic.exists_lineage (hp : p.SuperAcyclic) (x : String) : ∃ cs, p.Lineage x cs :=
  ⟨_, lineage_iff.mpr ⟨lineageEnds_of_superAcyclic hp x, rfl⟩⟩

end Program

/-! ## Declarations that answer -/

/-- The first method of a class that answers to a signature is not abstract. -/
def Class.Implements (c : Class) (s : MethodRef) : Prop :=
  ∃ m, c.methods.find? (·.answers s) = some m ∧ m.access.isAbstract = false

theorem Class.implementation?_eq_some_iff {c : Class} {s t : MethodRef} :
    c.implementation? s = some t ↔ c.Implements s ∧ t = s.withOwner c.name := by
  unfold implementation? Implements
  cases c.methods.find? (·.answers s) with
  | none => simp
  | some m =>
    have hsome : some (s.withOwner c.name) = some t ↔ t = s.withOwner c.name := by
      rw [Option.some.injEq, eq_comm]
    by_cases h : m.access.isAbstract = true
    · simp [h]
    · simpa [h] using hsome

theorem Class.implementation?_eq_none_iff {c : Class} {s : MethodRef} :
    c.implementation? s = none ↔ ¬ c.Implements s := by
  rw [Option.eq_none_iff_forall_ne_some]
  simp only [ne_eq, implementation?_eq_some_iff]
  exact ⟨fun h himpl => h _ ⟨himpl, rfl⟩, fun h t ht => h ht.1⟩

instance (c : Class) (s : MethodRef) : Decidable (c.Implements s) :=
  decidable_of_iff (¬ c.implementation? s = none)
    ((not_congr Class.implementation?_eq_none_iff).trans not_not)

namespace Program

/-- The first method of an interface that answers to a signature has code: it is neither abstract nor
native, and it has a body. -/
def HasDefault (p : Program) (i : String) (s : MethodRef) : Prop :=
  ∃ c m, p.class? i = some c ∧ c.methods.find? (·.answers s) = some m ∧
    m.access.isAbstract = false ∧ m.access.isNative = false ∧ m.body.isSome = true

/-- By so many extensions one comes from an interface that the classes list to this one. -/
def InterfaceSteps (p : Program) (cs : List Class) (n : Nat) (i : String) : Prop :=
  StepsTo (interfaceEdges p.classes) (cs.flatMap Class.interfaces) n i

variable {p : Program} {x : String} {cs : List Class} {s t : MethodRef} {i : String}

theorem method?_withOwner (p : Program) (s : MethodRef) (i : String) :
    p.method? (s.withOwner i) = (p.class? i).bind (fun c => c.methods.find? (·.answers s)) := rfl

theorem hasBody_withOwner_iff : p.hasBody (s.withOwner i) = true ↔ p.HasDefault i s := by
  rw [hasBody, method?_withOwner, HasDefault]
  cases p.class? i with
  | none => simp
  | some c =>
    cases hm : c.methods.find? (·.answers s) with
    | none => simp [hm]
    | some m => simp [hm, Method.hasBody, and_assoc]

instance : Decidable (p.HasDefault i s) := decidable_of_iff _ hasBody_withOwner_iff

theorem HasDefault.implements (h : p.HasDefault i s) :
    ∃ c, p.class? i = some c ∧ c.name = i ∧ c.Implements s := by
  obtain ⟨c, m, hc, hm, habstract, -⟩ := h
  exact ⟨c, hc, (mem_of_class? hc).2, m, hm, habstract⟩

theorem default?_eq_some_iff : p.default? i s = some t ↔ p.HasDefault i s ∧ t = s.withOwner i := by
  rw [default?, Option.filter_eq_some_iff, Option.bind_eq_some_iff]
  constructor
  · intro h
    obtain ⟨⟨c, hc, himpl⟩, hbody⟩ := h
    obtain ⟨-, rfl⟩ := Class.implementation?_eq_some_iff.mp himpl
    rw [(mem_of_class? hc).2] at hbody ⊢
    exact ⟨hasBody_withOwner_iff.mp hbody, rfl⟩
  · intro h
    obtain ⟨hdefault, rfl⟩ := h
    obtain ⟨c, hc, rfl, himpl⟩ := hdefault.implements
    exact ⟨⟨c, hc, Class.implementation?_eq_some_iff.mpr ⟨himpl, rfl⟩⟩,
      hasBody_withOwner_iff.mpr hdefault⟩

theorem default?_ne_none_iff : p.default? i s ≠ none ↔ p.HasDefault i s := by
  rw [Option.ne_none_iff_exists']
  simp only [default?_eq_some_iff]
  exact ⟨fun ⟨t, h, _⟩ => h, fun h => ⟨_, h, rfl⟩⟩

/-! ## Both ways to find a method -/

theorem Lineage.dispatch_eq (h : p.Lineage x cs) (s : MethodRef) :
    p.dispatch x s = .ok ((cs.findSome? (·.implementation? s)).or (p.inherited? x s)) := by
  rw [dispatch, h.lineage_eq, if_pos h.ends]
  cases cs.findSome? (·.implementation? s) <;> rfl

/-- The owner of a signature does not matter. -/
theorem Lineage.dispatch_withOwner (h : p.Lineage x cs) (s : MethodRef) (owner : String) :
    p.dispatch x (s.withOwner owner) = p.dispatch x s := by
  rw [h.dispatch_eq, h.dispatch_eq]
  rfl

theorem findSome?_of_nearest {before after : List Class} {c : Class} (hcs : cs = before ++ c :: after)
    (hbefore : ∀ b ∈ before, ¬ b.Implements s) (hc : c.Implements s) :
    cs.findSome? (·.implementation? s) = some (s.withOwner c.name) :=
  List.findSome?_eq_some_iff.mpr ⟨before, c, after, hcs,
    Class.implementation?_eq_some_iff.mpr ⟨hc, rfl⟩,
    fun b hb => Class.implementation?_eq_none_iff.mpr (hbefore b hb)⟩

theorem findSome?_implementation_eq_none_iff :
    cs.findSome? (·.implementation? s) = none ↔ ∀ c ∈ cs, ¬ c.Implements s := by
  simp only [List.findSome?_eq_none_iff, Class.implementation?_eq_none_iff]

theorem Lineage.mem_superInterfaces (h : p.Lineage x cs) :
    i ∈ p.superInterfaces x ↔ ∃ n, p.InterfaceSteps cs n i := by
  rw [superInterfaces, Roster.mem_toList, mem_reach, h.lineage_eq, p.index_eq]
  exact exists_stepsTo_iff.symm

theorem Lineage.pairwise_superInterfaces (h : p.Lineage x cs) :
    (p.superInterfaces x).Pairwise
      (NoFarther (interfaceEdges p.classes) (cs.flatMap Class.interfaces)) := by
  have hsorted := pairwise_reach p.index.interfaces (cs.flatMap Class.interfaces)
  rw [superInterfaces, h.lineage_eq]
  rwa [p.index_eq] at hsorted ⊢

theorem Lineage.inherited?_eq_none_iff (h : p.Lineage x cs) :
    p.inherited? x s = none ↔ ∀ i n, p.InterfaceSteps cs n i → ¬ p.HasDefault i s := by
  rw [inherited?, List.findSome?_eq_none_iff]
  constructor
  · intro hnone i n hsteps hdefault
    exact default?_ne_none_iff.mpr hdefault (hnone i (h.mem_superInterfaces.mpr ⟨n, hsteps⟩))
  · intro hnone i hi
    obtain ⟨n, hsteps⟩ := h.mem_superInterfaces.mp hi
    exact not_not.mp (mt default?_ne_none_iff.mp (hnone i n hsteps))

/-- An inherited default is one of fewest extensions. -/
theorem Lineage.nearest_of_inherited? (h : p.Lineage x cs) (ht : p.inherited? x s = some t) :
    ∃ i n, t = s.withOwner i ∧ p.HasDefault i s ∧ p.InterfaceSteps cs n i ∧
      ∀ j k, p.HasDefault j s → p.InterfaceSteps cs k j → n ≤ k := by
  obtain ⟨i, hi, hfound, hfirst⟩ := exists_first h.pairwise_superInterfaces ht
  obtain ⟨hdefault, rfl⟩ := default?_eq_some_iff.mp hfound
  obtain ⟨n, hsteps⟩ := h.mem_superInterfaces.mp hi
  obtain ⟨m, hm, hshortest⟩ := hsteps.exists_shortest
  refine ⟨i, m, rfl, hdefault, hm, fun j k hj hk => ?_⟩
  have hmem : j ∈ p.superInterfaces x := h.mem_superInterfaces.mpr ⟨k, hk⟩
  rcases hfirst j hmem (default?_ne_none_iff.mpr hj) with rfl | hfarther
  · exact hshortest k hk
  · obtain ⟨l, hl, hpath⟩ := hfarther k hk
    exact Nat.le_trans (hshortest l hpath) hl

/-! ## Supertypes -/

theorem mem_interfaceEdges {x y : String} :
    (x, y) ∈ interfaceEdges p.classes ↔ ∃ c, p.class? x = some c ∧ y ∈ c.interfaces := by
  have hnext : (x, y) ∈ interfaceEdges p.classes ↔ y ∈ p.index.interfaces.next x := by
    rw [Arrows.mem_next, p.index_eq]
    rfl
  rw [hnext, next_interfaces]
  cases p.class? x <;> simp

theorem Lineage.isSubtype (h : p.Lineage x cs) {c : Class} (hc : c ∈ cs) :
    p.isSubtype x c.name = true := by
  rw [isSubtype_iff]
  induction h with
  | undefined => cases hc
  | top found =>
    obtain rfl := List.mem_singleton.mp hc
    rw [(mem_of_class? found).2]
    exact .refl _
  | super found next _ ih =>
    rcases List.mem_cons.mp hc with rfl | hc
    · rw [(mem_of_class? found).2]
      exact .refl _
    · exact .head (mem_parentEdges.mpr ⟨_, found, by simp [Class.parents, next]⟩) (ih hc)

theorem Lineage.isSubtype_of_steps (h : p.Lineage x cs) {n : Nat} (hi : p.InterfaceSteps cs n i) :
    p.isSubtype x i = true := by
  have hparent : ∀ {a b c}, p.class? a = some c → b ∈ c.interfaces →
      (a, b) ∈ parentEdges p.classes :=
    fun hc hb => mem_parentEdges.mpr ⟨_, hc, List.mem_append_right _ hb⟩
  rw [isSubtype_iff]
  induction hi with
  | start mem =>
    obtain ⟨c, hc, hlisted⟩ := List.mem_flatMap.mp mem
    have hclass := class?_name (h.mem_classes hc)
    exact (isSubtype_iff.mp (h.isSubtype hc)).tail (hparent hclass hlisted)
  | step _ edge ih =>
    obtain ⟨c, hc, hlisted⟩ := mem_interfaceEdges.mp edge
    exact ih.tail (hparent hc hlisted)

/-- What is found is declared by a supertype, and not abstract there. -/
theorem Lineage.exists_of_dispatch (h : p.Lineage x cs) (ht : p.dispatch x s = .ok (some t)) :
    ∃ c ∈ p.classes, c.Implements s ∧ t = s.withOwner c.name ∧ p.isSubtype x c.name = true := by
  rw [h.dispatch_eq, Except.ok.injEq, Option.or_eq_some_iff] at ht
  rcases ht with hclass | ⟨-, hinterface⟩
  · obtain ⟨c, hc, hfound⟩ := List.exists_of_findSome?_eq_some hclass
    obtain ⟨himpl, rfl⟩ := Class.implementation?_eq_some_iff.mp hfound
    exact ⟨c, h.mem_classes hc, himpl, rfl, h.isSubtype hc⟩
  · obtain ⟨i, n, rfl, hdefault, hsteps, -⟩ := h.nearest_of_inherited? hinterface
    obtain ⟨c, hc, rfl, himpl⟩ := hdefault.implements
    exact ⟨c, (mem_of_class? hc).1, himpl, rfl, h.isSubtype_of_steps hsteps⟩

end Program

/-- On a class whose superclasses end, dispatch has an answer, whatever the owner of the signature. It
is the method of the first class of the lineage that implements the signature. If none does, it is a
default of fewest extensions from the interfaces listed along the lineage, and there is no answer
exactly if no class implements the signature and no superinterface has a default for it. What is found
has the name and descriptor of the signature and belongs to a supertype. -/
theorem dispatch_exact (p : Program) {x : String} {cs : List Class} (hx : p.Lineage x cs)
    (s : MethodRef) :
    ∃ found, p.dispatch x s = .ok found ∧
      (∀ owner, p.dispatch x (s.withOwner owner) = .ok found) ∧
      (∀ before c after, cs = before ++ c :: after → (∀ b ∈ before, ¬ b.Implements s) →
        c.Implements s → found = some (s.withOwner c.name)) ∧
      ((∀ c ∈ cs, ¬ c.Implements s) → ∀ t, found = some t →
        ∃ i n, t = s.withOwner i ∧ p.HasDefault i s ∧ p.InterfaceSteps cs n i ∧
          ∀ j k, p.HasDefault j s → p.InterfaceSteps cs k j → n ≤ k) ∧
      (found = none ↔ (∀ c ∈ cs, ¬ c.Implements s) ∧
        ∀ i n, p.InterfaceSteps cs n i → ¬ p.HasDefault i s) ∧
      ∀ t, found = some t →
        t.name = s.name ∧ t.descriptor = s.descriptor ∧ p.isSubtype x t.owner = true := by
  have hfound := hx.dispatch_eq s
  refine ⟨_, hfound, fun owner => (hx.dispatch_withOwner s owner).trans hfound, ?_, ?_, ?_, ?_⟩
  · intro before c after hcs hbefore hc
    rw [Program.findSome?_of_nearest hcs hbefore hc, Option.some_or]
  · intro hnone t ht
    rw [Program.findSome?_implementation_eq_none_iff.mpr hnone, Option.none_or] at ht
    exact hx.nearest_of_inherited? ht
  · rw [Option.or_eq_none_iff, Program.findSome?_implementation_eq_none_iff,
      hx.inherited?_eq_none_iff]
  · intro t ht
    obtain ⟨c, -, -, rfl, hbelow⟩ := hx.exists_of_dispatch (hfound.trans (congrArg Except.ok ht))
    exact ⟨rfl, rfl, hbelow⟩

/-! ## A default behind a cycle -/

def gridInterface (name : String) (interfaces : List String) (access : Access := {}) : Class where
  name := name
  interfaces := interfaces
  isInterface := true
  methods := [{ name := "draw", descriptor := "()V", access := access, body := some [] }]

/-- A class below another one that declares `draw` abstract and extends a class that is not defined. -/
def gridLineage : List Class := [
  { name := "Leaf", superName := some "Base", interfaces := ["Native"] },
  { name := "Base", superName := some "Root", interfaces := ["Loop"], isAbstract := true,
    methods := [{ name := "draw", descriptor := "()V", access := { isAbstract := true } }] }]

/-- The method `draw` is native in an interface of `Leaf`. Behind it is a default, two extensions away.
Another one is behind an interface that extends itself, one extension away. A class that extends itself
is on no way from `Leaf`. -/
def gridProgram : Program where
  classes := gridLineage ++ [
    gridInterface "Native" ["Middle"] { isNative := true },
    gridInterface "Middle" ["Far"] { isAbstract := true },
    gridInterface "Far" [],
    gridInterface "Loop" ["Loop", "Near"] { isAbstract := true },
    gridInterface "Near" [],
    { name := "Ring", superName := some "Ring" }]
  entryPoints := []

theorem lineage_grid : gridProgram.Lineage "Leaf" gridLineage :=
  .super rfl rfl (.super rfl rfl (.undefined (by decide)))

/-- The default of fewer extensions is found, although a class extends itself and the interface in
front of the other default is listed first. -/
theorem dispatch_exact_grid :
    gridProgram.Lineage "Leaf" gridLineage ∧ ¬ gridProgram.SuperAcyclic ∧
      ∀ owner, gridProgram.dispatch "Leaf" ⟨owner, "draw", "()V"⟩ =
        .ok (some ⟨"Near", "draw", "()V"⟩) := by
  obtain ⟨found, -, hfound, -, hinherited, hnone, -⟩ :=
    dispatch_exact gridProgram lineage_grid ⟨"Leaf", "draw", "()V"⟩
  have hclasses : ∀ c ∈ gridLineage, ¬ c.Implements ⟨"Leaf", "draw", "()V"⟩ := by decide
  have hlisted : ∀ i ∈ gridLineage.flatMap Class.interfaces,
      ¬ gridProgram.HasDefault i ⟨"Leaf", "draw", "()V"⟩ := by decide
  have hextended : ∀ e ∈ interfaceEdges gridProgram.classes,
      e.1 ∈ gridLineage.flatMap Class.interfaces →
      gridProgram.HasDefault e.2 ⟨"Leaf", "draw", "()V"⟩ → e.2 = "Near" := by decide
  have hdefault : gridProgram.HasDefault "Near" ⟨"Leaf", "draw", "()V"⟩ := by decide
  have hnear : gridProgram.InterfaceSteps gridLineage 1 "Near" :=
    .step (.start (by decide : "Loop" ∈ _)) (by decide)
  refine ⟨lineage_grid, by decide, fun owner => (hfound owner).trans (congrArg Except.ok ?_)⟩
  cases hcase : found with
  | none => exact absurd hdefault ((hnone.mp hcase).2 "Near" 1 hnear)
  | some t =>
    obtain ⟨i, n, rfl, hi, hsteps, hfewest⟩ := hinherited hclasses t hcase
    have hn : n ≤ 1 := hfewest "Near" 1 hdefault hnear
    -- nothing that is listed has a default, so the one that is found is one extension away
    cases hsteps with
    | start mem => exact absurd hi (hlisted i mem)
    | step path edge =>
      cases path with
      | start mem =>
        have howner : i = "Near" := hextended _ edge mem hi
        subst howner
        rfl
      | step => omega

end Devirt
