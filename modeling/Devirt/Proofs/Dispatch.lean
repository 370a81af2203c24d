import Devirt.Components.Lemmas
import Devirt.Program.Dispatch
import Mathlib.Data.List.Forall2
import Mathlib.Data.List.Nodup
import Mathlib.Data.List.Perm.Subperm

/-!
# Lookups that end

* `superEdges classes` : from every class to its superclass;
* `Program.SuperAcyclic` : no class is above itself by superclasses; this is so if every lineage ends
  (`superAcyclic_iff`). Then dispatch and the targets of a call have an answer
  (`exists_dispatch`, `exists_targets`);
* `RunsBelow p s t` : `t` runs for `s` on objects below its owner; `IsTarget p call t` : `t` is a
  target of a call. What runs below are the targets (`exists_mem_targets`), and there are none only
  if the owner is defined (`targets_eq_nil_iff`);
* `exists_of_bind_ok` : two steps succeed one after the other; `mapM_eq_ok_iff`, `exists_mapM_rel`,
  `exists_mapM_ok`, `mem_of_mapM_ok` : what a list of steps that all succeed collects;
  `exists_mapM_of_forall₂` : steps that follow others; `mapM_congr` : equal steps.
-/

namespace Devirt

/-! ## Steps that succeed -/

theorem exists_of_bind_ok {α β : Type} {step : Analyzed α} {next : α → Analyzed β} {b : β}
    (h : step >>= next = .ok b) : ∃ a, step = .ok a ∧ next a = .ok b := by
  cases step with
  | error e => cases h
  | ok a => exact ⟨a, rfl, h⟩

/-- Steps all succeed if each does, and the results are collected in order. -/
theorem mapM_eq_ok_iff {α β : Type} {f : α → Analyzed β} {xs : List α} {ys : List β} :
    xs.mapM f = .ok ys ↔ List.Forall₂ (fun x y => f x = .ok y) xs ys := by
  constructor
  · intro h
    induction xs generalizing ys with
    | nil =>
      cases h
      exact .nil
    | cons x xs ih =>
      rw [List.mapM_cons] at h
      obtain ⟨y, hy, h⟩ := exists_of_bind_ok h
      obtain ⟨ys', hys, h⟩ := exists_of_bind_ok h
      cases h
      exact .cons hy (ih hys)
  · intro h
    induction h with
    | nil => rfl
    | cons hy _ ih =>
      rw [List.mapM_cons, hy, ih]
      rfl

/-- Steps that follow others succeed if these do. -/
theorem exists_mapM_of_forall₂ {α α' β β' : Type} {f : α → Analyzed β} {g : α' → Analyzed β'}
    {R : α → α' → Prop} {S : β → β' → Prop}
    (h : ∀ x x', R x x' → ∀ y, f x = .ok y → ∃ y', g x' = .ok y' ∧ S y y') {xs : List α}
    {xs' : List α'} {ys : List β} (hxs : List.Forall₂ R xs xs') (hys : xs.mapM f = .ok ys) :
    ∃ ys', xs'.mapM g = .ok ys' ∧ List.Forall₂ S ys ys' := by
  rw [mapM_eq_ok_iff] at hys
  induction hxs generalizing ys with
  | nil =>
    cases hys
    exact ⟨[], rfl, .nil⟩
  | cons hx _ ih =>
    cases hys with
    | cons hy hrest =>
      obtain ⟨y', hy', hs⟩ := h _ _ hx _ hy
      obtain ⟨ys', hys', hss⟩ := ih hrest
      refine ⟨y' :: ys', ?_, .cons hs hss⟩
      rw [List.mapM_cons, hy', hys']
      rfl

/-- Steps that all succeed collect a result for each element, and no others. -/
theorem exists_mapM_rel {α β : Type} {f : α → Analyzed β} {R : α → β → Prop} {xs : List α}
    (h : ∀ x ∈ xs, ∃ y, f x = .ok y ∧ R x y) :
    ∃ ys, xs.mapM f = .ok ys ∧ (∀ y ∈ ys, ∃ x ∈ xs, R x y) ∧ ∀ x ∈ xs, ∃ y ∈ ys, R x y := by
  induction xs with
  | nil => exact ⟨[], rfl, by simp, by simp⟩
  | cons x xs ih =>
    obtain ⟨y, hy, hxy⟩ := h x (by simp)
    obtain ⟨ys, hys, hback, hforth⟩ := ih (fun z hz => h z (List.mem_cons_of_mem _ hz))
    refine ⟨y :: ys, ?_, fun z hz => ?_, fun z hz => ?_⟩
    · rw [List.mapM_cons, hy, hys]
      rfl
    · rcases List.mem_cons.mp hz with rfl | hz
      · exact ⟨x, by simp, hxy⟩
      · obtain ⟨w, hw, hr⟩ := hback z hz
        exact ⟨w, List.mem_cons_of_mem _ hw, hr⟩
    · rcases List.mem_cons.mp hz with rfl | hz
      · exact ⟨y, by simp, hxy⟩
      · obtain ⟨w, hw, hr⟩ := hforth z hz
        exact ⟨w, List.mem_cons_of_mem _ hw, hr⟩

theorem exists_mapM_ok {α β : Type} {f : α → Analyzed β} {xs : List α}
    (h : ∀ x ∈ xs, ∃ y, f x = .ok y) :
    ∃ ys, xs.mapM f = .ok ys ∧ ∀ y, y ∈ ys ↔ ∃ x ∈ xs, f x = .ok y := by
  obtain ⟨ys, hys, hback, hforth⟩ := exists_mapM_rel (R := fun x y => f x = .ok y)
    (fun x hx => (h x hx).imp fun y hy => ⟨hy, hy⟩)
  refine ⟨ys, hys, fun y => ⟨hback y, ?_⟩⟩
  rintro ⟨x, hx, hy⟩
  obtain ⟨y', hmem, hy'⟩ := hforth x hx
  cases hy.symm.trans hy'
  exact hmem

theorem mem_of_mapM_ok {α β : Type} {f : α → Analyzed β} {xs : List α} {ys : List β}
    (h : xs.mapM f = .ok ys) {y : β} (hy : y ∈ ys) : ∃ x ∈ xs, f x = .ok y := by
  obtain ⟨i, hi, rfl⟩ := List.getElem_of_mem hy
  obtain ⟨hlength, hsteps⟩ := List.forall₂_iff_get.mp (mapM_eq_ok_iff.mp h)
  exact ⟨xs[i], List.getElem_mem _, hsteps i (hlength ▸ hi) hi⟩

theorem mapM_congr {α β : Type} {f g : α → Analyzed β} {xs : List α}
    (h : ∀ x ∈ xs, f x = g x) : xs.mapM f = xs.mapM g := by
  induction xs with
  | nil => rfl
  | cons x xs ih =>
    rw [List.mapM_cons, List.mapM_cons, h x List.mem_cons_self,
      ih (fun z hz => h z (List.mem_cons_of_mem _ hz))]

/-! ## Superclasses -/

def superEdges (classes : List Class) : List (String × String) :=
  classes.flatMap (fun c => c.superName.toList.map (fun sup => (c.name, sup)))

namespace Program

/-- No class is above itself by superclasses. -/
def SuperAcyclic (p : Program) : Prop :=
  ∀ sub sup, (sub, sup) ∈ superEdges p.classes → ¬ Reaches (superEdges p.classes) sup sub

variable {p : Program}

theorem mem_of_class? {name : String} {c : Class} (h : p.class? name = some c) :
    c ∈ p.classes ∧ c.name = name := by
  rw [class?_eq_find?] at h
  exact ⟨List.mem_of_find?_eq_some h, by simpa using List.find?_some h⟩

theorem mem_superEdges {name sup : String} {c : Class} (hc : p.class? name = some c)
    (hs : c.superName = some sup) : (name, sup) ∈ superEdges p.classes := by
  obtain ⟨hmem, rfl⟩ := mem_of_class? hc
  exact List.mem_flatMap.mpr ⟨c, hmem, by simp [hs]⟩

theorem mem_lineageUpTo {n : Nat} {name : String} {d : Class} (h : d ∈ p.lineageUpTo n name) :
    d ∈ p.classes ∧ Reaches (superEdges p.classes) name d.name := by
  fun_induction lineageUpTo p n name with
  | case1 => simp at h
  | case2 => simp at h
  | case3 n name c hc hs =>
    obtain rfl := List.mem_singleton.mp h
    obtain ⟨hmem, rfl⟩ := mem_of_class? hc
    exact ⟨hmem, .refl _⟩
  | case4 n name c hc sup hs ih =>
    rcases List.mem_cons.mp h with rfl | h
    · obtain ⟨hmem, rfl⟩ := mem_of_class? hc
      exact ⟨hmem, .refl _⟩
    · obtain ⟨hmem, hreach⟩ := ih h
      exact ⟨hmem, .head (mem_superEdges hc hs) hreach⟩

theorem nodup_lineageUpTo (h : p.SuperAcyclic) (n : Nat) (name : String) :
    ((p.lineageUpTo n name).map Class.name).Nodup := by
  fun_induction lineageUpTo p n name with
  | case1 => exact List.nodup_nil
  | case2 => exact List.nodup_nil
  | case3 n name c hc hs => exact List.nodup_singleton _
  | case4 n name c hc sup hs ih =>
    rw [List.map_cons, List.nodup_cons]
    refine ⟨fun hm => ?_, ih⟩
    obtain ⟨d, hd, hname⟩ := List.mem_map.mp hm
    have hback := (mem_lineageUpTo hd).2
    rw [hname, (mem_of_class? hc).2] at hback
    exact h name sup (mem_superEdges hc hs) hback

theorem lineageEnds_of_superAcyclic (h : p.SuperAcyclic) (name : String) :
    p.lineageEnds name = true := by
  have hsub : (p.lineage name).map Class.name ⊆ p.classes.map Class.name := by
    intro x hx
    obtain ⟨d, hd, rfl⟩ := List.mem_map.mp hx
    exact List.mem_map_of_mem (mem_lineageUpTo hd).1
  have hlength := (List.subperm_of_subset (nodup_lineageUpTo h _ name) hsub).length_le
  rw [List.length_map, List.length_map] at hlength
  exact decide_eq_true hlength

theorem class?_name {c : Class} (hc : c ∈ p.classes) : p.class? c.name = some c := by
  obtain ⟨d, hd⟩ : ∃ d, p.class? c.name = some d := by
    rw [class?_eq_find?]
    exact Option.isSome_iff_exists.mp (List.find?_isSome.mpr ⟨c, hc, by simp⟩)
  obtain ⟨hmem, hname⟩ := mem_of_class? hd
  rw [hd, List.inj_on_of_nodup_map p.distinct hmem hc hname]

theorem exists_of_mem_superEdges {name sup : String} (h : (name, sup) ∈ superEdges p.classes) :
    ∃ c, p.class? name = some c ∧ c.superName = some sup := by
  obtain ⟨c, hc, hsup⟩ := List.mem_flatMap.mp h
  obtain ⟨sup', hsup', heq⟩ := List.mem_map.mp hsup
  cases heq
  exact ⟨c, class?_name hc, by simpa using hsup'⟩

theorem mem_statements_iff {m : MethodRef} {s : Statement} :
    s ∈ p.statements m ↔
      ∃ method, p.method? m = some method ∧ method.hasBody = true ∧ s ∈ method.body.getD [] := by
  rw [statements]
  cases p.method? m with
  | none => simp
  | some method =>
    by_cases hb : method.hasBody = true
    · simp [hb]
    · simp [hb]

theorem hasBody_of_mem_statements {m : MethodRef} {s : Statement} (h : s ∈ p.statements m) :
    p.hasBody m = true := by
  obtain ⟨method, hm, hb, -⟩ := mem_statements_iff.mp h
  rw [hasBody, hm]
  exact hb

theorem hasBody_of_mem_calls {m : MethodRef} {call : Call} (h : call ∈ p.calls m) :
    p.hasBody m = true := by
  obtain ⟨statement, hs, -⟩ := List.mem_filterMap.mp h
  exact hasBody_of_mem_statements hs

/-- A set of names in which every name has its superclass is left by no lineage. -/
theorem length_lineageUpTo_of_endless {s : Set String}
    (h : ∀ x ∈ s, ∃ y ∈ s, (x, y) ∈ superEdges p.classes) (n : Nat) {x : String} (hx : x ∈ s) :
    (p.lineageUpTo n x).length = n := by
  induction n generalizing x with
  | zero => rfl
  | succ n ih =>
    obtain ⟨y, hy, hedge⟩ := h x hx
    obtain ⟨c, hc, hsup⟩ := exists_of_mem_superEdges hedge
    simp only [lineageUpTo, hc, hsup, List.length_cons, ih hy]

/-- There is a superclass cycle unless the lineage of every class ends. -/
theorem superAcyclic_iff : p.SuperAcyclic ↔ ∀ c ∈ p.classes, p.lineageEnds c.name = true := by
  constructor
  · exact fun h c _ => lineageEnds_of_superAcyclic h c.name
  · intro h sub sup hedge hback
    have hcycle : ∀ x ∈ {x | Reaches (superEdges p.classes) x sub},
        ∃ y ∈ {x | Reaches (superEdges p.classes) x sub}, (x, y) ∈ superEdges p.classes := by
      intro x hx
      cases hx with
      | refl => exact ⟨sup, hback, hedge⟩
      | head edge path => exact ⟨_, path, edge⟩
    obtain ⟨c, hc, -⟩ := exists_of_mem_superEdges hedge
    obtain ⟨hmem, rfl⟩ := mem_of_class? hc
    have hlength := length_lineageUpTo_of_endless hcycle (p.classes.length + 1) (.refl c.name)
    have hends : (p.lineage c.name).length ≤ p.classes.length := of_decide_eq_true (h c hmem)
    rw [lineage, hlength] at hends
    exact absurd hends (Nat.not_succ_le_self _)

instance : Decidable p.SuperAcyclic := decidable_of_iff _ superAcyclic_iff.symm

/-! ## Answers -/

theorem exists_dispatch (h : p.SuperAcyclic) (name : String) (s : MethodRef) :
    ∃ found, p.dispatch name s = .ok found := by
  unfold dispatch
  split
  · exact ⟨_, rfl⟩
  · rw [if_pos (lineageEnds_of_superAcyclic h name)]
    exact ⟨_, rfl⟩

/-- Nothing runs on objects of a class that the program does not define. -/
theorem hasClass_of_dispatch {name : String} {s t : MethodRef}
    (h : p.dispatch name s = .ok (some t)) : p.hasClass name = true := by
  by_contra hnone
  have hclass : p.class? name = none := by simpa [hasClass] using hnone
  have hlineage : p.lineage name = [] := by simp only [lineage, lineageUpTo, hclass]
  have hinterfaces : p.superInterfaces name = [] := by
    refine List.eq_nil_iff_forall_not_mem.mpr fun i hi => ?_
    rw [superInterfaces, hlineage, Roster.mem_toList, mem_reach] at hi
    simp at hi
  simp [dispatch, lineageEnds, inherited?, hlineage, hinterfaces] at h

theorem exists_mapM_dispatch (h : p.SuperAcyclic) (s : MethodRef) (names : List String) :
    ∃ found, names.mapM (fun c => p.dispatch c s) = .ok found ∧
      ∀ t, t ∈ found.filterMap id ↔ ∃ c ∈ names, p.dispatch c s = .ok (some t) := by
  obtain ⟨found, hfound, hmem⟩ := exists_mapM_ok
    (fun c (_ : c ∈ names) => exists_dispatch h c s)
  refine ⟨found, hfound, fun t => ?_⟩
  rw [List.mem_filterMap, ← hmem (some t)]
  exact ⟨fun ⟨o, ho, hot⟩ => hot ▸ ho, fun ht => ⟨some t, ht, rfl⟩⟩

theorem mem_subtypes {sub sup : String} : sub ∈ p.subtypes sup ↔ p.isSubtype sub sup = true := by
  have hedges : p.index.children.edges = (parentEdges p.classes).map Prod.swap := by
    rw [p.index_eq]
    rfl
  rw [isSubtype_iff, subtypes, Roster.mem_toList, mem_reach, hedges, ← reaches_swap]
  simp

theorem exists_overrides (h : p.SuperAcyclic) (name : String) (s : MethodRef) :
    ∃ found, p.overrides name s = .ok found ∧
      ∀ t, t ∈ found ↔ ∃ c, p.isSubtype c name = true ∧ p.isConcrete c = true ∧
        p.dispatch c s = .ok (some t) := by
  obtain ⟨found, hfound, hmem⟩ :=
    exists_mapM_dispatch h s ((p.subtypes name).filter p.isConcrete)
  refine ⟨Ordered.ofList (found.filterMap id), by rw [overrides, hfound]; rfl, fun t => ?_⟩
  simp only [Ordered.mem_ofList, hmem, List.mem_filter, mem_subtypes, and_assoc]

/-- A method runs for a signature on objects of a concrete class below its owner. -/
def RunsBelow (p : Program) (s t : MethodRef) : Prop :=
  ∃ c, p.isSubtype c s.owner = true ∧ p.isConcrete c = true ∧ p.dispatch c s = .ok (some t)

def IsTarget (p : Program) (call : Call) (t : MethodRef) : Prop :=
  ∃ found, p.targets call = .ok found ∧ t ∈ found

/-- The targets of a call are what runs below its class. The named method stands for them if the call
is not dispatched, or if its class is not defined and nothing runs below it. -/
theorem exists_mem_targets (h : p.SuperAcyclic) (call : Call) :
    ∃ found, p.targets call = .ok found ∧ ∀ t, t ∈ found ↔
      call.kind.isDispatched = true ∧ p.RunsBelow call.method t ∨
      (call.kind.isDispatched = true →
        p.hasClass call.method.owner = false ∧ ∀ u, ¬ p.RunsBelow call.method u) ∧
        t = call.method := by
  unfold targets
  by_cases hd : call.kind.isDispatched = true
  · obtain ⟨found, hfound, hmem⟩ := exists_overrides h call.method.owner call.method
    have hruns : ∀ t, t ∈ found ↔ p.RunsBelow call.method t := hmem
    have hnone : found.isEmpty = true ↔ ∀ u, ¬ p.RunsBelow call.method u := by
      simp only [List.isEmpty_iff, List.eq_nil_iff_forall_not_mem, hruns]
    rw [if_pos hd, hfound]
    refine ⟨_, rfl, fun t => ?_⟩
    by_cases hempty : (found.isEmpty && !p.hasClass call.method.owner) = true
    · rw [if_pos hempty, List.mem_singleton]
      rw [Bool.and_eq_true, Bool.not_eq_true', hnone] at hempty
      obtain ⟨hnone, hclass⟩ := hempty
      simp [hd, hnone, hclass]
    · rw [if_neg hempty, hruns]
      rw [Bool.and_eq_true, Bool.not_eq_true', hnone] at hempty
      simp only [hd, true_and, forall_const]
      exact ⟨.inl, fun ht => ht.resolve_right (fun ⟨⟨hclass, hnone⟩, _⟩ => hempty ⟨hnone, hclass⟩)⟩
  · rw [if_neg hd]
    exact ⟨_, rfl, by simp [hd]⟩

theorem isTarget_iff (h : p.SuperAcyclic) {call : Call} {t : MethodRef} :
    p.IsTarget call t ↔
      call.kind.isDispatched = true ∧ p.RunsBelow call.method t ∨
      (call.kind.isDispatched = true →
        p.hasClass call.method.owner = false ∧ ∀ u, ¬ p.RunsBelow call.method u) ∧
        t = call.method := by
  obtain ⟨found, hfound, hmem⟩ := exists_mem_targets h call
  rw [IsTarget, ← hmem t, hfound]
  simp

theorem exists_targets (h : p.SuperAcyclic) (call : Call) : ∃ found, p.targets call = .ok found := by
  obtain ⟨found, hfound, -⟩ := exists_mem_targets h call
  exact ⟨found, hfound⟩

/-- What runs on an object of a concrete class below the declared one is a target. -/
theorem exists_targets_of_dispatch (h : p.SuperAcyclic) {call : Call} {c : String} {t : MethodRef}
    (hd : call.kind.isDispatched = true) (hbelow : p.isSubtype c call.method.owner = true)
    (hconcrete : p.isConcrete c = true) (ht : p.dispatch c call.method = .ok (some t)) :
    ∃ found, p.targets call = .ok found ∧ t ∈ found := by
  obtain ⟨found, hfound, hmem⟩ := exists_mem_targets h call
  exact ⟨found, hfound, (hmem t).mpr (.inl ⟨hd, c, hbelow, hconcrete, ht⟩)⟩

theorem targets_eq_nil_iff (h : p.SuperAcyclic) {call : Call} :
    p.targets call = .ok [] ↔ call.kind.isDispatched = true ∧
      p.hasClass call.method.owner = true ∧ ∀ t, ¬ p.RunsBelow call.method t := by
  obtain ⟨found, hfound, hmem⟩ := exists_mem_targets h call
  rw [hfound, Except.ok.injEq, List.eq_nil_iff_forall_not_mem]
  simp only [hmem]
  constructor
  · intro hnone
    have hd : call.kind.isDispatched = true := by
      by_contra hd
      exact hnone call.method (.inr ⟨fun hd' => absurd hd' hd, rfl⟩)
    have hruns : ∀ t, ¬ p.RunsBelow call.method t := fun t ht => hnone t (.inl ⟨hd, ht⟩)
    refine ⟨hd, ?_, hruns⟩
    by_contra hclass
    exact hnone call.method (.inr ⟨fun _ => ⟨by simpa using hclass, hruns⟩, rfl⟩)
  · rintro ⟨hd, hclass, hruns⟩ t (⟨-, ht⟩ | ⟨hundefined, -⟩)
    · exact hruns t ht
    · rw [(hundefined hd).1] at hclass
      cases hclass

theorem targets_direct {call : Call} (h : call.kind.isDispatched = false) :
    p.targets call = .ok [call.method] := by
  simp [targets, h]

end Program

end Devirt
