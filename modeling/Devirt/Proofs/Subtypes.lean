import Devirt.Proofs.Lookup
import Devirt.Proofs.Ordered
import Mathlib.Logic.Relation

/-!
# What is below a class

The hierarchy is walked upwards from a class (`Program.isSubtype`) and downwards to all names below one
(`Program.subtypes`). Both walks follow the first definition of every name, and they agree.

* `DirectSuper classes x y` : the first definition of `x` names `y` as its superclass or as one of its
  interfaces; `Program.isSubtype_new_iff` : upwards one comes exactly to what a path of these leads to;
* `Program.length_subtypes_le` : the walk downwards lists at most one name more than there are classes;
* `subtyping_exact` : both walks, for any list of classes;
* `Program.HasImplementation p t` : `t` is declared, and not abstract;
* `overrides_exact` : the overrides below a class are what runs on objects of the concrete classes
  there. A dispatched call has these targets, unless there are none and its class is not defined.
-/

namespace Devirt

/-! ## Both walks -/

/-- A direct supertype, by the first definition of a name. -/
def DirectSuper (classes : List Class) (x y : String) : Prop :=
  ∃ c, classes.find? (fun c => c.name = x) = some c ∧ (c.superName = some y ∨ y ∈ c.interfaces)

theorem reaches_iff_reflTransGen {α : Type} {edges : List (α × α)} {R : α → α → Prop}
    (h : ∀ x y, (x, y) ∈ edges ↔ R x y) {x y : α} :
    Reaches edges x y ↔ Relation.ReflTransGen R x y := by
  constructor
  · intro hpath
    induction hpath with
    | refl => exact .refl
    | head edge _ ih => exact .head ((h _ _).mp edge) ih
  · intro hpath
    induction hpath with
    | refl => exact .refl _
    | tail _ step ih => exact ih.tail ((h _ _).mpr step)

theorem length_firstDefinitions_le (classes : List Class) :
    (firstDefinitions classes).length ≤ classes.length := by
  induction classes with
  | nil => exact Nat.le_refl 0
  | cons c rest ih =>
    rw [firstDefinitions, List.length_cons, List.length_cons]
    have hfilter := List.length_filter_le (fun d => d.name ≠ c.name) (firstDefinitions rest)
    omega

namespace Program

variable {p : Program}

theorem class?_new (classes : List Class) (entryPoints : List MethodRef) (name : String) :
    (new classes entryPoints).class? name = classes.find? (fun c => c.name = name) := by
  rw [class?_eq_find?]
  exact find?_firstDefinitions classes name

theorem mem_parentEdges_new {classes : List Class} {entryPoints : List MethodRef} (x y : String) :
    (x, y) ∈ parentEdges (new classes entryPoints).classes ↔ DirectSuper classes x y := by
  rw [mem_parentEdges, DirectSuper]
  simp only [class?_new, Class.parents, List.mem_append, Option.mem_toList]

theorem isSubtype_new_iff {classes : List Class} {entryPoints : List MethodRef} {a b : String} :
    (new classes entryPoints).isSubtype a b = true ↔
      Relation.ReflTransGen (DirectSuper classes) a b := by
  rw [isSubtype_iff]
  exact reaches_iff_reflTransGen mem_parentEdges_new

theorem nodup_subtypes (p : Program) (b : String) : (p.subtypes b).Nodup := Roster.nodup_toList _

/-- A path that is not empty begins at a class that is defined. -/
theorem mem_names_of_isSubtype {a b : String} (h : p.isSubtype a b = true) (hne : a ≠ b) :
    a ∈ p.classes.map Class.name := by
  rw [isSubtype_iff] at h
  cases h with
  | refl => exact absurd rfl hne
  | head edge =>
    obtain ⟨c, hc, -⟩ := mem_parentEdges.mp edge
    obtain ⟨hmem, rfl⟩ := mem_of_class? hc
    exact List.mem_map_of_mem hmem

theorem length_subtypes_le (p : Program) (b : String) :
    (p.subtypes b).length ≤ p.classes.length + 1 := by
  have hsub : p.subtypes b ⊆ b :: p.classes.map Class.name := by
    intro a ha
    by_cases hab : a = b
    · exact List.mem_cons.mpr (.inl hab)
    · exact List.mem_cons_of_mem b (mem_names_of_isSubtype (mem_subtypes.mp ha) hab)
  have hlength := (List.subperm_of_subset (p.nodup_subtypes b) hsub).length_le
  rwa [List.length_cons, List.length_map] at hlength

end Program

/-- For any list of classes, with names defined twice or not at all and with cycles. A name is a subtype
of another if direct supertypes, by first definitions, lead from one to the other. The walk downwards
from a name ends with a list without repetitions, of at most one name more than there are classes, and
it holds exactly the subtypes. -/
theorem subtyping_exact (classes : List Class) (entryPoints : List MethodRef) (a b : String) :
    ((Program.new classes entryPoints).isSubtype a b = true ↔
      Relation.ReflTransGen (DirectSuper classes) a b) ∧
    ((Program.new classes entryPoints).subtypes b).Nodup ∧
    ((Program.new classes entryPoints).subtypes b).length ≤ classes.length + 1 ∧
    (a ∈ (Program.new classes entryPoints).subtypes b ↔
      (Program.new classes entryPoints).isSubtype a b = true) := by
  refine ⟨Program.isSubtype_new_iff, Program.nodup_subtypes _ b, ?_, Program.mem_subtypes⟩
  have hwalk := (Program.new classes entryPoints).length_subtypes_le b
  have hfirst : (Program.new classes entryPoints).classes.length ≤ classes.length :=
    length_firstDefinitions_le classes
  omega

/-! ## Overrides -/

namespace Program

variable {p : Program} {s t : MethodRef}

/-- A method is declared, and the first declaration that its reference finds is not abstract. -/
def HasImplementation (p : Program) (t : MethodRef) : Prop :=
  ∃ m, p.method? t = some m ∧ m.access.isAbstract = false

/-- What runs is declared, and not abstract. -/
theorem hasImplementation_of_dispatch (hp : p.SuperAcyclic) {x : String}
    (h : p.dispatch x s = .ok (some t)) : p.HasImplementation t := by
  obtain ⟨cs, hx⟩ := hp.exists_lineage x
  obtain ⟨c, hc, ⟨m, hm, habstract⟩, rfl, -⟩ := hx.exists_of_dispatch h
  refine ⟨m, ?_, habstract⟩
  rw [method?_withOwner, class?_name hc]
  exact hm

theorem increasing_of_overrides {d : String} {found : List MethodRef}
    (h : p.overrides d s = .ok found) : Ordered.Increasing found := by
  obtain ⟨all, -, h⟩ := exists_of_bind_ok h
  cases h
  exact Ordered.increasing_ofList _

theorem targets_dispatched {call : Call} (hd : call.kind.isDispatched = true)
    {found : List MethodRef} (h : p.overrides call.method.owner call.method = .ok found) :
    p.targets call = .ok
      (if found = [] ∧ p.hasClass call.method.owner = false then [call.method] else found) := by
  rw [targets, if_pos hd, h]
  simp only [← List.isEmpty_iff, ← Bool.not_eq_true', ← Bool.and_eq_true]
  rfl

end Program

/-- Without a superclass cycle, the overrides of a signature below a name, defined or not, are listed in
order; they are what runs for the signature on objects of concrete classes below it. They are the
targets of a dispatched call, unless there are none and the class of the call is not defined: exactly
then the targets are others, and the named method is the only one. If the class is defined, every target
is declared and not abstract. -/
theorem overrides_exact (p : Program) (hp : p.SuperAcyclic) :
    (∀ d s, ∃ found, p.overrides d s = .ok found ∧ Ordered.Increasing found ∧
      ∀ t, t ∈ found ↔ ∃ c, p.isSubtype c d = true ∧ p.isConcrete c = true ∧
        p.dispatch c s = .ok (some t)) ∧
    ∀ call : Call, call.kind.isDispatched = true → ∃ found targets,
      p.overrides call.method.owner call.method = .ok found ∧ p.targets call = .ok targets ∧
      (targets ≠ found ↔ found = [] ∧ p.hasClass call.method.owner = false) ∧
      (targets ≠ found → targets = [call.method]) ∧
      (p.hasClass call.method.owner = true → ∀ t ∈ targets, p.HasImplementation t) := by
  refine ⟨fun d s => ?_, fun call hd => ?_⟩
  · obtain ⟨found, hfound, hmem⟩ := Program.exists_overrides hp d s
    exact ⟨found, hfound, Program.increasing_of_overrides hfound, hmem⟩
  · obtain ⟨found, hfound, hmem⟩ := Program.exists_overrides hp call.method.owner call.method
    have htargets := Program.targets_dispatched hd hfound
    by_cases hnone : found = [] ∧ p.hasClass call.method.owner = false
    · rw [if_pos hnone] at htargets
      refine ⟨found, _, hfound, htargets, ?_, fun _ => rfl, fun hclass => ?_⟩
      · simp [hnone]
      · rw [hnone.2] at hclass
        cases hclass
    · rw [if_neg hnone] at htargets
      refine ⟨found, found, hfound, htargets, by simp [hnone], fun hne => absurd rfl hne, ?_⟩
      intro _ t ht
      obtain ⟨c, -, -, hc⟩ := (hmem t).mp ht
      exact Program.hasImplementation_of_dispatch hp hc

/-! ## Overrides below a class that is not defined -/

/-- Shapes with an area, and a class below them that has none of its own and is a `Solid`, too, which is
not defined. -/
def shapesProgram : Program where
  classes := [
    { name := "Shape", isInterface := true, isAbstract := true,
      methods := [{ name := "area", descriptor := "()V", access := { isAbstract := true } }] },
    { name := "Square", interfaces := ["Shape"],
      methods := [{ name := "area", descriptor := "()V", body := some [] }] },
    { name := "Cube", superName := some "Square", interfaces := ["Solid"] },
    { name := "Circle", interfaces := ["Shape"],
      methods := [{ name := "area", descriptor := "()V", body := some [] }] }]
  entryPoints := []

/-- A call on the class that is not defined. -/
def solidArea : Call :=
  { kind := .interface, method := ⟨"Solid", "area", "()V"⟩, receiver := some (.localVar "x") }

theorem eq_of_isSubtype_solid {c : String} (h : shapesProgram.isSubtype c "Solid" = true) :
    c = "Solid" ∨ c = "Cube" := by
  have hedges : ∀ e ∈ parentEdges shapesProgram.classes,
      ¬ (e.1 = "Solid" ∨ e.1 = "Cube") → ¬ (e.2 = "Solid" ∨ e.2 = "Cube") := by decide
  by_contra hc
  have hstays := (Program.isSubtype_iff.mp h).stays
    (s := fun x => ¬ (x = "Solid" ∨ x = "Cube")) (fun x hx y hy => hedges _ hy hx) hc
  exact hstays (.inl rfl)

/-- The method that the cube inherits runs for a call on `Solid`, so the call does not stand for
itself. -/
theorem overrides_exact_solid :
    shapesProgram.SuperAcyclic ∧ solidArea.kind.isDispatched = true ∧
      ∃ targets, shapesProgram.targets solidArea = .ok targets ∧
        ∀ t, t ∈ targets ↔ t = ⟨"Square", "area", "()V"⟩ := by
  have hp : shapesProgram.SuperAcyclic := by decide
  have hcube : shapesProgram.dispatch "Cube" solidArea.method =
      .ok (some ⟨"Square", "area", "()V"⟩) := rfl
  obtain ⟨hbelow, hcalls⟩ := overrides_exact shapesProgram hp
  obtain ⟨found, hfound, -, hmem⟩ := hbelow "Solid" solidArea.method
  obtain ⟨found', targets, hfound', htargets, hother, -, -⟩ := hcalls solidArea rfl
  cases hfound.symm.trans hfound'
  have hsquare : ⟨"Square", "area", "()V"⟩ ∈ found :=
    (hmem _).mpr ⟨"Cube", Program.isSubtype_iff.mpr (.head (by decide) (.refl _)), by decide, hcube⟩
  have hsame : targets = found := by
    by_contra hne
    rw [(hother.mp hne).1] at hsquare
    cases hsquare
  refine ⟨hp, rfl, targets, htargets, fun t => ?_⟩
  rw [hsame]
  constructor
  · intro ht
    obtain ⟨c, hc, hconcrete, hdispatch⟩ := (hmem t).mp ht
    rcases eq_of_isSubtype_solid hc with rfl | rfl
    · exact absurd hconcrete (by decide)
    · rw [hcube] at hdispatch
      cases hdispatch
      rfl
  · intro ht
    exact ht ▸ hsquare

end Devirt
