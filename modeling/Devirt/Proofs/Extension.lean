import Devirt.Proofs.Agreement

/-!
# One class more

A program with one more class, of a name that the program does not use.

* `Program.names` : the names of classes that a program uses: those of its classes and of their
  supertypes, of the objects that it creates, of the methods that it calls and of its entry points;
* `Program.withClass p y` : the program with `y` behind its classes. If `p` does not use the name of
  `y`, both programs agree on all other names (`agreeOn_withClass`), and their methods make the same
  calls (`calls_withClass`), none of which is to `y` (`owner_mem_names`);
* `superAcyclic_of_withClass` : a superclass cycle does not go away.
-/

namespace Devirt

/-! ## Names -/

/-- The class that a statement creates an object of, or whose method it calls. -/
def Statement.names : Statement → List String
  | assign _ (.new owner) => [owner]
  | s => s.call?.toList.map (·.method.owner)

/-- The names of a class: its own, its supertypes and those in all its statements. -/
def Class.names (c : Class) : List String :=
  c.name :: c.parents ++ c.methods.flatMap (fun m => (m.body.getD []).flatMap Statement.names)

theorem Statement.owner_mem_names {s : Statement} {call : Call} (h : s.call? = some call) :
    call.method.owner ∈ s.names := by
  unfold names
  split
  · cases h
  · simp [h]

namespace Program

def names (p : Program) : List String :=
  p.classes.flatMap Class.names ++ p.entryPoints.map MethodRef.owner

variable {p : Program} {y : Class}

theorem mem_names_of_mem {c : Class} {x : String} (hc : c ∈ p.classes) (hx : x ∈ c.names) :
    x ∈ p.names :=
  List.mem_append_left _ (List.mem_flatMap.mpr ⟨c, hc, hx⟩)

theorem name_mem_names {c : Class} (hc : c ∈ p.classes) : c.name ∈ p.names :=
  mem_names_of_mem hc List.mem_cons_self

theorem parent_mem_names {c : Class} {x : String} (hc : c ∈ p.classes) (hx : x ∈ c.parents) :
    x ∈ p.names :=
  mem_names_of_mem hc (List.mem_append_left _ (List.mem_cons_of_mem _ hx))

theorem entry_mem_names {m : MethodRef} (hm : m ∈ p.entryPoints) : m.owner ∈ p.names :=
  List.mem_append_right _ (List.mem_map_of_mem hm)

/-- The class of a method that is called is among the names. -/
theorem owner_mem_names {m : MethodRef} {call : Call} (h : call ∈ p.calls m) :
    call.method.owner ∈ p.names := by
  obtain ⟨s, hs, hcall⟩ := List.mem_filterMap.mp h
  obtain ⟨method, hm, -, hbody⟩ := mem_statements_iff.mp hs
  obtain ⟨c, hc, hfind⟩ := Option.bind_eq_some_iff.mp hm
  have hmethod : method ∈ c.methods := List.mem_of_find?_eq_some hfind
  refine mem_names_of_mem (mem_of_class? hc).1
    (List.mem_append_right _ (List.mem_flatMap.mpr ⟨method, hmethod, ?_⟩))
  exact List.mem_flatMap.mpr ⟨s, hbody, Statement.owner_mem_names hcall⟩

/-! ## Appending a class -/

theorem firstDefinitions_of_nodup {classes : List Class} (h : (classes.map Class.name).Nodup) :
    firstDefinitions classes = classes := by
  induction classes with
  | nil => rfl
  | cons c rest ih =>
    rw [List.map_cons, List.nodup_cons] at h
    obtain ⟨hfresh, hrest⟩ := h
    rw [firstDefinitions, ih hrest, List.filter_eq_self.mpr]
    intro d hd
    have hne : d.name ≠ c.name := fun he => hfresh (he ▸ List.mem_map_of_mem hd)
    simpa using hne

/-- The program with one more class behind all others. -/
def withClass (p : Program) (y : Class) : Program := new (p.classes ++ [y]) p.entryPoints

theorem classes_withClass (h : y.name ∉ p.names) : (p.withClass y).classes = p.classes ++ [y] := by
  refine firstDefinitions_of_nodup ?_
  rw [List.map_append, List.map_cons, List.map_nil, List.nodup_append_comm, List.singleton_append,
    List.nodup_cons]
  refine ⟨fun hy => ?_, p.distinct⟩
  obtain ⟨c, hc, hname⟩ := List.mem_map.mp hy
  exact h (hname ▸ name_mem_names hc)

theorem class?_withClass (h : y.name ∉ p.names) {x : String} (hx : x ≠ y.name) :
    (p.withClass y).class? x = p.class? x := by
  rw [class?_eq_find?, class?_eq_find?, classes_withClass h, List.find?_append]
  simp [hx.symm]

theorem agreeOn_withClass (h : y.name ∉ p.names) :
    p.AgreeOn (p.withClass y) {x | x ≠ y.name} where
  outline x hx := by rw [class?_withClass h hx]
  parents x hx c hc z hz := by
    rintro rfl
    exact h (parent_mem_names (mem_of_class? hc).1 hz)

theorem superAcyclic_of_withClass (h : y.name ∉ p.names) (hq : (p.withClass y).SuperAcyclic) :
    p.SuperAcyclic := by
  refine (agreeOn_withClass h).superAcyclic (fun x hx => ?_) hq
  rintro rfl
  obtain ⟨c, hc⟩ := Option.isSome_iff_exists.mp hx
  obtain ⟨hmem, hname⟩ := mem_of_class? hc
  exact h (hname ▸ name_mem_names hmem)

theorem calls_withClass (h : y.name ∉ p.names) {m : MethodRef} (hm : m.owner ≠ y.name) :
    (p.withClass y).calls m = p.calls m := by
  rw [calls, calls, statements, statements, method?, method?, class?_withClass h hm]

end Program

end Devirt
