import Devirt.Proofs.Dispatch
import Mathlib.Data.Set.Basic

/-!
# Programs that agree on classes

Questions about the hierarchy walk upwards from a class, and never look at statements. So two programs
answer them alike on names that are closed under supertypes and whose classes have the same outline.

* `Method.outline`, `Class.outline` : a declaration without its statements;
* `Program.AgreeOn p q S` : on the names `S` both programs have the same outlines, and no supertype is
  outside of `S`;
* `AgreeOn.hasBody`, `AgreeOn.isConcrete`, `AgreeOn.isSubtype`, `AgreeOn.dispatch` : same answers for
  the names `S`; `AgreeOn.owner_of_dispatch` : the answers are in `S` again;
* `AgreeOn.superAcyclic` : if `S` has all classes of `p`, a superclass cycle of `p` is one of `q`;
* `walk_congr` : a walk depends only on the arrows of the nodes that it meets;
* `lineageUpTo_of_le` : a lineage that has come to an end stays the same when more classes are
  allowed, so it does not matter how many classes the programs have.
-/

namespace Devirt

/-! ## Outlines -/

/-- A method without its statements. Whether it has a body is kept. -/
def Method.outline (m : Method) : Method := { m with body := m.body.map (fun _ => []) }

def Class.outline (c : Class) : Class := { c with methods := c.methods.map Method.outline }

theorem Method.hasBody_outline (m : Method) : m.outline.hasBody = m.hasBody := by
  rw [hasBody, hasBody, outline, Option.isSome_map]

theorem Class.find?_outline (c : Class) (r : MethodRef) :
    c.outline.methods.find? (·.answers r) =
      (c.methods.find? (·.answers r)).map Method.outline := by
  rw [outline, List.find?_map]
  rfl

theorem Class.owner_of_implementation? {c : Class} {s m : MethodRef}
    (h : c.implementation? s = some m) : m.owner = c.name := by
  unfold implementation? at h
  split at h
  · split at h
    · cases h
    · cases h
      rfl
  · cases h

theorem Class.implementation?_outline (c : Class) (s : MethodRef) :
    c.outline.implementation? s = c.implementation? s := by
  rw [implementation?, implementation?, find?_outline]
  cases c.methods.find? (·.answers s) <;> rfl

/-! ## Walks -/

/-- A walk that stays among nodes with the same arrows is the same walk. -/
theorem walk_congr {α : Type} [Ord α] [Std.TransOrd α] [Std.LawfulEqOrd α] {a b : Arrows α}
    {S : Set α} (hnext : ∀ x ∈ S, b.next x = a.next x) (hstays : ∀ x ∈ S, ∀ y ∈ a.next x, y ∈ S)
    {front back : List α} {seen : Roster α} (hfront : ∀ x ∈ front, x ∈ S)
    (hback : ∀ x ∈ back, x ∈ S) : walk b front back seen = walk a front back seen := by
  fun_induction walk a front back seen with
  | case1 back seen hempty =>
    rw [walk]
    exact if_pos hempty
  | case2 back seen hbusy ih =>
    simp only [List.unattach_reverse, List.unattach_attach] at ih
    rw [walk, if_neg hbusy]
    exact ih (fun x hx => hback x (List.mem_reverse.mp hx)) (fun x hx => absurd hx List.not_mem_nil)
  | case3 back seen x rest hseen ih =>
    rw [walk, if_pos hseen]
    exact ih (fun y hy => hfront y (List.mem_cons_of_mem _ hy)) hback
  | case4 back seen x rest hnew ih =>
    have hx : x ∈ S := hfront x List.mem_cons_self
    rw [walk, if_neg hnew, hnext x hx]
    refine ih (fun y hy => hfront y (List.mem_cons_of_mem _ hy)) (fun y hy => ?_)
    rcases List.mem_append.mp hy with hy | hy
    · exact hstays x hx y (List.mem_reverse.mp hy)
    · exact hback y hy

/-- A path from names whose edges are edges of another graph is a path there. -/
theorem Reaches.mono_on {α : Type} {edges edges' : List (α × α)} {S : Set α}
    (hedges : ∀ x ∈ S, ∀ y, (x, y) ∈ edges → (x, y) ∈ edges' ∧ y ∈ S) {x z : α}
    (h : Reaches edges x z) (hx : x ∈ S) : Reaches edges' x z := by
  induction h with
  | refl => exact .refl _
  | head edge _ ih =>
    obtain ⟨hedge, hy⟩ := hedges _ hx _ edge
    exact .head hedge (ih hy)

namespace Program

variable {p q : Program} {S : Set String}

/-! ## What the lists of edges hold -/

theorem mem_parentEdges {x y : String} :
    (x, y) ∈ parentEdges p.classes ↔ ∃ c, p.class? x = some c ∧ y ∈ c.parents := by
  simp only [parentEdges, List.mem_flatMap, List.mem_map, Prod.mk.injEq]
  constructor
  · rintro ⟨c, hc, z, hz, rfl, rfl⟩
    exact ⟨c, class?_name hc, hz⟩
  · rintro ⟨c, hc, hy⟩
    obtain ⟨hmem, hname⟩ := mem_of_class? hc
    exact ⟨c, hmem, y, hy, hname, rfl⟩

theorem successors_interfaceEdges {classes : List Class} (h : (classes.map Class.name).Nodup)
    (x : String) :
    successors (interfaceEdges classes) x =
      ((classes.find? (fun c => c.name = x)).map Class.interfaces).getD [] := by
  induction classes with
  | nil => rfl
  | cons c rest ih =>
    obtain ⟨hfresh, hrest⟩ := List.nodup_cons.mp h
    have hstep : successors (interfaceEdges (c :: rest)) x =
        (if c.name = x then c.interfaces else []) ++ successors (interfaceEdges rest) x := by
      by_cases hx : c.name = x <;>
        simp [successors, interfaceEdges, hx, List.filter_map, Function.comp_def]
    rw [hstep, ih hrest]
    by_cases hx : c.name = x
    · have hnone : rest.find? (fun d => d.name = x) = none := by
        rw [List.find?_eq_none]
        intro d hd hdx
        exact hfresh (hx ▸ of_decide_eq_true hdx ▸ List.mem_map_of_mem hd)
      simp [hx, hnone]
    · simp [hx]

theorem next_interfaces (p : Program) (x : String) :
    p.index.interfaces.next x = ((p.class? x).map Class.interfaces).getD [] := by
  rw [Arrows.next_eq, p.index_eq, class?_eq_find?, ← successors_interfaceEdges p.distinct]
  rfl

/-! ## Lineages that have ended -/

theorem lineageUpTo_succ {n : Nat} {x : String} (h : (p.lineageUpTo n x).length < n) :
    p.lineageUpTo (n + 1) x = p.lineageUpTo n x := by
  fun_induction lineageUpTo p n x with
  | case1 => cases h
  | case2 n name hc => simp only [lineageUpTo, hc]
  | case3 n name c hc hs => simp only [lineageUpTo, hc, hs]
  | case4 n name c hc sup hs ih =>
    have hshort : (p.lineageUpTo n sup).length < n := by
      rw [List.length_cons] at h
      omega
    rw [lineageUpTo]
    simp only [hc, hs, ih hshort]

theorem lineageUpTo_of_le {n k : Nat} {x : String} (h : (p.lineageUpTo n x).length < n)
    (hle : n ≤ k) : p.lineageUpTo k x = p.lineageUpTo n x := by
  induction hle with
  | refl => rfl
  | @step k hle ih =>
    have hle : n ≤ k := hle
    rw [← ih]
    apply lineageUpTo_succ
    rw [ih]
    omega

theorem lineage_eq_upTo (hp : p.SuperAcyclic) {k : Nat} (hk : p.classes.length < k) (x : String) :
    p.lineage x = p.lineageUpTo k x := by
  have hends : (p.lineage x).length ≤ p.classes.length :=
    of_decide_eq_true (lineageEnds_of_superAcyclic hp x)
  exact (lineageUpTo_of_le (by rw [← lineage]; omega) hk).symm

/-! ## Agreement -/

/-- On these names two programs have classes of the same outline, and the supertypes of these classes
are among the names. -/
structure AgreeOn (p q : Program) (S : Set String) : Prop where
  outline : ∀ x ∈ S, (q.class? x).map Class.outline = (p.class? x).map Class.outline
  parents : ∀ x ∈ S, ∀ c, p.class? x = some c → ∀ y ∈ c.parents, y ∈ S

namespace AgreeOn

variable {x : String}

/-- What can be read off an outline is the same in both programs. -/
theorem bind_class? (h : p.AgreeOn q S) {β : Type} {f : Class → Option β}
    (hf : ∀ c, f c.outline = f c) (hx : x ∈ S) : (q.class? x).bind f = (p.class? x).bind f := by
  have hfactor : f = f ∘ Class.outline := funext fun c => (hf c).symm
  rw [hfactor, ← Option.bind_map, ← Option.bind_map, h.outline x hx]

theorem map_class? (h : p.AgreeOn q S) {β : Type} {f : Class → β} (hf : ∀ c, f c.outline = f c)
    (hx : x ∈ S) : (q.class? x).map f = (p.class? x).map f := by
  rw [Option.map_eq_bind, Option.map_eq_bind]
  exact h.bind_class? (fun c => congrArg some (hf c)) hx

theorem exists_class (h : p.AgreeOn q S) (hx : x ∈ S) {c : Class} (hc : p.class? x = some c) :
    ∃ d, q.class? x = some d ∧ d.outline = c.outline := by
  have heq := h.outline x hx
  rw [hc] at heq
  exact Option.map_eq_some_iff.mp heq

theorem symm (h : p.AgreeOn q S) : q.AgreeOn p S where
  outline x hx := (h.outline x hx).symm
  parents x hx d hd y hy := by
    have heq := h.map_class? (f := Class.parents) (fun _ => rfl) hx
    rw [hd] at heq
    obtain ⟨c, hc, hparents⟩ := Option.map_eq_some_iff.mp heq.symm
    exact h.parents x hx c hc y (hparents ▸ hy)

theorem hasClass (h : p.AgreeOn q S) (hx : x ∈ S) : q.hasClass x = p.hasClass x := by
  rw [Program.hasClass, Program.hasClass, ← Option.isSome_map (f := Class.outline), h.outline x hx,
    Option.isSome_map]

theorem isConcrete (h : p.AgreeOn q S) (hx : x ∈ S) : q.isConcrete x = p.isConcrete x := by
  have hflags := h.map_class? (f := fun c => !c.isInterface && !c.isAbstract) (fun _ => rfl) hx
  have hread : ∀ r : Program, r.isConcrete x =
      ((r.class? x).map (fun c => !c.isInterface && !c.isAbstract)).getD false := by
    intro r
    rw [Program.isConcrete]
    cases r.class? x <;> rfl
  rw [hread, hread, hflags]

theorem hasBody (h : p.AgreeOn q S) {r : MethodRef} (hr : r.owner ∈ S) :
    q.hasBody r = p.hasBody r := by
  have hbodies := h.bind_class? (f := fun c => (c.methods.find? (·.answers r)).map Method.hasBody)
    (fun c => by
      rw [Class.find?_outline, Option.map_map]
      exact congrArg (Option.map · _) (funext Method.hasBody_outline)) hr
  have hread : ∀ t : Program, t.hasBody r =
      ((t.class? r.owner).bind
        (fun c => (c.methods.find? (·.answers r)).map Method.hasBody)).getD false := by
    intro t
    rw [Program.hasBody, method?]
    cases t.class? r.owner with
    | none => rfl
    | some c => cases hm : c.methods.find? (·.answers r) <;> simp [hm]
  rw [hread, hread, hbodies]

theorem reaches (h : p.AgreeOn q S) (hx : x ∈ S) {y : String}
    (hpath : Reaches (parentEdges p.classes) x y) : Reaches (parentEdges q.classes) x y := by
  refine hpath.mono_on (S := S) (fun z hz w hw => ?_) hx
  obtain ⟨c, hc, hw⟩ := mem_parentEdges.mp hw
  obtain ⟨d, hd, hout⟩ := h.exists_class hz hc
  have hparents : d.outline.parents = c.outline.parents := congrArg Class.parents hout
  exact ⟨mem_parentEdges.mpr ⟨d, hd, hparents ▸ hw⟩, h.parents z hz c hc w hw⟩

theorem isSubtype (h : p.AgreeOn q S) (hx : x ∈ S) (y : String) :
    q.isSubtype x y = p.isSubtype x y := by
  rw [Bool.eq_iff_iff, isSubtype_iff, isSubtype_iff]
  exact ⟨h.symm.reaches hx, h.reaches hx⟩

/-- If the names cover one of the programs, it has no superclass cycle that the other has not. -/
theorem superAcyclic (h : p.AgreeOn q S) (hall : ∀ x, p.hasClass x = true → x ∈ S)
    (hq : q.SuperAcyclic) : p.SuperAcyclic := by
  have hedges : ∀ x y, (x, y) ∈ superEdges p.classes → (x, y) ∈ superEdges q.classes := by
    intro x y hedge
    obtain ⟨c, hc, hs⟩ := exists_of_mem_superEdges hedge
    obtain ⟨d, hd, hout⟩ := h.exists_class (hall x (by rw [Program.hasClass, hc]; rfl)) hc
    exact mem_superEdges hd ((congrArg Class.superName hout).trans hs)
  intro sub sup hedge hback
  refine hq sub sup (hedges sub sup hedge) (hback.mono_on (S := Set.univ) ?_ (Set.mem_univ sup))
  exact fun x _ y hxy => ⟨hedges x y hxy, Set.mem_univ y⟩

/-! ### Lineages and interfaces -/

theorem superName_mem (h : p.AgreeOn q S) (hx : x ∈ S) {c : Class} {sup : String}
    (hc : p.class? x = some c) (hs : c.superName = some sup) : sup ∈ S :=
  h.parents x hx c hc sup (by simp [Class.parents, hs])

theorem outline_lineageUpTo (h : p.AgreeOn q S) (n : Nat) (hx : x ∈ S) :
    (q.lineageUpTo n x).map Class.outline = (p.lineageUpTo n x).map Class.outline := by
  fun_induction lineageUpTo p n x with
  | case1 => rfl
  | case2 n name hc =>
    have hnone : q.class? name = none := by
      simpa [hc] using h.outline name hx
    simp only [lineageUpTo, hnone]
  | case3 n name c hc hs =>
    obtain ⟨d, hd, hout⟩ := h.exists_class hx hc
    have hsup : d.superName = none := (congrArg Class.superName hout).trans hs
    simp only [lineageUpTo, hd, hsup, List.map_cons, hout, List.map_nil]
  | case4 n name c hc sup hs ih =>
    obtain ⟨d, hd, hout⟩ := h.exists_class hx hc
    have hsup : d.superName = some sup := (congrArg Class.superName hout).trans hs
    simp only [lineageUpTo, hd, hsup, List.map_cons, hout, ih (h.superName_mem hx hc hs)]

theorem outline_lineage (h : p.AgreeOn q S) (hp : p.SuperAcyclic) (hq : q.SuperAcyclic)
    (hx : x ∈ S) : (q.lineage x).map Class.outline = (p.lineage x).map Class.outline := by
  have hleft := lineage_eq_upTo hp (Nat.lt_succ_of_le (Nat.le_max_left _ q.classes.length)) x
  have hright := lineage_eq_upTo hq (Nat.lt_succ_of_le (Nat.le_max_right p.classes.length _)) x
  rw [hleft, hright]
  exact h.outline_lineageUpTo _ hx

theorem mem_of_lineage (h : p.AgreeOn q S) (hx : x ∈ S) {d : Class} (hd : d ∈ p.lineage x) :
    d.name ∈ S := by
  obtain ⟨-, hpath⟩ := mem_lineageUpTo hd
  refine Reaches.stays (s := (· ∈ S)) (fun y hy z hz => ?_) hpath hx
  obtain ⟨c, hc, hs⟩ := exists_of_mem_superEdges hz
  exact h.superName_mem hy hc hs

theorem interfaces_mem (h : p.AgreeOn q S) (hx : x ∈ S) {c : Class} (hc : p.class? x = some c)
    {i : String} (hi : i ∈ c.interfaces) : i ∈ S :=
  h.parents x hx c hc i (List.mem_append_right _ hi)

theorem next_interfaces_mem (h : p.AgreeOn q S) (hx : x ∈ S) {i : String}
    (hi : i ∈ p.index.interfaces.next x) : i ∈ S := by
  rw [next_interfaces] at hi
  cases hc : p.class? x with
  | none => simp [hc] at hi
  | some c =>
    rw [hc] at hi
    exact h.interfaces_mem hx hc hi

theorem listed_mem (h : p.AgreeOn q S) (hx : x ∈ S) {i : String}
    (hi : i ∈ (p.lineage x).flatMap Class.interfaces) : i ∈ S := by
  obtain ⟨d, hd, hi⟩ := List.mem_flatMap.mp hi
  exact h.interfaces_mem (h.mem_of_lineage hx hd) (class?_name (mem_lineageUpTo hd).1) hi

theorem superInterfaces (h : p.AgreeOn q S) (hp : p.SuperAcyclic) (hq : q.SuperAcyclic)
    (hx : x ∈ S) : q.superInterfaces x = p.superInterfaces x := by
  have hlisted : (q.lineage x).flatMap Class.interfaces = (p.lineage x).flatMap Class.interfaces := by
    have hout := congrArg (·.flatMap Class.interfaces) (h.outline_lineage hp hq hx)
    simp only [List.flatMap_map] at hout
    exact hout
  have hnext : ∀ i ∈ S, q.index.interfaces.next i = p.index.interfaces.next i := by
    intro i hi
    rw [next_interfaces, next_interfaces, h.map_class? (fun _ => rfl) hi]
  rw [Program.superInterfaces, Program.superInterfaces, hlisted, reach, reach,
    walk_congr hnext (fun i hi j hj => h.next_interfaces_mem hi hj)
      (fun i hi => h.listed_mem hx hi) (fun i hi => absurd hi List.not_mem_nil)]

theorem mem_of_superInterfaces (h : p.AgreeOn q S) (hx : x ∈ S) {i : String}
    (hi : i ∈ p.superInterfaces x) : i ∈ S := by
  rw [Program.superInterfaces, Roster.mem_toList, mem_reach] at hi
  obtain ⟨j, hj, hpath⟩ := hi
  refine Reaches.stays (s := (· ∈ S)) (fun y hy z hz => ?_) hpath (h.listed_mem hx hj)
  exact h.next_interfaces_mem hy (Arrows.mem_next.mpr hz)

/-! ### Dispatch -/

theorem default? (h : p.AgreeOn q S) (hx : x ∈ S) (s : MethodRef) :
    q.default? x s = p.default? x s := by
  rw [Program.default?, Program.default?, h.bind_class? (fun c => c.implementation?_outline s) hx]
  cases hm : (p.class? x).bind (·.implementation? s) with
  | none => rfl
  | some m =>
    have howner : m.owner ∈ S := by
      obtain ⟨c, hc, himpl⟩ := Option.bind_eq_some_iff.mp hm
      rw [Class.owner_of_implementation? himpl, (mem_of_class? hc).2]
      exact hx
    rw [Option.filter_some, Option.filter_some, h.hasBody howner]

theorem dispatch (h : p.AgreeOn q S) (hp : p.SuperAcyclic) (hq : q.SuperAcyclic) (hx : x ∈ S)
    (s : MethodRef) : q.dispatch x s = p.dispatch x s := by
  have hnearest : (q.lineage x).findSome? (·.implementation? s) =
      (p.lineage x).findSome? (·.implementation? s) := by
    have hout := congrArg (·.findSome? (·.implementation? s)) (h.outline_lineage hp hq hx)
    simpa only [List.findSome?_map, Function.comp_def, Class.implementation?_outline] using hout
  have hinherited : q.inherited? x s = p.inherited? x s := by
    rw [inherited?, inherited?, h.superInterfaces hp hq hx, ← List.head?_filterMap,
      ← List.head?_filterMap]
    congr 1
    exact List.filterMap_congr (fun i hi => h.default? (h.mem_of_superInterfaces hx hi) s)
  rw [Program.dispatch, Program.dispatch, hnearest, hinherited, lineageEnds_of_superAcyclic hp,
    lineageEnds_of_superAcyclic hq]

theorem owner_of_dispatch (h : p.AgreeOn q S) (hx : x ∈ S) {s t : MethodRef}
    (ht : p.dispatch x s = .ok (some t)) : t.owner ∈ S := by
  unfold Program.dispatch at ht
  split at ht
  · rename_i m hm
    cases ht
    obtain ⟨c, hc, himpl⟩ := List.exists_of_findSome?_eq_some hm
    rw [Class.owner_of_implementation? himpl]
    exact h.mem_of_lineage hx hc
  · split at ht
    · obtain ⟨i, hi, hdefault⟩ := List.exists_of_findSome?_eq_some (Except.ok.inj ht)
      obtain ⟨c, hc, himpl⟩ := Option.bind_eq_some_iff.mp (Option.eq_some_of_filter_eq_some hdefault)
      rw [Class.owner_of_implementation? himpl, (mem_of_class? hc).2]
      exact h.mem_of_superInterfaces hx hi
    · cases ht

end AgreeOn

end Program

end Devirt
