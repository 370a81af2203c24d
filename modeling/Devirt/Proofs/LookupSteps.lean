import Devirt.Proofs.Lookup
import Mathlib.Computability.StateTransition

/-!
# Lookups step by step

A lookup asks a class and its superclasses without noting where it has been, so on a superclass cycle it
need not end. This module takes it apart into steps, says exactly when it ends, and that
`Program.dispatch` tells.

* `LookupState`, `Program.lookupStep p x s` : the three loops of a lookup of `s` on objects of `x`. The
  classes are asked upwards, then the interfaces that they list are gathered, and these are asked in a
  queue. `Program.lookup p x s` is where the steps end, if they do;
* `Program.Nearest p s x before c` : from `x` on, superclasses lead through the classes `before`, which
  do not implement `s`, to `c`, which does. This is so, on a cycle too, if any class above implements
  it (`exists_nearest`);
* a lookup has a nearest implementation, or a lineage without one (`leads_above_iff`), or it is
  `Program.Endless` (`lookup_cases`). In each case its end and the answer of dispatch are the same;
* `dispatch_ends_iff` : all of this for every program, class and signature.
-/

namespace Devirt

/-! ## Steps -/

inductive LookupState where
  /-- Classes are asked upwards, and this one is next. -/
  | climbing (next : Option String)
  /-- The same classes are gone through for the interfaces that they list. -/
  | gathering (next : Option Class) (listed : List String)
  /-- The interfaces of a queue are asked, unless they have been. -/
  | asking (queue : List String) (seen : Roster String)
  | done (found : Option MethodRef)

namespace Program

/-- The next step of the lookup of a signature on objects of a class. -/
def lookupStep (p : Program) (x : String) (s : MethodRef) : LookupState → Option LookupState
  | .climbing (some y) =>
    match (p.class? y).bind (·.implementation? s) with
    | some m => some (.done (some m))
    | none => some (.climbing ((p.class? y).bind (·.superName)))
  | .climbing none => some (.gathering (p.class? x) [])
  | .gathering (some c) listed =>
    some (.gathering (c.superName.bind p.class?) (listed ++ c.interfaces))
  | .gathering none listed => some (.asking listed ∅)
  | .asking [] _ => some (.done none)
  | .asking (i :: queue) seen =>
    if seen.contains i then some (.asking queue seen)
    else
      match p.default? i s with
      | some m => some (.done (some m))
      | none =>
        some (.asking (queue ++ ((p.class? i).map Class.interfaces).getD []) (seen.insert i))
  | .done _ => none

def Leads (p : Program) (x : String) (s : MethodRef) : LookupState → LookupState → Prop :=
  StateTransition.Reaches (p.lookupStep x s)

/-- The state in which a lookup ends; none if it never ends. -/
def lookup (p : Program) (x : String) (s : MethodRef) : Part LookupState :=
  StateTransition.eval (p.lookupStep x s) (.climbing (some x))

variable {p : Program} {x y : String} {s : MethodRef} {cs before : List Class} {c : Class}

theorem lookup_eq_some {found : Option MethodRef}
    (h : p.Leads x s (.climbing (some x)) (.done found)) : p.lookup x s = .some (.done found) :=
  Part.eq_some_iff.mpr (StateTransition.mem_eval.mpr ⟨h, rfl⟩)

/-! ## Asking classes -/

theorem lookupStep_hit (hc : p.class? y = some c) (hi : c.Implements s) :
    p.lookupStep x s (.climbing (some y)) = some (.done (some (s.withOwner c.name))) := by
  have hfound := Class.implementation?_eq_some_iff.mpr ⟨hi, rfl⟩
  simp only [lookupStep, hc, Option.bind_some, hfound]

theorem lookupStep_miss (hc : p.class? y = some c) (hmiss : ¬ c.Implements s) :
    p.lookupStep x s (.climbing (some y)) = some (.climbing c.superName) := by
  have hnone := Class.implementation?_eq_none_iff.mpr hmiss
  simp only [lookupStep, hc, Option.bind_some, hnone]

theorem lookupStep_undefined (h : p.class? y = none) :
    p.lookupStep x s (.climbing (some y)) = some (.climbing none) := by
  simp only [lookupStep, h, Option.bind_none]

/-- Superclasses lead from a name through classes that do not implement a signature to one that
does. -/
inductive Nearest (p : Program) (s : MethodRef) : String → List Class → Class → Prop where
  | here {x : String} {c : Class} (found : p.class? x = some c) (hit : c.Implements s) :
    Nearest p s x [] c
  | above {x y : String} {b c : Class} {before : List Class} (found : p.class? x = some b)
    (miss : ¬ b.Implements s) (next : b.superName = some y) (rest : Nearest p s y before c) :
    Nearest p s x (b :: before) c

namespace Nearest

theorem unique {ds : List Class} {d : Class} (h : p.Nearest s x before c)
    (h' : p.Nearest s x ds d) : before = ds ∧ c = d := by
  induction h generalizing ds with
  | here found hit =>
    cases h' with
    | here found' => exact ⟨rfl, Option.some_inj.mp (found.symm.trans found')⟩
    | above found' miss =>
      cases found.symm.trans found'
      exact absurd hit miss
  | above found miss next rest ih =>
    cases h' with
    | here found' hit =>
      cases found.symm.trans found'
      exact absurd hit miss
    | above found' _ next' rest' =>
      cases found.symm.trans found'
      cases next.symm.trans next'
      obtain ⟨rfl, rfl⟩ := ih rest'
      exact ⟨rfl, rfl⟩

theorem exists_suffix (h : p.Nearest s x before c) {b : Class} (hb : b ∈ before) :
    ∃ ds, p.Nearest s b.name ds c ∧ ds <:+ before := by
  induction h with
  | here => cases hb
  | @above x y d c ds found miss next rest ih =>
    rcases List.mem_cons.mp hb with rfl | hb
    · rw [(mem_of_class? found).2]
      exact ⟨_, .above found miss next rest, List.suffix_refl _⟩
    · obtain ⟨es, hes, hsuffix⟩ := ih hb
      exact ⟨es, hes, hsuffix.trans (List.suffix_cons d ds)⟩

/-- A class that came twice would have two distances from the implementation. -/
theorem nodup (h : p.Nearest s x before c) : (before.map Class.name).Nodup := by
  induction h with
  | here => exact List.nodup_nil
  | @above x y b c ds found miss next rest ih =>
    rw [List.map_cons, List.nodup_cons]
    refine ⟨fun hmem => ?_, ih⟩
    obtain ⟨d, hd, hname⟩ := List.mem_map.mp hmem
    obtain ⟨es, hes, hsuffix⟩ := rest.exists_suffix hd
    rw [hname, (mem_of_class? found).2] at hes
    have hlength := hsuffix.length_le
    rw [(hes.unique (.above found miss next rest)).1, List.length_cons] at hlength
    omega

theorem mem_classes (h : p.Nearest s x before c) {b : Class} (hb : b ∈ before) :
    b ∈ p.classes := by
  induction h with
  | here => cases hb
  | above found _ _ _ ih =>
    rcases List.mem_cons.mp hb with rfl | hb
    · exact (mem_of_class? found).1
    · exact ih hb

theorem not_implements (h : p.Nearest s x before c) {b : Class} (hb : b ∈ before) :
    ¬ b.Implements s := by
  induction h with
  | here => cases hb
  | above _ miss _ _ ih =>
    rcases List.mem_cons.mp hb with rfl | hb
    · exact miss
    · exact ih hb

theorem implements (h : p.Nearest s x before c) : c.Implements s := by
  induction h with
  | here _ hit => exact hit
  | above _ _ _ _ ih => exact ih

theorem reaches (h : p.Nearest s x before c) :
    Reaches (superEdges p.classes) x c.name ∧ p.class? c.name = some c := by
  induction h with
  | here found =>
    rw [(mem_of_class? found).2]
    exact ⟨.refl _, found⟩
  | above found _ next _ ih => exact ⟨.head (mem_superEdges found next) ih.1, ih.2⟩

theorem length_le (h : p.Nearest s x before c) : before.length ≤ p.classes.length := by
  have hsub : before.map Class.name ⊆ p.classes.map Class.name := by
    intro name hname
    obtain ⟨b, hb, rfl⟩ := List.mem_map.mp hname
    exact List.mem_map_of_mem (h.mem_classes hb)
  simpa only [List.length_map] using (List.subperm_of_subset h.nodup hsub).length_le

theorem exists_lineageUpTo (h : p.Nearest s x before c) {n : Nat} (hn : before.length < n) :
    ∃ after, p.lineageUpTo n x = before ++ c :: after := by
  induction h generalizing n with
  | @here x c found hit =>
    obtain ⟨k, rfl⟩ : ∃ k, n = k + 1 := Nat.exists_eq_add_one.mpr hn
    cases hs : c.superName with
    | none => exact ⟨[], by simp only [lineageUpTo, found, hs, List.nil_append]⟩
    | some y => exact ⟨p.lineageUpTo k y, by simp only [lineageUpTo, found, hs, List.nil_append]⟩
  | above found _ next _ ih =>
    rw [List.length_cons] at hn
    obtain ⟨k, rfl⟩ : ∃ k, n = k + 1 := Nat.exists_eq_add_one.mpr (by omega)
    obtain ⟨after, hafter⟩ := ih (n := k) (by omega)
    exact ⟨after, by simp only [lineageUpTo, found, next, hafter, List.cons_append]⟩

/-- The bound on a lineage leaves room for the nearest implementation, on a cycle too. -/
theorem dispatch_eq (h : p.Nearest s x before c) :
    p.dispatch x s = .ok (some (s.withOwner c.name)) := by
  obtain ⟨after, hafter⟩ := h.exists_lineageUpTo (Nat.lt_succ_of_le h.length_le)
  rw [dispatch, lineage,
    findSome?_of_nearest hafter (fun b hb => h.not_implements hb) h.implements]

theorem leads (h : p.Nearest s y before c) :
    p.Leads x s (.climbing (some y)) (.done (some (s.withOwner c.name))) := by
  induction h with
  | here found hit => exact .single (lookupStep_hit found hit)
  | above found miss next _ ih => exact .head (next ▸ lookupStep_miss found miss) ih

end Nearest

/-- If some class above a name implements a signature, then one is nearest. -/
theorem exists_nearest (hpath : Reaches (superEdges p.classes) x y) (hc : p.class? y = some c)
    (hi : c.Implements s) : ∃ before d, p.Nearest s x before d := by
  induction hpath with
  | refl => exact ⟨[], c, .here hc hi⟩
  | head edge _ ih =>
    obtain ⟨b, hb, hsup⟩ := exists_of_mem_superEdges edge
    obtain ⟨before, d, hnearest⟩ := ih hc
    by_cases himpl : b.Implements s
    · exact ⟨[], b, .here hb himpl⟩
    · exact ⟨b :: before, d, .above hb himpl hsup hnearest⟩

theorem exists_nearest_iff : (∃ before c, p.Nearest s x before c) ↔
    ∃ y c, Reaches (superEdges p.classes) x y ∧ p.class? y = some c ∧ c.Implements s := by
  constructor
  · rintro ⟨before, c, h⟩
    exact ⟨c.name, c, h.reaches.1, h.reaches.2, h.implements⟩
  · rintro ⟨y, c, hpath, hc, hi⟩
    exact exists_nearest hpath hc hi

theorem exists_lineage_iff : (∃ cs, p.Lineage x cs) ↔
    ∃ y, Reaches (superEdges p.classes) x y ∧ ∀ c, p.class? y = some c → c.superName = none := by
  constructor
  · rintro ⟨cs, h⟩
    induction h with
    | @undefined x missing =>
      exact ⟨x, .refl x, fun c hc => by cases missing.symm.trans hc⟩
    | @top x c found last =>
      refine ⟨x, .refl x, fun d hd => ?_⟩
      cases found.symm.trans hd
      exact last
    | super found next _ ih =>
      obtain ⟨z, hpath, hz⟩ := ih
      exact ⟨z, .head (mem_superEdges found next) hpath, hz⟩
  · rintro ⟨y, hpath, htop⟩
    induction hpath with
    | refl x =>
      cases hc : p.class? x with
      | none => exact ⟨[], .undefined hc⟩
      | some c => exact ⟨[c], .top hc (htop c hc)⟩
    | head edge _ ih =>
      obtain ⟨b, hb, hsup⟩ := exists_of_mem_superEdges edge
      obtain ⟨cs, hcs⟩ := ih htop
      exact ⟨b :: cs, .super hb hsup hcs⟩

/-- All classes are asked and none answers exactly if they end and none implements the signature. -/
theorem leads_above_iff : p.Leads x s (.climbing (some y)) (.climbing none) ↔
    ∃ cs, p.Lineage y cs ∧ ∀ c ∈ cs, ¬ c.Implements s := by
  constructor
  · intro h
    generalize hstart : LookupState.climbing (some y) = start at h
    induction h using Relation.ReflTransGen.head_induction_on generalizing y with
    | refl => cases hstart
    | @head start between step path ih =>
      subst hstart
      cases hc : p.class? y with
      | none => exact ⟨[], .undefined hc, by simp⟩
      | some c =>
        by_cases hi : c.Implements s
        · -- the lookup would be done, and nothing comes after that
          cases (lookupStep_hit hc hi).symm.trans step
          cases path using Relation.ReflTransGen.head_induction_on with
          | head step _ => cases step
        · obtain rfl := Option.some_inj.mp ((lookupStep_miss hc hi).symm.trans step)
          cases hs : c.superName with
          | none => exact ⟨[c], .top hc hs, by simpa using hi⟩
          | some z =>
            obtain ⟨cs, hlineage, hnone⟩ := ih (y := z) (by rw [hs])
            exact ⟨c :: cs, .super hc hs hlineage, List.forall_mem_cons.mpr ⟨hi, hnone⟩⟩
  · rintro ⟨cs, h, hnone⟩
    induction h with
    | undefined missing => exact .single (lookupStep_undefined missing)
    | top found last => exact .single (last ▸ lookupStep_miss found (hnone _ List.mem_cons_self))
    | super found next _ ih =>
      refine .head (next ▸ lookupStep_miss found (hnone _ List.mem_cons_self)) (ih fun c hc => ?_)
      exact hnone c (List.mem_cons_of_mem _ hc)

/-! ## Asking interfaces -/

/-- Once more through the lineage. -/
theorem Lineage.leads_listed (h : p.Lineage y cs) (listed : List String) :
    p.Leads x s (.gathering (p.class? y) listed)
      (.asking (listed ++ cs.flatMap Class.interfaces) ∅) := by
  induction h generalizing listed with
  | undefined missing =>
    rw [missing, List.flatMap_nil, List.append_nil]
    exact .single rfl
  | @top x c found last =>
    rw [found]
    refine .head (b := .gathering none (listed ++ c.interfaces)) ?_ (.single ?_)
    · simp only [lookupStep, last, Option.bind_none, Option.mem_some_iff]
    · simp only [lookupStep, List.flatMap_cons, List.flatMap_nil, List.append_nil,
        Option.mem_some_iff]
  | @super x z c cs found next _ ih =>
    rw [found, List.flatMap_cons, ← List.append_assoc]
    refine .head ?_ (ih (listed ++ c.interfaces))
    simp only [lookupStep, next, Option.bind_some, Option.mem_some_iff]

/-- The queue is that of a walk: it ends on every graph of interfaces, with the first default that the
walk finds. -/
theorem leads_walk (front back : List String) (seen : Roster String) :
    ∃ new, (walk p.index.interfaces front back seen).toList = seen.toList ++ new ∧
      p.Leads x s (.asking (front ++ back.reverse) seen)
        (.done (new.findSome? (fun i => p.default? i s))) := by
  fun_induction walk p.index.interfaces front back seen with
  | case1 back seen hempty =>
    rw [List.isEmpty_iff.mp hempty]
    exact ⟨[], (List.append_nil _).symm, .single rfl⟩
  | case2 back seen hbusy ih =>
    simp only [List.unattach_reverse, List.unattach_attach] at ih
    simpa using ih
  | case3 back seen i rest hi ih =>
    obtain ⟨new, hnew, hleads⟩ := ih
    refine ⟨new, hnew, .head ?_ hleads⟩
    simp only [List.cons_append, lookupStep, hi, if_true, Option.mem_some_iff]
  | case4 back seen i rest hi ih =>
    obtain ⟨new, hnew, hleads⟩ := ih
    have hfresh : i ∉ seen := fun hmem => hi (Roster.contains_iff.mpr hmem)
    rw [Roster.toList_insert, if_neg hfresh, List.append_assoc, List.singleton_append] at hnew
    refine ⟨i :: new, hnew, ?_⟩
    rw [List.findSome?_cons]
    cases hdefault : p.default? i s with
    | some m =>
      refine .single ?_
      simp only [List.cons_append, lookupStep, hi, hdefault]
      rfl
    | none =>
      refine .head ?_ hleads
      simp only [List.cons_append, lookupStep, hi, hdefault, next_interfaces]
      simp

theorem Lineage.leads_inherited (h : p.Lineage x cs) :
    p.Leads x s (.asking (cs.flatMap Class.interfaces) ∅) (.done (p.inherited? x s)) := by
  obtain ⟨new, hnew, hleads⟩ := leads_walk (p := p) (x := x) (s := s)
    (cs.flatMap Class.interfaces) [] ∅
  rw [Roster.toList_empty, List.nil_append] at hnew
  rw [inherited?, superInterfaces, h.lineage_eq, reach, hnew]
  simpa using hleads

/-- When all classes have been asked, the rest of the lookup ends. -/
theorem Lineage.leads_done (h : p.Lineage x cs) :
    p.Leads x s (.climbing none) (.asking (cs.flatMap Class.interfaces) ∅) ∧
      p.Leads x s (.asking (cs.flatMap Class.interfaces) ∅) (.done (p.inherited? x s)) := by
  have hlisted := h.leads_listed (x := x) (s := s) []
  rw [List.nil_append] at hlisted
  exact ⟨.head rfl hlisted, h.leads_inherited⟩

/-! ## Lookups that never end -/

/-- No class from a name on implements a signature, and the superclasses do not end. -/
structure Endless (p : Program) (s : MethodRef) (x : String) : Prop where
  noHit : ∀ before c, ¬ p.Nearest s x before c
  noTop : ∀ cs, ¬ p.Lineage x cs

namespace Endless

theorem step (h : p.Endless s y) :
    ∃ z, p.lookupStep x s (.climbing (some y)) = some (.climbing (some z)) ∧ p.Endless s z := by
  cases hc : p.class? y with
  | none => exact absurd (.undefined hc) (h.noTop [])
  | some c =>
    have hmiss : ¬ c.Implements s := fun hi => h.noHit [] c (.here hc hi)
    cases hs : c.superName with
    | none => exact absurd (.top hc hs) (h.noTop [c])
    | some z =>
      refine ⟨z, ?_, fun before d hz => ?_, fun cs hz => ?_⟩
      · rw [lookupStep_miss hc hmiss, hs]
      · exact h.noHit (c :: before) d (.above hc hmiss hs hz)
      · exact h.noTop (c :: cs) (.super hc hs hz)

theorem exists_of_leads (h : p.Endless s y) {state : LookupState}
    (hleads : p.Leads x s (.climbing (some y)) state) :
    ∃ z, state = .climbing (some z) ∧ p.Endless s z := by
  induction hleads with
  | refl => exact ⟨y, rfl, h⟩
  | tail _ step ih =>
    obtain ⟨z, rfl, hz⟩ := ih
    obtain ⟨w, hstep, hw⟩ := hz.step (x := x)
    obtain rfl := Option.some_inj.mp (hstep.symm.trans step)
    exact ⟨w, rfl, hw⟩

theorem not_dom (h : p.Endless s x) : ¬ (p.lookup x s).Dom := by
  intro hdom
  obtain ⟨state, hstate⟩ := Part.dom_iff_mem.mp hdom
  obtain ⟨hleads, hlast⟩ := StateTransition.mem_eval.mp hstate
  obtain ⟨z, rfl, hz⟩ := h.exists_of_leads hleads
  obtain ⟨w, hstep, -⟩ := hz.step (x := x)
  cases hstep.symm.trans hlast

theorem dispatch_eq (h : p.Endless s x) : p.dispatch x s = .error (.endlessLookup x s) := by
  have hnone : (p.lineage x).findSome? (·.implementation? s) = none := by
    rw [findSome?_implementation_eq_none_iff]
    intro c hc hi
    obtain ⟨hmem, hpath⟩ := mem_lineageUpTo hc
    obtain ⟨before, d, hnearest⟩ := exists_nearest hpath (class?_name hmem) hi
    exact h.noHit before d hnearest
  have hends : ¬ p.lineageEnds x = true := fun hends => h.noTop _ (lineage_iff.mpr ⟨hends, rfl⟩)
  rw [dispatch, hnone, if_neg hends]

end Endless

theorem not_endless_iff : ¬ p.Endless s x ↔
    (∃ before c, p.Nearest s x before c) ∨ ∃ cs, p.Lineage x cs := by
  constructor
  · intro h
    by_contra hnone
    rw [not_or] at hnone
    exact h ⟨fun before c hc => hnone.1 ⟨before, c, hc⟩, fun cs hcs => hnone.2 ⟨cs, hcs⟩⟩
  · rintro (⟨before, c, h⟩ | ⟨cs, h⟩) hendless
    · exact hendless.noHit before c h
    · exact hendless.noTop cs h

theorem lookup_cases (p : Program) (x : String) (s : MethodRef) :
    (∃ before c, p.Nearest s x before c) ∨
      (∃ cs, p.Lineage x cs ∧ ∀ c ∈ cs, ¬ c.Implements s) ∨ p.Endless s x := by
  by_cases hhit : ∃ before c, p.Nearest s x before c
  · exact .inl hhit
  by_cases hendless : p.Endless s x
  · exact .inr (.inr hendless)
  obtain ⟨cs, hcs⟩ := (not_endless_iff.mp hendless).resolve_left hhit
  refine .inr (.inl ⟨cs, hcs, fun c hc hi => hhit ?_⟩)
  rw [← hcs.lineage_eq] at hc
  obtain ⟨hmem, hpath⟩ := mem_lineageUpTo hc
  exact exists_nearest hpath (class?_name hmem) hi

theorem exists_lookup (h : ¬ p.Endless s x) :
    ∃ found, p.lookup x s = .some (.done found) ∧ p.dispatch x s = .ok found := by
  rcases p.lookup_cases x s with ⟨before, c, hc⟩ | ⟨cs, hcs, hnone⟩ | hendless
  · exact ⟨_, lookup_eq_some hc.leads, hc.dispatch_eq⟩
  · have hasked : p.Leads x s (.climbing (some x)) (.climbing none) :=
      leads_above_iff.mpr ⟨cs, hcs, hnone⟩
    obtain ⟨hlisted, hdone⟩ := hcs.leads_done (s := s)
    refine ⟨_, lookup_eq_some ((hasked.trans hlisted).trans hdone), ?_⟩
    rw [hcs.dispatch_eq, findSome?_implementation_eq_none_iff.mpr hnone, Option.none_or]
  · exact absurd hendless h

theorem dom_lookup_iff : (p.lookup x s).Dom ↔ ¬ p.Endless s x := by
  constructor
  · exact fun hdom hendless => hendless.not_dom hdom
  · intro h
    obtain ⟨found, hfound, -⟩ := exists_lookup h
    rw [hfound]
    trivial

theorem dispatch_eq_ok_iff {found : Option MethodRef} :
    p.dispatch x s = .ok found ↔ p.lookup x s = .some (.done found) := by
  by_cases hendless : p.Endless s x
  · rw [hendless.dispatch_eq]
    constructor
    · intro h
      cases h
    · intro h
      refine absurd ?_ hendless.not_dom
      rw [h]
      trivial
  · obtain ⟨found', hfound, hdispatch⟩ := exists_lookup hendless
    rw [hfound, hdispatch, Except.ok.injEq, Part.some_inj, LookupState.done.injEq]

theorem dispatch_eq_error_iff :
    p.dispatch x s = .error (.endlessLookup x s) ↔ p.Endless s x := by
  constructor
  · intro h
    by_contra hends
    obtain ⟨found, -, hdispatch⟩ := exists_lookup hends
    cases h.symm.trans hdispatch
  · exact Endless.dispatch_eq

end Program

/-- For every program, class and signature. The lookup ends exactly if the class or one above it by
superclasses implements the signature, or if the superclasses come to a class without superclass or to
a name that is not defined. Dispatch gives the answer of a lookup that ends, and says of any other that
it is endless. If all classes have been asked without a hit, then both loops over interfaces end,
whatever the interfaces extend. If some class above implements the signature, on a cycle or not, then
the nearest implementation is the answer. -/
theorem dispatch_ends_iff (p : Program) (x : String) (s : MethodRef) :
    ((p.lookup x s).Dom ↔
      (∃ y c, Reaches (superEdges p.classes) x y ∧ p.class? y = some c ∧ c.Implements s) ∨
      ∃ y, Reaches (superEdges p.classes) x y ∧ ∀ c, p.class? y = some c → c.superName = none) ∧
    (∀ found, p.dispatch x s = .ok found ↔ p.lookup x s = .some (.done found)) ∧
    (p.dispatch x s = .error (.endlessLookup x s) ↔ ¬ (p.lookup x s).Dom) ∧
    (p.Leads x s (.climbing (some x)) (.climbing none) → ∃ listed found,
      p.Leads x s (.climbing none) (.asking listed ∅) ∧
      p.Leads x s (.asking listed ∅) (.done found)) ∧
    ∀ y c, Reaches (superEdges p.classes) x y → p.class? y = some c → c.Implements s →
      ∃ before d, p.Nearest s x before d ∧ p.dispatch x s = .ok (some (s.withOwner d.name)) := by
  refine ⟨?_, fun found => Program.dispatch_eq_ok_iff, ?_, fun hasked => ?_, fun y c hy hc hi => ?_⟩
  · rw [Program.dom_lookup_iff, Program.not_endless_iff, Program.exists_nearest_iff,
      Program.exists_lineage_iff]
  · rw [Program.dispatch_eq_error_iff, Program.dom_lookup_iff, not_not]
  · obtain ⟨cs, hcs, -⟩ := Program.leads_above_iff.mp hasked
    exact ⟨_, _, hcs.leads_done⟩
  · obtain ⟨before, d, hnearest⟩ := Program.exists_nearest hy hc hi
    exact ⟨before, d, hnearest, hnearest.dispatch_eq⟩

/-- Two classes that extend each other: what one of them implements is found from the other, and a
lookup of anything else never ends. -/
example :
    let p := Program.new [{ name := "A", superName := some "B" },
      { name := "B", superName := some "A",
        methods := [{ name := "draw", descriptor := "()V", body := some [] }] }] []
    p.dispatch "A" ⟨"A", "draw", "()V"⟩ = .ok (some ⟨"B", "draw", "()V"⟩) ∧
      p.dispatch "A" ⟨"A", "size", "()I"⟩ = .error (.endlessLookup "A" ⟨"A", "size", "()I"⟩) :=
  ⟨rfl, rfl⟩

end Devirt
