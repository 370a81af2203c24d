import Devirt.Proofs.Lookup

/-!
# Defaults that are overridden

An interface can override a default of an interface that it extends. Dispatch does not look for
overriders: it takes the first default in the order of its search, also one that is overridden.

* `Program.Candidate p cs s i` : a superinterface with a default;
* `Program.Overridden p cs s i` : a more specific candidate overrides the default of `i`;
* `Program.MetBefore p x s k` : the search from `x` meets a default before it comes to `k`;
* `dispatch_specific_iff` : the default that is found is not overridden exactly if every overridden
  default has another one before it. An overrider is never nearer than the default that is found;
* `Program.Lineage.dispatch_of_listed_first` : a default of the interface that is listed first is
  always found, so it is enough that one below it is listed later (`dispatch_unspecific`).
-/

namespace Devirt

namespace Program

variable {p : Program} {x : String} {cs : List Class} {s : MethodRef} {i : String}

/-- A superinterface of the classes that has a default. -/
structure Candidate (p : Program) (cs : List Class) (s : MethodRef) (i : String) : Prop where
  reached : ∃ n, p.InterfaceSteps cs n i
  hasDefault : p.HasDefault i s

/-- Another candidate is below the interface, and the interface is not below it. -/
def Overridden (p : Program) (cs : List Class) (s : MethodRef) (i : String) : Prop :=
  ∃ j, j ≠ i ∧ p.Candidate cs s j ∧ p.isSubtype j i = true ∧ p.isSubtype i j = false

/-- The search meets an interface with a default before it comes to this one. -/
def MetBefore (p : Program) (x : String) (s : MethodRef) (k : String) : Prop :=
  ∃ before after, p.superInterfaces x = before ++ k :: after ∧ ∃ l ∈ before, p.HasDefault l s

theorem Lineage.inherited?_of_dispatch (h : p.Lineage x cs) (hnone : ∀ c ∈ cs, ¬ c.Implements s)
    {found : Option MethodRef} (hfound : p.dispatch x s = .ok found) : p.inherited? x s = found := by
  rw [h.dispatch_eq, findSome?_implementation_eq_none_iff.mpr hnone, Option.none_or,
    Except.ok.injEq] at hfound
  exact hfound

theorem nodup_superInterfaces (p : Program) (x : String) : (p.superInterfaces x).Nodup :=
  Roster.nodup_toList _

/-! ## The default that is found -/

section Found

variable (h : p.Lineage x cs) (hnone : ∀ c ∈ cs, ¬ c.Implements s)
  (hi : p.dispatch x s = .ok (some (s.withOwner i)))

include h hnone hi

/-- Nothing that the search meets before the default that it takes has one. -/
theorem Lineage.exists_split :
    ∃ before after, p.superInterfaces x = before ++ i :: after ∧ p.HasDefault i s ∧
      ∀ j ∈ before, ¬ p.HasDefault j s := by
  have hinherited := h.inherited?_of_dispatch hnone hi
  rw [inherited?, List.findSome?_eq_some_iff] at hinherited
  obtain ⟨before, j, after, hsplit, hj, hbefore⟩ := hinherited
  obtain ⟨hdefault, hmethod⟩ := default?_eq_some_iff.mp hj
  obtain rfl : i = j := congrArg MethodRef.owner hmethod
  exact ⟨before, after, hsplit, hdefault, fun k hk hdefault =>
    default?_ne_none_iff.mpr hdefault (hbefore k hk)⟩

theorem Lineage.not_metBefore : ¬ p.MetBefore x s i := by
  intro hmet
  obtain ⟨before, after, hsplit, -, hfirst⟩ := h.exists_split hnone hi
  obtain ⟨before', after', hsplit', l, hl, hdefault⟩ := hmet
  have hnodup := hsplit ▸ p.nodup_superInterfaces x
  rw [List.nodup_append, List.nodup_cons] at hnodup
  obtain ⟨-, ⟨hafter, -⟩, hbefore⟩ := hnodup
  have hbefore : i ∉ before := fun hmem => hbefore i hmem i List.mem_cons_self rfl
  -- the interface is met once, so both ways to split the search are the same
  obtain ⟨rfl, -⟩ :=
    (List.append_cons_inj_of_notMem hbefore hafter).mp (hsplit.symm.trans hsplit')
  exact hfirst l hl hdefault

/-- Every other candidate is met behind the one that is taken. -/
theorem Lineage.metBefore_of_ne {k : String} (hk : p.Candidate cs s k) (hne : k ≠ i) :
    p.MetBefore x s k := by
  obtain ⟨before, after, hsplit, hdefault, hfirst⟩ := h.exists_split hnone hi
  have hmem : k ∈ before ++ i :: after := hsplit ▸ h.mem_superInterfaces.mpr hk.reached
  have hafter : k ∈ after := by
    rcases List.mem_append.mp hmem with hmem | hmem
    · exact absurd hk.hasDefault (hfirst k hmem)
    · exact (List.mem_cons.mp hmem).resolve_left hne
  obtain ⟨between, behind, rfl⟩ := List.append_of_mem hafter
  exact ⟨before ++ i :: between, behind, by simpa using hsplit, i, by simp, hdefault⟩

theorem Lineage.candidate_of_dispatch : p.Candidate cs s i := by
  obtain ⟨before, after, hsplit, hdefault, -⟩ := h.exists_split hnone hi
  exact ⟨h.mem_superInterfaces.mp (hsplit ▸ by simp), hdefault⟩

end Found

/-- A default of the interface that is listed first is found, whatever else is listed. -/
theorem Lineage.dispatch_of_listed_first (h : p.Lineage x cs) (hnone : ∀ c ∈ cs, ¬ c.Implements s)
    {rest : List String} (hlisted : cs.flatMap Class.interfaces = i :: rest)
    (hi : p.HasDefault i s) : p.dispatch x s = .ok (some (s.withOwner i)) := by
  obtain ⟨more, hmore⟩ := exists_toList_reach_cons p.index.interfaces i rest
  have hfound : p.inherited? x s = some (s.withOwner i) := by
    rw [inherited?, superInterfaces, h.lineage_eq, hlisted, hmore, List.findSome?_cons,
      default?_eq_some_iff.mpr ⟨hi, rfl⟩]
  rw [h.dispatch_eq, findSome?_implementation_eq_none_iff.mpr hnone, Option.none_or, hfound]

end Program

/-- No class of the lineage implements the signature, and a default is found. It is not overridden
exactly if the search meets every overridden default behind some other one. No candidate is nearer to
the class than the default that is found, so an overrider is passed over only if a way that is not
longer leads around it. -/
theorem dispatch_specific_iff (p : Program) {x : String} {cs : List Class} (hx : p.Lineage x cs)
    {s : MethodRef} (hnone : ∀ c ∈ cs, ¬ c.Implements s) {i : String}
    (hi : p.dispatch x s = .ok (some (s.withOwner i))) :
    (¬ p.Overridden cs s i ↔
      ∀ k, p.Candidate cs s k → p.Overridden cs s k → p.MetBefore x s k) ∧
    ∀ j n, p.Candidate cs s j → p.InterfaceSteps cs n j → ∃ k ≤ n, p.InterfaceSteps cs k i := by
  refine ⟨⟨fun hspecific k hk hoverridden => ?_, fun hmet hoverridden => ?_⟩, fun j n hj hn => ?_⟩
  · have hne : k ≠ i := by
      intro he
      exact hspecific (he ▸ hoverridden)
    exact hx.metBefore_of_ne hnone hi hk hne
  · have hcandidate := hx.candidate_of_dispatch hnone hi
    exact hx.not_metBefore hnone hi (hmet i hcandidate hoverridden)
  · obtain ⟨i', k, hmethod, -, hsteps, hfewest⟩ :=
      hx.nearest_of_inherited? (hx.inherited?_of_dispatch hnone hi)
    obtain rfl : i = i' := congrArg MethodRef.owner hmethod
    exact ⟨k, hfewest j n hj.hasDefault hn, hsteps⟩

/-! ## Two orders of the same interfaces -/

/-- The greeting of an interface or of a class that has none. -/
def greeting : MethodRef := ⟨"Greeter", "greet", "()V"⟩

def greetingInterface (name : String) (interfaces : List String) : Class where
  name := name
  interfaces := interfaces
  isInterface := true
  isAbstract := true
  methods := [{ name := "greet", descriptor := "()V", body := some [] }]

/-- A class that lists both interfaces, the overridden one first. -/
def greetingHost : Class where
  name := "Host"
  interfaces := ["Greeter", "Polite"]

/-- A class that lists both interfaces, the overridden one last. -/
def greetingGuest : Class where
  name := "Guest"
  interfaces := ["Polite", "Greeter"]

/-- An interface, one that extends it and overrides its default, and two classes that list both. -/
def greetingProgram : Program where
  classes := [greetingInterface "Greeter" [], greetingInterface "Polite" ["Greeter"], greetingHost,
    greetingGuest]
  entryPoints := []

theorem polite_isSubtype_greeter : greetingProgram.isSubtype "Polite" "Greeter" = true :=
  Program.isSubtype_iff.mpr (.head (by decide) (.refl _))

theorem greeter_not_isSubtype_polite : greetingProgram.isSubtype "Greeter" "Polite" = false := by
  rw [Bool.eq_false_iff, ne_eq, Program.isSubtype_iff]
  intro hpath
  have htop : ∀ e ∈ parentEdges greetingProgram.classes, e.1 ≠ "Greeter" := by decide
  have hstays : "Polite" = "Greeter" :=
    hpath.stays (s := (· = "Greeter")) (fun x hx y hy => absurd hx (htop _ hy)) rfl
  exact absurd hstays (by decide)

theorem lineage_host : greetingProgram.Lineage "Host" [greetingHost] := .top rfl rfl

theorem lineage_guest : greetingProgram.Lineage "Guest" [greetingGuest] := .top rfl rfl

theorem eq_of_candidate_guest {i : String}
    (h : greetingProgram.Candidate [greetingGuest] greeting i) : i = "Polite" ∨ i = "Greeter" := by
  have hlisted : ∀ i ∈ [greetingGuest].flatMap Class.interfaces, i = "Polite" ∨ i = "Greeter" := by
    decide
  have hextended : ∀ e ∈ interfaceEdges greetingProgram.classes,
      e.2 = "Polite" ∨ e.2 = "Greeter" := by decide
  obtain ⟨⟨n, hsteps⟩, -⟩ := h
  cases hsteps with
  | start mem => exact hlisted i mem
  | step _ edge => exact hextended _ edge

/-- The interface that is listed last is met behind the other one, and only it is overridden. -/
theorem dispatch_specific_iff_guest :
    greetingProgram.Lineage "Guest" [greetingGuest] ∧
      (∀ c ∈ [greetingGuest], ¬ c.Implements greeting) ∧
      greetingProgram.dispatch "Guest" greeting = .ok (some (greeting.withOwner "Polite")) ∧
      ¬ greetingProgram.Overridden [greetingGuest] greeting "Polite" := by
  have hnone : ∀ c ∈ [greetingGuest], ¬ c.Implements greeting := by decide
  have hfound := lineage_guest.dispatch_of_listed_first hnone rfl
    (by decide : greetingProgram.HasDefault "Polite" greeting)
  refine ⟨lineage_guest, hnone, hfound,
    (dispatch_specific_iff greetingProgram lineage_guest hnone hfound).1.mpr ?_⟩
  intro k hk hoverridden
  rcases eq_of_candidate_guest hk with rfl | rfl
  · obtain ⟨j, hne, hj, hbelow, -⟩ := hoverridden
    obtain rfl := (eq_of_candidate_guest hj).resolve_left hne
    rw [greeter_not_isSubtype_polite] at hbelow
    cases hbelow
  · exact lineage_guest.metBefore_of_ne hnone hfound hk (by decide)

/-- A default is found although a more specific interface, listed later, overrides it. -/
theorem dispatch_unspecific :
    greetingProgram.SuperAcyclic ∧ greetingProgram.Lineage "Host" [greetingHost] ∧
      (∀ c ∈ [greetingHost], ¬ c.Implements greeting) ∧
      greetingProgram.dispatch "Host" greeting = .ok (some (greeting.withOwner "Greeter")) ∧
      greetingProgram.Overridden [greetingHost] greeting "Greeter" := by
  have hnone : ∀ c ∈ [greetingHost], ¬ c.Implements greeting := by decide
  have hfound := lineage_host.dispatch_of_listed_first hnone rfl
    (by decide : greetingProgram.HasDefault "Greeter" greeting)
  have hpolite : greetingProgram.Candidate [greetingHost] greeting "Polite" :=
    ⟨⟨0, .start (by decide)⟩, by decide⟩
  exact ⟨by decide, lineage_host, hnone, hfound, "Polite", by decide, hpolite,
    polite_isSubtype_greeter, greeter_not_isSubtype_polite⟩

end Devirt
