import Devirt.Proofs.Precision
import Mathlib.Algebra.BigOperators.Group.List.Basic

/-!
# The rounds of an analysis

Which methods an analysis walks through, and in which round.

* `Drains p s now ms later` : draining walks through the methods `ms`, in this order;
  `Rounds p s now rounds done` : so do the rounds up to the last one, list by list;
* `Took p t ms t'` : from the traversal `t` to `t'` the methods `ms` have been taken, none of them
  twice and none that `t` had taken. One step: `took_next`, `Linked.took`; all steps: `Drains.took`,
  `Rounds.took`;
* `Orderly p rounds done` : every method with code that is reached is walked through once, and every
  round but the first meets a method that no round before it met. An analysis that comes to an end
  is orderly whatever its strategy (`orderly_of_takes`); that all three come to an end is due to
  the strategies (`analyses_end_orderly`).
-/

namespace Devirt

variable {σ : Type} {p : Program} {s : Strategy σ} {now later done : Progress σ}
  {ms : List MethodRef} {rounds : List (List MethodRef)} {t t' : Traversal}

/-! ## Draining -/

/-- Draining walks through these methods, one after the other. -/
inductive Drains (p : Program) (s : Strategy σ) :
    Progress σ → List MethodRef → Progress σ → Prop where
  | idle {now : Progress σ} (next : now.traversal.next = none) : Drains p s now [] now
  | walk {now later : Progress σ} {m : MethodRef} {t t' : Traversal} {v : Visit σ}
    {rest : List MethodRef} (next : now.traversal.next = some (m, t))
    (visit : s.visit now.state m = .ok v)
    (link : t.linkAll p (v.callees.map (fun callee => (m, callee))) = .ok t')
    (drains : Drains p s ⟨v.state, t', now.events ++ v.events, now.rounds⟩ rest later) :
    Drains p s now (m :: rest) later

theorem exists_drains (h : drain p s now = .ok later) : ∃ ms, Drains p s now ms later := by
  fun_induction drain p s now with
  | case1 now hn =>
    cases h
    exact ⟨[], .idle hn⟩
  | case2 => cases h
  | case3 => cases h
  | case4 now m t hn v hv t' hl ih =>
    obtain ⟨rest, hrest⟩ := ih h
    exact ⟨m :: rest, .walk hn hv hl hrest⟩

theorem Drains.drain_eq (h : Drains p s now ms later) : drain p s now = .ok later := by
  induction h with
  | idle next =>
    rw [drain]
    split
    · rfl
    · rename_i hn
      rw [next] at hn
      cases hn
  | walk next visit link drains ih =>
    rw [drain]
    split
    · rename_i hn
      rw [next] at hn
      cases hn
    · rename_i hn
      rw [next] at hn
      cases hn
      simp only [visit]
      split
      · rename_i hl
        rw [link] at hl
        cases hl
      · rename_i hl
        rw [link] at hl
        cases hl
        exact ih

theorem Drains.ne_nil (h : Drains p s now ms later) (hbusy : now.traversal.isIdle = false) :
    ms ≠ [] := by
  cases h with
  | idle next =>
    rw [Traversal.isIdle_of_next next] at hbusy
    cases hbusy
  | walk => exact List.cons_ne_nil _ _

/-! ## Rounds -/

/-- The rounds up to the last one walk through these methods. -/
inductive Rounds (p : Program) (s : Strategy σ) :
    Progress σ → List (List MethodRef) → Progress σ → Prop where
  | last {now drained done : Progress σ} {ms : List MethodRef} (drains : Drains p s now ms drained)
    (round : round p s now = .ok done) (idle : done.traversal.isIdle = true) :
    Rounds p s now [ms] done
  | more {now drained next done : Progress σ} {ms : List MethodRef} {rest : List (List MethodRef)}
    (drains : Drains p s now ms drained) (round : round p s now = .ok next)
    (busy : next.traversal.isIdle = false) (rounds : Rounds p s next rest done) :
    Rounds p s now (ms :: rest) done

theorem exists_of_round (h : round p s now = .ok later) :
    ∃ (drained : Progress σ) (r : Resolution σ) (t : Traversal), drain p s now = .ok drained ∧
      s.resolve (now.rounds + 1) drained.state = .ok r ∧
      drained.traversal.linkAll p r.links = .ok t ∧
      later = ⟨r.state, t, drained.events ++ r.events, now.rounds + 1⟩ := by
  unfold round at h
  split at h
  · cases h
  · rename_i drained hd
    split at h
    · cases h
    · rename_i r hr
      split at h
      · cases h
      · rename_i t hl
        cases h
        exact ⟨drained, r, t, hd, hr, hl, rfl⟩

theorem saturate_of_idle (h : round p s now = .ok later) (hidle : later.traversal.isIdle = true) :
    saturate p s now = .ok later := by
  -- the match names its equation, so it is split rather than rewritten
  rw [saturate]
  split
  · rename_i he
    cases h.symm.trans he
  · rename_i later' he
    cases h.symm.trans he
    exact dif_pos hidle

theorem saturate_of_busy (h : round p s now = .ok later) (hbusy : later.traversal.isIdle = false) :
    saturate p s now = saturate p s later := by
  rw [saturate]
  split
  · rename_i he
    cases h.symm.trans he
  · rename_i later' he
    cases h.symm.trans he
    exact dif_neg (by simpa using hbusy)

theorem exists_rounds (h : saturate p s now = .ok done) : ∃ rounds, Rounds p s now rounds done := by
  fun_induction saturate p s now with
  | case1 => cases h
  | case2 now later hr hidle =>
    cases h
    obtain ⟨drained, r, t, hd, -⟩ := exists_of_round hr
    obtain ⟨ms, hms⟩ := exists_drains hd
    exact ⟨[ms], .last hms hr hidle⟩
  | case3 now later hr hbusy ih =>
    obtain ⟨drained, r, t, hd, -⟩ := exists_of_round hr
    obtain ⟨ms, hms⟩ := exists_drains hd
    obtain ⟨rest, hrest⟩ := ih h
    exact ⟨ms :: rest, .more hms hr (by simpa using hbusy) hrest⟩

theorem Rounds.idle_traversal (h : Rounds p s now rounds done) : done.traversal.worklist = [] := by
  induction h with
  | last drains round idle => exact List.isEmpty_iff.mp idle
  | more drains round busy rounds ih => exact ih

theorem Rounds.count (h : Rounds p s now rounds done) :
    done.rounds = now.rounds + rounds.length := by
  induction h with
  | last drains round idle =>
    obtain ⟨drained, r, t, -, -, -, rfl⟩ := exists_of_round round
    rfl
  | more drains round busy rounds ih =>
    obtain ⟨drained, r, t, -, -, -, rfl⟩ := exists_of_round round
    rw [ih, List.length_cons, Nat.add_assoc, Nat.add_comm 1]

theorem Rounds.ne_nil_of_busy (h : Rounds p s now rounds done)
    (hbusy : now.traversal.isIdle = false) : ∀ ms ∈ rounds, ms ≠ [] := by
  induction h with
  | last drains round idle =>
    intro ms hms
    rw [List.mem_singleton.mp hms]
    exact drains.ne_nil hbusy
  | more drains round busy rounds ih =>
    intro ms hms
    rcases List.mem_cons.mp hms with rfl | hms
    · exact drains.ne_nil hbusy
    · exact ih busy ms hms

-- Without entry points the first round has nothing to walk through. Every other one is there because
-- the round before it left a method.
theorem Rounds.ne_nil_of_mem_tail (h : Rounds p s now rounds done) :
    ∀ ms ∈ rounds.tail, ms ≠ [] := by
  cases h with
  | last drains round idle => simp
  | more drains round busy rounds => exact rounds.ne_nil_of_busy busy

theorem Rounds.length_le (h : Rounds p s now rounds done) :
    rounds.length ≤ rounds.flatten.length + 1 := by
  cases rounds with
  | nil => simp
  | cons first rest =>
    have hone : ∀ n ∈ rest.map List.length, 1 ≤ n := by
      intro n hn
      obtain ⟨ms, hms, rfl⟩ := List.mem_map.mp hn
      exact List.length_pos_iff.mpr (h.ne_nil_of_mem_tail ms hms)
    have hle := List.length_le_sum_of_one_le _ hone
    rw [List.length_map, ← List.length_flatten] at hle
    rw [List.length_cons, List.flatten_cons, List.length_append]
    omega

theorem Rounds.exists_fresh {before after : List (List MethodRef)}
    (h : Rounds p s now (before ++ ms :: after) done)
    (hnodup : (before ++ ms :: after).flatten.Nodup) (hbefore : before ≠ []) :
    ∃ m ∈ ms, m ∉ before.flatten := by
  have hmem : ms ∈ (before ++ ms :: after).tail := by
    rw [List.tail_append_of_ne_nil hbefore]
    exact List.mem_append_right _ List.mem_cons_self
  obtain ⟨m, hm⟩ := List.exists_mem_of_ne_nil ms (h.ne_nil_of_mem_tail ms hmem)
  rw [List.flatten_append, List.nodup_append] at hnodup
  refine ⟨m, hm, fun hearlier => hnodup.2.2 m hearlier m ?_ rfl⟩
  rw [List.flatten_cons]
  exact List.mem_append_left _ hm

/-! ## What has been taken -/

/-- On the way to a later traversal these methods have been taken, each once and none of them
before. -/
structure Took (p : Program) (t : Traversal) (ms : List MethodRef) (t' : Traversal) : Prop where
  consistent : t'.Consistent p
  nodup : ms.Nodup
  fresh : ∀ m ∈ ms, m ∉ t.taken
  taken : t'.taken = t.taken ∪ {m | m ∈ ms}

theorem Took.refl (h : t.Consistent p) : Took p t [] t := ⟨h, List.nodup_nil, by simp, by simp⟩

theorem Took.trans {t₁ : Traversal} {xs ys : List MethodRef} (h₁ : Took p t xs t₁)
    (h₂ : Took p t₁ ys t') : Took p t (xs ++ ys) t' where
  consistent := h₂.consistent
  nodup := by
    refine List.nodup_append.mpr ⟨h₁.nodup, h₂.nodup, fun x hx y hy hxy => ?_⟩
    apply h₂.fresh y hy
    rw [h₁.taken, ← hxy]
    exact .inr hx
  fresh m hm := by
    rcases List.mem_append.mp hm with hm | hm
    · exact h₁.fresh m hm
    · intro htaken
      apply h₂.fresh m hm
      rw [h₁.taken]
      exact .inl htaken
  taken := by
    rw [h₂.taken, h₁.taken, Set.union_assoc]
    congr 1
    ext m
    simp

theorem took_next {m : MethodRef} (h : t.Consistent p) (hn : t.next = some (m, t')) :
    Took p t [m] t' := by
  obtain ⟨hcons, -, -, -, hfresh, htaken⟩ := h.next hn
  refine ⟨hcons, List.nodup_singleton m, fun x hx => ?_, ?_⟩
  · rw [List.mem_singleton.mp hx]
    exact hfresh
  · rw [htaken, ← Set.union_singleton]
    simp

theorem Traversal.Linked.took {links : List (MethodRef × MethodRef)}
    (h : Traversal.Linked p t links t') : Took p t [] t' :=
  ⟨h.consistent, List.nodup_nil, by simp, by rw [h.taken]; simp⟩

theorem Drains.took (h : Drains p s now ms later) (hc : now.traversal.Consistent p) :
    Took p now.traversal ms later.traversal := by
  induction h with
  | idle next => exact .refl hc
  | walk next visit link drains ih =>
    have hnext := took_next hc next
    have hlink := (Traversal.linked_of_linkAll hnext.consistent link).took
    exact hnext.trans (hlink.trans (ih hlink.consistent))

theorem Drains.took_round {drained : Progress σ} (h : Drains p s now ms drained)
    (hr : round p s now = .ok later) (hc : now.traversal.Consistent p) :
    Took p now.traversal ms later.traversal := by
  obtain ⟨drained', r, t, hd, -, hl, rfl⟩ := exists_of_round hr
  -- the round has drained on the way that `h` describes, since there is no other
  rw [h.drain_eq] at hd
  cases hd
  have hdrained := h.took hc
  have hlink := (Traversal.linked_of_linkAll hdrained.consistent hl).took
  rw [← List.append_nil ms]
  exact hdrained.trans hlink

theorem Rounds.took (h : Rounds p s now rounds done) (hc : now.traversal.Consistent p) :
    Took p now.traversal rounds.flatten done.traversal := by
  induction h with
  | last drains round idle =>
    rw [List.flatten_singleton]
    exact drains.took_round round hc
  | more drains round busy rounds ih =>
    have hround := drains.took_round round hc
    rw [List.flatten_cons]
    exact hround.trans (ih hround.consistent)

/-! ## Order -/

/-- From the entry points to its end an analysis walks through these methods, round by round. -/
def Takes (p : Program) (s : Strategy σ) (rounds : List (List MethodRef)) (done : Progress σ) :
    Prop :=
  Rounds p s ⟨s.initial, Traversal.seed {} p, Traversal.seedEvents p, 0⟩ rounds done

/-- The rounds of an analysis walk through every method with code that it reaches, once each. A round
that is not the first meets a method that is new, so the declared methods bound their number. -/
structure Orderly (p : Program) (rounds : List (List MethodRef)) (done : Progress σ) : Prop where
  once : rounds.flatten.Nodup
  reached : ∀ m, m ∈ rounds.flatten ↔ m ∈ done.traversal.graph.nodes ∧ p.hasBody m = true
  progress : ∀ before ms after, rounds = before ++ ms :: after → before ≠ [] →
    ∃ m ∈ ms, m ∉ before.flatten
  count : done.rounds = rounds.length
  bound : rounds.length ≤ p.declared.length + 1

theorem orderly_of_takes (h : Takes p s rounds done) : Orderly p rounds done := by
  obtain ⟨hcons, -, -, -⟩ :=
    Traversal.consistent_foldl_start p.entryPoints (Traversal.consistent_empty p)
  have htook := h.took hcons
  have hreached : ∀ m, m ∈ rounds.flatten ↔
      m ∈ done.traversal.graph.nodes ∧ p.hasBody m = true := by
    intro m
    have htaken := htook.taken
    rw [taken_seed, Set.empty_union, htook.consistent.taken_of_idle h.idle_traversal] at htaken
    exact (Set.ext_iff.mp htaken m).symm
  have hbound : rounds.flatten.length ≤ p.declared.length := by
    apply (List.subperm_of_subset htook.nodup _).length_le
    intro m hm
    exact Program.mem_declared_of_hasBody ((hreached m).mp hm).2
  refine ⟨htook.nodup, hreached, ?_, ?_, ?_⟩
  · rintro before ms after rfl hbefore
    exact h.exists_fresh htook.nodup hbefore
  · rw [h.count, Nat.zero_add]
  · exact h.length_le.trans (Nat.add_le_add_right hbound 1)

/-- The analysis of a strategy ends with this graph. It does so in rounds, and these are orderly. -/
def EndsOrderly (p : Program) (s : Strategy σ) (g : CallGraph) : Prop :=
  ∃ done, analyze p s = .ok done ∧ done.traversal.graph = g ∧ (∃ rounds, Takes p s rounds done) ∧
    ∀ rounds, Takes p s rounds done → Orderly p rounds done

theorem endsOrderly_of_analyze (h : analyze p s = .ok done) :
    EndsOrderly p s done.traversal.graph :=
  ⟨done, h, rfl, exists_rounds h, fun _ => orderly_of_takes⟩

theorem Hierarchy.endsOrderly {told : Told Run} (h : Hierarchy.run p = .ok told) :
    EndsOrderly p (Hierarchy.strategy p) told.result.graph := by
  unfold Hierarchy.run at h
  obtain ⟨done, hdone, htold⟩ := exists_of_bind_ok h
  cases htold
  exact endsOrderly_of_analyze hdone

theorem Instantiation.endsOrderly {told : Told Run} (h : Instantiation.run p = .ok told) :
    EndsOrderly p (Instantiation.strategy p) told.result.graph := by
  unfold Instantiation.run at h
  obtain ⟨done, hdone, htold⟩ := exists_of_bind_ok h
  cases htold
  exact endsOrderly_of_analyze hdone

theorem ValueFlow.endsOrderly {hierarchy told : Told Run} (hh : Hierarchy.run p = .ok hierarchy)
    (h : ValueFlow.run p = .ok told) :
    EndsOrderly p (ValueFlow.strategy p hierarchy.result.graph.hasEdge) told.result.graph := by
  unfold ValueFlow.run at h
  obtain ⟨hierarchy', hh', h⟩ := exists_of_bind_ok h
  rw [hh] at hh'
  cases hh'
  obtain ⟨done, hdone, htold⟩ := exists_of_bind_ok h
  cases htold
  exact endsOrderly_of_analyze hdone

/-- Without a superclass cycle all analyses end without failure, so no call is ever added to a method
that is no node. None walks through a method twice, and each round but the first walks through a
method that is new. -/
theorem analyses_end_orderly (p : Program) (hp : p.SuperAcyclic) :
    ∃ hierarchy rapid flow, Hierarchy.run p = .ok hierarchy ∧ Instantiation.run p = .ok rapid ∧
      ValueFlow.run p = .ok flow ∧
      EndsOrderly p (Hierarchy.strategy p) hierarchy.result.graph ∧
      EndsOrderly p (Instantiation.strategy p) rapid.result.graph ∧
      EndsOrderly p (ValueFlow.strategy p hierarchy.result.graph.hasEdge) flow.result.graph := by
  obtain ⟨hierarchy, flow, hhierarchy, hflow, -, -⟩ := ValueFlow.exists_done hp
  obtain ⟨done, rapid, -, hrapid, -, -, -⟩ := Instantiation.exists_done hp
  exact ⟨hierarchy, rapid, flow, hhierarchy, hrapid, hflow, Hierarchy.endsOrderly hhierarchy,
    Instantiation.endsOrderly hrapid, ValueFlow.endsOrderly hhierarchy hflow⟩

/-- The two methods with code are walked through once each, though an entry point is given twice and
one of the methods calls itself. -/
theorem analyses_end_orderly_tangled :
    tangledProgram.SuperAcyclic ∧ ∃ rapid done rounds,
      Instantiation.run tangledProgram = .ok rapid ∧ done.traversal.graph = rapid.result.graph ∧
      Takes tangledProgram (Instantiation.strategy tangledProgram) rounds done ∧
      rounds.flatten.Perm [⟨"Main", "main", "()V"⟩, ⟨"Dot", "draw", "()V"⟩] := by
  have hp : tangledProgram.SuperAcyclic := by decide
  obtain ⟨hierarchy, rapid, flow, -, hrapid, -, -, ⟨done, -, hgraph, ⟨rounds, htakes⟩, horderly⟩, -⟩ :=
    analyses_end_orderly tangledProgram hp
  have hrounds := horderly rounds htakes
  refine ⟨hp, rapid, done, rounds, hrapid, hgraph, htakes, ?_⟩
  rw [List.perm_ext_iff_of_nodup hrounds.once (by decide)]
  intro m
  rw [hrounds.reached, hgraph]
  constructor
  · rintro ⟨-, hb⟩
    have hcode : ∀ m ∈ tangledProgram.declared, tangledProgram.hasBody m = true →
        m ∈ [⟨"Main", "main", "()V"⟩, ⟨"Dot", "draw", "()V"⟩] := by decide
    exact hcode m (Program.mem_declared_of_hasBody hb) hb
  · have hclosed := (Instantiation.isLeast_of_run hp hrapid).1
    have hmain := hclosed.entry ⟨"Main", "main", "()V"⟩ (by decide) (by decide)
    have hdraw := hclosed.callee _ (draw_mem_edges_tangled hrapid)
    intro hm
    rcases List.mem_cons.mp hm with rfl | hm
    · exact ⟨hmain, by decide⟩
    · rw [List.mem_singleton.mp hm]
      exact ⟨hdraw, by decide⟩

end Devirt
