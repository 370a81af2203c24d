import Devirt.Components.Lemmas

/-!
# Nearest first

A walk finds nodes in the order of their distance from the starts.

* `StepsTo edges starts n x` : a path of `n` edges leads from a start to `x`. With any number of edges
  these are the paths of `Reaches` (`exists_stepsTo_iff`);
* `NoFarther edges starts x y` : no path to `y` is shorter than all paths to `x`;
* `OnLevel a starts d front back seen` : a walk is busy with the nodes `d` steps away. It has seen all
  nearer ones, the back of its queue is one step farther, and what it has seen is in order. Taking a
  node off the front stays on the level (`OnLevel.skip`, `OnLevel.enter`), and behind an empty front
  the next level begins (`OnLevel.next`);
* `pairwise_walk`, `pairwise_reach` : so of two nodes the one that is found first is no farther;
* `exists_toList_reach_cons` : the first start is found first of all;
* `exists_first` : the first element of such a list with a result is no farther than all others with
  one.
-/

namespace Devirt

variable {α : Type}

/-! ## Paths of a length -/

/-- A path of so many edges leads from one of the starts to a node. -/
inductive StepsTo (edges : List (α × α)) (starts : List α) : Nat → α → Prop where
  | start {x : α} (mem : x ∈ starts) : StepsTo edges starts 0 x
  | step {n : Nat} {x y : α} (path : StepsTo edges starts n x) (edge : (x, y) ∈ edges) :
    StepsTo edges starts (n + 1) y

section Steps

variable {edges : List (α × α)} {starts : List α} {x y : α}

theorem StepsTo.exists_reaches {n : Nat} (h : StepsTo edges starts n x) :
    ∃ s ∈ starts, Reaches edges s x := by
  induction h with
  | start mem => exact ⟨_, mem, .refl _⟩
  | step _ edge ih =>
    obtain ⟨s, hs, hpath⟩ := ih
    exact ⟨s, hs, hpath.tail edge⟩

theorem StepsTo.exists_of_reaches {n : Nat} (h : StepsTo edges starts n x)
    (hpath : Reaches edges x y) : ∃ m, StepsTo edges starts m y := by
  induction hpath generalizing n with
  | refl => exact ⟨n, h⟩
  | head edge _ ih => exact ih (h.step edge)

/-- Paths from a start, whatever their length. -/
theorem exists_stepsTo_iff :
    (∃ n, StepsTo edges starts n x) ↔ ∃ s ∈ starts, Reaches edges s x := by
  constructor
  · intro h
    obtain ⟨n, hn⟩ := h
    exact hn.exists_reaches
  · intro h
    obtain ⟨s, hs, hpath⟩ := h
    exact (StepsTo.start hs).exists_of_reaches hpath

/-- Of the paths to a node one is shortest. -/
theorem StepsTo.exists_shortest {n : Nat} (h : StepsTo edges starts n x) :
    ∃ m, StepsTo edges starts m x ∧ ∀ k, StepsTo edges starts k x → m ≤ k := by
  induction n using Nat.strongRecOn with
  | ind n ih =>
    by_cases hshorter : ∃ k, k < n ∧ StepsTo edges starts k x
    · obtain ⟨k, hk, hpath⟩ := hshorter
      exact ih k hk hpath
    · exact ⟨n, h, fun k hk => Nat.le_of_not_lt (fun hlt => hshorter ⟨k, hlt, hk⟩)⟩

/-- Every path to the second node has one to the first that is as short. -/
def NoFarther (edges : List (α × α)) (starts : List α) (x y : α) : Prop :=
  ∀ n, StepsTo edges starts n y → ∃ k ≤ n, StepsTo edges starts k x

end Steps

/-! ## Levels of a walk -/

variable [Ord α]

/-- A walk takes nodes `d` steps away off the front of its queue. -/
structure OnLevel (a : Arrows α) (starts : List α) (d : Nat) (front back : List α)
    (seen : Roster α) : Prop where
  inFront : ∀ x ∈ front, StepsTo a.edges starts d x
  behind : ∀ x ∈ back, StepsTo a.edges starts (d + 1) x
  within : ∀ x ∈ seen, ∃ k ≤ d, StepsTo a.edges starts k x
  nearer : ∀ n < d, ∀ x, StepsTo a.edges starts n x → x ∈ seen
  level : ∀ x, StepsTo a.edges starts d x → x ∈ seen ∨ x ∈ front
  closed : ∀ x ∈ seen, ∀ y, (x, y) ∈ a.edges → y ∈ seen ∨ y ∈ front ∨ y ∈ back
  sorted : seen.toList.Pairwise (NoFarther a.edges starts)

theorem onLevel_start (a : Arrows α) (starts : List α) : OnLevel a starts 0 starts [] ∅ where
  inFront x hx := .start hx
  behind x hx := absurd hx List.not_mem_nil
  within x hx := absurd hx Roster.not_mem_empty
  nearer n hn := absurd hn (Nat.not_lt_zero n)
  level x hx := by
    cases hx with
    | start mem => exact .inr mem
  closed x hx := absurd hx Roster.not_mem_empty
  sorted := List.Pairwise.nil

namespace OnLevel

variable {a : Arrows α} {starts front back rest : List α} {seen : Roster α} {d : Nat} {x : α}

/-- All nodes of the level have been taken: what they lead to is the next level. -/
theorem next (h : OnLevel a starts d [] back seen) :
    OnLevel a starts (d + 1) back.reverse [] seen where
  inFront x hx := h.behind x (List.mem_reverse.mp hx)
  behind x hx := absurd hx List.not_mem_nil
  within x hx := by
    obtain ⟨k, hk, hpath⟩ := h.within x hx
    exact ⟨k, by omega, hpath⟩
  nearer n hn x hx := by
    by_cases hd : n = d
    · subst hd
      exact (h.level x hx).resolve_right List.not_mem_nil
    · exact h.nearer n (by omega) x hx
  level x hx := by
    cases hx with
    | step path edge =>
      -- its predecessor is on the level that has been seen to the end
      have hseen := (h.level _ path).resolve_right List.not_mem_nil
      rcases h.closed _ hseen _ edge with hx | hx | hx
      · exact .inl hx
      · exact absurd hx List.not_mem_nil
      · exact .inr (List.mem_reverse.mpr hx)
  closed x hx y hy := by
    rcases h.closed x hx y hy with hy | hy | hy
    · exact .inl hy
    · exact absurd hy List.not_mem_nil
    · exact .inr (.inl (List.mem_reverse.mpr hy))
  sorted := h.sorted

theorem skip (h : OnLevel a starts d (x :: rest) back seen) (hx : x ∈ seen) :
    OnLevel a starts d rest back seen where
  inFront y hy := h.inFront y (List.mem_cons_of_mem x hy)
  behind := h.behind
  within := h.within
  nearer := h.nearer
  level y hy := by
    rcases h.level y hy with hy | hy
    · exact .inl hy
    · rcases List.mem_cons.mp hy with rfl | hy
      · exact .inl hx
      · exact .inr hy
  closed y hy z hz := by
    rcases h.closed y hy z hz with hz | hz | hz
    · exact .inl hz
    · rcases List.mem_cons.mp hz with rfl | hz
      · exact .inl hx
      · exact .inr (.inl hz)
    · exact .inr (.inr hz)
  sorted := h.sorted

variable [Std.TransOrd α] [Std.LawfulEqOrd α]

/-- A node that has not been seen is exactly on the level, so no node before it is farther. -/
theorem sorted_insert (h : OnLevel a starts d (x :: rest) back seen) (hx : x ∉ seen) :
    (seen.insert x).toList.Pairwise (NoFarther a.edges starts) := by
  rw [Roster.toList_insert, if_neg hx, List.pairwise_append]
  refine ⟨h.sorted, List.pairwise_singleton _ _, fun y hy z hz n hn => ?_⟩
  rw [List.mem_singleton.mp hz] at hn
  obtain ⟨k, hk, hpath⟩ := h.within y (Roster.mem_toList.mp hy)
  have hd : d ≤ n := by
    apply Nat.le_of_not_lt
    intro hlt
    exact hx (h.nearer n hlt x hn)
  exact ⟨k, by omega, hpath⟩

theorem enter [DecidableEq α] (h : OnLevel a starts d (x :: rest) back seen) (hx : x ∉ seen) :
    OnLevel a starts d rest ((a.next x).reverse ++ back) (seen.insert x) where
  inFront y hy := h.inFront y (List.mem_cons_of_mem x hy)
  behind y hy := by
    rcases List.mem_append.mp hy with hy | hy
    · have hedge : (x, y) ∈ a.edges := Arrows.mem_next.mp (List.mem_reverse.mp hy)
      exact (h.inFront x List.mem_cons_self).step hedge
    · exact h.behind y hy
  within y hy := by
    rcases Roster.mem_insert.mp hy with rfl | hy
    · exact ⟨d, Nat.le_refl d, h.inFront y List.mem_cons_self⟩
    · exact h.within y hy
  nearer n hn y hy := Roster.mem_insert.mpr (.inr (h.nearer n hn y hy))
  level y hy := by
    rcases h.level y hy with hy | hy
    · exact .inl (Roster.mem_insert.mpr (.inr hy))
    · rcases List.mem_cons.mp hy with rfl | hy
      · exact .inl (Roster.mem_insert.mpr (.inl rfl))
      · exact .inr hy
  closed y hy z hz := by
    rcases Roster.mem_insert.mp hy with rfl | hy
    · have hnext : z ∈ a.next y := Arrows.mem_next.mpr hz
      exact .inr (.inr (List.mem_append_left _ (List.mem_reverse.mpr hnext)))
    · rcases h.closed y hy z hz with hz | hz | hz
      · exact .inl (Roster.mem_insert.mpr (.inr hz))
      · rcases List.mem_cons.mp hz with rfl | hz
        · exact .inl (Roster.mem_insert.mpr (.inl rfl))
        · exact .inr (.inl hz)
      · exact .inr (.inr (List.mem_append_right _ hz))
  sorted := h.sorted_insert hx

end OnLevel

variable [Std.TransOrd α] [Std.LawfulEqOrd α]

theorem pairwise_walk {a : Arrows α} {starts front back : List α} {seen : Roster α} {d : Nat}
    (h : OnLevel a starts d front back seen) :
    (walk a front back seen).toList.Pairwise (NoFarther a.edges starts) := by
  classical
  fun_induction walk a front back seen generalizing d with
  | case1 back seen hempty => exact h.sorted
  | case2 back seen hbusy ih =>
    simp only [List.unattach_reverse, List.unattach_attach] at ih
    exact ih h.next
  | case3 back seen x rest hx ih => exact ih (h.skip (Roster.contains_iff.mp hx))
  | case4 back seen x rest hx ih =>
    exact ih (h.enter (fun hmem => hx (Roster.contains_iff.mpr hmem)))

/-- Of two nodes that are reached, the one that is found first is no farther from the starts. -/
theorem pairwise_reach (a : Arrows α) (starts : List α) :
    (reach a starts).toList.Pairwise (NoFarther a.edges starts) :=
  pairwise_walk (onLevel_start a starts)

/-- The first start is found first. -/
theorem exists_toList_reach_cons (a : Arrows α) (x : α) (rest : List α) :
    ∃ more, (reach a (x :: rest)).toList = x :: more := by
  have hnew : (∅ : Roster α).contains x = false := by
    rw [Bool.eq_false_iff, ne_eq, Roster.contains_iff]
    exact Roster.not_mem_empty
  obtain ⟨later, hlater⟩ := walk_suffix a rest ((a.next x).reverse ++ []) ((∅ : Roster α).insert x)
  refine ⟨later.reverse, ?_⟩
  rw [reach, walk, if_neg (Bool.eq_false_iff.mp hnew), Roster.toList, ← hlater, List.reverse_append]
  have hfirst : ((∅ : Roster α).insert x).toList = [x] := by
    rw [Roster.toList_insert, if_neg Roster.not_mem_empty, Roster.toList_empty, List.nil_append]
  rw [← Roster.toList, hfirst, List.singleton_append]

omit [Ord α] [Std.TransOrd α] [Std.LawfulEqOrd α] in
/-- The first element with a result comes before all others with one. -/
theorem exists_first {β : Type} {R : α → α → Prop} {f : α → Option β} {xs : List α} {b : β}
    (hxs : xs.Pairwise R) (h : xs.findSome? f = some b) :
    ∃ x ∈ xs, f x = some b ∧ ∀ y ∈ xs, f y ≠ none → y = x ∨ R x y := by
  obtain ⟨before, x, after, rfl, hx, hbefore⟩ := List.findSome?_eq_some_iff.mp h
  refine ⟨x, by simp, hx, fun y hy hyes => ?_⟩
  have hordered : ∀ z ∈ after, R x z :=
    (List.pairwise_cons.mp (List.pairwise_append.mp hxs).2.1).1
  rcases List.mem_append.mp hy with hy | hy
  · exact absurd (hbefore y hy) hyes
  · rcases List.mem_cons.mp hy with hy | hy
    · exact .inl hy
    · exact .inr (hordered y hy)

end Devirt
