import Devirt.Ordered
import Mathlib.Data.List.Nodup
import Mathlib.Data.List.Perm.Basic

/-!
# Sorted lists are sorted

* `Ordered.Increasing xs` : the elements of `xs` are in order, and none is there twice. So are those of
  a set (`increasing_insert`, `increasing_ofList`, `increasing_union`), and a set is determined by its
  elements (`Increasing.ext`);
* `mergeSort_eq_of_perm` : a list is sorted by keys that tell its elements apart whatever order it had, so
  any list of them in order is the sorted one (`mergeSort_eq_of_sorted`).
-/

namespace Devirt.Ordered

/-! ## Sets -/

section Sets

variable {α : Type} [Ord α] {x : α} {xs ys : List α}

/-- Every element is below those behind it. -/
def Increasing (xs : List α) : Prop := xs.Pairwise (fun a b => compare a b = .lt)

theorem increasing_nil : Increasing ([] : List α) := List.Pairwise.nil

theorem increasing_cons : Increasing (x :: xs) ↔ (∀ y ∈ xs, compare x y = .lt) ∧ Increasing xs :=
  List.pairwise_cons

variable [Std.TransOrd α]

theorem increasing_cons_cons {y : α} :
    Increasing (x :: y :: xs) ↔ compare x y = .lt ∧ Increasing (y :: xs) := by
  rw [increasing_cons, and_congr_left_iff]
  intro h
  constructor
  · exact fun hx => hx y List.mem_cons_self
  · intro hxy z hz
    rcases List.mem_cons.mp hz with rfl | hz
    · exact hxy
    · exact Std.TransCmp.lt_trans hxy ((increasing_cons.mp h).1 z hz)

variable [Std.LawfulEqOrd α]

theorem increasing_insert (h : Increasing ys) : Increasing (insert x ys) := by
  induction ys with
  | nil => exact List.pairwise_singleton _ _
  | cons y ys ih =>
    obtain ⟨hbelow, hys⟩ := increasing_cons.mp h
    rw [insert]
    split
    · rename_i hxy
      exact increasing_cons_cons.mpr ⟨hxy, h⟩
    · exact h
    · rename_i hxy
      refine increasing_cons.mpr ⟨fun z hz => ?_, ih hys⟩
      rcases mem_insert.mp hz with rfl | hz
      · exact Std.OrientedCmp.gt_iff_lt.mp hxy
      · exact hbelow z hz

theorem increasing_ofList (xs : List α) : Increasing (ofList xs) := by
  have hfold : ∀ s : List α, Increasing s →
      Increasing (xs.foldl (fun s x => insert x s) s) := by
    induction xs with
    | nil => exact fun s hs => hs
    | cons x xs ih => exact fun s hs => ih _ (increasing_insert hs)
  exact hfold [] increasing_nil

theorem increasing_union (hx : Increasing xs) (hy : Increasing ys) : Increasing (union xs ys) := by
  fun_induction union xs ys with
  | case1 ys => exact hy
  | case2 xs => exact hx
  | case3 x xs y ys hxy ih =>
    obtain ⟨hbelow, hxs⟩ := increasing_cons.mp hx
    refine increasing_cons.mpr ⟨fun z hz => ?_, ih hxs hy⟩
    rcases mem_union.mp hz with hz | hz
    · exact hbelow z hz
    · exact (increasing_cons.mp (increasing_cons_cons.mpr ⟨hxy, hy⟩)).1 z hz
  | case4 x xs y ys hxy ih =>
    obtain rfl : x = y := Std.LawfulEqOrd.eq_of_compare hxy
    obtain ⟨hbelow, hxs⟩ := increasing_cons.mp hx
    obtain ⟨hbelow', hys⟩ := increasing_cons.mp hy
    refine increasing_cons.mpr ⟨fun z hz => ?_, ih hxs hys⟩
    exact (mem_union.mp hz).elim (hbelow z) (hbelow' z)
  | case5 x xs y ys hxy ih =>
    obtain ⟨hbelow, hys⟩ := increasing_cons.mp hy
    refine increasing_cons.mpr ⟨fun z hz => ?_, ih hx hys⟩
    have hyx : compare y x = .lt := Std.OrientedCmp.gt_iff_lt.mp hxy
    rcases mem_union.mp hz with hz | hz
    · exact (increasing_cons.mp (increasing_cons_cons.mpr ⟨hyx, hx⟩)).1 z hz
    · exact hbelow z hz

omit [Std.LawfulEqOrd α] in
theorem Increasing.ext (hx : Increasing xs) (hy : Increasing ys) (h : ∀ a, a ∈ xs ↔ a ∈ ys) :
    xs = ys := by
  have hirrefl : ∀ a b : α, compare a b = .lt → a ≠ b := by
    rintro a _ hab rfl
    rw [Std.ReflOrd.compare_self] at hab
    cases hab
  have hperm : xs.Perm ys :=
    (List.perm_ext_iff_of_nodup (hx.imp (hirrefl _ _)) (hy.imp (hirrefl _ _))).mpr h
  refine hperm.eq_of_pairwise (fun a b _ _ hab hba => ?_) hx hy
  cases hab.symm.trans (Std.OrientedCmp.gt_iff_lt.mpr hba)

end Sets

/-! ## Sorting -/

section Sorting

variable {α : Type} {le : α → α → Bool}

theorem pairwise_mergeSort_key (key : α → String) (h : ∀ a b, le a b = true ↔ key a ≤ key b)
    (xs : List α) : (xs.mergeSort le).Pairwise (fun a b => key a ≤ key b) := by
  simp only [← h]
  apply List.pairwise_mergeSort
  · intro a b c
    simp only [h]
    exact String.le_trans
  · intro a b
    simp only [Bool.or_eq_true, h]
    exact String.le_total (key a) (key b)

/-- The order that a list had does not matter where the key tells its elements apart. -/
theorem mergeSort_eq_of_perm (key : α → String) (h : ∀ a b, le a b = true ↔ key a ≤ key b)
    {xs ys : List α} (hperm : xs.Perm ys) (hkey : ∀ a ∈ xs, ∀ b ∈ xs, key a = key b → a = b) :
    xs.mergeSort le = ys.mergeSort le := by
  have hboth : (xs.mergeSort le).Perm (ys.mergeSort le) :=
    ((List.mergeSort_perm xs le).trans hperm).trans (List.mergeSort_perm ys le).symm
  refine hboth.eq_of_pairwise (fun a b ha hb hab hba => ?_) (pairwise_mergeSort_key key h xs)
    (pairwise_mergeSort_key key h ys)
  have hax : a ∈ xs := (List.mergeSort_perm xs le).mem_iff.mp ha
  have hbx : b ∈ xs := hperm.mem_iff.mpr ((List.mergeSort_perm ys le).mem_iff.mp hb)
  exact hkey a hax b hbx (String.le_antisymm hab hba)

theorem mergeSort_eq_of_sorted (key : α → String) (h : ∀ a b, le a b = true ↔ key a ≤ key b)
    {xs ys : List α} (hperm : xs.Perm ys) (hsorted : ys.Pairwise (fun a b => key a ≤ key b))
    (hkeys : (ys.map key).Nodup) : xs.mergeSort le = ys := by
  rw [mergeSort_eq_of_perm key h hperm fun a ha b hb hab =>
    List.inj_on_of_nodup_map hkeys (hperm.mem_iff.mp ha) (hperm.mem_iff.mp hb) hab]
  exact List.mergeSort_of_pairwise (hsorted.imp (h _ _).mpr)

end Sorting

end Devirt.Ordered
