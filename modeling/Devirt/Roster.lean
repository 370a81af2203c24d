import Std.Data.TreeMap

/-!
# Rosters

A roster is a list of different elements in the order of their entry. A tree beside the list finds
an element's number without a walk through the list; it is made from the list alone, so rosters
with the same list are the same.

* `Roster.toList` : the elements, first entry first; `x ∈ r` : membership in it;
* `Roster.insert` : enters an element, unless it is there (`toList_insert`);
* `Roster.contains`, `Roster.index?`, `Roster.size` : what the tree answers (`contains_iff`,
  `index?_eq_some_iff`, `size_eq`).
-/

namespace Devirt

variable {α : Type} [Ord α]

/-- The numbers of the elements of a list, from the end of the list on. -/
def placesOf : List α → Std.TreeMap α Nat
  | [] => ∅
  | x :: xs => (placesOf xs).insert x (placesOf xs).size

/-- Different elements in the order of their entry. -/
structure Roster (α : Type) [Ord α] where
  /-- The elements, last entry first. -/
  latest : List α
  /-- The number of every element. -/
  places : Std.TreeMap α Nat
  places_eq : places = placesOf latest
  nodup : latest.Nodup

namespace Roster

def empty : Roster α := ⟨[], ∅, rfl, List.nodup_nil⟩

instance : EmptyCollection (Roster α) := ⟨empty⟩

instance : Inhabited (Roster α) := ⟨empty⟩

instance : Membership α (Roster α) := ⟨fun r x => x ∈ r.latest⟩

/-- The elements in the order of their entry. -/
def toList (r : Roster α) : List α := r.latest.reverse

instance [Repr α] : Repr (Roster α) := ⟨fun r n => reprPrec r.toList n⟩

def size (r : Roster α) : Nat := r.places.size

def contains (r : Roster α) (x : α) : Bool := r.places.contains x

/-- The number of an element: how many were entered before it. -/
def index? (r : Roster α) (x : α) : Option Nat := r.places[x]?

/-! ## The list is all there is -/

theorem ext_latest {r s : Roster α} (h : r.latest = s.latest) : r = s := by
  obtain ⟨l, p, hp, _⟩ := r
  obtain ⟨m, q, hq, _⟩ := s
  obtain rfl : l = m := h
  obtain rfl : p = q := hp.trans hq.symm
  rfl

theorem ext_toList {r s : Roster α} (h : r.toList = s.toList) : r = s :=
  ext_latest (List.reverse_inj.mp h)

instance [DecidableEq α] : DecidableEq (Roster α) := fun r s =>
  decidable_of_iff (r.latest = s.latest) ⟨ext_latest, fun h => h ▸ rfl⟩

@[simp]
theorem mem_toList {r : Roster α} {x : α} : x ∈ r.toList ↔ x ∈ r := List.mem_reverse

theorem nodup_toList (r : Roster α) : r.toList.Nodup :=
  List.pairwise_reverse.mpr (r.nodup.imp Ne.symm)

@[simp]
theorem toList_empty : (∅ : Roster α).toList = [] := rfl

@[simp]
theorem not_mem_empty {x : α} : x ∉ (∅ : Roster α) := List.not_mem_nil

/-! ## What the tree answers -/

variable [Std.TransOrd α] [Std.LawfulEqOrd α]

theorem contains_placesOf {xs : List α} {x : α} : (placesOf xs).contains x = true ↔ x ∈ xs := by
  induction xs with
  | nil => simp [placesOf]
  | cons y ys ih =>
    rw [placesOf, Std.TreeMap.contains_insert, Bool.or_eq_true, ih, List.mem_cons, beq_iff_eq,
      Std.LawfulEqOrd.compare_eq_iff_eq, eq_comm]

theorem size_placesOf {xs : List α} (h : xs.Nodup) : (placesOf xs).size = xs.length := by
  induction xs with
  | nil => rfl
  | cons y ys ih =>
    obtain ⟨hy, hys⟩ := List.nodup_cons.mp h
    rw [placesOf, Std.TreeMap.size_insert, if_neg (fun hc => hy (contains_placesOf.mp hc)), ih hys,
      List.length_cons]

/-- An element is found if it has been entered. -/
@[simp]
theorem contains_iff {r : Roster α} {x : α} : r.contains x = true ↔ x ∈ r := by
  rw [contains, r.places_eq]
  exact contains_placesOf

instance : DecidablePred (· ∈ (r : Roster α)) := fun _ => decidable_of_iff _ contains_iff

theorem size_eq (r : Roster α) : r.size = r.toList.length := by
  rw [size, r.places_eq, size_placesOf r.nodup, toList, List.length_reverse]

theorem getElem?_placesOf {xs : List α} (h : xs.Nodup) {x : α} {i : Nat} :
    (placesOf xs)[x]? = some i ↔ xs.reverse[i]? = some x := by
  induction xs with
  | nil => simp [placesOf]
  | cons y ys ih =>
    obtain ⟨hy, hys⟩ := List.nodup_cons.mp h
    rw [placesOf, Std.TreeMap.getElem?_insert, size_placesOf hys, List.reverse_cons,
      List.getElem?_append, List.length_reverse]
    by_cases hi : i < ys.length
    · rw [if_pos hi, ← ih hys]
      by_cases hx : compare y x = .eq
      · obtain rfl := Std.LawfulEqOrd.eq_of_compare hx
        rw [if_pos hx, ih hys]
        constructor
        · rintro h
          cases h
          exact absurd hi (Nat.lt_irrefl _)
        · intro h
          exact absurd (List.mem_reverse.mp (List.mem_of_getElem? h)) hy
      · rw [if_neg hx]
    · rw [if_neg hi]
      by_cases hx : compare y x = .eq
      · obtain rfl := Std.LawfulEqOrd.eq_of_compare hx
        rw [if_pos hx]
        constructor
        · rintro h
          cases h
          simp
        · intro h
          obtain ⟨hlt, _⟩ := List.getElem?_eq_some_iff.mp h
          simp only [List.length_cons, List.length_nil] at hlt
          congr 1
          omega
      · rw [if_neg hx, ih hys]
        constructor
        · intro h
          obtain ⟨hlt, _⟩ := List.getElem?_eq_some_iff.mp h
          rw [List.length_reverse] at hlt
          exact absurd hlt hi
        · intro h
          obtain ⟨hlt, heq⟩ := List.getElem?_eq_some_iff.mp h
          simp only [List.getElem_singleton] at heq
          exact absurd (heq ▸ Std.ReflOrd.compare_self) hx

/-- The number of an element is its position in the list. -/
theorem index?_eq_some_iff {r : Roster α} {x : α} {i : Nat} :
    r.index? x = some i ↔ r.toList[i]? = some x := by
  rw [index?, r.places_eq, getElem?_placesOf r.nodup, toList]

/-! ## Entries -/

/-- Enters an element, unless it is there. -/
def insert (r : Roster α) (x : α) : Roster α :=
  if h : r.places.contains x then r
  else
    ⟨x :: r.latest, r.places.insert x r.places.size, by rw [r.places_eq, placesOf],
      List.nodup_cons.mpr ⟨fun hx => h (contains_iff.mpr hx), r.nodup⟩⟩

/-- A new element comes last. -/
theorem toList_insert (r : Roster α) (x : α) :
    (r.insert x).toList = if x ∈ r then r.toList else r.toList ++ [x] := by
  unfold insert
  by_cases h : r.places.contains x = true
  · rw [dif_pos h, if_pos (contains_iff.mp h)]
  · rw [dif_neg h, if_neg (fun hx => h (contains_iff.mpr hx))]
    exact List.reverse_cons

theorem prefix_insert (r : Roster α) (x : α) : r.toList <+: (r.insert x).toList := by
  rw [toList_insert]
  split
  · exact List.prefix_refl _
  · exact List.prefix_append _ _

@[simp]
theorem mem_insert {r : Roster α} {x y : α} : y ∈ r.insert x ↔ y = x ∨ y ∈ r := by
  rw [← mem_toList, toList_insert]
  by_cases h : x ∈ r
  · rw [if_pos h, mem_toList]
    exact ⟨.inr, fun hy => hy.elim (fun e => e ▸ h) id⟩
  · rw [if_neg h, List.mem_append, mem_toList, List.mem_singleton, or_comm]

@[simp]
theorem contains_insert [DecidableEq α] {r : Roster α} {x y : α} :
    (r.insert x).contains y = (decide (y = x) || r.contains y) := by
  rw [Bool.eq_iff_iff]
  simp

end Roster

end Devirt
