/-!
# Sorted lists

A finite set whose elements are shown in order is a strictly increasing list.

* `Ordered.insert x xs` : adds an element at its place, unless it is there;
* `Ordered.ofList xs` : the elements of any list; `Ordered.union xs ys` : the elements of both.
-/

namespace Devirt.Ordered

variable {α : Type} [Ord α]

/-- Adds an element at its place in a sorted list. -/
def insert (x : α) : List α → List α
  | [] => [x]
  | y :: ys =>
    match compare x y with
    | .lt => x :: y :: ys
    | .eq => y :: ys
    | .gt => y :: insert x ys

def ofList (xs : List α) : List α := xs.foldl (fun s x => insert x s) []

def union : List α → List α → List α
  | [], ys => ys
  | xs, [] => xs
  | x :: xs, y :: ys =>
    match compare x y with
    | .lt => x :: union xs (y :: ys)
    | .eq => y :: union xs ys
    | .gt => y :: union (x :: xs) ys
termination_by xs ys => xs.length + ys.length

@[simp]
theorem mem_insert [Std.LawfulEqOrd α] {a x : α} {ys : List α} :
    a ∈ insert x ys ↔ a = x ∨ a ∈ ys := by
  induction ys with
  | nil => simp [insert]
  | cons y ys ih =>
    rw [insert]
    split
    · simp
    · rename_i h
      obtain rfl : x = y := Std.LawfulEqOrd.eq_of_compare h
      simp
    · simp only [List.mem_cons, ih]
      constructor
      · rintro (h | h | h)
        · exact .inr (.inl h)
        · exact .inl h
        · exact .inr (.inr h)
      · rintro (h | h | h)
        · exact .inr (.inl h)
        · exact .inl h
        · exact .inr (.inr h)

@[simp]
theorem mem_ofList [Std.LawfulEqOrd α] {a : α} {xs : List α} : a ∈ ofList xs ↔ a ∈ xs := by
  have h : ∀ s : List α, a ∈ xs.foldl (fun s x => insert x s) s ↔ a ∈ s ∨ a ∈ xs := by
    induction xs with
    | nil => simp
    | cons x xs ih =>
      intro s
      rw [List.foldl_cons, ih, mem_insert, List.mem_cons, or_assoc, or_left_comm]
  simpa [ofList] using h []

@[simp]
theorem mem_union [Std.LawfulEqOrd α] {a : α} {xs ys : List α} :
    a ∈ union xs ys ↔ a ∈ xs ∨ a ∈ ys := by
  fun_induction union xs ys with
  | case1 ys => simp
  | case2 xs => simp
  | case3 x xs y ys h ih => simp [ih, or_assoc]
  | case4 x xs y ys h ih =>
    obtain rfl : x = y := Std.LawfulEqOrd.eq_of_compare h
    simp only [List.mem_cons, ih]
    constructor
    · rintro (h | h | h)
      · exact .inl (.inl h)
      · exact .inl (.inr h)
      · exact .inr (.inr h)
    · rintro ((h | h) | (h | h))
      · exact .inl h
      · exact .inr (.inl h)
      · exact .inl h
      · exact .inr (.inr h)
  | case5 x xs y ys h ih =>
    rw [List.mem_cons, ih, List.mem_cons (b := y), or_left_comm]

end Devirt.Ordered
