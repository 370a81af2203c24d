/-!
# Orders by a key

A type is ordered by a key if two of its elements compare as their keys do. The laws of the order of
keys then hold for it, and elements that compare as equal are equal if their keys tell them apart.

* `transOrd_of_key`, `lawfulEqOrd_of_key` : the laws;
* pairs are ordered by their first part, then by their second.
-/

namespace Devirt

variable {α β : Type}

/-- An order by a key is transitive if that of the keys is. -/
theorem transOrd_of_key [Ord α] [Ord β] [Std.TransOrd β] (key : α → β)
    (h : ∀ a b : α, compare a b = compare (key a) (key b)) : Std.TransOrd α where
  eq_swap := by
    intro a b
    rw [h a b, h b a]
    exact Std.OrientedOrd.eq_swap
  isLE_trans := by
    intro a b c hab hbc
    rw [h] at hab hbc ⊢
    exact Std.TransOrd.isLE_trans hab hbc

/-- Elements that compare as equal are equal if this holds for their keys, and the keys tell
elements apart. -/
theorem lawfulEqOrd_of_key [Ord α] [Ord β] [Std.LawfulEqOrd β] (key : α → β)
    (h : ∀ a b : α, compare a b = compare (key a) (key b))
    (inj : ∀ a b : α, key a = key b → a = b) : Std.LawfulEqOrd α where
  compare_self := by
    intro a
    rw [h]
    exact Std.ReflOrd.compare_self
  eq_of_compare := by
    intro a b hab
    rw [h] at hab
    exact inj a b (Std.LawfulEqOrd.eq_of_compare hab)

/-- Pairs are ordered by their first part, then by their second. -/
instance ordPair [Ord α] [Ord β] : Ord (α × β) := lexOrd

theorem compare_pair [Ord α] [Ord β] (a c : α) (b d : β) :
    compare (a, b) (c, d) = (compare a c).then (compare b d) := rfl

end Devirt
