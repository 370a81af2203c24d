import Devirt.Roster

/-!
# Walking a graph breadth first

A graph is a list of edges, and may have cycles and nodes without edges.

* `successors edges x` : the targets of the edges out of `x`, in their order;
* `Arrows` : edges with a tree that finds the targets of each node (`Arrows.next_eq`);
* `reach a starts` : the nodes reached from the starts, in the order of a queue;
* `Reaches edges x y` : a path of zero or more edges leads from `x` to `y`.

A walk finds exactly the nodes that a path leads to (`mem_reach`). It ends because every step takes
a node off the queue or moves its edges from the unwalked ones (`unwalked`) onto the queue.
-/

namespace Devirt

variable {α : Type}

/-! ## Edges -/

section Edges

variable {β : Type} [DecidableEq α]

/-- The targets of the edges out of a node. -/
def successors (edges : List (α × β)) (x : α) : List β :=
  (edges.filter (fun e => e.1 = x)).map (·.2)

def targetTable [Ord α] (edges : List (α × β)) : Std.TreeMap α (List β) :=
  edges.foldr (fun e table => table.insert e.1 (e.2 :: table.getD e.1 [])) ∅

@[simp]
theorem mem_successors {edges : List (α × β)} {x : α} {y : β} :
    y ∈ successors edges x ↔ (x, y) ∈ edges := by
  simp [successors]

theorem getD_targetTable [Ord α] [Std.TransOrd α] [Std.LawfulEqOrd α] (edges : List (α × β))
    (x : α) : (targetTable edges).getD x [] = successors edges x := by
  induction edges with
  | nil => simp [targetTable, successors]
  | cons e rest ih =>
    have hstep : targetTable (e :: rest) =
        (targetTable rest).insert e.1 (e.2 :: (targetTable rest).getD e.1 []) := rfl
    rw [hstep, Std.TreeMap.getD_insert]
    by_cases h : e.1 = x
    · subst h
      rw [if_pos Std.ReflOrd.compare_self, ih]
      simp [successors]
    · rw [if_neg (fun hc => h (Std.LawfulEqOrd.eq_of_compare hc)), ih]
      simp [successors, h]

end Edges

/-- Edges, with the targets of every node at hand. -/
structure Arrows (α : Type) [Ord α] where
  edges : List (α × α)
  table : Std.TreeMap α (List α)
  table_eq : table = targetTable edges

namespace Arrows

variable [Ord α]

def ofList (edges : List (α × α)) : Arrows α := ⟨edges, targetTable edges, rfl⟩

def flip (a : Arrows α) : Arrows α := .ofList (a.edges.map Prod.swap)

def next (a : Arrows α) (x : α) : List α := a.table.getD x []

variable [DecidableEq α] [Std.TransOrd α] [Std.LawfulEqOrd α]

/-- The tree finds the targets of the edges. -/
theorem next_eq (a : Arrows α) (x : α) : a.next x = successors a.edges x := by
  rw [next, a.table_eq, getD_targetTable]

@[simp]
theorem mem_next {a : Arrows α} {x y : α} : y ∈ a.next x ↔ (x, y) ∈ a.edges := by
  rw [next_eq, mem_successors]

end Arrows

/-! ## Paths -/

/-- A path of zero or more edges. -/
inductive Reaches (edges : List (α × α)) : α → α → Prop where
  | refl (x : α) : Reaches edges x x
  | head {x y z : α} (edge : (x, y) ∈ edges) (path : Reaches edges y z) : Reaches edges x z

theorem Reaches.trans {edges : List (α × α)} {x y z : α} (h₁ : Reaches edges x y)
    (h₂ : Reaches edges y z) : Reaches edges x z := by
  induction h₁ with
  | refl => exact h₂
  | head edge _ ih => exact .head edge (ih h₂)

/-! ## Walks -/

variable [Ord α] [Std.TransOrd α] [Std.LawfulEqOrd α]

/-- The edges whose source has not been seen. -/
def unwalked (edges : List (α × α)) (seen : Roster α) : List (α × α) :=
  edges.filter (fun e => !seen.contains e.1)

/-- Seeing a new node takes exactly its edges off the unwalked ones. -/
theorem length_unwalked_insert {a : Arrows α} {seen : Roster α} {x : α}
    (hx : seen.contains x = false) :
    (a.next x).length + (unwalked a.edges (seen.insert x)).length =
      (unwalked a.edges seen).length := by
  classical
  rw [a.next_eq]
  generalize a.edges = edges
  induction edges with
  | nil => rfl
  | cons e rest ih =>
    simp only [successors, unwalked, List.length_map, Roster.contains_insert,
      List.filter_cons] at ih ⊢
    by_cases he : e.1 = x
    · simp [he, hx] at ih ⊢
      omega
    · cases hs : seen.contains e.1 <;> simp [he] at ih ⊢ <;> omega

/-- The nodes seen once the queue is empty: a node is taken off the front, and unless it has been
seen before, its targets join the queue at the back. The queue is its front part and, in reverse,
its back part. -/
def walk (a : Arrows α) (front back : List α) (seen : Roster α) : Roster α :=
  match front with
  | [] => if back.isEmpty then seen else walk a back.reverse [] seen
  | x :: rest =>
    if seen.contains x then walk a rest back seen
    else walk a rest ((a.next x).reverse ++ back) (seen.insert x)
termination_by ((unwalked a.edges seen).length + front.length + back.length, back.length)
decreasing_by
  · rename_i h
    have : 0 < back.length := by cases back <;> simp_all
    simp [Prod.lex_def]
    omega
  · simp [Prod.lex_def]
  · rename_i hx
    have := length_unwalked_insert (a := a) (Bool.eq_false_iff.mpr hx)
    simp [Prod.lex_def]
    omega

/-- The nodes reached from the starts by zero or more edges, in breadth-first order. -/
def reach (a : Arrows α) (starts : List α) : Roster α := walk a starts [] ∅

/-! ## What a walk finds -/

omit [Std.TransOrd α] [Std.LawfulEqOrd α] in
/-- From a set whose edges stay in it or lead to the queue, a path stays in it or passes the
queue. -/
theorem reaches_of_closed {edges : List (α × α)} {seen : Roster α} {front back : List α}
    (closed : ∀ s ∈ seen, ∀ y, (s, y) ∈ edges → y ∈ seen ∨ y ∈ front ∨ y ∈ back) {x z : α}
    (h : Reaches edges x z) (hx : x ∈ seen) :
    z ∈ seen ∨ ∃ q, (q ∈ front ∨ q ∈ back) ∧ Reaches edges q z := by
  induction h with
  | refl => exact .inl hx
  | head edge path ih =>
    rcases closed _ hx _ edge with hy | hy
    · exact ih hy
    · exact .inr ⟨_, hy, path⟩

/-- A walk finds what it has seen and what can be reached from its queue, if what it has seen
leads nowhere else. -/
theorem mem_walk {a : Arrows α} {front back : List α} {seen : Roster α}
    (closed : ∀ s ∈ seen, ∀ y, (s, y) ∈ a.edges → y ∈ seen ∨ y ∈ front ∨ y ∈ back) (z : α) :
    z ∈ walk a front back seen ↔
      z ∈ seen ∨ ∃ q, (q ∈ front ∨ q ∈ back) ∧ Reaches a.edges q z := by
  classical
  fun_induction walk a front back seen with
  | case1 back seen hb =>
    obtain rfl := List.isEmpty_iff.mp hb
    simp
  | case2 back seen hb ih =>
    simp only [List.unattach_reverse, List.unattach_attach] at ih
    rw [ih (fun s hs y hy => by simpa using closed s hs y hy)]
    simp
  | case3 back seen x rest hx ih =>
    have hx := Roster.contains_iff.mp hx
    have closed' : ∀ s ∈ seen, ∀ y, (s, y) ∈ a.edges → y ∈ seen ∨ y ∈ rest ∨ y ∈ back := by
      intro s hs y hy
      rcases closed s hs y hy with h | h | h
      · exact .inl h
      · rcases List.mem_cons.mp h with rfl | h
        · exact .inl hx
        · exact .inr (.inl h)
      · exact .inr (.inr h)
    rw [ih closed']
    constructor
    · rintro (h | ⟨q, hq, hr⟩)
      · exact .inl h
      · exact .inr ⟨q, hq.imp_left (List.mem_cons_of_mem _), hr⟩
    · rintro (h | ⟨q, hq | hq, hr⟩)
      · exact .inl h
      · rcases List.mem_cons.mp hq with rfl | hq
        · exact reaches_of_closed closed' hr hx
        · exact .inr ⟨q, .inl hq, hr⟩
      · exact .inr ⟨q, .inr hq, hr⟩
  | case4 back seen x rest hx ih =>
    have closed' : ∀ s ∈ seen.insert x, ∀ y, (s, y) ∈ a.edges →
        y ∈ seen.insert x ∨ y ∈ rest ∨ y ∈ (a.next x).reverse ++ back := by
      intro s hs y hy
      rcases Roster.mem_insert.mp hs with rfl | hs
      · exact .inr (.inr (by simp [hy]))
      · rcases closed s hs y hy with h | h | h
        · exact .inl (Roster.mem_insert.mpr (.inr h))
        · rcases List.mem_cons.mp h with rfl | h
          · exact .inl (Roster.mem_insert.mpr (.inl rfl))
          · exact .inr (.inl h)
        · exact .inr (.inr (List.mem_append_right _ h))
    rw [ih closed', Roster.mem_insert]
    constructor
    · rintro ((rfl | h) | ⟨q, hq | hq, hr⟩)
      · exact .inr ⟨z, .inl (by simp), .refl z⟩
      · exact .inl h
      · exact .inr ⟨q, .inl (List.mem_cons_of_mem _ hq), hr⟩
      · rcases List.mem_append.mp hq with hq | hq
        · exact .inr ⟨x, .inl (by simp), .head (by simpa using hq) hr⟩
        · exact .inr ⟨q, .inr hq, hr⟩
    · rintro (h | ⟨q, hq | hq, hr⟩)
      · exact .inl (.inr h)
      · rcases List.mem_cons.mp hq with rfl | hq
        · cases hr with
          | refl => exact .inl (.inl rfl)
          | head edge path => exact .inr ⟨_, .inr (by simp [edge]), path⟩
        · exact .inr ⟨q, .inl hq, hr⟩
      · exact .inr ⟨q, .inr (List.mem_append_right _ hq), hr⟩

/-- The nodes reached are those that a path from a start leads to. -/
theorem mem_reach {a : Arrows α} {starts : List α} {z : α} :
    z ∈ reach a starts ↔ ∃ s ∈ starts, Reaches a.edges s z := by
  simp [reach, mem_walk]

end Devirt
