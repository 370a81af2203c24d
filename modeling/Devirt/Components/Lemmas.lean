import Devirt.Components

/-!
# What the components of a graph are

* `Settled edges order` : from what was left up to a node, edges lead only to what was left up to it
  or to nodes that reach it; `settled_leaveOrder` : this holds for the order of leaving;
* `Mutual edges x y` : two nodes reach each other;
* `AreComponents edges nodes parts` : the parts are the classes of `Mutual`, and no edge leads to a later
  one;
* `Finder.Exact find` : what `find` finds are the components of the graph. Nothing else is asked of a
  way to find them, and `components` is such a way (`exact_components`).
-/

namespace Devirt

variable {α : Type}

/-! ## Paths -/

theorem Reaches.tail {edges : List (α × α)} {x y z : α} (h : Reaches edges x y)
    (edge : (y, z) ∈ edges) : Reaches edges x z := h.trans (.head edge (.refl z))

theorem Reaches.swap {edges : List (α × α)} {x y : α} (h : Reaches edges x y) :
    Reaches (edges.map Prod.swap) y x := by
  induction h with
  | refl => exact .refl _
  | head edge _ ih => exact ih.tail (List.mem_map.mpr ⟨_, edge, rfl⟩)

theorem reaches_swap {edges : List (α × α)} {x y : α} :
    Reaches (edges.map Prod.swap) x y ↔ Reaches edges y x := by
  constructor
  · intro h
    simpa [List.map_map] using h.swap
  · exact Reaches.swap

/-- A set that edges do not leave is not left by paths. -/
theorem Reaches.stays {edges : List (α × α)} {s : α → Prop}
    (closed : ∀ x, s x → ∀ y, (x, y) ∈ edges → s y) {x y : α} (h : Reaches edges x y) (hx : s x) :
    s y := by
  induction h with
  | refl => exact hx
  | head edge _ ih => exact ih (closed _ hx _ edge)

def Mutual (edges : List (α × α)) (x y : α) : Prop := Reaches edges x y ∧ Reaches edges y x

theorem Mutual.refl (edges : List (α × α)) (x : α) : Mutual edges x x := ⟨.refl x, .refl x⟩

theorem Mutual.symm {edges : List (α × α)} {x y : α} (h : Mutual edges x y) : Mutual edges y x :=
  ⟨h.2, h.1⟩

theorem Mutual.trans {edges : List (α × α)} {x y z : α} (h₁ : Mutual edges x y)
    (h₂ : Mutual edges y z) : Mutual edges x z := ⟨h₁.1.trans h₂.1, h₂.2.trans h₁.2⟩

/-! ## Components -/

/-- Parts of a graph are its components, in an order against the edges: they hold every node once, each
of them holds the nodes that reach one of its nodes and are reached by it, and its edges lead to it or
to parts before it. -/
structure AreComponents (edges : List (α × α)) (nodes : List α) (parts : List (List α)) : Prop where
  nodup : parts.flatten.Nodup
  mem_iff : ∀ x, x ∈ parts.flatten ↔ x ∈ nodes
  whole : ∀ part ∈ parts, ∃ x ∈ part, ∀ y, y ∈ part ↔ Mutual edges x y
  leads : ∀ before part after, parts = before ++ part :: after →
    ∀ x ∈ part, ∀ y, (x, y) ∈ edges → y ∈ (before ++ [part]).flatten

/-- What is asked of a way to find components: given nodes, each once, and arrows between them, it finds
the components of this graph. -/
def Finder.Exact (find : Finder) : Prop :=
  ∀ (a : Arrows Nat) (nodes : List Nat), nodes.Nodup →
    (∀ e ∈ a.edges, e.1 ∈ nodes ∧ e.2 ∈ nodes) → AreComponents a.edges nodes (find a nodes)

/-! ## The order of leaving -/

/-- Edges from a node and what comes behind it lead there again, or to nodes that reach the node. -/
def Settled (edges : List (α × α)) : List α → Prop
  | [] => True
  | x :: rest =>
    (∀ d ∈ x :: rest, ∀ s, (d, s) ∈ edges → s ∈ x :: rest ∨ Reaches edges s x) ∧
      Settled edges rest

/-- The nodes that tasks leave: those that have been entered and not left yet. -/
def openNodes : List (Task α) → List α
  | [] => []
  | .enter _ :: rest => openNodes rest
  | .leave x :: rest => x :: openNodes rest

def Task.node : Task α → α
  | .enter x | .leave x => x

/-- Every open node reaches the nodes of the tasks before its own. -/
def Nested (edges : List (α × α)) : List (Task α) → Prop
  | [] => True
  | t :: rest => (∀ h ∈ openNodes rest, Reaches edges h t.node) ∧ Nested edges rest

/-- The targets of an open node have been seen or will be entered before it is left. -/
def Awaited (edges : List (α × α)) (seen : α → Prop) : List (Task α) → Prop
  | [] => True
  | .enter x :: rest => Awaited edges (fun y => seen y ∨ y = x) rest
  | .leave x :: rest => (∀ y, (x, y) ∈ edges → seen y) ∧ Awaited edges seen rest

theorem Awaited.mono {edges : List (α × α)} {s t : α → Prop} (h : ∀ x, s x → t x)
    {tasks : List (Task α)} (hs : Awaited edges s tasks) : Awaited edges t tasks := by
  induction tasks generalizing s t with
  | nil => trivial
  | cons task rest ih =>
    cases task with
    | enter x => exact ih (fun y hy => hy.imp_left (h y)) hs
    | leave x => exact ⟨fun y hy => h y (hs.1 y hy), ih h hs.2⟩

theorem openNodes_append_enter (xs : List α) (tasks : List (Task α)) :
    openNodes (xs.map Task.enter ++ tasks) = openNodes tasks := by
  induction xs with
  | nil => rfl
  | cons x xs ih => simpa [openNodes] using ih

theorem nested_append_enter {edges : List (α × α)} {xs : List α} {tasks : List (Task α)}
    (hx : ∀ x ∈ xs, ∀ h ∈ openNodes tasks, Reaches edges h x) (ht : Nested edges tasks) :
    Nested edges (xs.map Task.enter ++ tasks) := by
  induction xs with
  | nil => exact ht
  | cons x xs ih =>
    refine ⟨?_, ih (fun y hy => hx y (List.mem_cons_of_mem _ hy))⟩
    intro h hh
    have hopen : h ∈ openNodes (xs.map Task.enter ++ tasks) := hh
    rw [openNodes_append_enter] at hopen
    exact hx x (by simp) h hopen

theorem awaited_append_enter {edges : List (α × α)} {s : α → Prop} {xs : List α}
    {tasks : List (Task α)} (h : Awaited edges (fun y => s y ∨ y ∈ xs) tasks) :
    Awaited edges s (xs.map Task.enter ++ tasks) := by
  induction xs generalizing s with
  | nil => exact h.mono (by simp)
  | cons x xs ih =>
    exact ih (h.mono (fun y hy => by
      rcases hy with hy | hy
      · exact .inl (.inl hy)
      · rcases List.mem_cons.mp hy with rfl | hy
        · exact .inl (.inr rfl)
        · exact .inr hy))

variable [Ord α] [Std.TransOrd α] [Std.LawfulEqOrd α]

/-- How far a depth-first walk has come: the nodes seen are those left and those open, each once;
what was left leads to what was seen. -/
structure Underway (edges : List (α × α)) (tasks : List (Task α)) (seen : Roster α)
    (left : List α) : Prop where
  seen_iff : ∀ x, x ∈ seen ↔ x ∈ left ∨ x ∈ openNodes tasks
  nodup : (openNodes tasks ++ left).Nodup
  left_closed : ∀ x ∈ left, ∀ y, (x, y) ∈ edges → y ∈ seen
  nested : Nested edges tasks
  awaited : Awaited edges (· ∈ seen) tasks
  settled : Settled edges left

omit [Std.TransOrd α] [Std.LawfulEqOrd α] in
theorem Underway.leave {edges : List (α × α)} {x : α} {rest : List (Task α)} {seen : Roster α}
    {left : List α} (h : Underway edges (.leave x :: rest) seen left) :
    Underway edges rest seen (x :: left) := by
  obtain ⟨seen_iff, nodup, left_closed, ⟨hnest, nested⟩, ⟨hawait, awaited⟩, settled⟩ := h
  have seen_iff' : ∀ y, y ∈ seen ↔ y ∈ x :: left ∨ y ∈ openNodes rest := by
    intro y
    rw [seen_iff, openNodes, List.mem_cons, List.mem_cons, or_assoc, or_left_comm]
  have closed : ∀ d ∈ x :: left, ∀ y, (d, y) ∈ edges → y ∈ seen := by
    intro d hd y hy
    rcases List.mem_cons.mp hd with rfl | hd
    · exact hawait y hy
    · exact left_closed d hd y hy
  refine ⟨seen_iff', ?_, closed, nested, awaited, ?_, settled⟩
  · exact (List.perm_middle.nodup_iff).mpr nodup
  · intro d hd s hs
    rcases (seen_iff' s).mp (closed d hd s hs) with hl | ho
    · exact .inl hl
    · exact .inr (hnest s ho)

omit [Std.TransOrd α] [Std.LawfulEqOrd α] in
theorem Underway.skip {edges : List (α × α)} {x : α} {rest : List (Task α)} {seen : Roster α}
    {left : List α} (hx : x ∈ seen) (h : Underway edges (.enter x :: rest) seen left) :
    Underway edges rest seen left := by
  have awaited : Awaited edges (fun y => y ∈ seen ∨ y = x) rest := h.awaited
  exact ⟨h.seen_iff, h.nodup, h.left_closed, h.nested.2,
    awaited.mono (fun y hy => hy.elim id (fun e => e ▸ hx)), h.settled⟩

theorem Underway.enter {a : Arrows α} {x : α} {rest : List (Task α)} {seen : Roster α}
    {left : List α} (hx : x ∉ seen) (h : Underway a.edges (.enter x :: rest) seen left) :
    Underway a.edges ((a.next x).map .enter ++ .leave x :: rest) (seen.insert x) left := by
  classical
  obtain ⟨seen_iff, nodup, left_closed, ⟨hnest, nested⟩, awaited, settled⟩ := h
  refine ⟨?_, ?_, ?_, ?_, ?_, settled⟩
  · intro y
    rw [openNodes_append_enter, Roster.mem_insert, seen_iff, openNodes, openNodes, List.mem_cons,
      or_left_comm]
  · rw [openNodes_append_enter, openNodes, List.cons_append, List.nodup_cons]
    refine ⟨fun hm => hx ((seen_iff x).mpr ?_), nodup⟩
    exact (List.mem_append.mp hm).symm
  · intro d hd y hy
    exact Roster.mem_insert.mpr (.inr (left_closed d hd y hy))
  · refine nested_append_enter ?_ ⟨hnest, nested⟩
    intro y hy h hh
    have edge : (x, y) ∈ a.edges := Arrows.mem_next.mp hy
    rcases List.mem_cons.mp hh with rfl | hh
    · exact .head edge (.refl y)
    · exact (hnest h hh).tail edge
  · have awaited : Awaited a.edges (fun y => y ∈ seen ∨ y = x) rest := awaited
    refine awaited_append_enter ⟨fun y hy => .inr (Arrows.mem_next.mpr hy), ?_⟩
    exact awaited.mono (fun y hy => .inl (Roster.mem_insert.mpr hy.symm))

/-- At the end, all that was seen or was to be entered has been left, and the order is settled. -/
theorem settled_leaving {a : Arrows α} {tasks : List (Task α)} {seen : Roster α} {left : List α}
    (h : Underway a.edges tasks seen left) :
    (leaving a tasks seen left).Nodup ∧ Settled a.edges (leaving a tasks seen left) ∧
      (∀ x ∈ leaving a tasks seen left, ∀ y, (x, y) ∈ a.edges →
        y ∈ leaving a tasks seen left) ∧
      (∀ x, x ∈ seen ∨ .enter x ∈ tasks → x ∈ leaving a tasks seen left) := by
  fun_induction leaving a tasks seen left with
  | case1 seen left =>
    refine ⟨h.nodup, h.settled, fun x hx y hy => ?_, fun x hx => ?_⟩
    · simpa [openNodes] using (h.seen_iff y).mp (h.left_closed x hx y hy)
    · simpa [openNodes] using (h.seen_iff x).mp (by simpa using hx)
  | case2 seen left x rest ih =>
    obtain ⟨h₁, h₂, h₃, h₄⟩ := ih h.leave
    refine ⟨h₁, h₂, h₃, fun y hy => h₄ y (hy.imp_right (by simp))⟩
  | case3 seen left x rest hx ih =>
    have hx := Roster.contains_iff.mp hx
    obtain ⟨h₁, h₂, h₃, h₄⟩ := ih (h.skip hx)
    refine ⟨h₁, h₂, h₃, fun y hy => h₄ y ?_⟩
    rcases hy with hy | hy
    · exact .inl hy
    · rcases List.mem_cons.mp hy with hy | hy
      · cases hy
        exact .inl hx
      · exact .inr hy
  | case4 seen left x rest hx ih =>
    obtain ⟨h₁, h₂, h₃, h₄⟩ := ih (h.enter (fun hm => hx (Roster.contains_iff.mpr hm)))
    refine ⟨h₁, h₂, h₃, fun y hy => h₄ y ?_⟩
    rcases hy with hy | hy
    · exact .inl (Roster.mem_insert.mpr (.inr hy))
    · rcases List.mem_cons.mp hy with hy | hy
      · cases hy
        exact .inl (Roster.mem_insert.mpr (.inl rfl))
      · exact .inr (by simp [hy])

/-- What a walk leaves it had left before, or a task leads to it. -/
theorem mem_leaving {a : Arrows α} {tasks : List (Task α)} {seen : Roster α} {left : List α} {x : α}
    (h : x ∈ leaving a tasks seen left) : x ∈ left ∨ ∃ t ∈ tasks, Reaches a.edges t.node x := by
  classical
  fun_induction leaving a tasks seen left with
  | case1 => exact .inl h
  | case2 seen left y rest ih =>
    rcases ih h with hl | ⟨t, ht, hr⟩
    · rcases List.mem_cons.mp hl with rfl | hl
      · exact .inr ⟨.leave x, by simp, .refl x⟩
      · exact .inl hl
    · exact .inr ⟨t, List.mem_cons_of_mem _ ht, hr⟩
  | case3 seen left y rest hy ih =>
    exact (ih h).imp_right (fun ⟨t, ht, hr⟩ => ⟨t, List.mem_cons_of_mem _ ht, hr⟩)
  | case4 seen left y rest hy ih =>
    rcases ih h with hl | ⟨t, ht, hr⟩
    · exact .inl hl
    · rcases List.mem_append.mp ht with ht | ht
      · obtain ⟨z, hz, rfl⟩ := List.mem_map.mp ht
        exact .inr ⟨.enter y, by simp, .head (Arrows.mem_next.mp hz) hr⟩
      · rcases List.mem_cons.mp ht with rfl | ht
        · exact .inr ⟨.enter y, by simp, hr⟩
        · exact .inr ⟨t, List.mem_cons_of_mem _ ht, hr⟩

omit [Std.TransOrd α] [Std.LawfulEqOrd α] in
theorem underway_start (edges : List (α × α)) (nodes : List α) :
    Underway edges (nodes.map .enter) ∅ [] := by
  have hopen : openNodes (nodes.map Task.enter) = [] := by
    simpa [openNodes] using openNodes_append_enter nodes []
  have hnested : Nested edges (nodes.map Task.enter ++ []) :=
    nested_append_enter (by simp [openNodes]) trivial
  have hawaited : Awaited edges (· ∈ (∅ : Roster α)) (nodes.map Task.enter ++ []) :=
    awaited_append_enter trivial
  rw [List.append_nil] at hnested hawaited
  exact ⟨by simp [hopen], by simp [hopen], by simp, hnested, hawaited, trivial⟩

theorem nodup_leaveOrder (a : Arrows α) (nodes : List α) : (leaveOrder a nodes).Nodup :=
  (settled_leaving (underway_start a.edges nodes)).1

theorem settled_leaveOrder (a : Arrows α) (nodes : List α) :
    Settled a.edges (leaveOrder a nodes) := (settled_leaving (underway_start a.edges nodes)).2.1

/-- The order of leaving holds the nodes, if all edges join nodes. -/
theorem mem_leaveOrder {a : Arrows α} {nodes : List α}
    (joins : ∀ e ∈ a.edges, e.1 ∈ nodes ∧ e.2 ∈ nodes) {x : α} :
    x ∈ leaveOrder a nodes ↔ x ∈ nodes := by
  constructor
  · intro h
    rcases mem_leaving h with h | ⟨t, ht, hr⟩
    · simp at h
    · obtain ⟨y, hy, rfl⟩ := List.mem_map.mp ht
      exact hr.stays (fun _ _ z hz => (joins _ hz).2) hy
  · intro h
    have hall := (settled_leaving (underway_start a.edges nodes)).2.2.2
    exact hall x (.inr (List.mem_map.mpr ⟨x, h, rfl⟩))

/-! ## The last node of a component -/

omit [Ord α] [Std.TransOrd α] [Std.LawfulEqOrd α] in
theorem Settled.suffix {edges : List (α × α)} {l m : List α} (h : Settled edges l)
    (hs : m <:+ l) : Settled edges m := by
  induction l with
  | nil => simpa [List.suffix_nil.mp hs] using h
  | cons x l ih =>
    rcases List.suffix_cons_iff.mp hs with rfl | hs
    · exact h
    · exact ih h.2 hs

omit [Ord α] [Std.TransOrd α] [Std.LawfulEqOrd α] in
/-- If a settled list holds all of a component, then what the component reaches comes no earlier
than the first of its nodes. -/
theorem Settled.reached {edges : List (α × α)} {l : List α} (h : Settled edges l) {x : α}
    (hx : x ∈ l) (hall : ∀ y, Mutual edges x y → y ∈ l) :
    ∃ m rest, m :: rest <:+ l ∧ Mutual edges x m ∧ ∀ z, Reaches edges x z → z ∈ m :: rest := by
  classical
  induction l with
  | nil => cases hx
  | cons w l ih =>
    by_cases hw : Mutual edges x w
    · refine ⟨w, l, List.suffix_refl _, hw, fun z hz => ?_⟩
      have hstay := hz.stays (s := fun d => d ∈ w :: l ∧ Reaches edges w d)
      refine (hstay ?_ ⟨hx, hw.2⟩).1
      rintro d ⟨hd, hwd⟩ y hy
      refine ⟨?_, hwd.tail hy⟩
      rcases h.1 d hd y hy with hy' | hy'
      · exact hy'
      · exact hall y (hw.trans ⟨hwd.tail hy, hy'⟩)
    · have hother : ∀ y, Mutual edges x y → y ∈ l := by
        intro y hy
        rcases List.mem_cons.mp (hall y hy) with rfl | hl
        · exact absurd hy hw
        · exact hl
      obtain ⟨m, rest, hs, hm, hz⟩ := ih h.2 (hother x (.refl edges x)) hother
      exact ⟨m, rest, hs.trans (List.suffix_cons w l), hm, hz⟩

/-! ## Divisions -/

/-- Every part is a component, and no edge leaves a part together with those behind it. -/
def Parted (edges : List (α × α)) : List (List α) → Prop
  | [] => True
  | p :: rest =>
    (∃ x ∈ p, ∀ y, y ∈ p ↔ Mutual edges x y) ∧
      (∀ x ∈ (p :: rest).flatten, ∀ y, (x, y) ∈ edges → y ∈ (p :: rest).flatten) ∧
      Parted edges rest

/-- A walk adds to what has been seen. -/
theorem walk_suffix (a : Arrows α) (front back : List α) (seen : Roster α) :
    seen.latest <:+ (walk a front back seen).latest := by
  fun_induction walk a front back seen with
  | case1 => exact List.suffix_refl _
  | case2 back seen hb ih => simpa only [List.unattach_reverse, List.unattach_attach] using ih
  | case3 back seen x rest hx ih => exact ih
  | case4 back seen x rest hx ih =>
    refine List.IsSuffix.trans ?_ ih
    rw [Roster.insert, dif_neg (by simpa [Roster.contains] using hx)]
    exact List.suffix_cons x _

/-- The components found so far hold all that has been seen. -/
structure Divided (edges : List (α × α)) (d : Division α) : Prop where
  flatten : d.parts.flatten = d.seen.latest
  parted : Parted edges d.parts

omit [Std.TransOrd α] [Std.LawfulEqOrd α] in
theorem Divided.closed {edges : List (α × α)} {d : Division α} (h : Divided edges d) :
    ∀ x ∈ d.seen, ∀ y, (x, y) ∈ edges → y ∈ d.seen := by
  intro x hx y hy
  have hx' : x ∈ d.parts.flatten := h.flatten ▸ hx
  have : y ∈ d.parts.flatten := by
    cases hp : d.parts with
    | nil => simp [hp] at hx'
    | cons p rest =>
      have := h.parted
      rw [hp] at this hx'
      exact this.2.1 x hx' y hy
  have hy' : y ∈ d.seen.latest := h.flatten ▸ this
  exact hy'

/-- Adding the first node of a settled rest adds its component, if the rest holds all nodes that
have not been seen. -/
theorem Divided.add {a : Arrows α} {nodes : List α}
    (joins : ∀ e ∈ a.edges, e.1 ∈ nodes ∧ e.2 ∈ nodes) {d : Division α} (h : Divided a.edges d)
    {v : α} {rest : List α} (hsettled : Settled a.flip.edges (v :: rest))
    (hnodup : (v :: rest).Nodup) (hv : v ∈ nodes)
    (hrest : ∀ x ∈ nodes, x ∉ d.seen → x ∈ v :: rest) :
    Divided a.edges (d.add a v) ∧ v ∈ (d.add a v).seen ∧ ∀ x ∈ d.seen, x ∈ (d.add a v).seen := by
  unfold Division.add
  by_cases hs : d.seen.contains v = true
  · rw [if_pos hs]
    exact ⟨h, Roster.contains_iff.mp hs, fun x hx => hx⟩
  rw [if_neg hs]
  have hvs : v ∉ d.seen := fun hm => hs (Roster.contains_iff.mpr hm)
  have hclosed := h.closed
  have hwalk : ∀ z, z ∈ walk a [v] [] d.seen ↔ z ∈ d.seen ∨ Reaches a.edges v z := by
    intro z
    rw [mem_walk (fun s hs' y hy => .inl (hclosed s hs' y hy))]
    simp
  have hback : ∀ x y, Reaches a.edges x y → x ∈ d.seen → y ∈ d.seen :=
    fun x y hr hx => hr.stays (s := (· ∈ d.seen)) hclosed hx
  have hnodes : ∀ y, Reaches a.edges v y → y ∈ nodes :=
    fun y hr => hr.stays (fun _ _ z hz => (joins _ hz).2) hv
  -- what is reached and has not been seen reaches back
  have hmutual : ∀ y, y ∉ d.seen → Reaches a.edges v y → Mutual a.edges v y := by
    intro y hy hr
    have hall : ∀ z, Mutual a.flip.edges y z → z ∈ v :: rest := by
      intro z hz
      have hyz : Reaches a.edges y z := reaches_swap.mp hz.2
      refine hrest z (hnodes z (hr.trans hyz)) (fun hzs => hy ?_)
      exact hback z y (reaches_swap.mp hz.1) hzs
    have hmem : y ∈ v :: rest := hall y (.refl _ y)
    obtain ⟨m, tail, hsuffix, hm, hz⟩ := hsettled.reached hmem hall
    have hvm : v ∈ m :: tail := hz v (reaches_swap.mpr hr)
    rcases List.suffix_cons_iff.mp hsuffix with heq | hsuffix
    · cases heq
      exact ⟨hr, reaches_swap.mp hm.2⟩
    · exact absurd (hsuffix.subset hvm) (List.nodup_cons.mp hnodup).1
  obtain ⟨new, hnew⟩ := walk_suffix a [v] [] d.seen
  have hsize : (walk a [v] [] d.seen).size - d.seen.size = new.length := by
    rw [Roster.size_eq, Roster.size_eq, Roster.toList, Roster.toList, List.length_reverse,
      List.length_reverse, ← hnew, List.length_append]
    omega
  have htake : (walk a [v] [] d.seen).latest.take
      ((walk a [v] [] d.seen).size - d.seen.size) = new := by
    rw [hsize, ← hnew, List.take_left]
  have hmemnew : ∀ y, y ∈ new ↔ Mutual a.edges v y := by
    intro y
    have hnodup' : (new ++ d.seen.latest).Nodup := hnew ▸ (walk a [v] [] d.seen).nodup
    have hiff : y ∈ new ++ d.seen.latest ↔ y ∈ d.seen ∨ Reaches a.edges v y := by
      rw [hnew]
      exact hwalk y
    constructor
    · intro hy
      have hys : y ∉ d.seen := fun hm => (List.nodup_append.mp hnodup').2.2 y hy y hm rfl
      refine hmutual y hys ((hiff.mp (List.mem_append_left _ hy)).resolve_left hys)
    · intro hy
      rcases List.mem_append.mp (hiff.mpr (.inr hy.1)) with hm | hm
      · exact hm
      · exact absurd (hback y v hy.2 hm) hvs
  have hflatten : (new :: d.parts).flatten = (walk a [v] [] d.seen).latest := by
    rw [List.flatten_cons, h.flatten, hnew]
  dsimp only
  rw [htake]
  refine ⟨⟨hflatten, ⟨v, (hmemnew v).mpr (.refl _ v), hmemnew⟩, ?_, h.parted⟩,
    (hwalk v).mpr (.inr (.refl v)), fun x hx => (hwalk x).mpr (.inl hx)⟩
  intro x hx y hy
  rw [hflatten] at hx ⊢
  rcases (hwalk x).mp hx with hx | hx
  · exact (hwalk y).mpr (.inl (hclosed x hx y hy))
  · exact (hwalk y).mpr (.inr (hx.tail hy))

theorem divided_foldl {a : Arrows α} {nodes : List α}
    (joins : ∀ e ∈ a.edges, e.1 ∈ nodes ∧ e.2 ∈ nodes) (order : List α) {d : Division α}
    (h : Divided a.edges d) (hsettled : Settled a.flip.edges order) (hnodup : order.Nodup)
    (hnodes : ∀ x ∈ order, x ∈ nodes) (hrest : ∀ x ∈ nodes, x ∉ d.seen → x ∈ order) :
    Divided a.edges (order.foldl (Division.add a) d) ∧
      ∀ x ∈ nodes, x ∈ (order.foldl (Division.add a) d).seen := by
  classical
  induction order generalizing d with
  | nil => exact ⟨h, fun x hx => Classical.byContradiction (fun hs => by simpa using hrest x hx hs)⟩
  | cons v rest ih =>
    obtain ⟨hadd, hv, hkeep⟩ := h.add joins hsettled hnodup (hnodes v (by simp)) hrest
    refine ih hadd hsettled.2 (List.nodup_cons.mp hnodup).2
      (fun x hx => hnodes x (List.mem_cons_of_mem _ hx)) (fun x hx hs => ?_)
    rcases List.mem_cons.mp (hrest x hx (fun hm => hs (hkeep x hm))) with rfl | hx'
    · exact absurd hv hs
    · exact hx'

omit [Ord α] [Std.TransOrd α] [Std.LawfulEqOrd α] in
theorem Parted.suffix {edges : List (α × α)} {l m : List (List α)} (h : Parted edges l)
    (hs : m <:+ l) : Parted edges m := by
  induction l with
  | nil => simpa [List.suffix_nil.mp hs] using h
  | cons x l ih =>
    rcases List.suffix_cons_iff.mp hs with rfl | hs
    · exact h
    · exact ih h.2.2 hs

omit [Std.TransOrd α] [Std.LawfulEqOrd α] in
theorem joins_flip {a : Arrows α} {nodes : List α}
    (joins : ∀ e ∈ a.edges, e.1 ∈ nodes ∧ e.2 ∈ nodes) :
    ∀ e ∈ a.flip.edges, e.1 ∈ nodes ∧ e.2 ∈ nodes := by
  intro e he
  obtain ⟨e', he', rfl⟩ := List.mem_map.mp he
  exact (joins e' he').symm

/-! ## Only nodes -/

/-- A set that no edge leaves holds all that a walk comes to, if it holds what has been seen and what is
in the queue. -/
theorem walk_stays {a : Arrows α} {s : α → Prop} (closed : ∀ x, s x → ∀ y, (x, y) ∈ a.edges → s y)
    {front back : List α} {seen : Roster α} (hfront : ∀ x ∈ front, s x) (hback : ∀ x ∈ back, s x)
    (hseen : ∀ x ∈ seen, s x) : ∀ x ∈ walk a front back seen, s x := by
  classical
  fun_induction walk a front back seen with
  | case1 => exact hseen
  | case2 back seen hb ih =>
    simp only [List.unattach_reverse, List.unattach_attach] at ih
    exact ih (fun x hx => hback x (List.mem_reverse.mp hx)) (by simp) hseen
  | case3 back seen x rest hx ih =>
    exact ih (fun y hy => hfront y (List.mem_cons_of_mem x hy)) hback hseen
  | case4 back seen x rest hx ih =>
    have hsx := hfront x List.mem_cons_self
    refine ih (fun y hy => hfront y (List.mem_cons_of_mem x hy)) (fun y hy => ?_) (fun y hy => ?_)
    · rcases List.mem_append.mp hy with hy | hy
      · exact closed x hsx y (Arrows.mem_next.mp (List.mem_reverse.mp hy))
      · exact hback y hy
    · rcases Roster.mem_insert.mp hy with rfl | hy
      · exact hsx
      · exact hseen y hy

/-- A division has seen and holds nodes of a set only. -/
structure Division.Within (d : Division α) (s : α → Prop) : Prop where
  seen : ∀ x ∈ d.seen, s x
  parts : ∀ x ∈ d.parts.flatten, s x

theorem Division.Within.add {a : Arrows α} {s : α → Prop}
    (closed : ∀ x, s x → ∀ y, (x, y) ∈ a.edges → s y) {d : Division α} (h : d.Within s) {v : α}
    (hv : s v) : (d.add a v).Within s := by
  unfold Division.add
  split
  · exact h
  · have hwalk : ∀ x ∈ walk a [v] [] d.seen, s x :=
      walk_stays closed (by simpa using hv) (by simp) h.seen
    refine ⟨hwalk, fun x hx => ?_⟩
    rw [List.flatten_cons, List.mem_append] at hx
    rcases hx with hx | hx
    · exact hwalk x (List.mem_of_mem_take hx)
    · exact h.parts x hx

/-- Components hold no other nodes than those given. -/
theorem mem_of_mem_components {a : Arrows α} {nodes : List α}
    (joins : ∀ e ∈ a.edges, e.1 ∈ nodes ∧ e.2 ∈ nodes) {x : α}
    (hx : x ∈ (components a nodes).flatten) : x ∈ nodes := by
  have hstart : (⟨[], ∅⟩ : Division α).Within (· ∈ nodes) := ⟨by simp, by simp⟩
  have hwithin : ((leaveOrder a.flip nodes).foldl (Division.add a) ⟨[], ∅⟩).Within (· ∈ nodes) := by
    refine List.foldlRecOn (motive := fun d : Division α => d.Within (· ∈ nodes)) _ _ hstart
      fun d hd v hv => ?_
    exact hd.add (fun _ _ y hy => (joins _ hy).2) ((mem_leaveOrder (joins_flip joins)).mp hv)
  exact hwithin.parts x ((List.reverse_perm _).flatten.mem_iff.mp hx)

/-! ## All components -/

theorem areComponents_components {a : Arrows α} {nodes : List α}
    (joins : ∀ e ∈ a.edges, e.1 ∈ nodes ∧ e.2 ∈ nodes) :
    AreComponents a.edges nodes (components a nodes) := by
  have joins' := joins_flip joins
  have hstart : Divided a.edges (⟨[], ∅⟩ : Division α) := ⟨rfl, trivial⟩
  obtain ⟨⟨hflatten, hparted⟩, hall⟩ := divided_foldl joins (leaveOrder a.flip nodes) hstart
    (settled_leaveOrder a.flip nodes) (nodup_leaveOrder a.flip nodes)
    (fun x hx => (mem_leaveOrder joins').mp hx) (fun x hx _ => (mem_leaveOrder joins').mpr hx)
  have honly := fun x => mem_of_mem_components joins (x := x)
  generalize hd : (leaveOrder a.flip nodes).foldl (Division.add a) ⟨[], ∅⟩ = d at *
  have hparts : components a nodes = d.parts.reverse := by rw [components, hd]
  have hperm : d.parts.reverse.flatten.Perm d.parts.flatten := d.parts.reverse_perm.flatten
  rw [hparts] at honly ⊢
  refine ⟨hperm.nodup_iff.mpr (hflatten ▸ d.seen.nodup), fun x => ⟨honly x, fun hx => ?_⟩,
    fun p hp => ?_, ?_⟩
  · exact hperm.mem_iff.mpr (hflatten ▸ hall x hx)
  · obtain ⟨s, t, hst⟩ := List.append_of_mem (List.mem_reverse.mp hp)
    exact (hparted.suffix (m := p :: t) ⟨s, hst.symm⟩).1
  · intro before p after heq x hx y hy
    have hrev : d.parts = after.reverse ++ p :: before.reverse := by
      have := congrArg List.reverse heq
      simpa using this
    have hp := hparted.suffix (m := p :: before.reverse) ⟨after.reverse, hrev.symm⟩
    have := hp.2.1 x (by simp [hx]) y hy
    simpa [or_comm] using this

theorem exact_components : Finder.Exact components :=
  fun _ _ _ joins => areComponents_components joins

end Devirt
