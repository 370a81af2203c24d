import Devirt.Proofs.Classpath
import Mathlib.Data.List.Nodup

/-!
# Loading does not depend on the order of listings

* `FileTree.Distinct tree` : no directory has two entries of one name;
* `FileTree.Rearranges tree tree'` : the same files, with the entries of every directory in any order.
  `FileTree.Relisted` is both;
* `FileTree.Reached` : the same failure, or the same files in two listings. A path leads to this
  (`FileTree.Relisted.reached_resolve`), and the files below a path are listed alike
  (`FileTree.listing_rearranged`);
* `load_rearranged` : so loading is the same, whatever the order of the entries and of the libraries.
-/

namespace Devirt

namespace FileTree

/-! ## Rearranged trees -/

/-- No directory has two entries of one name, at any depth. -/
inductive Distinct : FileTree → Prop where
  | file {bytes : ByteArray} : Distinct (.file bytes)
  | dir {entries : List (String × FileTree)} (names : (entries.map (·.1)).Nodup)
    (below : ∀ e ∈ entries, Distinct e.2) : Distinct (.dir entries)

mutual

/-- The second tree has the files of the first, with the entries of every directory in any order. -/
inductive Rearranges : FileTree → FileTree → Prop where
  | file {bytes : ByteArray} : Rearranges (.file bytes) (.file bytes)
  | dir {entries middle entries' : List (String × FileTree)} (each : RearrangesEach entries middle)
    (perm : middle.Perm entries') : Rearranges (.dir entries) (.dir entries')

/-- The same names in the same order, with what they name rearranged. -/
inductive RearrangesEach : List (String × FileTree) → List (String × FileTree) → Prop where
  | nil : RearrangesEach [] []
  | cons {name : String} {tree tree' : FileTree} {rest rest' : List (String × FileTree)}
    (first : Rearranges tree tree') (others : RearrangesEach rest rest') :
    RearrangesEach ((name, tree) :: rest) ((name, tree') :: rest')

end

/-- The same files, listed in two ways. -/
structure Relisted (tree tree' : FileTree) : Prop where
  distinct : tree.Distinct
  rearranges : tree.Rearranges tree'

theorem distinct_file (bytes : ByteArray) : (file bytes).Distinct := .file

theorem distinct_dir_iff {entries : List (String × FileTree)} :
    (dir entries).Distinct ↔ (entries.map (·.1)).Nodup ∧ ∀ e ∈ entries, e.2.Distinct := by
  constructor
  · intro h
    cases h with
    | dir names below => exact ⟨names, below⟩
  · rintro ⟨names, below⟩
    exact .dir names below

theorem RearrangesEach.names {entries middle : List (String × FileTree)}
    (h : RearrangesEach entries middle) : middle.map (·.1) = entries.map (·.1) := by
  match h with
  | .nil => rfl
  | .cons _ others => rw [List.map_cons, List.map_cons, others.names]

/-! ## Paths -/

theorem child?_cons (name : String) (e : String × FileTree) (rest : List (String × FileTree)) :
    child? (e :: rest) name = if name = e.1 then some e.2 else child? rest name := by
  unfold child?
  rw [List.lookup_cons]
  by_cases hname : name = e.1
  · rw [if_pos hname, beq_iff_eq.mpr hname]
  · rw [if_neg hname, beq_eq_false_iff_ne.mpr hname]

theorem RearrangesEach.rel_child? {entries middle : List (String × FileTree)}
    (h : RearrangesEach entries middle) (hbelow : ∀ e ∈ entries, e.2.Distinct) (name : String) :
    Option.Rel Relisted (child? entries name) (child? middle name) := by
  match h with
  | .nil => exact .none
  | .cons first others =>
    rw [child?_cons, child?_cons]
    split
    · exact .some ⟨hbelow _ List.mem_cons_self, first⟩
    · exact others.rel_child? (fun e he => hbelow e (List.mem_cons_of_mem _ he)) name

section Paths

variable {entries middle entries' : List (String × FileTree)} {tree tree' : FileTree}

/-- Where no two entries have one name, their order does not matter. -/
theorem child?_perm (hperm : middle.Perm entries') (hnames : (middle.map (·.1)).Nodup)
    (name : String) : child? middle name = child? entries' name := by
  induction hperm with
  | nil => rfl
  | cons e _ ih => rw [child?_cons, child?_cons, ih (List.nodup_cons.mp hnames).2]
  | swap e d rest =>
    have hne : d.1 ≠ e.1 := List.ne_of_not_mem_cons (List.nodup_cons.mp hnames).1
    simp only [child?_cons]
    split
    · rename_i hd
      rw [if_neg (hd ▸ hne)]
    · rfl
  | trans h _ ih ih' => exact (ih hnames).trans (ih' ((h.map _).nodup_iff.mp hnames))

/-- A name leads to the same files in both lists of entries, if it leads anywhere. -/
theorem Relisted.rel_child? (h : Relisted (.dir entries) (.dir entries')) (name : String) :
    Option.Rel Relisted (child? entries name) (child? entries' name) := by
  obtain ⟨hnames, hbelow⟩ := distinct_dir_iff.mp h.distinct
  cases h.rearranges with
  | dir each perm =>
    rw [← child?_perm perm (each.names ▸ hnames)]
    exact each.rel_child? hbelow name

theorem relisted_empty : Relisted (.dir []) (.dir []) :=
  ⟨by simp [distinct_dir_iff], .dir .nil .nil⟩

theorem Relisted.outside (h : Relisted (.dir entries) (.dir entries')) (way : String) :
    Relisted (outside entries way) (outside entries' way) := by
  unfold FileTree.outside
  have hchild := h.rel_child? way
  generalize child? entries way = found, child? entries' way = found' at hchild ⊢
  cases hchild with
  | none => exact relisted_empty
  | some hrelisted => exact hrelisted

theorem Relisted.start (h : Relisted tree tree') (path : String) :
    Relisted (tree.start path) (tree'.start path) := by
  cases h.rearranges with
  | file => exact h
  | dir each perm =>
    by_cases habsolute : isAbsolute path = true
    · simp only [FileTree.start, if_pos habsolute]
      exact h.outside ""
    · simp only [FileTree.start, if_neg habsolute]
      exact h

/-- Both ways end with the same failure, or with the same files. -/
inductive Reached : Except SystemError FileTree → Except SystemError FileTree → Prop where
  | error {e : SystemError} : Reached (.error e) (.error e)
  | ok {tree tree' : FileTree} (relisted : Relisted tree tree') : Reached (.ok tree) (.ok tree')

/-- Along a path both ways stay at the same files, and so do the directories above. -/
theorem reached_follow {above above' : List FileTree} {here here' : FileTree}
    (habove : List.Forall₂ Relisted above above') (hhere : Relisted here here')
    (parts : List String) : Reached (follow above here parts) (follow above' here' parts) := by
  induction parts generalizing above above' here here' with
  | nil => exact .ok hhere
  | cons part rest ih =>
    cases hhere.rearranges with
    | file => exact .error
    | @dir entries _ entries' =>
      by_cases hstays : isHere part = true
      · simp only [follow, if_pos hstays]
        exact ih habove hhere
      · by_cases hup : part = ".."
        · simp only [follow, if_neg hstays, if_pos hup]
          cases habove with
          | nil => exact ih .nil (hhere.outside "..")
          | cons hparent hfurther => exact ih hfurther hparent
        · by_cases hlong : isNameTooLong part = true
          · simp only [follow, if_neg hstays, if_neg hup, if_pos hlong]
            exact .error
          · simp only [follow, if_neg hstays, if_neg hup, if_neg hlong]
            have hchild := hhere.rel_child? part
            generalize child? entries part = found, child? entries' part = found' at hchild ⊢
            cases hchild with
            | none => exact .error
            | some hnext => exact ih (.cons hhere habove) hnext

theorem Relisted.reached_resolve (h : Relisted tree tree') (path : String) :
    Reached (tree.resolve path) (tree'.resolve path) := by
  unfold FileTree.resolve
  split
  · exact .error
  · exact reached_follow .nil (h.start path) _

end Paths

/-! ## Listings -/

theorem perm_entryListings {middle entries' : List (String × FileTree)} (h : middle.Perm entries')
    (path : String) : (entryListings path middle).Perm (entryListings path entries') := by
  rw [entryListings_eq_map, entryListings_eq_map]
  exact (h.filter _).map _

/-- The names of listings are names of entries. -/
theorem nodup_entryListings {entries : List (String × FileTree)}
    (h : (entries.map (·.1)).Nodup) (path : String) :
    ((entryListings path entries).map (·.1)).Nodup := by
  rw [entryListings_eq_map, List.map_map]
  exact h.sublist (List.filter_sublist.map _)

mutual

/-- The files below a path are listed alike. -/
theorem listing_rearranged {tree tree' : FileTree} (h : Rearranges tree tree') (hd : tree.Distinct)
    (path : String) : listing path tree' = listing path tree := by
  match h, hd with
  | .file, _ => rfl
  | .dir each perm, .dir names below =>
    -- the entries in the middle have the listings of those before, and sorting forgets the order
    have hnames := nodup_entryListings (each.names ▸ names) path
    have hsorted := Ordered.mergeSort_eq_of_perm Prod.fst (fun _ _ => decide_eq_true_iff)
      (perm_entryListings perm path) (List.inj_on_of_nodup_map hnames)
    rw [listing, listing, ← entryListings_rearranged each below path]
    exact if_congr Iff.rfl rfl (congrArg (List.flatMap (·.2)) hsorted.symm)

/-- The files below each entry are listed alike. -/
theorem entryListings_rearranged {entries middle : List (String × FileTree)}
    (h : RearrangesEach entries middle) (hbelow : ∀ e ∈ entries, e.2.Distinct) (path : String) :
    entryListings path middle = entryListings path entries := by
  match h with
  | .nil => rfl
  | .cons first others =>
    rw [entryListings, entryListings,
      listing_rearranged first (hbelow _ List.mem_cons_self) _,
      entryListings_rearranged others (fun e he => hbelow e (List.mem_cons_of_mem _ he)) path]

end

end FileTree

/-! ## Loading -/

theorem loadPath_rearranged {root root' : FileTree} (h : root.Relisted root') (path : String) :
    loadPath root' path = loadPath root path := by
  have hresolve := h.reached_resolve path
  unfold loadPath FileTree.read
  generalize root.resolve path = found, root'.resolve path = found' at hresolve ⊢
  cases hresolve with
  | error => rfl
  | ok relisted =>
    have hlisting := FileTree.listing_rearranged relisted.rearranges relisted.distinct path
    cases relisted.rearranges with
    | file => rfl
    | dir => simp only [hlisting]

/-- For every tree in which no directory has two entries of one name. Whatever the order in which the
directories at every depth list their entries, and whatever the order of the libraries, loading tells
the same and ends with the same program, number of classes and number of files, or with the same
failure. -/
theorem load_rearranged {root root' : FileTree} (hdistinct : root.Distinct)
    (hrearranges : root.Rearranges root') (input : String) {classpath classpath' : List String}
    (hperm : classpath.Perm classpath') : load root' input classpath' = load root input classpath := by
  have hpaths : loadPath root' = loadPath root := funext (loadPath_rearranged ⟨hdistinct, hrearranges⟩)
  have hsorted := Ordered.mergeSort_eq_of_perm id (fun a b => decide_eq_true_iff (p := a ≤ b)) hperm
    (fun _ _ _ _ heq => heq)
  unfold load
  rw [hpaths, hsorted]

/-- The shelf with the entries of every directory turned round. -/
def turnedShelf : FileTree :=
  .dir [
    ("zip.json", shelfFile "B" "Far"),
    ("lib", .dir [("sub", .dir [("y.json", shelfFile "B" "Near")]),
      ("x.json", shelfFile "A" "Other")]),
    ("app", .dir [("a.json", shelfFile "A" "Early"), ("b.json", shelfFile "A" "Late")])]

theorem distinct_shelf : shelf.Distinct := by
  simp [shelf, shelfFile, FileTree.distinct_file, FileTree.distinct_dir_iff]

theorem rearranges_shelf : shelf.Rearranges turnedShelf :=
  .dir (.cons (.dir (.cons .file (.cons .file .nil)) (List.reverse_perm _).symm)
    (.cons (.dir (.cons .file (.cons (.dir (.cons .file .nil) (.refl _)) .nil))
        (List.reverse_perm _).symm)
      (.cons .file .nil)))
    (List.reverse_perm _).symm

/-- Turning the shelf and its libraries round changes neither the program nor which library fails. -/
theorem load_rearranged_shelf :
    (∃ loaded, Yields (load turnedShelf "app" ["lib", "zip.json"]) [] loaded ∧
      loaded.classCount = 5 ∧ loaded.fileCount = 5 ∧
      (loaded.program.class? "A").bind (·.superName) = some "Early" ∧
      (loaded.program.class? "B").bind (·.superName) = some "Near") ∧
    (load turnedShelf "zip.json" ["lib", "gone.json", "app/c.txt"]).run.run [] =
      (.error (.unsupported "app/c.txt"), []) := by
  constructor
  · rw [load_rearranged distinct_shelf rearranges_shelf "app" (.swap "lib" "zip.json" [])]
    exact ⟨_, yields_load_shelf, rfl, rfl, rfl, rfl⟩
  · rw [load_rearranged distinct_shelf rearranges_shelf "zip.json"
      (List.reverse_perm ["lib", "gone.json", "app/c.txt"])]
    have hsorted : ["lib", "gone.json", "app/c.txt"].reverse.mergeSort (fun a b => decide (a ≤ b)) =
        ["app/c.txt", "gone.json", "lib"] :=
      Ordered.mergeSort_eq_of_sorted id (fun _ _ => decide_eq_true_iff) (.refl _) (by decide)
        (by decide)
    rw [load, hsorted]
    rfl

end Devirt
