import Devirt.Loading
import Devirt.Proofs.Ordered
import Mathlib.Data.List.Forall2

/-!
# Libraries do not interfere with the input

* `Yields x a` : loading ends with the result `a`; it ends step by step (`yields_bind`,
  `Yields.mapM`);
* `Lists path tree files` : the files at or below a path, those of a directory entry by entry in the
  order of the names. `FileTree.listing` lists them so (`lists_listing`);
* `SnapshotsAt root path snapshots` : the snapshots of a path, file by file; `Libraries` : of several
  paths, in the order of their texts. Loading a program takes its snapshots in this order
  (`snapshots_of_load`);
* `FirstDefines snapshots name c` : the first snapshot that defines a class `name` defines it as `c`
  first. A program of snapshots has these definitions (`class?_ofSnapshots`);
* `load_classpath_inert` : so whatever the libraries are, the input's classes and the entry points are
  the same.
-/

namespace Devirt

/-! ## Loading that succeeds -/

section Loading

variable {α β : Type} {told : List Event}

/-- When these events have been told, loading ends with a result. -/
def Yields (x : Loading α) (told : List Event) (a : α) : Prop :=
  ∃ later, x.run.run told = (.ok a, later)

theorem Yields.unique {x : Loading α} {a b : α} (h : Yields x told a) (h' : Yields x told b) :
    a = b := by
  obtain ⟨later, h⟩ := h
  obtain ⟨later', h'⟩ := h'
  cases h.symm.trans h'
  rfl

theorem yields_bind {x : Loading α} {f : α → Loading β} {b : β} (h : Yields (x >>= f) told b) :
    ∃ a between, Yields x told a ∧ Yields (f a) between b := by
  obtain ⟨later, h⟩ := h
  rw [ExceptT.run_bind, StateT.run_bind] at h
  cases hx : x.run.run told with
  | mk result between =>
    rw [hx] at h
    cases result with
    | error e => cases h
    | ok a => exact ⟨a, between, ⟨between, hx⟩, ⟨later, h⟩⟩

theorem eq_of_yields_pure {a b : α} (h : Yields (pure a) told b) : b = a := by
  obtain ⟨later, h⟩ := h
  cases h
  rfl

theorem eq_ok_of_yields_lift {x : Except LoadError α} {a : α}
    (h : Yields (liftM x : Loading α) told a) : x = .ok a := by
  obtain ⟨later, h⟩ := h
  cases x with
  | error e => cases h
  | ok b =>
    cases h
    rfl

theorem Yields.mapM {f : α → Loading β} {R : α → β → Prop} {xs : List α} {ys : List β}
    (hf : ∀ told x y, Yields (f x) told y → R x y) (h : Yields (xs.mapM f) told ys) :
    List.Forall₂ R xs ys := by
  induction xs generalizing ys told with
  | nil =>
    rw [List.mapM_nil] at h
    rw [eq_of_yields_pure h]
    exact .nil
  | cons x xs ih =>
    rw [List.mapM_cons] at h
    obtain ⟨y, between, hy, h⟩ := yields_bind h
    obtain ⟨rest, between', hrest, h⟩ := yields_bind h
    rw [eq_of_yields_pure h]
    exact .cons (hf told x y hy) (ih hrest)

end Loading

/-! ## Files in order -/

mutual

/-- These are the files at or below a path with what reading them gives, in order. The ways out of a
directory do not count, and what has a path that is too long cannot be read. -/
inductive Lists : String → FileTree → List (String × Except SystemError ByteArray) → Prop where
  | file {path : String} {bytes : ByteArray} (fits : isPathTooLong path = false) :
    Lists path (.file bytes) [(path, .ok bytes)]
  | tooLong {path : String} {tree : FileTree} (long : isPathTooLong path = true) :
    Lists path tree [(path, .error .nameTooLong)]
  | dir {path : String} {entries content : List (String × FileTree)}
    {files : List (String × Except SystemError ByteArray)} (fits : isPathTooLong path = false)
    (perm : content.Perm (entries.filter (fun e => !FileTree.isWayOut e.1)))
    (sorted : content.Pairwise (fun a b => a.1 ≤ b.1)) (each : ListsEach path content files) :
    Lists path (.dir entries) files

/-- These are the files below entries of a directory, one entry after the other. -/
inductive ListsEach : String → List (String × FileTree) →
    List (String × Except SystemError ByteArray) → Prop where
  | nil {path : String} : ListsEach path [] []
  | cons {path name : String} {tree : FileTree} {rest : List (String × FileTree)}
    {files later : List (String × Except SystemError ByteArray)}
    (first : Lists (joinPath path name) tree files) (others : ListsEach path rest later) :
    ListsEach path ((name, tree) :: rest) (files ++ later)

end

namespace FileTree

theorem entryListings_eq_map (path : String) (entries : List (String × FileTree)) :
    entryListings path entries = (entries.filter (fun e => !isWayOut e.1)).map
      (fun e => (e.1, listing (joinPath path e.1) e.2)) := by
  induction entries with
  | nil => rw [entryListings, List.filter_nil, List.map_nil]
  | cons e rest ih =>
    obtain ⟨name, tree⟩ := e
    rw [entryListings, ih]
    by_cases hout : isWayOut name = true
    · rw [if_pos hout, List.filter_cons_of_neg (by simpa using hout)]
    · rw [if_neg hout, List.filter_cons_of_pos (by simpa using hout), List.map_cons]

/-- The content of a directory in the order of the names. -/
def content (entries : List (String × FileTree)) : List (String × FileTree) :=
  (entries.filter (fun e => !isWayOut e.1)).mergeSort nameLE

theorem mem_of_mem_content {entries : List (String × FileTree)} {e : String × FileTree}
    (h : e ∈ content entries) : e ∈ entries :=
  (List.mem_filter.mp (List.mem_mergeSort.mp h)).1

theorem sorted_content (entries : List (String × FileTree)) :
    (content entries).Pairwise (fun a b => a.1 ≤ b.1) :=
  Ordered.pairwise_mergeSort_key Prod.fst (fun _ _ => decide_eq_true_iff) _

/-- Any list of the content in the order of the names is that one, if no name is there twice. -/
theorem content_eq_of_sorted {entries sorted : List (String × FileTree)}
    (hperm : (entries.filter (fun e => !isWayOut e.1)).Perm sorted)
    (hsorted : sorted.Pairwise (fun a b => a.1 ≤ b.1)) (hnames : (sorted.map Prod.fst).Nodup) :
    content entries = sorted :=
  Ordered.mergeSort_eq_of_sorted Prod.fst (fun _ _ => decide_eq_true_iff) hperm hsorted hnames

/-- Names decide the order, whatever goes with them. -/
theorem listing_dir {path : String} (h : isPathTooLong path = false)
    (entries : List (String × FileTree)) :
    listing path (dir entries) =
      (content entries).flatMap (fun e => listing (joinPath path e.1) e.2) := by
  have hsorted := List.map_mergeSort (r := nameLE) (s := nameLE)
    (f := fun e : String × FileTree => (e.1, listing (joinPath path e.1) e.2))
    (l := entries.filter (fun e => !isWayOut e.1)) (fun _ _ _ _ => rfl)
  rw [listing, h, entryListings_eq_map, content, ← hsorted, List.flatMap_map]
  rfl

end FileTree

theorem listsEach_listing {path : String} {entries : List (String × FileTree)}
    (h : ∀ e ∈ entries, Lists (joinPath path e.1) e.2
      (FileTree.listing (joinPath path e.1) e.2)) :
    ListsEach path entries
      (entries.flatMap (fun e => FileTree.listing (joinPath path e.1) e.2)) := by
  induction entries with
  | nil => exact .nil
  | cons e rest ih =>
    rw [List.flatMap_cons]
    exact .cons (h e List.mem_cons_self) (ih (fun x hx => h x (List.mem_cons_of_mem _ hx)))

/-- Listings are in order at every level. -/
theorem lists_listing (path : String) (tree : FileTree) :
    Lists path tree (FileTree.listing path tree) := by
  by_cases hlong : isPathTooLong path = true
  · cases tree with
    | file bytes =>
      rw [FileTree.listing, if_pos hlong]
      exact .tooLong hlong
    | dir entries =>
      rw [FileTree.listing, if_pos hlong]
      exact .tooLong hlong
  · have hfits : isPathTooLong path = false := by simpa using hlong
    match tree with
    | .file bytes =>
      rw [FileTree.listing, if_neg hlong]
      exact .file hfits
    | .dir entries =>
      rw [FileTree.listing_dir hfits]
      refine .dir hfits (List.mergeSort_perm _ _) (FileTree.sorted_content entries)
        (listsEach_listing fun e he => ?_)
      have hmem := FileTree.mem_of_mem_content he
      exact lists_listing (joinPath path e.1) e.2
termination_by sizeOf tree
decreasing_by
  have hsize := List.sizeOf_lt_of_mem hmem
  obtain ⟨name, tree⟩ := e
  simp only [FileTree.dir.sizeOf_spec, Prod.mk.sizeOf_spec] at hsize ⊢
  omega

/-! ## Snapshots in order -/

/-- These are the snapshots of a path: that of a file, or those of the snapshot files of a directory
in their order. -/
inductive SnapshotsAt (root : FileTree) (path : String) : List Snapshot → Prop where
  | file {bytes : ByteArray} {s : Snapshot} (resolve : root.resolve path = .ok (.file bytes))
    (named : isSnapshotPath path = true) (read : readSnapshot path bytes = .ok s) :
    SnapshotsAt root path [s]
  | dir {entries : List (String × FileTree)} {files : List (String × Except SystemError ByteArray)}
    {snapshots : List Snapshot} (resolve : root.resolve path = .ok (.dir entries))
    (lists : Lists path (.dir entries) files)
    (read : List.Forall₂ (fun f s => ∃ bytes, f.2 = .ok bytes ∧ readSnapshot f.1 bytes = .ok s)
      (files.filter (fun f => isSnapshotPath f.1)) snapshots) :
    SnapshotsAt root path snapshots

/-- These are the snapshots of library paths, in the order of the paths. -/
def Libraries (root : FileTree) (classpath : List String) (snapshots : List Snapshot) : Prop :=
  ∃ (paths : List String) (each : List (List Snapshot)), paths.Perm classpath ∧
    paths.Pairwise (· ≤ ·) ∧ List.Forall₂ (SnapshotsAt root) paths each ∧ snapshots = each.flatten

theorem exists_of_loadFile {path : String} {read : Except SystemError ByteArray} {s : Snapshot}
    (h : loadFile path read = .ok s) :
    ∃ bytes, read = .ok bytes ∧ readSnapshot path bytes = .ok s := by
  cases read with
  | error e => cases h
  | ok bytes => exact ⟨bytes, rfl, h⟩

theorem resolve_of_read {root : FileTree} {path : String} {bytes : ByteArray}
    (h : root.read path = .ok bytes) : root.resolve path = .ok (.file bytes) := by
  unfold FileTree.read at h
  split at h
  · rename_i hresolve
    cases h
    exact hresolve
  · cases h
  · cases h

theorem loadPath_of_listing {root : FileTree} {path : String} {entries : List (String × FileTree)}
    {files : List (String × Except SystemError ByteArray)}
    (hresolve : root.resolve path = .ok (.dir entries))
    (hfiles : FileTree.listing path (.dir entries) = files) :
    loadPath root path = (do
      Loading.tell ((files.filter (fun f => !isSnapshotPath f.1)).map (fun f => .fileSkipped f.1))
      (files.filter (fun f => isSnapshotPath f.1)).mapM (fun f => loadFile f.1 f.2)) := by
  rw [loadPath, hresolve, ← hfiles]

theorem snapshotsAt_of_loadPath {root : FileTree} {path : String} {told : List Event}
    {snapshots : List Snapshot} (h : Yields (loadPath root path) told snapshots) :
    SnapshotsAt root path snapshots := by
  unfold loadPath at h
  split at h
  · rename_i entries hresolve
    obtain ⟨-, told', -, h⟩ := yields_bind h
    refine .dir hresolve (lists_listing path _) (h.mapM fun _ f s hs => ?_)
    exact exists_of_loadFile (eq_ok_of_yields_lift hs)
  · split at h
    · obtain ⟨later, h⟩ := h
      cases h
    · rename_i hnamed
      obtain ⟨s, told', hs, h⟩ := yields_bind h
      cases eq_of_yields_pure h
      obtain ⟨bytes, hbytes, hs⟩ := exists_of_loadFile (eq_ok_of_yields_lift hs)
      exact .file (resolve_of_read hbytes) (by simpa using hnamed) hs

/-- A program is made of the snapshots of its input and of its libraries, in order. -/
theorem snapshots_of_load {root : FileTree} {input : String} {classpath : List String}
    {told : List Event} {loaded : Loaded} (h : Yields (load root input classpath) told loaded) :
    ∃ inputs libraries, Yields (loadPath root input) told inputs ∧
      Libraries root classpath libraries ∧ loaded = .ofSnapshots inputs libraries := by
  obtain ⟨inputs, _, hinputs, h⟩ := yields_bind h
  obtain ⟨each, _, heach, h⟩ := yields_bind h
  obtain ⟨-, _, -, h⟩ := yields_bind h
  refine ⟨inputs, each.flatten, hinputs, ⟨_, each, List.mergeSort_perm classpath _, ?_,
    heach.mapM (fun _ _ _ => snapshotsAt_of_loadPath), rfl⟩, eq_of_yields_pure h⟩
  exact Ordered.pairwise_mergeSort_key id (fun _ _ => decide_eq_true_iff) classpath

/-! ## First definitions -/

def Defines (snapshots : List Snapshot) (name : String) : Prop :=
  ∃ s ∈ snapshots, ∃ c ∈ s.classes, c.name = name

/-- The first snapshot that defines a class of this name defines this class first. -/
def FirstDefines (snapshots : List Snapshot) (name : String) (c : Class) : Prop :=
  ∃ before s after, snapshots = before ++ s :: after ∧ ¬ Defines before name ∧
    s.classes.find? (fun d => d.name = name) = some c

theorem find?_flatMap_eq_none_iff {snapshots : List Snapshot} {name : String} :
    (snapshots.flatMap (·.classes)).find? (fun d => d.name = name) = none ↔
      ¬ Defines snapshots name := by
  simp [Defines]

theorem find?_flatMap_iff {snapshots : List Snapshot} {name : String} {c : Class} :
    (snapshots.flatMap (·.classes)).find? (fun d => d.name = name) = some c ↔
      FirstDefines snapshots name c := by
  constructor
  · intro h
    induction snapshots with
    | nil => cases h
    | cons s rest ih =>
      rw [List.flatMap_cons, List.find?_append] at h
      cases hs : s.classes.find? (fun d => d.name = name) with
      | some d =>
        rw [hs] at h
        cases h
        exact ⟨[], s, rest, rfl, by simp [Defines], hs⟩
      | none =>
        rw [hs] at h
        obtain ⟨before, t, after, rfl, hbefore, ht⟩ := ih h
        refine ⟨s :: before, t, after, rfl, ?_, ht⟩
        rintro ⟨u, hu, d, hd, hname⟩
        rcases List.mem_cons.mp hu with rfl | hu
        · exact List.find?_eq_none.mp hs d hd (decide_eq_true hname)
        · exact hbefore ⟨u, hu, d, hd, hname⟩
  · rintro ⟨before, s, after, rfl, hbefore, hs⟩
    rw [List.flatMap_append, List.flatMap_cons, List.find?_append, List.find?_append, hs,
      find?_flatMap_eq_none_iff.mpr hbefore]
    rfl

theorem class?_ofSnapshots (inputs libraries : List Snapshot) (name : String) :
    (Loaded.ofSnapshots inputs libraries).program.class? name =
      ((inputs.flatMap (·.classes)).find? (fun c => c.name = name)).or
        ((libraries.flatMap (·.classes)).find? (fun c => c.name = name)) := by
  rw [Program.class?_eq_find?, ← List.find?_append, ← List.flatMap_append]
  exact find?_firstDefinitions _ name

/-- What the input defines is taken from the input, whatever the libraries are. -/
theorem exists_class?_of_defines {inputs : List Snapshot} {name : String} (h : Defines inputs name) :
    ∃ c, FirstDefines inputs name c ∧
      ∀ libraries, (Loaded.ofSnapshots inputs libraries).program.class? name = some c := by
  cases hfind : (inputs.flatMap (·.classes)).find? (fun c => c.name = name) with
  | none => exact absurd h (find?_flatMap_eq_none_iff.mp hfind)
  | some c =>
    refine ⟨c, find?_flatMap_iff.mp hfind, fun libraries => ?_⟩
    rw [class?_ofSnapshots, hfind]
    rfl

/-- What the input does not define is taken from the libraries. -/
theorem class?_iff_of_not_defines {inputs : List Snapshot} (libraries : List Snapshot) {name : String}
    {c : Class} (h : ¬ Defines inputs name) :
    (Loaded.ofSnapshots inputs libraries).program.class? name = some c ↔
      FirstDefines libraries name c := by
  rw [class?_ofSnapshots, find?_flatMap_eq_none_iff.mpr h, ← find?_flatMap_iff]
  rfl

/-- Two programs that are loaded with the same input and any libraries have the same entry points, those
of the input. A class that the input defines is in both what the first file of the input that defines
it says, and any other is what the first library file says. Files of a directory are taken in the
order of the names at every level, and libraries in the order of their paths. -/
theorem load_classpath_inert (root : FileTree) (input : String) (classpath classpath' : List String)
    (told : List Event) {loaded loaded' : Loaded}
    (h : Yields (load root input classpath) told loaded)
    (h' : Yields (load root input classpath') told loaded') :
    loaded'.program.entryPoints = loaded.program.entryPoints ∧
      ∃ inputs libraries libraries', SnapshotsAt root input inputs ∧
        Libraries root classpath libraries ∧ Libraries root classpath' libraries' ∧
        loaded.program.entryPoints = entryPointsOf inputs ∧
        (∀ name, Defines inputs name → ∃ c, FirstDefines inputs name c ∧
          loaded.program.class? name = some c ∧ loaded'.program.class? name = some c) ∧
        ∀ name, ¬ Defines inputs name → ∀ c,
          (loaded.program.class? name = some c ↔ FirstDefines libraries name c) ∧
          (loaded'.program.class? name = some c ↔ FirstDefines libraries' name c) := by
  obtain ⟨inputs, libraries, hinputs, hlibraries, rfl⟩ := snapshots_of_load h
  obtain ⟨inputs', libraries', hinputs', hlibraries', rfl⟩ := snapshots_of_load h'
  obtain rfl : inputs = inputs' := hinputs.unique hinputs'
  refine ⟨rfl, inputs, libraries, libraries', snapshotsAt_of_loadPath hinputs, hlibraries,
    hlibraries', rfl, fun name hname => ?_, fun name hname c => ?_⟩
  · obtain ⟨c, hfirst, hc⟩ := exists_class?_of_defines hname
    exact ⟨c, hfirst, hc libraries, hc libraries'⟩
  · exact ⟨class?_iff_of_not_defines libraries hname, class?_iff_of_not_defines libraries' hname⟩

/-- A file with the snapshot of one class and its superclass. -/
def shelfFile (name sup : String) : FileTree :=
  .file ("\x7b\"classes\":[\x7b\"name\":\"" ++ name ++ "\",\"super_name\":\"" ++ sup ++
    "\"\x7d]\x7d").toUTF8

/-- An input that defines a class twice. -/
abbrev shelfInput : List (String × FileTree) :=
  [("b.json", shelfFile "A" "Late"), ("a.json", shelfFile "A" "Early")]

/-- A library that defines the same class once more, and another class. -/
abbrev shelfLibrary : List (String × FileTree) :=
  [("x.json", shelfFile "A" "Other"), ("sub", .dir [("y.json", shelfFile "B" "Near")])]

/-- The input and the library, with another library that is one file. -/
def shelf : FileTree :=
  .dir [("app", .dir shelfInput), ("lib", .dir shelfLibrary), ("zip.json", shelfFile "B" "Far")]

def shelfSnapshot (name sup : String) : Snapshot :=
  { classes := [{ name := name, superName := some sup }] }

theorem listing_shelfInput :
    FileTree.listing "app" (.dir shelfInput) =
      FileTree.listing "app/a.json" (shelfFile "A" "Early") ++
        FileTree.listing "app/b.json" (shelfFile "A" "Late") := by
  have hcontent : FileTree.content shelfInput =
      [("a.json", shelfFile "A" "Early"), ("b.json", shelfFile "A" "Late")] :=
    FileTree.content_eq_of_sorted (.swap _ _ _) (by decide) (by decide)
  rw [FileTree.listing_dir rfl, hcontent]
  rfl

theorem listing_shelfLibrary :
    FileTree.listing "lib" (.dir shelfLibrary) =
      FileTree.listing "lib/sub/y.json" (shelfFile "B" "Near") ++
        FileTree.listing "lib/x.json" (shelfFile "A" "Other") := by
  have hsub : FileTree.content [("y.json", shelfFile "B" "Near")] = [("y.json", shelfFile "B" "Near")] :=
    FileTree.content_eq_of_sorted (.refl _) (by decide) (by decide)
  have hcontent : FileTree.content shelfLibrary =
      [("sub", .dir [("y.json", shelfFile "B" "Near")]), ("x.json", shelfFile "A" "Other")] :=
    FileTree.content_eq_of_sorted (.swap _ _ _) (by decide) (by decide)
  rw [FileTree.listing_dir rfl, hcontent, List.flatMap_cons, FileTree.listing_dir rfl, hsub]
  rfl

theorem resolve_shelfInput : shelf.resolve "app" = .ok (.dir shelfInput) := rfl

theorem resolve_shelfLibrary : shelf.resolve "lib" = .ok (.dir shelfLibrary) := rfl

/-- The libraries are taken in the order of their paths, whatever order they are given in. -/
theorem yields_load_shelf :
    Yields (load shelf "app" ["zip.json", "lib"]) []
      (.ofSnapshots [shelfSnapshot "A" "Early", shelfSnapshot "A" "Late"]
        [shelfSnapshot "B" "Near", shelfSnapshot "A" "Other", shelfSnapshot "B" "Far"]) := by
  have hsorted : ["zip.json", "lib"].mergeSort (fun a b => decide (a ≤ b)) = ["lib", "zip.json"] :=
    Ordered.mergeSort_eq_of_sorted id (fun _ _ => decide_eq_true_iff) (.swap _ _ _) (by decide)
      (by decide)
  rw [load, hsorted, List.mapM_cons, loadPath_of_listing resolve_shelfInput listing_shelfInput,
    loadPath_of_listing resolve_shelfLibrary listing_shelfLibrary]
  exact ⟨_, rfl⟩

/-- The input's first definition counts with and without libraries, and the libraries' first one is
that of the directory, whose path comes before that of the file. -/
theorem load_classpath_inert_shelf :
    ∃ loaded loaded', Yields (load shelf "app" []) [] loaded ∧
      Yields (load shelf "app" ["zip.json", "lib"]) [] loaded' ∧
      loaded'.program.entryPoints = loaded.program.entryPoints ∧
      (loaded.program.class? "A").bind (·.superName) = some "Early" ∧
      (loaded'.program.class? "A").bind (·.superName) = some "Early" ∧
      (loaded'.program.class? "B").bind (·.superName) = some "Near" := by
  have h : Yields (load shelf "app" []) []
      (.ofSnapshots [shelfSnapshot "A" "Early", shelfSnapshot "A" "Late"] []) := by
    rw [load, List.mergeSort_nil, loadPath_of_listing resolve_shelfInput listing_shelfInput]
    exact ⟨_, rfl⟩
  have h' := yields_load_shelf
  exact ⟨_, _, h, h', (load_classpath_inert shelf "app" [] _ [] h h').1, rfl, rfl, rfl⟩

end Devirt
