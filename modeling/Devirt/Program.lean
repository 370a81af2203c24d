import Devirt.Code
import Devirt.Reach

/-!
# Programs

A program is a set of classes with different names, and its entry points.

* `Program.new classes entryPoints` : of classes with one name the first counts;
* `ClassIndex` : trees beside the list of classes that find classes by name and walk the hierarchy.
  They are made from the list, so what they find is in it (`class?_eq_find?`, `isSubtype_iff`);
* `Program.class?`, `Program.method?`, `Program.statements`, `Program.hasBody` : declarations;
* `Program.isSubtype sub sup`, `Program.subtypes sup` : the hierarchy, walked up and down;
* `mainMethods classes` : the methods a run may start in.
-/

namespace Devirt

/-! ## First definitions -/

def firstDefinitions : List Class → List Class
  | [] => []
  | c :: rest => c :: (firstDefinitions rest).filter (fun d => d.name ≠ c.name)

theorem nodup_firstDefinitions (classes : List Class) :
    ((firstDefinitions classes).map Class.name).Nodup := by
  induction classes with
  | nil => exact List.nodup_nil
  | cons c rest ih =>
    rw [firstDefinitions, List.map_cons, List.nodup_cons]
    constructor
    · intro h
      obtain ⟨d, hd, hn⟩ := List.mem_map.mp h
      have := (List.mem_filter.mp hd).2
      simp [hn] at this
    · exact ih.sublist (List.filter_sublist.map _)

/-- Leaving out later classes of a name changes the first of none. -/
theorem find?_firstDefinitions (classes : List Class) (name : String) :
    (firstDefinitions classes).find? (fun c => c.name = name) =
      classes.find? (fun c => c.name = name) := by
  induction classes with
  | nil => rfl
  | cons c rest ih =>
    rw [firstDefinitions]
    by_cases hc : c.name = name
    · rw [List.find?_cons_of_pos (by simpa using hc), List.find?_cons_of_pos (by simpa using hc)]
    · rw [List.find?_cons_of_neg (by simpa using hc), List.find?_cons_of_neg (by simpa using hc), ← ih,
        List.find?_filter]
      congr 1
      funext d
      by_cases hd : d.name = name
      · simp [hd, Ne.symm hc]
      · simp [hd]

/-- The names of the classes that are defined once more after these names, in order. -/
def repeatedNames (seen : List String) : List Class → List String
  | [] => []
  | c :: rest =>
    if c.name ∈ seen then c.name :: repeatedNames seen rest
    else repeatedNames (c.name :: seen) rest

/-! ## Finding classes -/

/-- From every class to its direct supertypes. -/
def parentEdges (classes : List Class) : List (String × String) :=
  classes.flatMap (fun c => c.parents.map (fun parent => (c.name, parent)))

/-- From every class to the interfaces it lists. -/
def interfaceEdges (classes : List Class) : List (String × String) :=
  classes.flatMap (fun c => c.interfaces.map (fun i => (c.name, i)))

/-- Classes by their names; of several with one name the first counts. -/
def classTable (classes : List Class) : Std.TreeMap String Class :=
  classes.foldr (fun c table => table.insert c.name c) ∅

/-- What is looked up in classes: each by its name, and what is above and below it. -/
structure ClassIndex where
  byName : Std.TreeMap String Class
  parents : Arrows String
  children : Arrows String
  interfaces : Arrows String

def ClassIndex.ofClasses (classes : List Class) : ClassIndex where
  byName := classTable classes
  parents := .ofList (parentEdges classes)
  children := .ofList ((parentEdges classes).map Prod.swap)
  interfaces := .ofList (interfaceEdges classes)

theorem getElem?_classTable (classes : List Class) (name : String) :
    (classTable classes)[name]? = classes.find? (fun c => c.name = name) := by
  induction classes with
  | nil => simp [classTable]
  | cons c rest ih =>
    have hstep : classTable (c :: rest) = (classTable rest).insert c.name c := rfl
    rw [hstep, Std.TreeMap.getElem?_insert]
    by_cases h : c.name = name
    · rw [if_pos (h ▸ Std.ReflOrd.compare_self), List.find?_cons_of_pos (by simpa using h)]
    · rw [if_neg (fun hc => h (Std.LawfulEqOrd.eq_of_compare hc)), ih,
        List.find?_cons_of_neg (by simpa using h)]

/-! ## Programs -/

/-- Classes of different names, and the methods that are called from outside. The index is made
from the classes. -/
structure Program where
  classes : List Class
  entryPoints : List MethodRef
  distinct : (classes.map Class.name).Nodup := by decide
  index : ClassIndex := .ofClasses classes
  index_eq : index = .ofClasses classes := by rfl

namespace Program

/-- The program of these classes; of several with one name the first counts. -/
def new (classes : List Class) (entryPoints : List MethodRef) : Program where
  classes := firstDefinitions classes
  entryPoints := entryPoints
  distinct := nodup_firstDefinitions classes

def empty : Program where
  classes := []
  entryPoints := []
  distinct := List.nodup_nil

instance : Inhabited Program := ⟨.empty⟩

def class? (p : Program) (name : String) : Option Class := p.index.byName[name]?

theorem class?_eq_find? (p : Program) (name : String) :
    p.class? name = p.classes.find? (fun c => c.name = name) := by
  rw [class?, p.index_eq]
  exact getElem?_classTable p.classes name

/-- The first method of the owner with the reference's name and descriptor. -/
def method? (p : Program) (r : MethodRef) : Option Method :=
  (p.class? r.owner).bind (fun c => c.methods.find? (·.answers r))

end Program

/-- Whether a method has code to walk through. -/
def Method.hasBody (m : Method) : Bool :=
  !m.access.isAbstract && !m.access.isNative && m.body.isSome

namespace Program

def hasBody (p : Program) (r : MethodRef) : Bool :=
  match p.method? r with
  | some m => m.hasBody
  | none => false

/-- The statements of a method; none if it has no code. -/
def statements (p : Program) (r : MethodRef) : List Statement :=
  match p.method? r with
  | some m => if m.hasBody then m.body.getD [] else []
  | none => []

/-- The calls of a method, in the order of its statements. -/
def calls (p : Program) (r : MethodRef) : List Call :=
  (p.statements r).filterMap Statement.call?

def hasClass (p : Program) (name : String) : Bool := (p.class? name).isSome

/-- Whether a class can have objects of its own. -/
def isConcrete (p : Program) (name : String) : Bool :=
  match p.class? name with
  | some c => !c.isInterface && !c.isAbstract
  | none => false

/-! ## The hierarchy -/

/-- Whether `sup` is `sub` or above it. -/
def isSubtype (p : Program) (sub sup : String) : Bool := (reach p.index.parents [sub]).contains sup

/-- A name and the names of all classes below it. -/
def subtypes (p : Program) (sup : String) : List String := (reach p.index.children [sup]).toList

/-- A class is above another if a path of direct supertypes leads to it. -/
theorem isSubtype_iff {p : Program} {sub sup : String} :
    p.isSubtype sub sup = true ↔ Reaches (parentEdges p.classes) sub sup := by
  rw [isSubtype, Roster.contains_iff, mem_reach, p.index_eq]
  simp [ClassIndex.ofClasses, Arrows.ofList]

/-! ## Declared methods -/

def declared (p : Program) : List MethodRef :=
  p.classes.flatMap (fun c => c.methods.map (fun m => ⟨c.name, m.name, m.descriptor⟩))

/-- A method with code is declared. -/
theorem mem_declared_of_hasBody {p : Program} {r : MethodRef} (h : p.hasBody r = true) :
    r ∈ p.declared := by
  unfold hasBody at h
  split at h
  · rename_i m hm
    obtain ⟨c, hc, hfind⟩ := Option.bind_eq_some_iff.mp hm
    rw [class?_eq_find?] at hc
    have hcls := List.mem_of_find?_eq_some hc
    have hname : c.name = r.owner := by simpa using List.find?_some hc
    have hmem := List.mem_of_find?_eq_some hfind
    have hans : m.name = r.name ∧ m.descriptor = r.descriptor := by
      simpa [Method.answers] using List.find?_some hfind
    refine List.mem_flatMap.mpr ⟨c, hcls, List.mem_map.mpr ⟨m, hmem, ?_⟩⟩
    rw [hname, hans.1, hans.2]
  · cases h

end Program

/-! ## Entry points -/

/-- Whether a method can start a run: static, and of the agreed name and descriptor. -/
def Method.isMain (m : Method) : Bool :=
  m.access.isStatic && m.name == "main" && m.descriptor == "([Ljava/lang/String;)V"

def mainMethods (classes : List Class) : List MethodRef :=
  classes.flatMap (fun c =>
    (c.methods.filter Method.isMain).map (fun m => ⟨c.name, m.name, m.descriptor⟩))

end Devirt
