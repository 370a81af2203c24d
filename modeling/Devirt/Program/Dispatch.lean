import Devirt.AnalysisError
import Devirt.Ordered
import Devirt.Program

/-!
# Dispatch

Which method runs for a call, given the class of the receiver.

* `Program.lineage c` : the class and its superclasses, nearest first; `Program.lineageEnds c` :
  whether they come to an end;
* `Class.implementation? s` : the method of the class itself that answers to `s`, unless abstract;
* `Program.inherited? c s` : a default method from the interfaces of the lineage, nearest first;
* `Program.dispatch c s` : the implementation of the nearest class of the lineage, else an inherited
  default. A lineage that never ends and has no implementation has no answer;
* `Program.overrides d s`, `Program.targets call` : all methods that a call may run when its
  receiver is only known to be below `d`.
-/

namespace Devirt

/-- The method that a class itself declares for a signature, unless it is abstract. -/
def Class.implementation? (c : Class) (s : MethodRef) : Option MethodRef :=
  match c.methods.find? (·.answers s) with
  | some m => if m.access.isAbstract then none else some (s.withOwner c.name)
  | none => none

namespace Program

/-! ## Superclasses -/

/-- A class and its superclasses, nearest first, up to a number of classes. -/
def lineageUpTo (p : Program) : Nat → String → List Class
  | 0, _ => []
  | n + 1, name =>
    match p.class? name with
    | none => []
    | some c =>
      match c.superName with
      | none => [c]
      | some sup => c :: lineageUpTo p n sup

/-- A class and its superclasses, nearest first, and one more than there are classes if they never
end. -/
def lineage (p : Program) (name : String) : List Class := p.lineageUpTo (p.classes.length + 1) name

/-- Whether the superclasses of a class come to an end: at one without superclass, or at one that
the program does not define. Otherwise a class is repeated, and the lineage is longer than the
list of classes. -/
def lineageEnds (p : Program) (name : String) : Bool := (p.lineage name).length ≤ p.classes.length

/-! ## Implementations -/

/-- The interfaces listed along the lineage of a class, and those above them, nearest first. -/
def superInterfaces (p : Program) (name : String) : List String :=
  (reach p.index.interfaces ((p.lineage name).flatMap Class.interfaces)).toList

/-- The default method that an interface itself declares for a signature. -/
def default? (p : Program) (name : String) (s : MethodRef) : Option MethodRef :=
  ((p.class? name).bind (·.implementation? s)).filter p.hasBody

def inherited? (p : Program) (name : String) (s : MethodRef) : Option MethodRef :=
  (p.superInterfaces name).findSome? (fun i => p.default? i s)

/-- The method that runs for a signature on an object of a class. -/
def dispatch (p : Program) (name : String) (s : MethodRef) : Analyzed (Option MethodRef) :=
  match (p.lineage name).findSome? (·.implementation? s) with
  | some m => .ok (some m)
  | none =>
    if p.lineageEnds name then .ok (p.inherited? name s) else .error (.endlessLookup name s)

/-! ## Calls -/

/-- The methods that run for a signature on some object below a class, in order. -/
def overrides (p : Program) (name : String) (s : MethodRef) : Analyzed (List MethodRef) := do
  let found ← ((p.subtypes name).filter p.isConcrete).mapM (fun c => p.dispatch c s)
  return Ordered.ofList (found.filterMap id)

/-- All methods that a call may run: the one it names if it is static or special, else the
overrides below its class. A class that the program does not define has no hierarchy to look at,
and the named method stands for what would run. -/
def targets (p : Program) (call : Call) : Analyzed (List MethodRef) :=
  if call.kind.isDispatched then do
    let found ← p.overrides call.method.owner call.method
    return if found.isEmpty && !p.hasClass call.method.owner then [call.method] else found
  else .ok [call.method]

end Program

end Devirt
