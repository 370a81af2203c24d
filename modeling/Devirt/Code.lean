import Devirt.OrderKey

/-!
# Classes, methods and statements

The part of a compiled program that call resolution looks at, in three-address form.

* `MethodRef` : a method by its declaring class, name and descriptor;
* `Value`, `Call`, `Expr`, `Statement` : what bodies are made of;
* `Method`, `Class` : declarations;
* `Statement.call?` : the call of a statement; `Call.isInstantiation` : a constructor call that
  creates an object.
-/

namespace Devirt

/-! ## Method references -/

/-- A method: the class that declares it, its name and its descriptor. -/
structure MethodRef where
  owner : String
  name : String
  descriptor : String
deriving DecidableEq, Repr, Inhabited

namespace MethodRef

/-- The order by owner, then name, then descriptor. -/
instance : Ord MethodRef where
  compare a b :=
    (compare a.owner b.owner).then
      ((compare a.name b.name).then (compare a.descriptor b.descriptor))

theorem compare_mk (o n d o' n' d' : String) :
    compare (⟨o, n, d⟩ : MethodRef) ⟨o', n', d'⟩ =
      (compare o o').then ((compare n n').then (compare d d')) := rfl

def orderKey (m : MethodRef) : String × String × String := (m.owner, m.name, m.descriptor)

instance : Std.TransOrd MethodRef := transOrd_of_key orderKey (fun _ _ => rfl)

instance : Std.LawfulEqOrd MethodRef :=
  lawfulEqOrd_of_key orderKey (fun _ _ => rfl) (fun a b h => by
    cases a
    cases b
    simp_all [orderKey])

/-- The text of a reference: `owner.name` followed by the descriptor. -/
def text (m : MethodRef) : String := m.owner ++ "." ++ m.name ++ m.descriptor

/-- The method of the same name and descriptor on another class. -/
def withOwner (m : MethodRef) (owner : String) : MethodRef := { m with owner }

def isConstructor (m : MethodRef) : Bool := m.name == "<init>"

end MethodRef

/-! ## Bodies -/

/-- A place that can hold an object. -/
inductive Value where
  | localVar (name : String)
  | self
  | parameter (index : Nat)
  | field (owner name : String)
deriving DecidableEq, Repr, Inhabited

/-- How a call finds its method. -/
inductive CallKind where
  | virtual
  | interface
  | special
  | static
deriving DecidableEq, Repr, Inhabited

/-- Virtual and interface calls depend on the receiver's class. -/
def CallKind.isDispatched : CallKind → Bool
  | virtual | interface => true
  | special | static => false

/-- A call: its kind, the method it names, a receiver and arguments. -/
structure Call where
  kind : CallKind
  method : MethodRef
  receiver : Option Value := none
  args : List Value := []
deriving DecidableEq, Repr, Inhabited

namespace Call

/-- The receiver; a static call has none. -/
def receiver? (c : Call) : Option Value :=
  match c.kind with
  | .static => none
  | _ => c.receiver

/-- A constructor call that creates an object, rather than one that chains to another
constructor of the same object. -/
def isInstantiation (c : Call) : Bool :=
  c.kind == .special && c.method.isConstructor && c.receiver != some .self

end Call

/-- The right-hand side of an assignment. -/
inductive Expr where
  | new (owner : String)
  | use (value : Value)
  | cast (owner : String) (value : Value)
  | invoke (call : Call)
  | constant
deriving DecidableEq, Repr, Inhabited

inductive Statement where
  | assign (target : Value) (value : Expr)
  | invoke (call : Call)
  | ret (value : Option Value)
  | other
deriving DecidableEq, Repr, Inhabited

def Statement.call? : Statement → Option Call
  | invoke call => some call
  | assign _ (.invoke call) => some call
  | _ => none

/-! ## Declarations -/

/-- The access flags that matter to dispatch. -/
structure Access where
  isStatic : Bool := false
  isAbstract : Bool := false
  isNative : Bool := false
deriving DecidableEq, Repr, Inhabited

/-- A declared method; abstract and native methods have no body. -/
structure Method where
  name : String
  descriptor : String
  access : Access := {}
  body : Option (List Statement) := none
deriving DecidableEq, Repr, Inhabited

/-- Whether a declaration answers to a reference, whatever the reference's owner. -/
def Method.answers (m : Method) (r : MethodRef) : Bool :=
  m.name == r.name && m.descriptor == r.descriptor

structure Class where
  name : String
  superName : Option String := none
  interfaces : List String := []
  isInterface : Bool := false
  isAbstract : Bool := false
  methods : List Method := []
deriving DecidableEq, Repr, Inhabited

/-- The direct supertypes: the superclass, then the interfaces. -/
def Class.parents (c : Class) : List String := c.superName.toList ++ c.interfaces

end Devirt
