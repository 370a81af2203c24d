import Devirt.Code
import Devirt.Code.DecodeError

/-!
# Decoding classes, methods and statements

Records are written as objects, or as arrays of their fields in order; values with a tag have it
as a field, or in front of the array.

* `field?`, `require` : the fields of an object. All fields present are decoded, in the order of
  their names, before an absent one is reported;
* `Row` : the elements of an array that are still to be decoded;
* `record`, `tagged` : the two ways to write a record, without and with a tag;
* `Value.decode`, `Statement.decode`, `Class.decode` and so on : one decoder per type.
-/

namespace Devirt

abbrev Decode (α : Type) := Except DecodeError α

/-! ## Plain values -/

def decodeString : Json → Decode String
  | .str s => .ok s
  | v => .error (.wrongType v "a string")

def decodeBool : Json → Decode Bool
  | .bool b => .ok b
  | v => .error (.wrongType v "a boolean")

/-- A position, counted from zero. -/
def decodeIndex : Json → Decode Nat
  | .int i => if 0 ≤ i then .ok i.toNat else .error (.negativeIndex i)
  | v => .error (.wrongType v "usize")

def decodeList {α : Type} (item : Json → Decode α) : Json → Decode (List α)
  | .arr items => items.mapM item
  | v => .error (.wrongType v "a sequence")

/-- A value that may be `null`. -/
def decodeOption {α : Type} (value : Json → Decode α) : Json → Decode (Option α)
  | .null => .ok none
  | v => some <$> value v

/-! ## Objects -/

/-- The decoded value of a field, if the field is present. -/
def field? {α : Type} (name : String) (decode : Json → Decode α) (fields : List (String × Json)) :
    Decode (Option α) :=
  match fields.lookup name with
  | none => .ok none
  | some v => some <$> decode v

def require {α : Type} (name : String) : Option α → Decode α
  | some a => .ok a
  | none => .error (.missingField name)

/-! ## Arrays -/

/-- The elements of an array that are still to be decoded, after those used already. -/
structure Row where
  used : Nat
  rest : List Json

namespace Row

def ofItems (items : List Json) : Row := ⟨0, items⟩

/-- The next element, which a record of this shape cannot do without. -/
def next {α : Type} (shape : Shape) (decode : Json → Decode α) (row : Row) : Decode (α × Row) :=
  match row.rest with
  | [] => .error (.tooShort row.used shape)
  | v :: rest => do return (← decode v, ⟨row.used + 1, rest⟩)

/-- The next element, or a default at the end of the row. -/
def nextD {α : Type} (default : α) (decode : Json → Decode α) (row : Row) : Decode (α × Row) :=
  match row.rest with
  | [] => .ok (default, row)
  | v :: rest => do return (← decode v, ⟨row.used + 1, rest⟩)

/-- Nothing may be left of a row. -/
def finish (place : Place) (row : Row) : Decode Unit :=
  if row.rest.isEmpty then .ok ()
  else .error (.tooLong (row.used + row.rest.length) row.used place)

end Row

/-! ## Records and tagged values -/

/-- A record from its fields, or from its elements in order. -/
def record {α : Type} (title : String) (place : Place)
    (ofFields : List (String × Json) → Decode α) (ofRow : Row → Decode (α × Row)) :
    Json → Decode α
  | .obj fields => ofFields fields
  | .arr items => do
    let (a, row) ← ofRow (.ofItems items)
    row.finish place
    return a
  | v => .error (.wrongType v ("struct " ++ title))

/-- One of the forms of a tagged type. -/
structure Variant (α : Type) where
  name : String
  ofFields : List (String × Json) → Decode α
  ofRow : Row → Decode (α × Row)

def Variant.unit {α : Type} (name : String) (a : α) : Variant α :=
  ⟨name, fun _ => .ok a, fun row => .ok (a, row)⟩

/-- The form that a tag names; inside another tagged value its position will do. -/
def Variant.ofTag {α : Type} (place : Place) (variants : List (Variant α)) :
    Json → Decode (Variant α)
  | .str s =>
    match variants.find? (·.name == s) with
    | some v => .ok v
    | none => .error (.unknownVariant s (variants.map (·.name)))
  | .int i =>
    if place = .inner ∧ 0 ≤ i then
      match variants[i.toNat]? with
      | some v => .ok v
      | none => .error (.variantIndex i variants.length)
    else .error (.wrongType (.int i) "variant identifier")
  | v => .error (.wrongType v "variant identifier")

/-- A tagged value. The tag is decoded first, wherever it stands among the fields. -/
def tagged {α : Type} (title tag : String) (variants : List (Variant α)) (place : Place) :
    Json → Decode α
  | .obj fields =>
    match fields.lookup tag with
    | none => .error (.missingField tag)
    | some t => do (← Variant.ofTag place variants t).ofFields fields
  | .arr [] => .error (.missingField tag)
  | .arr (t :: items) => do
    let (a, row) ← (← Variant.ofTag place variants t).ofRow (.ofItems items)
    row.finish .inner
    return a
  | v => .error (.wrongType v ("internally tagged enum " ++ title))

/-! ## Method references and values -/

def MethodRef.shape : Shape := ⟨"struct MethodRef", 3⟩

def MethodRef.decode (place : Place) : Json → Decode MethodRef :=
  record "MethodRef" place
    (fun fields => do
      let owner ← field? "class" decodeString fields
      let descriptor ← field? "descriptor" decodeString fields
      let name ← field? "name" decodeString fields
      return ⟨← require "class" owner, ← require "name" name, ← require "descriptor" descriptor⟩)
    (fun row => do
      let (owner, row) ← row.next shape decodeString
      let (name, row) ← row.next shape decodeString
      let (descriptor, row) ← row.next shape decodeString
      return (⟨owner, name, descriptor⟩, row))

def Value.variants : List (Variant Value) :=
  [{ name := "local"
     ofFields := fun fields => do
      let name ← field? "name" decodeString fields
      return .localVar (← require "name" name)
     ofRow := fun row => do
      let (name, row) ← row.next ⟨"struct variant Value::Local", 1⟩ decodeString
      return (.localVar name, row) },
   .unit "this" .self,
   { name := "parameter"
     ofFields := fun fields => do
      let index ← field? "index" decodeIndex fields
      return .parameter (← require "index" index)
     ofRow := fun row => do
      let (index, row) ← row.next ⟨"struct variant Value::Parameter", 1⟩ decodeIndex
      return (.parameter index, row) },
   { name := "field"
     ofFields := fun fields => do
      let name ← field? "name" decodeString fields
      let owner ← field? "owner" decodeString fields
      return .field (← require "owner" owner) (← require "name" name)
     ofRow := fun row => do
      let (owner, row) ← row.next ⟨"struct variant Value::Field", 2⟩ decodeString
      let (name, row) ← row.next ⟨"struct variant Value::Field", 2⟩ decodeString
      return (.field owner name, row) }]

def Value.decode : Place → Json → Decode Value := tagged "Value" "value" variants

/-! ## Calls -/

def CallKind.names : List (String × CallKind) :=
  [("virtual", .virtual), ("interface", .interface), ("special", .special), ("static", .static)]

def CallKind.ofName (name : String) : Decode CallKind :=
  match names.lookup name with
  | some kind => .ok kind
  | none => .error (.unknownVariant name (names.map (·.1)))

/-- Nothing: `null`, and inside a tagged value also an object without fields. -/
def decodeUnit (place : Place) : Json → Decode Unit
  | .null => .ok ()
  | .obj [] => if place = .inner then .ok () else .error (.wrongType (.obj []) "unit")
  | v => .error (.wrongType v "unit")

/-- A kind of call: its name, or an object of that one key with nothing in it. -/
def CallKind.decode (place : Place) : Json → Decode CallKind
  | .str s => ofName s
  | .obj [(key, payload)] => do
    let kind ← ofName key
    decodeUnit place payload
    return kind
  | .obj _ => .error .notOneKey
  | v => .error (.wrongType v "string or map")

def Call.shape : Shape := ⟨"struct InvokeExpr", 4⟩

def Call.decode (place : Place) : Json → Decode Call :=
  record "InvokeExpr" place
    (fun fields => do
      let args ← field? "args" (decodeList (Value.decode place)) fields
      let kind ← field? "kind" (CallKind.decode place) fields
      let method ← field? "method" (MethodRef.decode place) fields
      let receiver ← field? "receiver" (decodeOption (Value.decode place)) fields
      return ⟨← require "kind" kind, ← require "method" method, receiver.getD none, args.getD []⟩)
    (fun row => do
      let (kind, row) ← row.next shape (CallKind.decode place)
      let (method, row) ← row.next shape (MethodRef.decode place)
      let (receiver, row) ← row.nextD none (decodeOption (Value.decode place))
      let (args, row) ← row.nextD [] (decodeList (Value.decode place))
      return (⟨kind, method, receiver, args⟩, row))

/-! ## Expressions and statements -/

def Expr.variants : List (Variant Expr) :=
  [{ name := "new"
     ofFields := fun fields => do
      let owner ← field? "class" decodeString fields
      return .new (← require "class" owner)
     ofRow := fun row => do
      let (owner, row) ← row.next ⟨"struct variant Expr::New", 1⟩ decodeString
      return (.new owner, row) },
   { name := "use"
     ofFields := fun fields => do
      let value ← field? "value" (Value.decode .inner) fields
      return .use (← require "value" value)
     ofRow := fun row => do
      let (value, row) ← row.next ⟨"struct variant Expr::Use", 1⟩ (Value.decode .inner)
      return (.use value, row) },
   { name := "cast"
     ofFields := fun fields => do
      let owner ← field? "class" decodeString fields
      let value ← field? "value" (Value.decode .inner) fields
      return .cast (← require "class" owner) (← require "value" value)
     ofRow := fun row => do
      let (owner, row) ← row.next ⟨"struct variant Expr::Cast", 2⟩ decodeString
      let (value, row) ← row.next ⟨"struct variant Expr::Cast", 2⟩ (Value.decode .inner)
      return (.cast owner value, row) },
   { name := "invoke"
     ofFields := fun fields => do
      let call ← field? "call" (Call.decode .inner) fields
      return .invoke (← require "call" call)
     ofRow := fun row => do
      let (call, row) ← row.next ⟨"struct variant Expr::Invoke", 1⟩ (Call.decode .inner)
      return (.invoke call, row) },
   .unit "constant" .constant]

def Expr.decode : Place → Json → Decode Expr := tagged "Expr" "expr" variants

def Statement.variants : List (Variant Statement) :=
  [{ name := "assign"
     ofFields := fun fields => do
      let target ← field? "target" (Value.decode .inner) fields
      let value ← field? "value" (Expr.decode .inner) fields
      return .assign (← require "target" target) (← require "value" value)
     ofRow := fun row => do
      let (target, row) ← row.next ⟨"struct variant Statement::Assign", 2⟩ (Value.decode .inner)
      let (value, row) ← row.next ⟨"struct variant Statement::Assign", 2⟩ (Expr.decode .inner)
      return (.assign target value, row) },
   { name := "invoke"
     ofFields := fun fields => do
      let call ← field? "call" (Call.decode .inner) fields
      return .invoke (← require "call" call)
     ofRow := fun row => do
      let (call, row) ← row.next ⟨"struct variant Statement::Invoke", 1⟩ (Call.decode .inner)
      return (.invoke call, row) },
   { name := "return"
     ofFields := fun fields => do
      let value ← field? "value" (decodeOption (Value.decode .inner)) fields
      return .ret (value.getD none)
     ofRow := fun row => do
      let (value, row) ← row.nextD none (decodeOption (Value.decode .inner))
      return (.ret value, row) },
   .unit "other" .other]

def Statement.decode : Place → Json → Decode Statement := tagged "Statement" "stmt" variants

/-! ## Declarations -/

/-- The access flags; all of them may be absent. -/
def Access.decode (place : Place) : Json → Decode Access :=
  record "MethodAccess" place
    (fun fields => do
      let isAbstract ← field? "is_abstract" decodeBool fields
      let isNative ← field? "is_native" decodeBool fields
      let isStatic ← field? "is_static" decodeBool fields
      return ⟨isStatic.getD false, isAbstract.getD false, isNative.getD false⟩)
    (fun row => do
      let (isStatic, row) ← row.nextD false decodeBool
      let (isAbstract, row) ← row.nextD false decodeBool
      let (isNative, row) ← row.nextD false decodeBool
      return (⟨isStatic, isAbstract, isNative⟩, row))

def Method.shape : Shape := ⟨"struct Method", 4⟩

def Method.decode (place : Place) : Json → Decode Method :=
  record "Method" place
    (fun fields => do
      let access ← field? "access" (Access.decode place) fields
      let body ← field? "body" (decodeOption (decodeList (Statement.decode place))) fields
      let descriptor ← field? "descriptor" decodeString fields
      let name ← field? "name" decodeString fields
      return ⟨← require "name" name, ← require "descriptor" descriptor, access.getD {},
        body.getD none⟩)
    (fun row => do
      let (name, row) ← row.next shape decodeString
      let (descriptor, row) ← row.next shape decodeString
      let (access, row) ← row.nextD {} (Access.decode place)
      let (body, row) ← row.nextD none (decodeOption (decodeList (Statement.decode place)))
      return (⟨name, descriptor, access, body⟩, row))

def Class.shape : Shape := ⟨"struct Class", 6⟩

def Class.decode (place : Place) : Json → Decode Class :=
  record "Class" place
    (fun fields => do
      let interfaces ← field? "interfaces" (decodeList decodeString) fields
      let isAbstract ← field? "is_abstract" decodeBool fields
      let isInterface ← field? "is_interface" decodeBool fields
      let methods ← field? "methods" (decodeList (Method.decode place)) fields
      let name ← field? "name" decodeString fields
      let superName ← field? "super_name" (decodeOption decodeString) fields
      return ⟨← require "name" name, superName.getD none, interfaces.getD [],
        isInterface.getD false, isAbstract.getD false, methods.getD []⟩)
    (fun row => do
      let (name, row) ← row.next shape decodeString
      let (superName, row) ← row.nextD none (decodeOption decodeString)
      let (interfaces, row) ← row.nextD [] (decodeList decodeString)
      let (isInterface, row) ← row.nextD false decodeBool
      let (isAbstract, row) ← row.nextD false decodeBool
      let (methods, row) ← row.nextD [] (decodeList (Method.decode place))
      return (⟨name, superName, interfaces, isInterface, isAbstract, methods⟩, row))

end Devirt
