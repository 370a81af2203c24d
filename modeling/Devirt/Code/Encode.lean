import Devirt.Code
import Devirt.Json

/-!
# Encoding classes, methods and statements

The full form of every type as an object: all fields are present, absent values are `null`.
-/

namespace Devirt

/-- An optional value; `null` if absent. -/
def encodeOption {α : Type} (encode : α → Json) : Option α → Json
  | some a => encode a
  | none => .null

def encodeList {α : Type} (encode : α → Json) (xs : List α) : Json := .arr (xs.map encode)

def MethodRef.encode (m : MethodRef) : Json :=
  .obj [("class", .str m.owner), ("name", .str m.name), ("descriptor", .str m.descriptor)]

def Value.encode : Value → Json
  | localVar name => .obj [("value", .str "local"), ("name", .str name)]
  | self => .obj [("value", .str "this")]
  | parameter index => .obj [("value", .str "parameter"), ("index", .int index)]
  | field owner name =>
    .obj [("value", .str "field"), ("owner", .str owner), ("name", .str name)]

def CallKind.name : CallKind → String
  | virtual => "virtual"
  | interface => "interface"
  | special => "special"
  | static => "static"

def Call.encode (c : Call) : Json :=
  .obj [("kind", .str c.kind.name), ("method", c.method.encode),
    ("receiver", encodeOption Value.encode c.receiver), ("args", encodeList Value.encode c.args)]

def Expr.encode : Expr → Json
  | new owner => .obj [("expr", .str "new"), ("class", .str owner)]
  | use value => .obj [("expr", .str "use"), ("value", value.encode)]
  | cast owner value =>
    .obj [("expr", .str "cast"), ("class", .str owner), ("value", value.encode)]
  | invoke call => .obj [("expr", .str "invoke"), ("call", call.encode)]
  | constant => .obj [("expr", .str "constant")]

def Statement.encode : Statement → Json
  | assign target value =>
    .obj [("stmt", .str "assign"), ("target", target.encode), ("value", value.encode)]
  | invoke call => .obj [("stmt", .str "invoke"), ("call", call.encode)]
  | ret value => .obj [("stmt", .str "return"), ("value", encodeOption Value.encode value)]
  | other => .obj [("stmt", .str "other")]

def Access.encode (a : Access) : Json :=
  .obj [("is_static", .bool a.isStatic), ("is_abstract", .bool a.isAbstract),
    ("is_native", .bool a.isNative)]

def Method.encode (m : Method) : Json :=
  .obj [("name", .str m.name), ("descriptor", .str m.descriptor), ("access", m.access.encode),
    ("body", encodeOption (encodeList Statement.encode) m.body)]

def Class.encode (c : Class) : Json :=
  .obj [("name", .str c.name), ("super_name", encodeOption .str c.superName),
    ("interfaces", encodeList .str c.interfaces), ("is_interface", .bool c.isInterface),
    ("is_abstract", .bool c.isAbstract), ("methods", encodeList Method.encode c.methods)]

end Devirt
