import Devirt.Proofs.Spelling

/-!
# Spellings of classes, methods and statements

The fields of every type in the order of their declaration, with their defaults; and that all
spellings are decoded. Parts of tagged values have decoders of their own place, so the lemmas are for
both places.

* `MethodRef.spelling`, `Value.spelling`, `Call.spelling`, `Statement.spelling`, `Class.spelling`
  and so on : one spelling per type;
* `MethodRef.reads`, `Value.reads` and so on : one lemma per type, from those of its fields;
* `decode_of_spelling` : all types together.
-/

namespace Devirt

open Spelling

/-! ## Method references and values -/

def MethodRef.fields : List FieldSpelling :=
  [⟨"class", same, none⟩, ⟨"name", same, none⟩, ⟨"descriptor", same, none⟩]

def MethodRef.spelling : Spelling := .record fields

theorem MethodRef.reads (place : Place) :
    Reads MethodRef.spelling MethodRef.encode (MethodRef.decode place) := by
  apply reads_record (f := fun m : MethodRef => [.str m.owner, .str m.name, .str m.descriptor])
  · decide
  intro m
  -- By name the order of decoding does not matter; in order it is that of the declaration.
  refine ⟨.cons rfl (.cons rfl (.cons rfl .nil)), fun entries h => ?_, fun row h => ?_⟩
  · simp only [field?_required reads_string h, field?_required reads_string h.tail,
      field?_required reads_string h.tail.tail]
    rfl
  · obtain ⟨row₁, howner, h₁⟩ := next_required reads_string MethodRef.shape h
    obtain ⟨row₂, hname, h₂⟩ := next_required reads_string MethodRef.shape h₁
    obtain ⟨row₃, hdescriptor, h₃⟩ := next_required reads_string MethodRef.shape h₂
    refine ⟨row₃, ?_, h₃⟩
    simp only [howner, ok_bind, hname, hdescriptor]
    rfl

def Value.forms : List (String × List FieldSpelling) :=
  [("local", [⟨"name", same, none⟩]), ("this", []), ("parameter", [⟨"index", same, none⟩]),
    ("field", [⟨"owner", same, none⟩, ⟨"name", same, none⟩])]

def Value.spelling : Spelling := .tagged "value" forms

theorem Value.reads (place : Place) : Reads Value.spelling Value.encode (Value.decode place) := by
  apply reads_tagged
  · decide
  · decide
  intro v
  cases v with
  | localVar name =>
    exact ⟨"local", _, _, _, rfl, rfl, rfl, readsFields_one reads_string Value.localVar name⟩
  | self => exact ⟨"this", _, _, _, rfl, rfl, rfl, readsFields_unit Value.self⟩
  | parameter index =>
    exact ⟨"parameter", _, _, _, rfl, rfl, rfl, readsFields_one reads_index Value.parameter index⟩
  | field owner name =>
    -- The name is decoded before the owner, so this is no case of `readsFields_two`.
    refine ⟨"field", _, _, [.str owner, .str name], rfl, rfl, rfl, ?_⟩
    refine ⟨.cons rfl (.cons rfl .nil), fun entries h => ?_, fun row h => ?_⟩
    · simp only [field?_required reads_string h, field?_required reads_string h.tail]
      rfl
    · obtain ⟨row₁, howner, h₁⟩ := next_required reads_string ⟨"struct variant Value::Field", 2⟩ h
      obtain ⟨row₂, hname, h₂⟩ := next_required reads_string ⟨"struct variant Value::Field", 2⟩ h₁
      refine ⟨row₂, ?_, h₂⟩
      simp only [howner, ok_bind, hname]
      rfl

/-! ## Calls -/

def CallKind.spelling : Spelling := keyed

theorem CallKind.ofName_name (k : CallKind) : ofName k.name = .ok k := by
  cases k <;> rfl

theorem CallKind.reads (place : Place) :
    Reads CallKind.spelling (fun k => .str k.name) (CallKind.decode place) where
  full k := ⟨k.name, rfl, .inl rfl⟩
  decode k j h := by
    obtain ⟨name, heq, h⟩ := h
    obtain rfl : k.name = name := Json.str.inj heq
    rcases h with rfl | rfl
    · exact ofName_name k
    · simp only [CallKind.decode, ofName_name, ok_bind]
      rfl

theorem Value.reads_option (place : Place) : Reads (.option Value.spelling)
    (encodeOption Value.encode) (decodeOption (Value.decode place)) :=
  Devirt.reads_option (Value.reads place) rfl

def Call.fields : List FieldSpelling :=
  [⟨"kind", CallKind.spelling, none⟩, ⟨"method", MethodRef.spelling, none⟩,
    ⟨"receiver", .option Value.spelling, some (encodeOption Value.encode none)⟩,
    ⟨"args", .list Value.spelling, some (encodeList Value.encode [])⟩]

def Call.spelling : Spelling := .record fields

theorem Call.reads (place : Place) : Reads Call.spelling Call.encode (Call.decode place) := by
  have hkind := CallKind.reads place
  have hmethod := MethodRef.reads place
  have hreceiver := Value.reads_option place
  have hargs := reads_list (Value.reads place)
  apply reads_record (f := fun c : Call => [.str c.kind.name, c.method.encode,
    encodeOption Value.encode c.receiver, encodeList Value.encode c.args])
  · decide
  intro ⟨kind, method, receiver, args⟩
  refine ⟨.cons (hkind.full kind) (.cons (hmethod.full method) (.cons (hreceiver.full receiver)
    (.cons (hargs.full args) .nil))), fun entries h => ?_, fun row h => ?_⟩
  · obtain ⟨receiver?, hr, rfl⟩ := field?_default hreceiver h.tail.tail
    obtain ⟨args?, ha, rfl⟩ := field?_default hargs h.tail.tail.tail
    simp only [field?_required hkind h, field?_required hmethod h.tail, hr, ha]
    rfl
  · obtain ⟨row₁, hk, h₁⟩ := next_required hkind Call.shape h
    obtain ⟨row₂, hm, h₂⟩ := next_required hmethod Call.shape h₁
    obtain ⟨row₃, hr, h₃⟩ := nextD_default hreceiver h₂
    obtain ⟨row₄, ha, h₄⟩ := nextD_default hargs h₃
    refine ⟨row₄, ?_, h₄⟩
    simp only [hk, ok_bind, hm, hr, ha]
    rfl

/-! ## Expressions and statements -/

def Expr.forms : List (String × List FieldSpelling) :=
  [("new", [⟨"class", same, none⟩]), ("use", [⟨"value", Value.spelling, none⟩]),
    ("cast", [⟨"class", same, none⟩, ⟨"value", Value.spelling, none⟩]),
    ("invoke", [⟨"call", Call.spelling, none⟩]), ("constant", [])]

def Expr.spelling : Spelling := .tagged "expr" forms

theorem Expr.reads (place : Place) : Reads Expr.spelling Expr.encode (Expr.decode place) := by
  have hvalue := Value.reads .inner
  apply reads_tagged
  · decide
  · decide
  intro e
  cases e with
  | new owner => exact ⟨"new", _, _, _, rfl, rfl, rfl, readsFields_one reads_string Expr.new owner⟩
  | use value => exact ⟨"use", _, _, _, rfl, rfl, rfl, readsFields_one hvalue Expr.use value⟩
  | cast owner value =>
    exact ⟨"cast", _, _, _, rfl, rfl, rfl,
      readsFields_two reads_string hvalue Expr.cast owner value⟩
  | invoke call =>
    exact ⟨"invoke", _, _, _, rfl, rfl, rfl, readsFields_one (Call.reads .inner) Expr.invoke call⟩
  | constant => exact ⟨"constant", _, _, _, rfl, rfl, rfl, readsFields_unit Expr.constant⟩

def Statement.forms : List (String × List FieldSpelling) :=
  [("assign", [⟨"target", Value.spelling, none⟩, ⟨"value", Expr.spelling, none⟩]),
    ("invoke", [⟨"call", Call.spelling, none⟩]),
    ("return", [⟨"value", .option Value.spelling, some (encodeOption Value.encode none)⟩]),
    ("other", [])]

def Statement.spelling : Spelling := .tagged "stmt" forms

theorem Statement.reads (place : Place) :
    Reads Statement.spelling Statement.encode (Statement.decode place) := by
  apply reads_tagged
  · decide
  · decide
  intro s
  cases s with
  | assign target value =>
    exact ⟨"assign", _, _, _, rfl, rfl, rfl,
      readsFields_two (Value.reads .inner) (Expr.reads .inner) Statement.assign target value⟩
  | invoke call =>
    exact ⟨"invoke", _, _, _, rfl, rfl, rfl,
      readsFields_one (Call.reads .inner) Statement.invoke call⟩
  | ret value =>
    have hvalue := Value.reads_option .inner
    refine ⟨"return", _, _, [encodeOption Value.encode value], rfl, rfl, rfl, ?_⟩
    refine ⟨.cons (hvalue.full value) .nil, fun entries h => ?_, fun row h => ?_⟩
    · obtain ⟨value?, hv, rfl⟩ := field?_default hvalue h
      simp only [hv]
      rfl
    · obtain ⟨row₁, hv, h₁⟩ := nextD_default hvalue h
      refine ⟨row₁, ?_, h₁⟩
      simp only [hv]
      rfl
  | other => exact ⟨"other", _, _, _, rfl, rfl, rfl, readsFields_unit Statement.other⟩

/-! ## Declarations -/

/-- A flag that is off if it is left out. -/
def flagField (name : String) : FieldSpelling := ⟨name, same, some (.bool false)⟩

def Access.fields : List FieldSpelling :=
  [flagField "is_static", flagField "is_abstract", flagField "is_native"]

def Access.spelling : Spelling := .record fields

theorem Access.reads (place : Place) :
    Reads Access.spelling Access.encode (Access.decode place) := by
  apply reads_record
    (f := fun a : Access => [.bool a.isStatic, .bool a.isAbstract, .bool a.isNative])
  · decide
  intro ⟨isStatic, isAbstract, isNative⟩
  refine ⟨.cons rfl (.cons rfl (.cons rfl .nil)), fun entries h => ?_, fun row h => ?_⟩
  · obtain ⟨static?, hs, rfl⟩ := field?_default reads_bool h
    obtain ⟨abstract?, ha, rfl⟩ := field?_default reads_bool h.tail
    obtain ⟨native?, hn, rfl⟩ := field?_default reads_bool h.tail.tail
    simp only [hs, ha, hn]
    rfl
  · obtain ⟨row₁, hs, h₁⟩ := nextD_default reads_bool h
    obtain ⟨row₂, ha, h₂⟩ := nextD_default reads_bool h₁
    obtain ⟨row₃, hn, h₃⟩ := nextD_default reads_bool h₂
    refine ⟨row₃, ?_, h₃⟩
    simp only [hs, ok_bind, ha, hn]
    rfl

def Method.fields : List FieldSpelling :=
  [⟨"name", same, none⟩, ⟨"descriptor", same, none⟩,
    ⟨"access", Access.spelling, some (Access.encode {})⟩,
    ⟨"body", .option (.list Statement.spelling),
      some (encodeOption (encodeList Statement.encode) none)⟩]

def Method.spelling : Spelling := .record fields

theorem Method.reads (place : Place) :
    Reads Method.spelling Method.encode (Method.decode place) := by
  have haccess := Access.reads place
  have hbody : Reads _ (encodeOption (encodeList Statement.encode)) _ :=
    reads_option (reads_list (Statement.reads place)) rfl
  apply reads_record (f := fun m : Method => [.str m.name, .str m.descriptor, m.access.encode,
    encodeOption (encodeList Statement.encode) m.body])
  · decide
  intro ⟨name, descriptor, access, body⟩
  refine ⟨.cons rfl (.cons rfl (.cons (haccess.full access) (.cons (hbody.full body) .nil))),
    fun entries h => ?_, fun row h => ?_⟩
  · obtain ⟨access?, ha, rfl⟩ := field?_default haccess h.tail.tail
    obtain ⟨body?, hb, rfl⟩ := field?_default hbody h.tail.tail.tail
    simp only [field?_required reads_string h, field?_required reads_string h.tail, ha, hb]
    rfl
  · obtain ⟨row₁, hn, h₁⟩ := next_required reads_string Method.shape h
    obtain ⟨row₂, hd, h₂⟩ := next_required reads_string Method.shape h₁
    obtain ⟨row₃, ha, h₃⟩ := nextD_default haccess h₂
    obtain ⟨row₄, hb, h₄⟩ := nextD_default hbody h₃
    refine ⟨row₄, ?_, h₄⟩
    simp only [hn, ok_bind, hd, ha, hb]
    rfl

def Class.fields : List FieldSpelling :=
  [⟨"name", same, none⟩, ⟨"super_name", .option same, some (encodeOption .str none)⟩,
    ⟨"interfaces", .list same, some (encodeList .str [])⟩,
    flagField "is_interface", flagField "is_abstract",
    ⟨"methods", .list Method.spelling, some (encodeList Method.encode [])⟩]

def Class.spelling : Spelling := .record fields

theorem Class.reads (place : Place) : Reads Class.spelling Class.encode (Class.decode place) := by
  have hsuper : Reads _ (encodeOption .str) _ := reads_option reads_string rfl
  have hinterfaces := reads_list reads_string
  have hmethods := reads_list (Method.reads place)
  apply reads_record (f := fun c : Class => [.str c.name, encodeOption .str c.superName,
    encodeList .str c.interfaces, .bool c.isInterface, .bool c.isAbstract,
    encodeList Method.encode c.methods])
  · decide
  intro ⟨name, superName, interfaces, isInterface, isAbstract, methods⟩
  refine ⟨.cons rfl (.cons (hsuper.full superName) (.cons (hinterfaces.full interfaces)
    (.cons rfl (.cons rfl (.cons (hmethods.full methods) .nil))))),
    fun entries h => ?_, fun row h => ?_⟩
  · obtain ⟨super?, hs, rfl⟩ := field?_default hsuper h.tail
    obtain ⟨interfaces?, hi, rfl⟩ := field?_default hinterfaces h.tail.tail
    obtain ⟨interface?, hf, rfl⟩ := field?_default reads_bool h.tail.tail.tail
    obtain ⟨abstract?, ha, rfl⟩ := field?_default reads_bool h.tail.tail.tail.tail
    obtain ⟨methods?, hm, rfl⟩ := field?_default hmethods h.tail.tail.tail.tail.tail
    simp only [field?_required reads_string h, hs, hi, hf, ha, hm]
    rfl
  · obtain ⟨row₁, hn, h₁⟩ := next_required reads_string Class.shape h
    obtain ⟨row₂, hs, h₂⟩ := nextD_default hsuper h₁
    obtain ⟨row₃, hi, h₃⟩ := nextD_default hinterfaces h₂
    obtain ⟨row₄, hf, h₄⟩ := nextD_default reads_bool h₃
    obtain ⟨row₅, ha, h₅⟩ := nextD_default reads_bool h₄
    obtain ⟨row₆, hm, h₆⟩ := nextD_default hmethods h₅
    refine ⟨row₆, ?_, h₆⟩
    simp only [hn, ok_bind, hs, hi, hf, ha, hm]
    rfl

/-! ## All types -/

/-- In a document and inside of tagged values, every spelling of a value is decoded to it. -/
theorem decode_of_spelling (place : Place) :
    Reads Class.spelling Class.encode (Class.decode place) ∧
    Reads Method.spelling Method.encode (Method.decode place) ∧
    Reads Access.spelling Access.encode (Access.decode place) ∧
    Reads MethodRef.spelling MethodRef.encode (MethodRef.decode place) ∧
    Reads Statement.spelling Statement.encode (Statement.decode place) ∧
    Reads Expr.spelling Expr.encode (Expr.decode place) ∧
    Reads Value.spelling Value.encode (Value.decode place) ∧
    Reads Call.spelling Call.encode (Call.decode place) ∧
    Reads CallKind.spelling (fun k => .str k.name) (CallKind.decode place) :=
  ⟨Class.reads place, Method.reads place, Access.reads place, MethodRef.reads place,
    Statement.reads place, Expr.reads place, Value.reads place, Call.reads place,
    CallKind.reads place⟩

/-- A method that calls `Shape.area` and returns. -/
def areaCaller : Method :=
  { name := "run", descriptor := "()V", access := { isStatic := true }
    body := some [.invoke { kind := .static, method := ⟨"Shape", "area", "()I"⟩ }, .ret none] }

/-- It as an array, of which the first statement is an object with a key that names no field. -/
def areaCallerMixed : Json :=
  .arr [.str "run", .str "()V", .arr [.bool true],
    .arr [.obj [("line", .int 7), ("call", .arr [.obj [("static", .null)],
        .arr [.str "Shape", .str "area", .str "()I"]]), ("stmt", .str "invoke")],
      .arr [.str "return"]]]

theorem spelling_areaCallerMixed : Method.spelling areaCaller.encode areaCallerMixed := by
  have hmethod : MethodRef.spelling (MethodRef.encode ⟨"Shape", "area", "()I"⟩)
      (.arr [.str "Shape", .str "area", .str "()I"]) :=
    ⟨[_, _, _], rfl, rfl, .inr ⟨_, rfl, .item rfl (.item rfl (.item rfl (.rest .nil)))⟩⟩
  have hcall : Call.spelling (Call.encode { kind := .static, method := ⟨"Shape", "area", "()I"⟩ })
      (.arr [.obj [("static", .null)], .arr [.str "Shape", .str "area", .str "()I"]]) :=
    ⟨[_, _, _, _], rfl, rfl, .inr ⟨_, rfl, .item ⟨_, rfl, .inr rfl⟩ (.item hmethod
      (.rest (.cons rfl (.cons rfl .nil))))⟩⟩
  have hinvoke : Statement.spelling
      (Statement.encode (.invoke { kind := .static, method := ⟨"Shape", "area", "()I"⟩ }))
      (.obj [("line", .int 7), ("call", .arr [.obj [("static", .null)],
        .arr [.str "Shape", .str "area", .str "()I"]]), ("stmt", .str "invoke")]) := by
    refine ⟨_, .tail _ (.head _), [_, _], rfl, rfl, .inl ⟨_, rfl, by decide, ?_⟩⟩
    exact .cons (.inl ⟨_, .tail _ (.tail _ (.head _)), rfl, rfl⟩)
      (.cons (.inl ⟨_, .tail _ (.head _), hcall⟩) .nil)
  have hreturn : Statement.spelling (Statement.encode (.ret none)) (.arr [.str "return"]) :=
    ⟨_, .tail _ (.tail _ (.head _)), [_, _], rfl, rfl,
      .inr ⟨_, rfl, .item ⟨rfl, rfl⟩ (.rest (.cons rfl .nil))⟩⟩
  have haccess : Access.spelling (Access.encode { isStatic := true }) (.arr [.bool true]) :=
    ⟨[_, _, _], rfl, rfl, .inr ⟨_, rfl, .item rfl (.rest (.cons rfl (.cons rfl .nil)))⟩⟩
  refine ⟨[_, _, _, _], rfl, rfl, .inr ⟨_, rfl, .item rfl (.item rfl (.item haccess (.item ?_
    (.rest .nil))))⟩⟩
  exact .inr ⟨Json.noConfusion, _, _, rfl, rfl, .cons hinvoke (.cons hreturn .nil)⟩

theorem decode_of_spelling_areaCaller :
    Method.decode .outer areaCallerMixed = .ok areaCaller :=
  (decode_of_spelling .outer).2.1.decode areaCaller areaCallerMixed spelling_areaCallerMixed

end Devirt
