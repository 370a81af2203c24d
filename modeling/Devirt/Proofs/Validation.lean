import Devirt.Loading
import Devirt.Proofs.Spelling

/-!
# Documents that pass the schema are decoded

The schema looks at the outside of a document: its classes, its methods and its entry points. It
leaves access flags and statements to decoding. So these are the only parts where decoding can fail
once a document has passed.

* `Schema.Passes s v` : the check finds nothing wrong. One lemma per check, and `passes_object`,
  `passes_array` for objects and arrays as a whole;
* `Ends good bad r` : decoding ends well and nothing is bad, or it ends with a bad error. One lemma
  per way to decode: `Ends.bind`, `Ends.list`, `Ends.field`;
* `Snapshot.methodsOf v`, `Method.Failure m e` : the methods of a document, and an error in one of
  their access flags or statements;
* `ends_method`, `ends_class`, `ends_snapshot` : from the inside to the outside, and
  `decode_of_accepts` for documents and files.
-/

namespace Devirt

variable {α β : Type}

/-! ## What checks say -/

namespace Schema

/-- Nothing is wrong with a value where it stands. -/
def Passes (s : Schema) (v : Json) : Prop := ∃ path, s path v = []

variable {s : Schema} {v x : Json} {name : String}

theorem passes_of_accepts (h : s.accepts v = true) : s.Passes v := ⟨[], List.isEmpty_iff.mp h⟩

theorem Passes.of_all {checks : List Schema} (h : (all checks).Passes v) (hs : s ∈ checks) :
    s.Passes v := by
  obtain ⟨path, h⟩ := h
  unfold all at h
  rw [List.flatMap_eq_nil_iff] at h
  exact ⟨path, h s hs⟩

theorem Passes.exists_type {ts : List JsonType} (h : (types ts).Passes v) :
    ∃ t ∈ ts, t.holds v = true := by
  obtain ⟨path, h⟩ := h
  unfold types at h
  split at h
  · rename_i hany
    exact List.any_eq_true.mp hany
  · cases h

theorem Passes.item {vs : List Json} (h : (items s).Passes (.arr vs)) (hx : x ∈ vs) :
    s.Passes x := by
  obtain ⟨path, h⟩ := h
  obtain ⟨i, hi, rfl⟩ := List.mem_iff_getElem.mp hx
  refine ⟨path ++ [toString i], List.flatten_eq_nil_iff.mp h _ ?_⟩
  exact List.mem_mapIdx.mpr ⟨i, hi, rfl⟩

theorem Passes.property {checks : List (String × Schema)} (h : (properties checks).Passes v)
    (hs : (name, s) ∈ checks) (hx : v.get? name = some x) : s.Passes x := by
  obtain ⟨path, h⟩ := h
  unfold properties at h
  rw [List.flatMap_eq_nil_iff] at h
  have hcheck := h _ hs
  simp only [hx] at hcheck
  exact ⟨path ++ [name], hcheck⟩

theorem Passes.present {names : List String} {fields : List (String × Json)}
    (h : (required names).Passes (.obj fields)) (hname : name ∈ names) :
    ∃ x, fields.lookup name = some x := by
  obtain ⟨path, h⟩ := h
  have hmissing := List.filter_eq_nil_iff.mp (List.map_eq_nil_iff.mp h) name hname
  rw [← Option.isSome_iff_exists]
  simpa using hmissing

theorem Passes.length_le {least : Nat} {text : String} (h : (minLength least).Passes (.str text)) :
    least ≤ text.length := by
  obtain ⟨path, h⟩ := h
  simp only [minLength] at h
  split at h
  · cases h
  · omega

end Schema

open Schema

/-! ## Objects, arrays and texts -/

/-- What a value of a type is made of. -/
theorem JsonType.exists_of_holds {t : JsonType} {v : Json} (h : t.holds v = true) :
    match t with
    | .array => ∃ items, v = .arr items
    | .boolean => ∃ b, v = .bool b
    | .null => v = .null
    | .object => ∃ fields, v = .obj fields
    | .string => ∃ text, v = .str text := by
  cases t <;> cases v <;> first | exact ⟨_, rfl⟩ | rfl | cases h

section Shapes

variable {v : Json} {s : Schema}

theorem Schema.Passes.holds {t : JsonType} (h : (types [t]).Passes v) : t.holds v = true := by
  obtain ⟨u, hu, hv⟩ := h.exists_type
  obtain rfl := List.mem_singleton.mp hu
  exact hv

theorem Schema.Passes.holds_or {t u : JsonType} (h : (types [t, u]).Passes v) :
    t.holds v = true ∨ u.holds v = true := by
  obtain ⟨w, hw, hv⟩ := h.exists_type
  rcases List.mem_pair.mp hw with rfl | rfl
  · exact .inl hv
  · exact .inr hv

theorem passes_object {checks : List (String × Schema)} {names : List String}
    (h : (all [properties checks, required names, types [.object]]).Passes v) :
    ∃ fields, v = .obj fields ∧ (∀ name ∈ names, ∃ x, fields.lookup name = some x) ∧
      ∀ name s, checks.lookup name = some s → ∀ x, fields.lookup name = some x → s.Passes x := by
  have htype : (types [.object]).Passes v := h.of_all (by simp)
  obtain ⟨fields, rfl⟩ := JsonType.exists_of_holds htype.holds
  have hrequired : (required names).Passes (.obj fields) := h.of_all (by simp)
  have hproperties : (properties checks).Passes (.obj fields) := h.of_all (by simp)
  exact ⟨fields, rfl, fun _ hname => hrequired.present hname,
    fun _ _ hs _ hx => hproperties.property (mem_of_lookup hs) hx⟩

theorem passes_array (h : (all [items s, types [.array]]).Passes v) :
    ∃ xs, v = .arr xs ∧ ∀ x ∈ xs, s.Passes x := by
  have htype : (types [.array]).Passes v := h.of_all (by simp)
  obtain ⟨xs, rfl⟩ := JsonType.exists_of_holds htype.holds
  have hitems : (items s).Passes (.arr xs) := h.of_all (by simp)
  exact ⟨xs, rfl, fun _ hx => hitems.item hx⟩

theorem exists_str_of_passes {least : Nat} (h : (Snapshot.textSchema least).Passes v) :
    ∃ text, v = .str text ∧ least ≤ text.length := by
  have htype : (types [.string]).Passes v := h.of_all (by simp)
  obtain ⟨text, rfl⟩ := JsonType.exists_of_holds htype.holds
  have hlength : (minLength least).Passes (.str text) := h.of_all (by simp)
  exact ⟨text, rfl, hlength.length_le⟩

theorem decodeBool_of_passes (h : (types [.boolean]).Passes v) :
    ∃ b, decodeBool v = .ok b := by
  obtain ⟨b, rfl⟩ := JsonType.exists_of_holds h.holds
  exact ⟨b, rfl⟩

theorem decodeOption_of_passes (h : (types [.null, .string]).Passes v) :
    ∃ o, decodeOption decodeString v = .ok o := by
  rcases h.holds_or with hv | hv
  · obtain rfl : v = .null := JsonType.exists_of_holds hv
    exact ⟨none, rfl⟩
  · obtain ⟨text, rfl⟩ := JsonType.exists_of_holds hv
    exact ⟨some text, rfl⟩

end Shapes

/-! ## How decoding ends -/

/-- Decoding ends with a good value and nothing is bad, or it ends with a bad error. -/
inductive Ends (good : α → Prop) (bad : DecodeError → Prop) : Decode α → Prop where
  | ok {a : α} (value : good a) (sound : ∀ e, ¬ bad e) : Ends good bad (.ok a)
  | error {e : DecodeError} (cause : bad e) : Ends good bad (.error e)

namespace Ends

variable {good : α → Prop} {good' : β → Prop} {bad bad' : DecodeError → Prop} {r : Decode α}

theorem self (r : Decode α) : Ends (fun _ => True) (fun e => r = .error e) r := by
  cases r with
  | ok a => exact .ok trivial nofun
  | error e => exact .error rfl

theorem congr_bad (h : Ends good bad r) (hbad : ∀ e, bad e ↔ bad' e) : Ends good bad' r := by
  rw [← show bad = bad' from funext fun e => propext (hbad e)]
  exact h

theorem bind {next : α → Decode β} (h : Ends good bad r)
    (hnext : ∀ a, good a → Ends good' bad' (next a)) :
    Ends good' (fun e => bad e ∨ bad' e) (r >>= next) := by
  cases h with
  | error cause => exact .error (.inl cause)
  | @ok a value sound =>
    -- The first step ended well, so what is bad of both is bad of the second.
    have hr := hnext a value
    show Ends good' _ (next a)
    generalize next a = r' at hr
    cases hr with
    | error cause => exact .error (.inr cause)
    | ok value' sound' => exact .ok value' (fun e he => he.elim (sound e) (sound' e))

theorem map {f : α → β} (h : Ends good bad r) (hf : ∀ a, good a → good' (f a)) :
    Ends good' bad (f <$> r) := by
  cases h with
  | error cause => exact .error cause
  | ok value sound => exact .ok (hf _ value) sound

/-- The first bad item ends a list. -/
theorem list {item : Json → Decode α} {badItem : Json → DecodeError → Prop} {items : List Json}
    (h : ∀ x ∈ items, Ends good (badItem x) (item x)) :
    Ends (fun as => ∀ a ∈ as, good a) (fun e => ∃ x ∈ items, badItem x e) (items.mapM item) := by
  induction items with
  | nil => exact .ok (by simp) (by simp)
  | cons x items ih =>
    have hrest := ih (fun y hy => h y (List.mem_cons_of_mem _ hy))
    rw [List.mapM_cons]
    refine ((h x List.mem_cons_self).bind fun a ha => hrest.map fun as has => ?_).congr_bad ?_
    · exact List.forall_mem_cons.mpr ⟨ha, has⟩
    · simp

theorem field {decode : Json → Decode α} {badValue : Json → DecodeError → Prop}
    {fields : List (String × Json)} {name : String}
    (h : ∀ x, fields.lookup name = some x → Ends good (badValue x) (decode x)) :
    Ends (fun o => ∀ a ∈ o, good a) (fun e => ∃ x, fields.lookup name = some x ∧ badValue x e)
      (field? name decode fields) := by
  unfold field?
  cases hx : fields.lookup name with
  | none => exact .ok (by simp) (by simp)
  | some x => exact ((h x hx).map (by simp)).congr_bad (by simp)

theorem value_of_ok {a : α} (h : Ends good bad (.ok a)) : good a := by
  cases h with
  | ok value _ => exact value

theorem cause_of_error {e : DecodeError} (h : Ends good bad (.error e)) : bad e := by
  cases h with
  | error cause => exact cause

theorem exists_iff (h : Ends good bad r) : (∃ a, r = .ok a) ↔ ∀ e, ¬ bad e := by
  cases h with
  | ok value sound => exact iff_of_true ⟨_, rfl⟩ sound
  | error cause => exact iff_of_false nofun (fun hbad => hbad _ cause)

end Ends

/-! ## Parts that cannot fail -/

section Certain

variable {decode : Json → Decode α} {good : α → Prop} {fields : List (String × Json)}
  {name : String}

theorem ends_of_exists {r : Decode α} (h : ∃ a, r = .ok a ∧ good a) :
    Ends good (fun _ => False) r := by
  obtain ⟨a, rfl, ha⟩ := h
  exact .ok ha (fun _ => id)

theorem exists_field (h : ∀ x, fields.lookup name = some x → ∃ a, decode x = .ok a) :
    ∃ o, field? name decode fields = .ok o := by
  unfold field?
  cases hx : fields.lookup name with
  | none => exact ⟨none, rfl⟩
  | some x =>
    obtain ⟨a, ha⟩ := h x hx
    exact ⟨some a, by simp only [ha]; rfl⟩

theorem exists_text {least : Nat} (hx : ∃ x, fields.lookup name = some x)
    (h : ∀ x, fields.lookup name = some x → (Snapshot.textSchema least).Passes x) :
    ∃ text, field? name decodeString fields = .ok (some text) ∧ least ≤ text.length := by
  obtain ⟨x, hx⟩ := hx
  obtain ⟨text, rfl, hlength⟩ := exists_str_of_passes (h x hx)
  refine ⟨text, ?_, hlength⟩
  unfold field?
  rw [hx]
  rfl

end Certain

/-! ## Access flags and statements of a document -/

def Json.elements : Json → List Json
  | .arr items => items
  | _ => []

def Json.elementsAt (key : String) (v : Json) : List Json := (v.get? key).elim [] elements

theorem Json.exists_elementsAt {key : String} {v : Json} {P : Json → Prop} :
    (∃ x ∈ v.elementsAt key, P x) ↔ ∃ y, v.get? key = some y ∧ ∃ x ∈ y.elements, P x := by
  unfold elementsAt
  cases v.get? key <;> simp

def Snapshot.methodsOf (v : Json) : List Json :=
  (v.elementsAt "classes").flatMap (Json.elementsAt "methods")

theorem Snapshot.exists_methodsOf {v : Json} {P : Json → Prop} :
    (∃ m ∈ methodsOf v, P m) ↔ ∃ c ∈ v.elementsAt "classes", ∃ m ∈ c.elementsAt "methods", P m := by
  unfold methodsOf
  simp only [List.mem_flatMap]
  exact ⟨fun ⟨m, ⟨c, hc, hm⟩, h⟩ => ⟨c, hc, m, hm, h⟩, fun ⟨c, hc, m, hm, h⟩ => ⟨m, ⟨c, hc, hm⟩, h⟩⟩

/-- The access flags or a statement of a method cannot be decoded. -/
def Method.Failure (m : Json) (e : DecodeError) : Prop :=
  (∃ x, m.get? "access" = some x ∧ Access.decode .outer x = .error e) ∨
    ∃ x ∈ m.elementsAt "body", Statement.decode .outer x = .error e

theorem Method.not_failure_iff {m : Json} :
    (∀ e, ¬ Method.Failure m e) ↔
      (∀ x, m.get? "access" = some x → ∃ a, Access.decode .outer x = .ok a) ∧
        ∀ x ∈ m.elementsAt "body", ∃ s, Statement.decode .outer x = .ok s := by
  simp only [(Ends.self _).exists_iff, Method.Failure, not_or, not_exists, not_and, forall_and]
  exact and_congr ⟨fun h x hx e => h e x hx, fun h e x hx => h x hx e⟩
    ⟨fun h x hx e => h e x hx, fun h e x hx => h x hx e⟩

/-- The name is not empty, and the descriptor has place for two parentheses. -/
def Method.Named (m : Method) : Prop := m.name ≠ "" ∧ 2 ≤ m.descriptor.length

/-- The names of a class and of its methods are not empty. -/
def Class.Named (c : Class) : Prop := c.name ≠ "" ∧ ∀ m ∈ c.methods, m.Named

/-- The names of a reference are not empty. -/
def MethodRef.Named (m : MethodRef) : Prop :=
  m.owner ≠ "" ∧ m.name ≠ "" ∧ 2 ≤ m.descriptor.length

/-- The names of all classes, of their methods and of the entry points are not empty. -/
def Snapshot.Named (s : Snapshot) : Prop :=
  (∀ c ∈ s.classes, c.Named) ∧ ∀ m ∈ s.entryPoints, m.Named

theorem ne_empty_of_length {text : String} (h : 1 ≤ text.length) : text ≠ "" := by
  rintro rfl
  exact absurd h (by decide)

theorem forall_mem_getD {P : α → Prop} {o : Option (List α)} (h : ∀ as ∈ o, ∀ a ∈ as, P a) :
    ∀ a ∈ o.getD [], P a := by
  cases o with
  | none => simp
  | some as => exact h as rfl

/-! ## From methods to documents -/

section Documents

variable {v : Json}

theorem ends_array {s : Schema} {decode : Json → Decode α} {good : α → Prop}
    {bad : Json → DecodeError → Prop}
    (hitem : ∀ {x}, s.Passes x → Ends good (bad x) (decode x))
    (h : (all [items s, types [.array]]).Passes v) :
    Ends (fun as => ∀ a ∈ as, good a) (fun e => ∃ x ∈ v.elements, bad x e)
      (decodeList decode v) := by
  obtain ⟨xs, rfl, hxs⟩ := passes_array h
  exact Ends.list fun x hx => hitem (hxs x hx)

theorem ends_body (h : (all [items Snapshot.statementSchema, types [.array, .null]]).Passes v) :
    Ends (fun _ => True) (fun e => ∃ x ∈ v.elements, Statement.decode .outer x = .error e)
      (decodeOption (decodeList (Statement.decode .outer)) v) := by
  have htypes : (types [.array, .null]).Passes v := h.of_all (by simp)
  rcases htypes.holds_or with hv | hv
  · obtain ⟨xs, rfl⟩ := JsonType.exists_of_holds hv
    have hlist := Ends.list fun x (_ : x ∈ xs) => Ends.self (Statement.decode .outer x)
    exact hlist.map (fun _ _ => trivial)
  · obtain rfl : v = .null := JsonType.exists_of_holds hv
    exact .ok trivial (by simp [Json.elements])

theorem ends_method (h : Snapshot.methodSchema.Passes v) :
    Ends Method.Named (Method.Failure v) (Method.decode .outer v) := by
  obtain ⟨fields, rfl, hrequired, hfields⟩ := passes_object h
  obtain ⟨descriptor, hdescriptor, hlength⟩ := exists_text (hrequired "descriptor" (by simp))
    (hfields "descriptor" _ rfl)
  obtain ⟨name, hname, hne⟩ := exists_text (hrequired "name" (by simp)) (hfields "name" _ rfl)
  have haccess := Ends.field fun x (_ : fields.lookup "access" = some x) =>
    Ends.self (Access.decode .outer x)
  have hbody := Ends.field fun x (hx : fields.lookup "body" = some x) =>
    ends_body (hfields "body" _ rfl x hx)
  -- Access flags and body are decoded before the texts, which cannot fail.
  have hrest : ∀ (access : Option Access) (body : Option (Option (List Statement))),
      Ends Method.Named (fun _ => False) (do
        let descriptor ← field? "descriptor" decodeString fields
        let name ← field? "name" decodeString fields
        return ⟨← require "name" name, ← require "descriptor" descriptor, access.getD {},
          body.getD none⟩) := by
    intro access body
    simp only [hdescriptor, hname]
    exact .ok ⟨ne_empty_of_length hne, hlength⟩ (fun _ => id)
  have hall := haccess.bind fun access _ => hbody.bind fun body _ => hrest access body
  refine hall.congr_bad fun e => ?_
  rw [or_false, Method.Failure, Json.exists_elementsAt]
  rfl

theorem decodeStrings_of_passes (h : (all [items (types [.string]), types [.array]]).Passes v) :
    ∃ texts, decodeList decodeString v = .ok texts := by
  have hitem : ∀ {x}, (types [.string]).Passes x →
      Ends (fun _ => True) (fun _ => False) (decodeString x) := by
    intro x hx
    obtain ⟨text, rfl⟩ := JsonType.exists_of_holds hx.holds
    exact .ok trivial (fun _ => id)
  exact (ends_array hitem h).exists_iff.mpr (by simp)

theorem ends_class (h : Snapshot.classSchema.Passes v) :
    Ends Class.Named (fun e => ∃ m ∈ v.elementsAt "methods", Method.Failure m e)
      (Class.decode .outer v) := by
  obtain ⟨fields, rfl, hrequired, hfields⟩ := passes_object h
  obtain ⟨interfaces, hinterfaces⟩ := exists_field
    (fun x hx => decodeStrings_of_passes (hfields "interfaces" _ rfl x hx))
  obtain ⟨isAbstract, habstract⟩ := exists_field
    (fun x hx => decodeBool_of_passes (hfields "is_abstract" _ rfl x hx))
  obtain ⟨isInterface, hinterface⟩ := exists_field
    (fun x hx => decodeBool_of_passes (hfields "is_interface" _ rfl x hx))
  have hmethods := Ends.field fun x (hx : fields.lookup "methods" = some x) =>
    ends_array ends_method (hfields "methods" _ rfl x hx)
  obtain ⟨name, hname, hne⟩ := exists_text (hrequired "name" (by simp)) (hfields "name" _ rfl)
  obtain ⟨superName, hsuper⟩ := exists_field
    (fun x hx => decodeOption_of_passes (hfields "super_name" _ rfl x hx))
  have hrest : ∀ methods : Option (List Method), (∀ ms ∈ methods, ∀ m ∈ ms, m.Named) →
      Ends Class.Named (fun _ => False) (do
        let name ← field? "name" decodeString fields
        let superName ← field? "super_name" (decodeOption decodeString) fields
        return ⟨← require "name" name, superName.getD none, interfaces.getD [],
          isInterface.getD false, isAbstract.getD false, methods.getD []⟩) := by
    intro methods hnamed
    simp only [hname, hsuper]
    exact .ok ⟨ne_empty_of_length hne, forall_mem_getD hnamed⟩ (fun _ => id)
  simp only [Class.decode, record, hinterfaces, ok_bind, habstract, hinterface]
  refine (hmethods.bind hrest).congr_bad fun e => ?_
  rw [or_false, Json.exists_elementsAt]
  rfl

theorem decodeMethodRef_of_passes (h : Snapshot.methodRefSchema.Passes v) :
    ∃ m, MethodRef.decode .outer v = .ok m ∧ m.Named := by
  obtain ⟨fields, rfl, hrequired, hfields⟩ := passes_object h
  obtain ⟨owner, howner, hne⟩ := exists_text (hrequired "class" (by simp)) (hfields "class" _ rfl)
  obtain ⟨descriptor, hdescriptor, hlength⟩ := exists_text (hrequired "descriptor" (by simp))
    (hfields "descriptor" _ rfl)
  obtain ⟨name, hname, hne'⟩ := exists_text (hrequired "name" (by simp)) (hfields "name" _ rfl)
  refine ⟨⟨owner, name, descriptor⟩, ?_, ne_empty_of_length hne, ne_empty_of_length hne', hlength⟩
  simp only [MethodRef.decode, record, howner, ok_bind, hdescriptor, hname]
  rfl

theorem ends_snapshot (h : Snapshot.schema.Passes v) :
    Ends Snapshot.Named (fun e => ∃ m ∈ Snapshot.methodsOf v, Method.Failure m e)
      (Snapshot.decode v) := by
  obtain ⟨fields, rfl, -, hfields⟩ := passes_object h
  have hclasses := Ends.field fun x (hx : fields.lookup "classes" = some x) =>
    ends_array ends_class (hfields "classes" _ rfl x hx)
  have hentries := Ends.field fun x (hx : fields.lookup "entry_points" = some x) =>
    ends_array (fun hm => ends_of_exists (decodeMethodRef_of_passes hm))
      (hfields "entry_points" _ rfl x hx)
  obtain ⟨entries, heq⟩ := hentries.exists_iff.mpr (by simp)
  rw [heq] at hentries
  have hrest : ∀ classes : Option (List Class), (∀ cs ∈ classes, ∀ c ∈ cs, c.Named) →
      Ends Snapshot.Named (fun _ => False) (do
        let entryPoints ← field? "entry_points" (decodeList (MethodRef.decode .outer)) fields
        return ⟨classes.getD [], entryPoints.getD []⟩) := by
    intro classes hnamed
    simp only [heq]
    exact .ok ⟨forall_mem_getD hnamed, forall_mem_getD hentries.value_of_ok⟩ (fun _ => id)
  refine (hclasses.bind hrest).congr_bad fun e => ?_
  rw [or_false, Snapshot.exists_methodsOf, Json.exists_elementsAt]
  rfl

end Documents

/-! ## Documents that pass -/

theorem decode_of_undecodable {path path' : String} {bytes : ByteArray} {e : DecodeError}
    (h : readSnapshot path bytes = .error (.undecodable path' e)) :
    ∃ v, Json.readBytes? bytes = some v ∧ Snapshot.decode v = .error e := by
  unfold readSnapshot at h
  split at h
  · cases h
  · rename_i v hv
    split at h
    · split at h
      · cases h
      · rename_i he
        cases h
        exact ⟨v, hv, he⟩
    · cases h

/-- A document that passes the schema is decoded exactly if the access flags and the statements of
all its methods are. Then its names are not empty; and if it is not decoded, the error is that of
access flags or of a statement, also where it is reported for a file. -/
theorem decode_of_accepts {v : Json} (h : Snapshot.schema.accepts v = true) :
    ((∃ s, Snapshot.decode v = .ok s) ↔ ∀ m ∈ Snapshot.methodsOf v,
      (∀ x, m.get? "access" = some x → ∃ a, Access.decode .outer x = .ok a) ∧
        ∀ x ∈ m.elementsAt "body", ∃ s, Statement.decode .outer x = .ok s) ∧
    (∀ s, Snapshot.decode v = .ok s → s.Named) ∧
    (∀ e, Snapshot.decode v = .error e → ∃ m ∈ Snapshot.methodsOf v, Method.Failure m e) ∧
    ∀ path path' bytes e, Json.readBytes? bytes = some v →
      readSnapshot path bytes = .error (.undecodable path' e) →
        ∃ m ∈ Snapshot.methodsOf v, Method.Failure m e := by
  have hends := ends_snapshot (passes_of_accepts h)
  have hcause : ∀ e, Snapshot.decode v = .error e →
      ∃ m ∈ Snapshot.methodsOf v, Method.Failure m e := by
    intro e he
    rw [he] at hends
    exact hends.cause_of_error
  refine ⟨?_, ?_, hcause, ?_⟩
  · rw [hends.exists_iff]
    simp only [← Method.not_failure_iff]
    exact ⟨fun hnone m hm e he => hnone e ⟨m, hm, he⟩, fun hnone e ⟨m, hm, he⟩ => hnone m hm e he⟩
  · intro s hs
    rw [hs] at hends
    exact hends.value_of_ok
  · intro path path' bytes e hread hundecodable
    obtain ⟨w, hw, he⟩ := decode_of_undecodable hundecodable
    obtain rfl : v = w := Option.some.inj (hread.symm.trans hw)
    exact hcause e he

/-- A document with one method, of one statement that has no more than its tag. -/
def statementDocument (tag : String) : Json :=
  .obj [("classes", .arr [.obj [("name", .str "App"), ("methods", .arr [.obj
    [("name", .str "main"), ("descriptor", .str "()V"),
      ("access", .obj [("is_static", .bool true)]),
      ("body", .arr [.obj [("stmt", .str tag)]])]])]])]

/-- A call of nothing passes the schema, but it is not decoded. -/
theorem decode_of_accepts_statement :
    (Snapshot.schema.accepts (statementDocument "invoke") = true ∧
      ∃ m ∈ Snapshot.methodsOf (statementDocument "invoke"),
        Method.Failure m (.missingField "call")) ∧
    Snapshot.schema.accepts (statementDocument "other") = true ∧
      ∃ s, Snapshot.decode (statementDocument "other") = .ok s ∧ s.Named := by
  have hinvoke : Snapshot.schema.accepts (statementDocument "invoke") = true := rfl
  have hother : Snapshot.schema.accepts (statementDocument "other") = true := rfl
  refine ⟨⟨hinvoke, (decode_of_accepts hinvoke).2.2.1 _ rfl⟩, hother, ?_⟩
  obtain ⟨s, hs⟩ : ∃ s, Snapshot.decode (statementDocument "other") = .ok s := ⟨_, rfl⟩
  exact ⟨s, hs, (decode_of_accepts hother).2.1 s hs⟩

end Devirt
