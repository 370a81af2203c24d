import Devirt.Code.Decode
import Devirt.Code.Encode
import Mathlib.Data.List.Forall2
import Mathlib.Data.List.Nodup

/-!
# Spellings

A value has one full form, which `encode` gives, and may be written in other ways. A spelling says
which they are, as a relation between the full form and what is written; no decoder occurs in it.

* `Spelling.same`, `Spelling.keyed`, `Spelling.option`, `Spelling.list` : plain values, names,
  values that may be absent, and lists;
* `Spelling.record fields` : the fields by name, where those with their default may be left out and
  others may be added (`ByName`), or their values in order, where the last ones may be left out
  (`InOrder`);
* `Spelling.tagged tag variants` : a record with one more field in front, the name of a form;
* `Reads σ encode decode` : the full form is a spelling, and whatever is spelled is decoded to the
  value. One lemma for every way to decode: `reads_option`, `reads_list`, `reads_record`,
  `reads_tagged`. For the fields of a record: `field?_required`, `field?_default` by name, and
  `next_required`, `nextD_default` in order.
-/

namespace Devirt

variable {α : Type}

/-! ## Ways to write a value -/

/-- From the full form of a value to the ways to write it. -/
abbrev Spelling := Json → Json → Prop

/-- A field of a record: its name, the spellings of its value, and the full form of the value that
it has if it is left out. -/
structure FieldSpelling where
  name : String
  spelling : Spelling
  default? : Option Json := none

namespace Spelling

def same : Spelling := fun full j => j = full

/-- A name, or an object with the name for its one key and nothing in it. -/
def keyed : Spelling := fun full j => ∃ s, full = .str s ∧ (j = .str s ∨ j = .obj [(s, .null)])

/-- `null`, or a value that is there. -/
def option (σ : Spelling) : Spelling := fun full j =>
  full = .null ∧ j = .null ∨ full ≠ .null ∧ σ full j

/-- A list of the same length, item by item. -/
def list (σ : Spelling) : Spelling := fun full j =>
  ∃ fulls items, full = .arr fulls ∧ j = .arr items ∧ List.Forall₂ σ fulls items

/-- The fields by name. Every field is there, or is left out and has its default; keys that name no
field may be there, too. -/
structure ByName (fields : List FieldSpelling) (fulls : List Json)
    (entries : List (String × Json)) : Prop where
  distinct : (entries.map Prod.fst).Nodup
  entry : List.Forall₂ (fun f full => (∃ j, (f.name, j) ∈ entries ∧ f.spelling full j) ∨
    f.default? = some full ∧ f.name ∉ entries.map Prod.fst) fields fulls

/-- The values of the fields in order. At the end values may be left out that are defaults. -/
inductive InOrder : List FieldSpelling → List Json → List Json → Prop where
  | rest {fields : List FieldSpelling} {fulls : List Json}
    (defaults : List.Forall₂ (fun f full => f.default? = some full) fields fulls) :
    InOrder fields fulls []
  | item {f : FieldSpelling} {fields : List FieldSpelling} {full j : Json} {fulls items : List Json}
    (head : f.spelling full j) (tail : InOrder fields fulls items) :
    InOrder (f :: fields) (full :: fulls) (j :: items)

/-- A record by name or in order. -/
def record (fields : List FieldSpelling) : Spelling := fun full j =>
  ∃ fulls, fulls.length = fields.length ∧
    full = .obj ((fields.map FieldSpelling.name).zip fulls) ∧
    ((∃ entries, j = .obj entries ∧ ByName fields fulls entries) ∨
      ∃ items, j = .arr items ∧ InOrder fields fulls items)

/-- The field that holds the name of a form. -/
def tagField (tag name : String) : FieldSpelling :=
  ⟨tag, fun full j => full = .str name ∧ j = .str name, none⟩

/-- One of several forms: the tag, then the fields of the form. -/
def tagged (tag : String) (variants : List (String × List FieldSpelling)) : Spelling :=
  fun full j => ∃ v ∈ variants, record (tagField tag v.1 :: v.2) full j

end Spelling

open Spelling

/-- The full form of a value is one of its spellings, and all of them are decoded to the value. -/
structure Reads (σ : Spelling) (encode : α → Json) (decode : Json → Decode α) : Prop where
  full : ∀ a, σ (encode a) (encode a)
  decode : ∀ a j, σ (encode a) j → decode j = .ok a

variable {σ : Spelling} {encode : α → Json} {decode : Json → Decode α}

/-- Values of the same full form are the same. -/
theorem Reads.inj (h : Reads σ encode decode) {a b : α} (heq : encode a = encode b) : a = b := by
  have hread := h.decode a _ (h.full a)
  rw [heq, h.decode b _ (h.full b)] at hread
  exact (Except.ok.inj hread).symm

/-! ## Plain values, options and lists -/

theorem ok_bind {β : Type} (a : α) (next : α → Decode β) :
    ((.ok a : Decode α) >>= next) = next a := rfl

theorem reads_same (h : ∀ a, decode (encode a) = .ok a) : Reads same encode decode where
  full a := rfl
  decode a j hj := by
    rw [show j = encode a from hj]
    exact h a

theorem reads_string : Reads same .str decodeString := reads_same (fun _ => rfl)

theorem reads_bool : Reads same .bool decodeBool := reads_same (fun _ => rfl)

theorem reads_index : Reads same (fun n : Nat => .int n) decodeIndex := by
  apply reads_same
  intro n
  simp [decodeIndex]

theorem decodeOption_of_ne_null {j : Json} (h : j ≠ .null) :
    decodeOption decode j = some <$> decode j := by
  cases j with
  | null => exact absurd rfl h
  | _ => rfl

theorem Reads.encode_ne_null (h : Reads σ encode decode) {e : DecodeError}
    (hnull : decode .null = .error e) (a : α) : encode a ≠ .null := by
  intro heq
  have hread := h.decode a _ (h.full a)
  rw [heq, hnull] at hread
  cases hread

/-- A decoder that refuses `null` may be used for values that can be absent. -/
theorem reads_option (h : Reads σ encode decode) {e : DecodeError}
    (hnull : decode .null = .error e) :
    Reads (.option σ) (encodeOption encode) (decodeOption decode) where
  full o := by
    cases o with
    | none => exact .inl ⟨rfl, rfl⟩
    | some a => exact .inr ⟨h.encode_ne_null hnull a, h.full a⟩
  decode o j hj := by
    cases o with
    | none =>
      rcases hj with ⟨-, rfl⟩ | ⟨hne, -⟩
      · rfl
      · exact absurd rfl hne
    | some a =>
      rcases hj with ⟨heq, -⟩ | ⟨-, hj⟩
      · exact absurd heq (h.encode_ne_null hnull a)
      · have hread := h.decode a j hj
        have hne : j ≠ .null := by
          rintro rfl
          rw [hnull] at hread
          cases hread
        rw [decodeOption_of_ne_null hne, hread]
        rfl

theorem reads_list (h : Reads σ encode decode) :
    Reads (.list σ) (encodeList encode) (decodeList decode) where
  full as := by
    refine ⟨as.map encode, as.map encode, rfl, rfl, ?_⟩
    rw [List.forall₂_same]
    intro full hfull
    obtain ⟨a, -, rfl⟩ := List.mem_map.mp hfull
    exact h.full a
  decode as j hj := by
    obtain ⟨fulls, items, heq, rfl, hitems⟩ := hj
    cases heq
    show items.mapM decode = .ok as
    induction as generalizing items with
    | nil =>
      cases hitems
      rfl
    | cons a as ih =>
      cases hitems with
      | cons hhead htail =>
        rw [List.mapM_cons, h.decode a _ hhead, ok_bind, ih _ htail]
        rfl

/-! ## Fields by name -/

theorem lookup_of_mem {entries : List (String × Json)} {name : String} {j : Json}
    (hdistinct : (entries.map Prod.fst).Nodup) (h : (name, j) ∈ entries) :
    entries.lookup name = some j := by
  induction entries with
  | nil => cases h
  | cons e rest ih =>
    rw [List.map_cons, List.nodup_cons] at hdistinct
    obtain ⟨hfresh, hrest⟩ := hdistinct
    rcases List.mem_cons.mp h with rfl | h
    · exact List.lookup_cons_self
    · have hne : (name == e.1) = false := by
        rw [beq_eq_false_iff_ne]
        intro heq
        exact hfresh (heq ▸ List.mem_map_of_mem h)
      rw [List.lookup_cons, hne]
      exact ih hrest h

theorem mem_of_lookup {β : Type} {entries : List (String × β)} {name : String} {b : β}
    (h : entries.lookup name = some b) : (name, b) ∈ entries := by
  obtain ⟨before, after, rfl, -⟩ := List.lookup_eq_some_iff.mp h
  exact List.mem_append_right before List.mem_cons_self

theorem lookup_of_not_mem {entries : List (String × Json)} {name : String}
    (h : name ∉ entries.map Prod.fst) : entries.lookup name = none := by
  rw [List.lookup_eq_none_iff]
  intro e he
  rw [bne_iff_ne]
  intro heq
  exact h (heq ▸ List.mem_map_of_mem he)

section ByName

variable {name : String} {fields : List FieldSpelling} {full : Json} {fulls : List Json}
  {entries : List (String × Json)} {a d : α}

theorem Spelling.ByName.tail {f : FieldSpelling}
    (h : ByName (f :: fields) (full :: fulls) entries) : ByName fields fulls entries :=
  ⟨h.distinct, (List.forall₂_cons.mp h.entry).2⟩

/-- A field that has no default is there. -/
theorem field?_required (hr : Reads σ encode decode)
    (h : ByName (⟨name, σ, none⟩ :: fields) (encode a :: fulls) entries) :
    field? name decode entries = .ok (some a) := by
  rcases (List.forall₂_cons.mp h.entry).1 with ⟨j, hmem, hj⟩ | ⟨hdefault, -⟩
  · unfold field?
    rw [lookup_of_mem h.distinct hmem]
    simp only [hr.decode a j hj]
    rfl
  · cases hdefault

/-- A field with a default is there, or has the default. -/
theorem field?_default (hr : Reads σ encode decode)
    (h : ByName (⟨name, σ, some (encode d)⟩ :: fields) (encode a :: fulls) entries) :
    ∃ o, field? name decode entries = .ok o ∧ o.getD d = a := by
  unfold field?
  rcases (List.forall₂_cons.mp h.entry).1 with ⟨j, hmem, hj⟩ | ⟨hdefault, habsent⟩
  · refine ⟨some a, ?_, rfl⟩
    rw [lookup_of_mem h.distinct hmem]
    simp only [hr.decode a j hj]
    rfl
  · refine ⟨none, ?_, hr.inj (Option.some.inj hdefault)⟩
    rw [lookup_of_not_mem habsent]

end ByName

/-! ## Fields in order -/

section InOrder

variable {name : String} {fields : List FieldSpelling} {fulls : List Json} {row : Row} {a d : α}

theorem next_required (hr : Reads σ encode decode) (shape : Shape)
    (h : InOrder (⟨name, σ, none⟩ :: fields) (encode a :: fulls) row.rest) :
    ∃ row', row.next shape decode = .ok (a, row') ∧ InOrder fields fulls row'.rest := by
  obtain ⟨used, items⟩ := row
  cases h with
  | rest defaults => cases (List.forall₂_cons.mp defaults).1
  | item head tail =>
    refine ⟨⟨used + 1, _⟩, ?_, tail⟩
    simp only [Row.next, hr.decode a _ head]
    rfl

theorem nextD_default (hr : Reads σ encode decode)
    (h : InOrder (⟨name, σ, some (encode d)⟩ :: fields) (encode a :: fulls) row.rest) :
    ∃ row', row.nextD d decode = .ok (a, row') ∧ InOrder fields fulls row'.rest := by
  obtain ⟨used, items⟩ := row
  cases h with
  | rest defaults =>
    obtain ⟨hdefault, hdefaults⟩ := List.forall₂_cons.mp defaults
    refine ⟨⟨used, []⟩, ?_, .rest hdefaults⟩
    rw [← hr.inj (Option.some.inj hdefault)]
    rfl
  | item head tail =>
    refine ⟨⟨used + 1, _⟩, ?_, tail⟩
    simp only [Row.nextD, hr.decode a _ head]
    rfl

theorem finish_of_inOrder (place : Place) (h : InOrder [] [] row.rest) :
    row.finish place = .ok () := by
  obtain ⟨used, items⟩ := row
  cases h
  rfl

end InOrder

/-! ## Records -/

section Records

variable {title tag : String} {place : Place} {fields : List FieldSpelling} {fulls : List Json}
  {ofFields : List (String × Json) → Decode α} {ofRow : Row → Decode (α × Row)} {a : α}

/-- The full forms of the fields of a value are spellings of them, and the value is decoded from all
spellings of its fields, by name and in order. -/
structure ReadsFields (fields : List FieldSpelling) (fulls : List Json)
    (ofFields : List (String × Json) → Decode α) (ofRow : Row → Decode (α × Row)) (a : α) :
    Prop where
  full : List.Forall₂ (fun f full => f.spelling full full) fields fulls
  byName : ∀ entries, ByName fields fulls entries → ofFields entries = .ok a
  inOrder : ∀ row : Row, InOrder fields fulls row.rest →
    ∃ row', ofRow row = .ok (a, row') ∧ InOrder [] [] row'.rest

theorem Spelling.byName_full (h : List.Forall₂ (fun f full => f.spelling full full) fields fulls)
    {entries : List (String × Json)}
    (hentries : ∀ e ∈ (fields.map FieldSpelling.name).zip fulls, e ∈ entries) :
    List.Forall₂ (fun f full => (∃ j, (f.name, j) ∈ entries ∧ f.spelling full j) ∨
      f.default? = some full ∧ f.name ∉ entries.map Prod.fst) fields fulls := by
  induction h with
  | nil => exact .nil
  | @cons f full fields fulls head _ ih =>
    refine .cons (.inl ⟨full, hentries _ List.mem_cons_self, head⟩) (ih fun e he => ?_)
    exact hentries e (List.mem_cons_of_mem _ he)

theorem Spelling.record_full (hnames : (fields.map FieldSpelling.name).Nodup)
    (h : List.Forall₂ (fun f full => f.spelling full full) fields fulls) :
    Spelling.record fields (.obj ((fields.map FieldSpelling.name).zip fulls))
      (.obj ((fields.map FieldSpelling.name).zip fulls)) := by
  refine ⟨fulls, h.length_eq.symm, rfl, .inl ⟨_, rfl, ?_, byName_full h (fun e he => he)⟩⟩
  rw [List.map_fst_zip (by simp [h.length_eq])]
  exact hnames

theorem Spelling.record_cases (hlength : fields.length = fulls.length) {j : Json}
    (h : Spelling.record fields (.obj ((fields.map FieldSpelling.name).zip fulls)) j) :
    (∃ entries, j = .obj entries ∧ ByName fields fulls entries) ∨
      ∃ items, j = .arr items ∧ InOrder fields fulls items := by
  obtain ⟨fulls', hlength', heq, h⟩ := h
  have hfulls : fulls' = fulls := by
    have hzip := congrArg (List.map Prod.snd) (Json.obj.inj heq)
    rw [List.map_snd_zip (by simp [hlength]), List.map_snd_zip (by simp [hlength'])] at hzip
    exact hzip.symm
  subst hfulls
  exact h

theorem reads_record {f : α → List Json} (hnames : (fields.map FieldSpelling.name).Nodup)
    (hr : ∀ a, ReadsFields fields (f a) ofFields ofRow a) :
    Reads (.record fields) (fun a => .obj ((fields.map FieldSpelling.name).zip (f a)))
      (record title place ofFields ofRow) where
  full a := record_full hnames (hr a).full
  decode a j h := by
    rcases record_cases (hr a).full.length_eq h with ⟨entries, rfl, hentries⟩ | ⟨items, rfl, hitems⟩
    · exact (hr a).byName entries hentries
    · obtain ⟨row, hrow, hend⟩ := (hr a).inOrder (.ofItems items) hitems
      simp only [record, hrow, ok_bind, finish_of_inOrder place hend]
      rfl

/-! ## Tagged values -/

/-- The form is known from the full form. -/
theorem Spelling.tagged_cases {variants : List (String × List FieldSpelling)} {name : String}
    (hnames : (variants.map Prod.fst).Nodup) (hmem : (name, fields) ∈ variants)
    {rest : List (String × Json)} {j : Json}
    (h : Spelling.tagged tag variants (.obj ((tag, .str name) :: rest)) j) :
    Spelling.record (tagField tag name :: fields) (.obj ((tag, .str name) :: rest)) j := by
  obtain ⟨v, hmem', h⟩ := h
  -- A tag is spelled by its own name only, both by name and in order.
  have hname : v.1 = name := by
    obtain ⟨fulls, -, heq, h⟩ := h
    cases fulls with
    | nil => cases heq
    | cons full fulls =>
      obtain rfl : full = .str name := by
        have hhead := (List.cons.inj (Json.obj.inj heq)).1
        exact (Prod.mk.inj hhead).2.symm
      rcases h with ⟨entries, -, hentries⟩ | ⟨items, -, hitems⟩
      · obtain ⟨_, -, hfull, -⟩ | ⟨hdefault, -⟩ := (List.forall₂_cons.mp hentries.entry).1
        · exact (Json.str.inj hfull).symm
        · cases hdefault
      · cases hitems with
        | rest defaults => cases (List.forall₂_cons.mp defaults).1
        | item head _ => exact (Json.str.inj head.1).symm
  obtain rfl : v = (name, fields) := List.inj_on_of_nodup_map hnames hmem' hmem hname
  exact h

/-- A form of a tagged value, of which the tag and the fields are spelled. -/
theorem decode_tagged {variants : List (Variant α)} {variant : Variant α} {name : String}
    (hfind : variants.find? (·.name == name) = some variant)
    (hr : ReadsFields fields fulls variant.ofFields variant.ofRow a) {j : Json}
    (h : Spelling.record (tagField tag name :: fields)
      (.obj ((tag, .str name) :: (fields.map FieldSpelling.name).zip fulls)) j) :
    tagged title tag variants place j = .ok a := by
  have hvariant : Variant.ofTag place variants (.str name) = .ok variant := by
    simp only [Variant.ofTag, hfind]
  have hlength : (tagField tag name :: fields).length = (Json.str name :: fulls).length :=
    congrArg (· + 1) hr.full.length_eq
  rcases record_cases hlength h with ⟨entries, rfl, hentries⟩ | ⟨items, rfl, hitems⟩
  · obtain ⟨j, hmem, -, rfl⟩ | ⟨hdefault, -⟩ := (List.forall₂_cons.mp hentries.entry).1
    · have htag : entries.lookup tag = some (.str name) := lookup_of_mem hentries.distinct hmem
      simp only [tagged, htag, hvariant, ok_bind]
      exact hr.byName entries hentries.tail
    · cases hdefault
  · cases hitems with
    | rest defaults => cases (List.forall₂_cons.mp defaults).1
    | @item _ _ _ _ _ items head tail =>
      obtain ⟨-, rfl⟩ := head
      obtain ⟨row, hrow, hend⟩ := hr.inOrder (.ofItems items) tail
      simp only [tagged, hvariant, ok_bind, hrow, finish_of_inOrder .inner hend]
      rfl

/-- A value has the form of this name: it is written as its fields, and read by its decoders. -/
def HasForm (tag : String) (spellings : List (String × List FieldSpelling))
    (variants : List (Variant α)) (encode : α → Json) (a : α) (name : String) : Prop :=
  ∃ variant fields fulls, variants.find? (·.name == name) = some variant ∧
    spellings.lookup name = some fields ∧
    encode a = .obj ((tag, .str name) :: (fields.map FieldSpelling.name).zip fulls) ∧
    ReadsFields fields fulls variant.ofFields variant.ofRow a

theorem reads_tagged {spellings : List (String × List FieldSpelling)} {variants : List (Variant α)}
    (hforms : (spellings.map Prod.fst).Nodup)
    (hnames : ∀ s ∈ spellings, (tag :: s.2.map FieldSpelling.name).Nodup)
    (hr : ∀ a, ∃ name, HasForm tag spellings variants encode a name) :
    Reads (.tagged tag spellings) encode (tagged title tag variants place) where
  full a := by
    obtain ⟨name, variant, fields, fulls, -, hform, hencode, hfields⟩ := hr a
    have hmem : (name, fields) ∈ spellings := mem_of_lookup hform
    have hfull : List.Forall₂ (fun f full => f.spelling full full)
        (tagField tag name :: fields) (.str name :: fulls) := .cons ⟨rfl, rfl⟩ hfields.full
    have hdistinct : ((tagField tag name :: fields).map FieldSpelling.name).Nodup := hnames _ hmem
    rw [hencode]
    exact ⟨_, hmem, record_full hdistinct hfull⟩
  decode a j h := by
    obtain ⟨name, variant, fields, fulls, hfind, hform, hencode, hfields⟩ := hr a
    have hmem : (name, fields) ∈ spellings := mem_of_lookup hform
    rw [hencode] at h
    exact decode_tagged hfind hfields (tagged_cases hforms hmem h)

end Records

/-! ## Records of few fields -/

section FewFields

variable {β γ : Type} {τ : Spelling} {encode' : β → Json} {decode' : Json → Decode β}
  {name name' : String} {shape : Shape}

theorem readsFields_unit (c : γ) :
    ReadsFields [] [] (Variant.unit name c).ofFields (Variant.unit name c).ofRow c where
  full := .nil
  byName _ _ := rfl
  inOrder row h := ⟨row, rfl, h⟩

theorem readsFields_one (hr : Reads σ encode decode) (make : α → γ) (a : α) :
    ReadsFields [⟨name, σ, none⟩] [encode a]
      (fun fields => do
        let x ← field? name decode fields
        return make (← require name x))
      (fun row => do
        let (x, row) ← row.next shape decode
        return (make x, row)) (make a) where
  full := .cons (hr.full a) .nil
  byName entries h := by
    simp only [field?_required hr h]
    rfl
  inOrder row h := by
    obtain ⟨row₁, hx, h₁⟩ := next_required hr shape h
    exact ⟨row₁, by simp only [hx]; rfl, h₁⟩

theorem readsFields_two (hr : Reads σ encode decode) (hr' : Reads τ encode' decode')
    (make : α → β → γ) (a : α) (b : β) :
    ReadsFields [⟨name, σ, none⟩, ⟨name', τ, none⟩] [encode a, encode' b]
      (fun fields => do
        let x ← field? name decode fields
        let y ← field? name' decode' fields
        return make (← require name x) (← require name' y))
      (fun row => do
        let (x, row) ← row.next shape decode
        let (y, row) ← row.next shape decode'
        return (make x y, row)) (make a b) where
  full := .cons (hr.full a) (.cons (hr'.full b) .nil)
  byName entries h := by
    simp only [field?_required hr h, field?_required hr' h.tail]
    rfl
  inOrder row h := by
    obtain ⟨row₁, hx, h₁⟩ := next_required hr shape h
    obtain ⟨row₂, hy, h₂⟩ := next_required hr' shape h₁
    exact ⟨row₂, by simp only [hx, ok_bind, hy]; rfl, h₂⟩

end FewFields

end Devirt
