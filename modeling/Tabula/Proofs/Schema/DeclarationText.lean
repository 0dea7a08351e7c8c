import Tabula.Proofs.Json.Record
import Tabula.Schema.DeclarationJson

/-! # JSON texts of models

A model that is written as JSON with every key is read back, and so are lists of models
(`Tabula.Declaration.ofJson_toJson`). Keys of default values can be left out anywhere, and a key
that is not one of the four shapes is refused wherever it stands.
-/

namespace Tabula

open Json (Knows Describes Entry IsDefault Tree Opening Abridged ElementsAbridged)

/-! ## Parts of models -/

section Fields

variable {σ α : Type} {known : List String → List String} {d : Json.Decoder α} {t : Tree} {v : α}

/-- A field of a record is known by the decoder of its value. -/
theorem knows_defaulted (knows : Knows d t v known) (name : String) (set : α → σ → σ) :
    Knows (defaulted name d set).decode t (set v) known where
  reads abridged rest := by
    obtain ⟨bound, read⟩ := Json.outcome_eq_ok (knows.reads abridged rest)
    simp only [defaulted, read]
    rfl
  refuses abridged o inside key unknown rest := by
    have refuses := Json.outcome_eq_error (knows.refuses abridged inside unknown rest)
    simp only [defaulted, refuses]
    rfl

private theorem knows_needed (knows : Knows d t v known) (name : String) (set : α → σ → σ) :
    Knows (needed name d set).decode t (set v) known :=
  knows_defaulted knows name set

private theorem knows_ofText? (v : Option String) :
    Knows (Json.optional Json.text) (.ofText? v) v known := by
  cases v with
  | none => exact Json.knows_none _
  | some s => exact (Json.knows_text s).some nofun

private theorem isDefault_ofText? {key : String} {v : Option String} :
    IsDefault key (.ofText? v) ↔ v = none := by
  cases v <;> simp [Tree.ofText?, IsDefault]

private theorem isDefault_bool {key : String} {b : Bool} :
    IsDefault key (.bool b) ↔ b = (key == "auto") :=
  Iff.rfl

/-- A list of texts, if there is one. -/
def textsTree (names : Option (List String)) : Tree :=
  (names.map fun names => .array (names.map .text)).getD .null

private theorem knows_texts (names : Option (List String)) :
    Knows (Json.optional (Json.list Json.text)) (textsTree names) names known := by
  cases names with
  | none => exact Json.knows_none _
  | some names =>
      refine (Json.knows_list ?_).some nofun
      rw [List.forall₂_map_left_iff]
      exact List.forall₂_same.mpr fun s _ => Json.knows_text s

private theorem isDefault_texts {key : String} (notFields : key ≠ "fields")
    {names : Option (List String)} : IsDefault key (textsTree names) ↔ names = none := by
  rcases names with _ | _ | _ <;> simp [textsTree, IsDefault, notFields]

end Fields

namespace ColumnNotes

/-- What is written for a column annotation, key by key. -/
def entries (a : ColumnNotes) : List (Entry ColumnNotes) :=
  [⟨"name", .ofText? a.name, fun n => { n with name := a.name }⟩,
    ⟨"indexed", .bool a.indexed, fun n => { n with indexed := a.indexed }⟩,
    ⟨"unique", .bool a.unique, fun n => { n with unique := a.unique }⟩,
    ⟨"on_conflict", .ofText? a.onConflict, fun n => { n with onConflict := a.onConflict }⟩,
    ⟨"collate", .ofText? a.collate, fun n => { n with collate := a.collate }⟩,
    ⟨"default_expr", .ofText? a.defaultExpr, fun n => { n with defaultExpr := a.defaultExpr }⟩,
    ⟨"storage_type", .ofText? a.storageType, fun n => { n with storageType := a.storageType }⟩,
    ⟨"helpers", textsTree a.capabilities, fun n => { n with capabilities := a.capabilities }⟩,
    ⟨"references", .ofText? a.references, fun n => { n with references := a.references }⟩,
    ⟨"on_delete", .ofText? a.onDelete, fun n => { n with onDelete := a.onDelete }⟩]

/-- The keys of a column annotation. -/
def keys : List String := shape.fields.map (·.name)

/-- The entries of the notes on a column tell all of them. -/
theorem describes (a : ColumnNotes) : Describes shape a.entries a fun _ => keys where
  names := rfl
  distinct := by simp [entries]
  members := by
    simp only [entries, List.forall_mem_cons]
    refine ⟨⟨_, rfl, ?_⟩, ⟨_, rfl, ?_⟩, ⟨_, rfl, ?_⟩, ⟨_, rfl, ?_⟩, ⟨_, rfl, ?_⟩, ⟨_, rfl, ?_⟩,
      ⟨_, rfl, ?_⟩, ⟨_, rfl, ?_⟩, ⟨_, rfl, ?_⟩, ⟨_, rfl, ?_⟩, nofun⟩
    all_goals refine knows_defaulted ?_ _ _
    case refine_2 | refine_3 => exact Json.knows_bool _
    case refine_8 => exact knows_texts _
    all_goals exact knows_ofText? _
  still := by
    have notFields : "helpers" ≠ "fields" := by decide
    simp only [entries, List.forall_mem_cons, isDefault_ofText?, isDefault_bool,
      isDefault_texts notFields]
    refine ⟨?_, ?_, ?_, ?_, ?_, ?_, ?_, ?_, ?_, ?_, nofun⟩
    all_goals
      intro isDefault
      rw [isDefault]
      rfl
  commute := by simp [entries]
  awaits := by simp [Json.Awaits, shape, defaulted]
  whole := rfl

/-- A column annotation is known by the decoder of its shape. -/
theorem knows (a : ColumnNotes) : Knows (Json.record shape) a.tree a fun _ => keys :=
  (describes a).knows

end ColumnNotes

namespace KeyNotes

/-- What is written for a key annotation, key by key. -/
def entries (a : KeyNotes) : List (Entry KeyNotes) :=
  [⟨"auto", .bool a.auto, fun n => { n with auto := a.auto }⟩,
    ⟨"autoincrement", .bool a.autoincrement, fun n => { n with autoincrement := a.autoincrement }⟩,
    ⟨"on_conflict", .ofText? a.onConflict, fun n => { n with onConflict := a.onConflict }⟩]

/-- The keys of a key annotation. -/
def keys : List String := shape.fields.map (·.name)

/-- The entries of the notes on a key tell all of them. -/
theorem describes (a : KeyNotes) : Describes shape a.entries a fun _ => keys where
  names := rfl
  distinct := by simp [entries]
  members := by
    simp only [entries, List.forall_mem_cons]
    refine ⟨⟨_, rfl, ?_⟩, ⟨_, rfl, ?_⟩, ⟨_, rfl, ?_⟩, nofun⟩
    all_goals refine knows_defaulted ?_ _ _
    case refine_3 => exact knows_ofText? _
    all_goals exact Json.knows_bool _
  still := by
    simp only [entries, List.forall_mem_cons, isDefault_ofText?, isDefault_bool]
    refine ⟨?_, ?_, ?_, nofun⟩
    all_goals
      intro isDefault
      rw [isDefault]
      rfl
  commute := by simp [entries]
  awaits := by simp [Json.Awaits, shape, defaulted]
  whole := rfl

/-- A key annotation is known by the decoder of its shape. -/
theorem knows (a : KeyNotes) : Knows (Json.record shape) a.tree a fun _ => keys :=
  (describes a).knows

end KeyNotes

namespace FieldDeclaration

/-- What is written for a field, key by key. -/
def entries (f : FieldDeclaration) : List (Entry FieldDeclaration) :=
  [⟨"name", .text f.name, fun g => { g with name := f.name }⟩,
    ⟨"rust_type", .text f.typeText, fun g => { g with typeText := f.typeText }⟩,
    ⟨"column", (f.column.map (·.tree)).getD .null, fun g => { g with column := f.column }⟩,
    ⟨"primary_key", (f.key.map (·.tree)).getD .null, fun g => { g with key := f.key }⟩]

/-- The keys that the object at a path of keys may have, from a field on. -/
def keys : List String → List String
  | [] => shape.fields.map (·.name)
  | "column" :: _ => ColumnNotes.keys
  | "primary_key" :: _ => KeyNotes.keys
  | _ :: _ => []

/-- The entries of a field tell all of it, its notes included. -/
theorem describes (f : FieldDeclaration) : Describes shape f.entries f keys where
  names := rfl
  distinct := by simp [entries]
  members := by
    simp only [entries, List.forall_mem_cons]
    refine ⟨⟨_, rfl, ?_⟩, ⟨_, rfl, ?_⟩, ⟨_, rfl, ?_⟩, ⟨_, rfl, ?_⟩, nofun⟩
    · exact knows_needed (Json.knows_text _) _ _
    · exact knows_needed (Json.knows_text _) _ _
    · refine knows_defaulted ?_ _ _
      cases f.column with
      | none => exact Json.knows_none _
      | some a => exact a.knows.some nofun
    · refine knows_defaulted ?_ _ _
      cases f.key with
      | none => exact Json.knows_none _
      | some a => exact a.knows.some nofun
  still := by
    simp only [entries, List.forall_mem_cons]
    refine ⟨nofun, nofun, ?_, ?_, nofun⟩
    · cases f.column with
      | none => exact fun _ => rfl
      | some a => exact nofun
    · cases f.key with
      | none => exact fun _ => rfl
      | some a => exact nofun
  commute := by simp [entries]
  awaits := by simp [Json.Awaits, shape, defaulted, needed, entries, IsDefault]
  whole := rfl

/-- A field is known by the decoder of its shape. -/
theorem knows (f : FieldDeclaration) : Knows (Json.record shape) f.tree f keys :=
  (describes f).knows

end FieldDeclaration

namespace Declaration

/-- What is written for a model, key by key. -/
def entries (d : Declaration) : List (Entry Declaration) :=
  [⟨"name", .text d.name, fun e => { e with name := d.name }⟩,
    ⟨"table", .ofText? d.table, fun e => { e with table := d.table }⟩,
    ⟨"fields", .array (d.fields.map (·.tree)), fun e => { e with fields := d.fields }⟩]

/-- The keys that the object at a path of keys may have, from a model on: the keys of a model, those
of its fields, and those of the two annotations of a field. -/
def keys : List String → List String
  | [] => shape.fields.map (·.name)
  | "fields" :: path => FieldDeclaration.keys path
  | _ :: _ => []

/-- The entries of a declaration tell all of it, its fields included. -/
theorem describes (d : Declaration) : Describes shape d.entries d keys where
  names := rfl
  distinct := by simp [entries]
  members := by
    simp only [entries, List.forall_mem_cons]
    refine ⟨⟨_, rfl, ?_⟩, ⟨_, rfl, ?_⟩, ⟨_, rfl, ?_⟩, nofun⟩
    · exact knows_needed (Json.knows_text _) _ _
    · exact knows_defaulted (knows_ofText? _) _ _
    · refine knows_defaulted (Json.knows_list ?_) _ _
      rw [List.forall₂_map_left_iff]
      exact List.forall₂_same.mpr fun f _ => f.knows
  still := by
    simp only [entries, List.forall_mem_cons, isDefault_ofText?]
    refine ⟨nofun, ?_, ?_, nofun⟩
    · intro none
      rw [none]
      rfl
    · cases d.fields with
      | nil => exact fun _ => rfl
      | cons => exact nofun
  commute := by simp [entries]
  awaits := by simp [Json.Awaits, shape, defaulted, needed, entries, IsDefault]
  whole := rfl

/-- A model is known by the decoder of its shape. -/
theorem knows (d : Declaration) : Knows (Json.record shape) d.tree d keys :=
  (describes d).knows

/-- Models are known by the decoder of lists. -/
theorem knows_list (ds : List Declaration) :
    Knows (Json.list (Json.record shape)) (.array (ds.map (·.tree))) ds keys := by
  refine Json.knows_list ?_
  rw [List.forall₂_map_left_iff]
  exact List.forall₂_same.mpr fun d _ => d.knows

/-- **Models come back from their JSON texts.** A model that is written with every key is read as
itself, and so is a list of models. The same holds if keys of default values are left out of any of
the objects. And a text is refused that goes on with a key outside of the shape, at any place for a
key in any of the objects and whatever follows. -/
theorem ofJson_toJson (d : Declaration) (ds : List Declaration) :
    ofJson d.toJson = .ok d ∧
    listOfJson (Tree.array (ds.map (·.tree))).render = .ok ds ∧
    (∀ t, Abridged d.tree t → ofJson t.render = .ok d) ∧
    (∀ t, Abridged (.array (ds.map (·.tree))) t → listOfJson t.render = .ok ds) ∧
    (∀ (t : Tree) (o : Opening) (key : String) (rest : List Char),
      Abridged d.tree t → o.IsIn t → key ∉ keys o.path →
        ofJson (String.ofList (o.write ++ Json.writeText key ++ rest)) =
          .error (.shape (.unknownField key (keys o.path)))) ∧
    ∀ (t : Tree) (o : Opening) (key : String) (rest : List Char),
      Abridged (.array (ds.map (·.tree))) t → o.IsIn t → key ∉ keys o.path →
        listOfJson (String.ofList (o.write ++ Json.writeText key ++ rest)) =
          .error (.shape (.unknownField key (keys o.path))) := by
  refine ⟨d.knows.decode_render (.refl _), (knows_list ds).decode_render (.refl _),
    fun t abridged => d.knows.decode_render abridged,
    fun t abridged => (knows_list ds).decode_render abridged, ?_, ?_⟩
  · intro t o key rest abridged inside unknown
    exact d.knows.decode_unknown abridged inside unknown rest
  · intro t o key rest abridged inside unknown
    exact (knows_list ds).decode_unknown abridged inside unknown rest

/-- A model whose name has a quote in it, with a field of an empty annotation. -/
def quotation : Declaration :=
  ⟨"a\"b", none, [⟨"id", "i64", some ColumnNotes.empty, none⟩]⟩

/-- How it is written without the keys of default values. -/
def quotationTree : Tree :=
  .object [("name", .text "a\"b"), ("fields", .array [.object
    [("name", .text "id"), ("rust_type", .text "i64"), ("column", .object [])]])]

private theorem abridged_quotation : Abridged quotation.tree quotationTree := by
  have noIndex : false = ("indexed" == "auto") := by decide
  have notUnique : false = ("unique" == "auto") := by decide
  have column : Abridged ColumnNotes.empty.tree (.object []) :=
    .object (.left trivial (.left noIndex (.left notUnique (.left trivial (.left trivial
      (.left trivial (.left trivial (.left trivial (.left trivial (.left trivial .nil))))))))))
  exact .object (.kept (.text _) (.left trivial (.kept (.array (.cons (.object (.kept (.text _)
    (.kept (.text _) (.kept column (.left trivial .nil))))) .nil)) .nil)))

/-- The place for a key in the annotation of its field. -/
def quotationOpening : Opening :=
  .field [("name", .text "a\"b")] "fields" (.element []
    (.field [("name", .text "id"), ("rust_type", .text "i64")] "column" (.here [])))

/-- A name with a quote is read back, and a key that there is not is refused. -/
theorem ofJson_toJson_quotation :
    ofJson ("\x7b\"name\":\"a\\\"b\",\"fields\":[" ++
      "\x7b\"name\":\"id\",\"rust_type\":\"i64\",\"column\":\x7b\x7d\x7d]\x7d") = .ok quotation ∧
    ofJson ("\x7b\"name\":\"a\\\"b\",\"fields\":[" ++
      "\x7b\"name\":\"id\",\"rust_type\":\"i64\",\"column\":\x7b\"colour\":12\x7d\x7d]\x7d") =
        .error (.shape (.unknownField "colour" ColumnNotes.keys)) := by
  obtain ⟨-, -, abridged, -, unknown, -⟩ := ofJson_toJson quotation []
  constructor
  · have text : quotationTree.render = "\x7b\"name\":\"a\\\"b\",\"fields\":[" ++
        "\x7b\"name\":\"id\",\"rust_type\":\"i64\",\"column\":\x7b\x7d\x7d]\x7d" := by
      decide +kernel
    rw [← text]
    exact abridged quotationTree abridged_quotation
  · have text : String.ofList (quotationOpening.write ++ Json.writeText "colour" ++
        ":12\x7d\x7d]\x7d".toList) = "\x7b\"name\":\"a\\\"b\",\"fields\":[" ++
          "\x7b\"name\":\"id\",\"rust_type\":\"i64\",\"column\":\x7b\"colour\":12\x7d\x7d]\x7d" := by
      decide +kernel
    have inside : quotationOpening.IsIn quotationTree :=
      ⟨_, _, rfl, _, _, rfl, _, _, rfl, _, rfl⟩
    rw [← text]
    exact unknown quotationTree quotationOpening "colour" _ abridged_quotation inside (by decide)

end Declaration

end Tabula
