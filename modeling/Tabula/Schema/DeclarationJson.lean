import Tabula.Json.Decoder
import Tabula.Json.Tree
import Tabula.Schema.Declaration

/-! # Declarations as JSON

The shapes in which models are written down as JSON texts, and how a model is written with every
key (`Declaration.toJson`). Only the names of models and fields and the types of fields must be
there when a text is read; a key that a shape does not know is refused.
-/

namespace Tabula

open Json (Member Shape Decoder Tree)

/-- A field of a record that may be absent. -/
def defaulted {σ α : Type} (name : String) (d : Decoder α) (set : α → σ → σ) : Member σ :=
  ⟨name, false, fun ts => (d ts).map fun r => (set r.1, r.2)⟩

/-- A field of a record that must be there. -/
def needed {σ α : Type} (name : String) (d : Decoder α) (set : α → σ → σ) : Member σ :=
  { defaulted name d set with required := true }

/-- The shape of column annotations. -/
def ColumnNotes.shape : Shape ColumnNotes where
  name := "ColumnAnnotation"
  initial := .empty
  fields := [
    defaulted "name" (Json.optional Json.text) fun v a => { a with name := v },
    defaulted "indexed" Json.bool fun v a => { a with indexed := v },
    defaulted "unique" Json.bool fun v a => { a with unique := v },
    defaulted "on_conflict" (Json.optional Json.text) fun v a => { a with onConflict := v },
    defaulted "collate" (Json.optional Json.text) fun v a => { a with collate := v },
    defaulted "default_expr" (Json.optional Json.text) fun v a => { a with defaultExpr := v },
    defaulted "storage_type" (Json.optional Json.text) fun v a => { a with storageType := v },
    defaulted "helpers" (Json.optional (Json.list Json.text)) fun v a =>
      { a with capabilities := v },
    defaulted "references" (Json.optional Json.text) fun v a => { a with references := v },
    defaulted "on_delete" (Json.optional Json.text) fun v a => { a with onDelete := v }]

/-- The shape of key annotations. -/
def KeyNotes.shape : Shape KeyNotes where
  name := "PrimaryKeyAnnotation"
  initial := .empty
  fields := [
    defaulted "auto" Json.bool fun v a => { a with auto := v },
    defaulted "autoincrement" Json.bool fun v a => { a with autoincrement := v },
    defaulted "on_conflict" (Json.optional Json.text) fun v a => { a with onConflict := v }]

def FieldDeclaration.shape : Shape FieldDeclaration where
  name := "FieldDeclaration"
  initial := .plain "" ""
  fields := [
    needed "name" Json.text fun v f => { f with name := v },
    needed "rust_type" Json.text fun v f => { f with typeText := v },
    defaulted "column" (Json.optional (Json.record ColumnNotes.shape)) fun v f =>
      { f with column := v },
    defaulted "primary_key" (Json.optional (Json.record KeyNotes.shape)) fun v f =>
      { f with key := v }]

/-- The shape of models. -/
def Declaration.shape : Shape Declaration where
  name := "ModelDeclaration"
  initial := .empty ""
  fields := [
    needed "name" Json.text fun v d => { d with name := v },
    defaulted "table" (Json.optional Json.text) fun v d => { d with table := v },
    defaulted "fields" (Json.list (Json.record FieldDeclaration.shape)) fun v d =>
      { d with fields := v }]

/-- The column annotation of a JSON text. -/
def ColumnNotes.ofJson (s : String) : Except Json.Error ColumnNotes :=
  Json.decode (Json.record shape) s

/-- The model of a JSON text. -/
def Declaration.ofJson (s : String) : Except Json.Error Declaration :=
  Json.decode (Json.record shape) s

/-- The models of a JSON text. -/
def Declaration.listOfJson (s : String) : Except Json.Error (List Declaration) :=
  Json.decode (Json.list (Json.record shape)) s

/-- What is written for a column annotation. -/
def ColumnNotes.tree (a : ColumnNotes) : Tree :=
  .object [
    ("name", .ofText? a.name),
    ("indexed", .bool a.indexed),
    ("unique", .bool a.unique),
    ("on_conflict", .ofText? a.onConflict),
    ("collate", .ofText? a.collate),
    ("default_expr", .ofText? a.defaultExpr),
    ("storage_type", .ofText? a.storageType),
    ("helpers", (a.capabilities.map fun names => .array (names.map .text)).getD .null),
    ("references", .ofText? a.references),
    ("on_delete", .ofText? a.onDelete)]

/-- What is written for a key annotation. -/
def KeyNotes.tree (a : KeyNotes) : Tree :=
  .object [
    ("auto", .bool a.auto),
    ("autoincrement", .bool a.autoincrement),
    ("on_conflict", .ofText? a.onConflict)]

/-- What is written for a field. -/
def FieldDeclaration.tree (f : FieldDeclaration) : Tree :=
  .object [
    ("name", .text f.name),
    ("rust_type", .text f.typeText),
    ("column", (f.column.map (·.tree)).getD .null),
    ("primary_key", (f.key.map (·.tree)).getD .null)]

/-- What is written for a model. -/
def Declaration.tree (d : Declaration) : Tree :=
  .object [
    ("name", .text d.name),
    ("table", .ofText? d.table),
    ("fields", .array (d.fields.map (·.tree)))]

/-- The JSON text of a model. -/
def Declaration.toJson (d : Declaration) : String :=
  d.tree.render

end Tabula
