import Tabula.Text.Blank

/-! # Model declarations

A model as its author writes it down: named fields of a type each, with annotations whose values are
still texts. What the texts mean is decided in `Tabula.Schema.Extraction` alone.
-/

namespace Tabula

/-- What is written about the column of a field. -/
structure ColumnNotes where
  /-- The name of the column, the field's name if blank or absent. -/
  name : Option String
  /-- Whether the column has an index. -/
  indexed : Bool
  /-- Whether no two rows have the same value. -/
  unique : Bool
  /-- The conflict policy. -/
  onConflict : Option String
  collate : Option String
  /-- The expression of the default value. -/
  defaultExpr : Option String
  /-- The storage class, inferred from the field's type if blank or absent. -/
  storageType : Option String
  /-- The names of the capabilities, chosen by the storage class if there are none. -/
  capabilities : Option (List String)
  references : Option String
  /-- What becomes of the referencing rows. -/
  onDelete : Option String
deriving DecidableEq, Inhabited

/-- The annotation in which nothing is written. -/
def ColumnNotes.empty : ColumnNotes :=
  ⟨none, false, false, none, none, none, none, none, none, none⟩

/-- What is written about a field that is the key. -/
structure KeyNotes where
  /-- Whether the engine assigns the key of a row that comes without. -/
  auto : Bool
  /-- Whether keys of deleted rows are never assigned again. -/
  autoincrement : Bool
  /-- The conflict policy. -/
  onConflict : Option String
deriving DecidableEq, Inhabited

/-- The annotation in which nothing is written. -/
def KeyNotes.empty : KeyNotes := ⟨true, false, none⟩

/-- A field of a model. -/
structure FieldDeclaration where
  name : String
  typeText : String
  /-- What is written about its column. -/
  column : Option ColumnNotes
  /-- What is written about it as a key. -/
  key : Option KeyNotes
deriving DecidableEq, Inhabited

namespace FieldDeclaration

/-- A field without annotations. -/
def plain (name typeText : String) : FieldDeclaration := ⟨name, typeText, none, none⟩

/-- Whether the field has a column. -/
def isMapped (f : FieldDeclaration) : Bool :=
  f.column.isSome || f.key.isSome

end FieldDeclaration

/-- A model. -/
structure Declaration where
  /-- The name of the model. -/
  name : String
  /-- The name of its table, the model's name if blank or absent. -/
  table : Option String
  /-- The fields, mapped or not. -/
  fields : List FieldDeclaration
deriving DecidableEq, Inhabited

namespace Declaration

/-- A model without fields. -/
def empty (name : String) : Declaration := ⟨name, none, []⟩

/-- The model with a name for its table. -/
def withTable (d : Declaration) (table : String) : Declaration :=
  { d with table := some table }

/-- The model with one more field. -/
def withField (d : Declaration) (f : FieldDeclaration) : Declaration :=
  { d with fields := d.fields ++ [f] }

/-- The name of the model's table. -/
def tableName (d : Declaration) : String :=
  (Text.given? d.table).getD d.name

/-- The fields that have a column. -/
def mapped (d : Declaration) : List FieldDeclaration :=
  d.fields.filter (·.isMapped)

end Declaration

end Tabula
