import Tabula.Schema.Extraction
import Tabula.Schema.Validation
import Tabula.Source.Notes

/-! # Derived models

The model that a record declaration describes: its table, and what is generated for it - a type for
each column, a way to get at it, and the places of the fields in a row. A model is derived exactly
when the declaration can be read and its table has no fault. The items that are generated say by its
name what they say of a type, so a name of two types is no good (`Derivation.types`).
-/

namespace Tabula.Source

/-- A record declaration with the table of its model. -/
structure Derivation where
  /-- The declaration. -/
  item : Item
  fields : List FieldSource
  /-- The table of the model. -/
  table : Table

/-- Why no model is derived from a text. -/
inductive Failure where
  /-- The text has no tokens. -/
  | unreadable
  /-- The declaration has errors. -/
  | errors (first : Error) (more : List Error)

/-- The fields of an item, which must be a record of named fields without parameters. -/
def Item.namedFields (i : Item) : Except Error (List FieldSource) :=
  if i.isGeneric then .error ⟨.generic, none⟩
  else
    match i.body with
    | .named fs => .ok fs
    | .unnamed => .error ⟨.unnamedFields, none⟩
    | .other => .error ⟨.notAStruct, none⟩

/-- The model that an item declares. -/
def Item.declaration (i : Item) (fs : List FieldSource) : Except Error Declaration := do
  let table ← tableName i.attributes
  let fields ← fs.mapM (·.declaration)
  return ⟨i.name, table, fields⟩

/-- A fault of the table, pointing at the field that it is about or else at the record. -/
def faultError (record : String) (f : TableFault) : Error :=
  match f with
  | .duplicateColumn _ _ _ field => ⟨.validation f, some field⟩
  | _ => ⟨.validation f, some record⟩

/-- The table of a declared model, or every fault of it. -/
def checkedTable (d : Declaration) : Except (List Error) Table :=
  match d.extract with
  | .error errors => .error (errors.map fun e => ⟨.extraction e, some e.field⟩)
  | .ok t =>
    match t.faults with
    | [] => .ok t
    | faults => .error (faults.map (faultError d.name))

/-- The model of a record declaration, or what keeps it from having one. -/
def derive (text : String) : Except Failure Derivation := do
  let some ts := tokens? text | .error .unreadable
  let one {α : Type} (r : Except Error α) : Except Failure α := r.mapError (.errors · [])
  let i ← one (item ts)
  let fs ← one i.namedFields
  let d ← one (i.declaration fs)
  match checkedTable d with
  | .ok t => .ok ⟨i, fs, t⟩
  | .error (e :: more) => .error (.errors e more)
  | .error [] => .error .unreadable

/-- The name without the mark of a raw one. -/
def bareName (name : String) : String :=
  match name.toList with
  | 'r' :: '#' :: rest => String.ofList rest
  | _ => name

/-- A name of small words set apart by underscores, as one name of words with capitals. -/
def pascalCase (s : String) : String :=
  let rec go (capital : Bool) : List Char → List Char
    | [] => []
    | '_' :: rest => go true rest
    | c :: rest => (if capital then c.toUpper else c) :: go false rest
  String.ofList (go true s.toList)

/-- Tokens cut at the commas outside of angle brackets. -/
def cutAtCommas (depth : Nat) : List Token → List (List Token)
  | [] => [[]]
  | t :: rest =>
    let next :=
      match t with
      | .punct "<" => depth + 1
      | .punct ">" => depth - 1
      | _ => depth
    match t, depth, cutAtCommas next rest with
    | .punct ",", 0, parts => [] :: parts
    | t, _, part :: parts => (t :: part) :: parts
    | t, _, [] => [[t]]

/-- Whether the tokens of a type argument are a type. -/
def isTypeArgument (ts : List Token) : Bool :=
  match ts with
  | [] | .literal _ :: _ | .text _ _ :: _ | .group .brace _ :: _ | .punct "-" :: _ => false
  | [.lifetime _] => false
  | .ident _ :: .punct "=" :: _ | .ident _ :: .punct ":" :: _ => false
  | _ => true

/-- The tokens after the last `::` outside of angle brackets. -/
def lastSegment (depth : Nat) (segment : List Token) : List Token → List Token
  | [] => segment.reverse
  | .punct "<" :: rest => lastSegment (depth + 1) (.punct "<" :: segment) rest
  | .punct ">" :: rest => lastSegment (depth - 1) (.punct ">" :: segment) rest
  | .punct "::" :: rest =>
    if depth = 0 then lastSegment 0 [] rest else lastSegment depth (.punct "::" :: segment) rest
  | t :: rest => lastSegment depth (t :: segment) rest

/-- The only type argument of a type whose last name is `Option`. -/
def optionArgument? (ts : List Token) : Option (List Token) :=
  match lastSegment 0 [] ts with
  | .ident "Option" :: .punct "<" :: rest =>
    match untilClosed 0 rest with
    | some (inner, []) =>
      match cutAtCommas 0 inner with
      | [part] | [part, []] => if isTypeArgument part then some part else none
      | _ => none
    | _ => none
  | _ => none

/-- What is generated for a column. -/
structure DerivedColumn where
  column : Column
  /-- The place of the column in a row. -/
  index : Nat
  /-- The name of the type generated for the column. -/
  typeName : String
  innerType : String
  fieldType : String
  /-- What is said about the column. -/
  doc : String

/-- The name of the trait that gives access to a capability. -/
def traitName (c : Capability) : String :=
  let word :=
    match c with
    | .compare .inList => "In"
    | .compare .notInList => "NotIn"
    | c => pascalCase c.name
  "Supports" ++ word

/-- The traits of the column, in the order of the bits. -/
def DerivedColumn.traits (c : DerivedColumn) : List String :=
  c.column.capabilities.toList.map traitName

/-- An item that is generated for a column. -/
inductive GeneratedItem where
  /-- A type, with what is said about it. -/
  | type (name doc : String)
  /-- The type is that of the column. -/
  | column (type : String) (c : DerivedColumn)
  /-- The type has the trait. -/
  | trait (type name : String)

/-- The items that are generated for the column, in their order. -/
def DerivedColumn.items (c : DerivedColumn) : List GeneratedItem :=
  .type c.typeName c.doc :: .column c.typeName c :: c.traits.map (.trait c.typeName)

/-- A type that is generated, with what the items say of it. -/
structure GeneratedType where
  name : String
  doc : String
  /-- The column that the type is of, nothing if no item says so. -/
  column : Option DerivedColumn
  traits : List String

namespace GeneratedType

/-- The type that a column should have. -/
def own (c : DerivedColumn) : GeneratedType :=
  ⟨c.typeName, c.doc, some c, c.traits⟩

/-- The types with what becomes of the first one of a name. -/
def onFirst (name : String) (f : GeneratedType → GeneratedType) :
    List GeneratedType → List GeneratedType
  | [] => []
  | g :: rest => if g.name = name then f g :: rest else g :: onFirst name f rest

/-- The types with what one more item says. A name is that of the first type that has it, and the
last column that a type is said to be of counts. -/
def add (types : List GeneratedType) : GeneratedItem → List GeneratedType
  | .type name doc => types ++ [⟨name, doc, none, []⟩]
  | .column type c => onFirst type (fun g => { g with column := some c }) types
  | .trait type name => onFirst type (fun g => { g with traits := g.traits ++ [name] }) types

end GeneratedType

namespace Derivation

variable (d : Derivation)

/-- The first field of a name. -/
def field? (name : String) : Option FieldSource :=
  d.fields.find? (·.name == name)

/-- The columns with their fields, in the order of a row. -/
def mapped : List (Column × FieldSource) :=
  d.table.columns.filterMap fun c => (d.field? c.field).map (c, ·)

/-- The visibility of what is generated. -/
def visibility : String :=
  writtenAll d.item.visibility

/-- What is generated for the columns. -/
def columns : List DerivedColumn :=
  d.mapped.zipIdx.map fun ((c, f), index) =>
    let inner := if c.nullable then (optionArgument? f.type).getD f.type else f.type
    { column := c
      index := index
      typeName := bareName d.item.name ++ pascalCase f.name
      innerType := writtenAll inner
      fieldType := writtenAll f.type
      doc := "Column `" ++ c.name ++ "` of `" ++ d.table.name ++ "`." }

/-- The types that are generated, as the items tell them. -/
def types : List GeneratedType :=
  (d.columns.flatMap (·.items)).foldl GeneratedType.add []

/-- What is generated for the columns, nothing if the type of some column would have no name. -/
def generated? : Option (List DerivedColumn) :=
  if d.columns.all fun c => isWord c.typeName then some d.columns else none

/-- The field that holds the key. -/
def keyField? : Option FieldSource :=
  (d.mapped.find? (·.1.primaryKey)).map (·.2)

/-- The place of each field in a row, nothing for a field without a column. -/
def places : List (String × Option Nat) :=
  d.fields.map fun f => (f.name, d.mapped.findIdx? (·.2.name == f.name))

end Derivation

end Tabula.Source
