import Tabula.Schema.Declaration
import Tabula.Source.Item

/-! # Annotations in attributes

The arguments of the attributes that describe a model, its columns and its key. Arguments are set
apart by commas; a later one of a name goes before an earlier one, also across several attributes. A
flag is set by its name alone or by a truth value.
-/

namespace Tabula.Source

/-- An argument of an attribute: its name, and the tokens from there to the end of the list. -/
structure Argument where
  path : Path
  /-- What follows the name. -/
  rest : List Token

/-- The error of an argument as a whole. -/
def Argument.error (a : Argument) (cause : Cause) : Error :=
  ⟨cause, if a.path.rest.isEmpty then some a.path.first else none⟩

/-- The error of tokens that name no argument. -/
def noArgument : List Token → Error
  | [] => ⟨.ended "nested attribute", none⟩
  | .text _ _ :: _ | .literal _ :: _ => ⟨.literalArgument, none⟩
  | ts => ⟨.unnamedArgument, nameAt ts⟩

/-- The result of going through arguments one by one, at most `fuel` of them. `take` reads what
belongs to an argument into the result. -/
def foldArguments {σ : Type} (take : σ → Argument → Except Error (σ × List Token)) (s : σ) :
    (fuel : Nat) → List Token → Except Error σ
  | 0, _ => .ok s
  | fuel + 1, ts =>
    match path? ts with
    | none => .error (noArgument ts)
    | some (p, rest) => do
      let (s, rest) ← take s ⟨p, rest⟩
      match rest with
      | [] => return s
      | rest =>
        let ((), rest) ← mark "," rest
        if rest.isEmpty then return s else foldArguments take s fuel rest

/-- Takes a value in quotes off the front, after its equals sign. -/
def textValue : Parse String := fun ts => do
  let ((), ts) ← mark "=" ts
  match ts with
  | .text value _ :: rest => return (value, rest)
  | ts => .error (lack "string literal" ts)

/-- Takes the value of a flag off the front: a truth value after an equals sign, or nothing. -/
def flagValue : Parse Bool
  | .punct "=" :: .ident "true" :: rest => .ok (true, rest)
  | .punct "=" :: .ident "false" :: rest => .ok (false, rest)
  | .punct "=" :: ts => .error (lack "boolean literal" ts)
  | ts => .ok (true, ts)

/-- The parts of a text between commas, trimmed. -/
def commaParts (s : String) : List String :=
  (s.toList.splitOn ',').map fun part => Text.trim (String.ofList part)

/-- One more name of a capability. -/
def takeCapability (names : List String) (a : Argument) :
    Except Error (List String × List Token) :=
  match a.path.only? with
  | some n => .ok (names ++ [n], a.rest)
  | none => .error (a.error .notACapability)

/-- Takes the names of capabilities off the front: in parentheses, or in quotes after an equals
sign. -/
def capabilityNames : Parse (List String)
  | .punct "=" :: ts => do
    let (value, rest) ← textValue (.punct "=" :: ts)
    return (commaParts value, rest)
  | .group .paren inner :: rest => do
    let names ← foldArguments takeCapability [] (inner.length + 1) inner
    return (names, rest)
  | ts => .error (lack "parentheses" ts)

/-- What an attribute of the kind says on top of an annotation. Without parentheses it says nothing
more. -/
def readArguments {σ : Type} (kind : String) (bare : Bool)
    (take : σ → Argument → Except Error (σ × List Token)) (s : σ) (a : Attribute) :
    Except Error σ :=
  match a.arguments with
  | .absent => if bare then .ok s else .error ⟨.needsArguments kind, some kind⟩
  | .value => .error ⟨.needsParentheses kind, none⟩
  | .list [] => .ok s
  | .list ts => foldArguments take s ts.length ts

def ofKind (kind : String) (as : List Attribute) : List Attribute :=
  as.filter fun a => a.path.only? == some kind

/-- One more argument of an attribute that names the table. -/
def takeTable (_ : Option String) (a : Argument) : Except Error (Option String × List Token) :=
  match a.path.only? with
  | some "name" => (textValue a.rest).map fun r => (some r.1, r.2)
  | _ => .error (a.error (.unsupported "table"))

/-- The name of a model's table. -/
def tableName (as : List Attribute) : Except Error (Option String) :=
  (ofKind "table" as).foldlM (readArguments "table" false takeTable) none

/-- One more argument of a column annotation. -/
def takeColumn (c : ColumnNotes) (a : Argument) :
    Except Error (ColumnNotes × List Token) :=
  let text (set : String → ColumnNotes) := (textValue a.rest).map fun r => (set r.1, r.2)
  let flag (set : Bool → ColumnNotes) := (flagValue a.rest).map fun r => (set r.1, r.2)
  match a.path.only? with
  | some "name" => text fun v => { c with name := some v }
  | some "indexed" => flag fun v => { c with indexed := v }
  | some "unique" => flag fun v => { c with unique := v }
  | some "on_conflict" => text fun v => { c with onConflict := some v }
  | some "collate" => text fun v => { c with collate := some v }
  | some "default_expr" => text fun v => { c with defaultExpr := some v }
  | some "storage_type" => text fun v => { c with storageType := some v }
  | some "references" => text fun v => { c with references := some v }
  | some "on_delete" => text fun v => { c with onDelete := some v }
  | some "helpers" =>
    (capabilityNames a.rest).map fun r => ({ c with capabilities := some r.1 }, r.2)
  | _ => .error (a.error (.unsupported "column"))

/-- One more argument of a key annotation. -/
def takeKey (k : KeyNotes) (a : Argument) : Except Error (KeyNotes × List Token) :=
  match a.path.only? with
  | some "auto" => (flagValue a.rest).map fun r => ({ k with auto := r.1 }, r.2)
  | some "autoincrement" => (flagValue a.rest).map fun r => ({ k with autoincrement := r.1 }, r.2)
  | some "on_conflict" => (textValue a.rest).map fun r => ({ k with onConflict := some r.1 }, r.2)
  | _ => .error (a.error (.unsupported "primary_key"))

/-- The annotation that the attributes of a kind make together, if there is one. -/
def notes? {σ : Type} (kind : String) (empty : σ)
    (take : σ → Argument → Except Error (σ × List Token)) (as : List Attribute) :
    Except Error (Option σ) :=
  match ofKind kind as with
  | [] => .ok none
  | as => (as.foldlM (readArguments kind true take) empty).map some

/-- The field with what its attributes say. -/
def FieldSource.declaration (f : FieldSource) : Except Error FieldDeclaration := do
  let column ← notes? "column" ColumnNotes.empty takeColumn f.attributes
  let key ← notes? "primary_key" KeyNotes.empty takeKey f.attributes
  return ⟨f.name, writtenAll f.type, column, key⟩

end Tabula.Source
