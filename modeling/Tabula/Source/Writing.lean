import Tabula.Source.Derivation

/-! # Written records

How the author of a model writes it as a record declaration. The name of the table, what is said
about a column and what is said about a key stand in attributes; their arguments may be put into one
attribute or spread over several, in any order and more than once. `WrittenRecord.text` is what the
record looks like and `WrittenRecord.declared` the model that it declares: of several arguments of a
name the last one counts.
-/

namespace Tabula.Source

/-! ## Words -/

/-- Whether the text is a name without the mark of a raw one. -/
def isName (s : String) : Bool :=
  isWord s && !keywords.contains s

/-- Whether the text is a word or a raw name. -/
def isIdentifier (s : String) : Bool :=
  isWord s ||
    match s.toList with
    | 'r' :: '#' :: cs => isWord (String.ofList cs) && !neverRaw.contains (String.ofList cs)
    | _ => false

abbrev Word := { s : String // isWord s = true }

abbrev Identifier := { s : String // isIdentifier s = true }

/-- Whether there is a comment in the text, looked for in at most `fuel` steps. -/
def hasComment : (fuel : Nat) → List Char → Bool
  | 0, _ => false
  | _ + 1, [] => false
  | fuel + 1, c :: rest =>
    beginsComment c rest || (cut? c rest).any fun r => hasComment fuel r.2

/-- Whether the text is a type, without comments. -/
def isTypeText (s : String) : Bool :=
  !hasComment s.toList.length s.toList &&
    match tokens? s with
    | none => false
    | some ts =>
      match typeExpr ts with
      | .ok (_, rest) => rest.isEmpty
      | .error _ => false

/-! ## Arguments and attributes -/

/-- A character in quotes. -/
def escaped (c : Char) : List Char :=
  if c = '"' || c = '\\' then ['\\', c]
  else if c = '\n' then ['\\', 'n']
  else if c = '\r' then ['\\', 'r']
  else if c = '\t' then ['\\', 't']
  else if c = '\x00' then ['\\', '0']
  else [c]

/-- The text in quotes, with its special characters escaped. -/
def quoted (s : String) : String :=
  String.ofList ('"' :: s.toList.flatMap escaped ++ ['"'])

/-- How names of capabilities are written. -/
inductive NameStyle where
  /-- In parentheses. -/
  | listed
  /-- In quotes, with so many spaces after each comma. -/
  | quoted (spaces : Nat)

/-- What stands after the name of an argument. -/
inductive WrittenValue where
  /-- An equals sign and a text in quotes. -/
  | quote (value : String)
  /-- A truth value after an equals sign, or nothing for what is true. -/
  | flag (value : Option Bool)
  /-- Names of capabilities, one at least. -/
  | names (style : NameStyle) (first : Identifier) (more : List Identifier)

/-- The text between two names in quotes. -/
def nameSeparator (spaces : Nat) : String :=
  String.ofList (',' :: List.replicate spaces ' ')

def WrittenValue.text : WrittenValue → String
  | .quote value => " = " ++ quoted value
  | .flag none => ""
  | .flag (some true) => " = true"
  | .flag (some false) => " = false"
  | .names .listed first more => "(" ++ ", ".intercalate ((first :: more).map (·.val)) ++ ")"
  | .names (.quoted spaces) first more =>
    " = " ++ Source.quoted ((nameSeparator spaces).intercalate ((first :: more).map (·.val)))

/-- An argument of an attribute. -/
structure WrittenArgument where
  word : Word
  value : WrittenValue

def WrittenArgument.text (a : WrittenArgument) : String :=
  a.word.val ++ a.value.text

/-- An attribute, with arguments in parentheses or without. -/
structure WrittenAttribute where
  kind : Word
  arguments : Option (List WrittenArgument)

/-- The attribute stands on a line of its own. -/
def WrittenAttribute.text (a : WrittenAttribute) : String :=
  match a.arguments with
  | none => "#[" ++ a.kind.val ++ "]\n"
  | some as => "#[" ++ a.kind.val ++ "(" ++ ", ".intercalate (as.map (·.text)) ++ ")]\n"

/-! ## Columns -/

/-- The arguments of a column that are texts. -/
inductive ColumnText where
  | name
  | onConflict
  | collate
  | defaultExpr
  | storageType
  | references
  | onDelete
deriving DecidableEq

def ColumnText.word : ColumnText → Word
  | name => ⟨"name", by decide⟩
  | onConflict => ⟨"on_conflict", by decide⟩
  | collate => ⟨"collate", by decide⟩
  | defaultExpr => ⟨"default_expr", by decide⟩
  | storageType => ⟨"storage_type", by decide⟩
  | references => ⟨"references", by decide⟩
  | onDelete => ⟨"on_delete", by decide⟩

/-- The arguments of a column that are flags. -/
inductive ColumnFlag where
  | indexed
  | unique
deriving DecidableEq

def ColumnFlag.word : ColumnFlag → Word
  | indexed => ⟨"indexed", by decide⟩
  | unique => ⟨"unique", by decide⟩

/-- An argument of a column. -/
inductive ColumnArgument where
  | text (key : ColumnText) (value : String)
  | flag (key : ColumnFlag) (value : Option Bool)
  | capabilities (style : NameStyle) (first : Identifier) (more : List Identifier)

namespace ColumnArgument

def written : ColumnArgument → WrittenArgument
  | text key value => ⟨key.word, .quote value⟩
  | flag key value => ⟨key.word, .flag value⟩
  | capabilities style first more => ⟨⟨"helpers", by decide⟩, .names style first more⟩

/-- The text, if the argument is that of the key. -/
def text? (key : ColumnText) : ColumnArgument → Option String
  | text key' value => if key' = key then some value else none
  | _ => none

def flag? (key : ColumnFlag) : ColumnArgument → Option Bool
  | flag key' value => if key' = key then some (value.getD true) else none
  | _ => none

def capabilities? : ColumnArgument → Option (List String)
  | capabilities _ first more => some ((first :: more).map (·.val))
  | _ => none

end ColumnArgument

/-- What the arguments of a column say: the last one of a name counts. -/
def columnSaid (as : List ColumnArgument) : ColumnNotes :=
  let text? (key : ColumnText) := (as.filterMap (ColumnArgument.text? key)).getLast?
  let flag (key : ColumnFlag) := (as.filterMap (ColumnArgument.flag? key)).getLast?.getD false
  { name := text? .name
    indexed := flag .indexed
    unique := flag .unique
    onConflict := text? .onConflict
    collate := text? .collate
    defaultExpr := text? .defaultExpr
    storageType := text? .storageType
    capabilities := (as.filterMap ColumnArgument.capabilities?).getLast?
    references := text? .references
    onDelete := text? .onDelete }

/-! ## Keys -/

/-- The arguments of a key that are flags. -/
inductive KeyFlag where
  | auto
  | autoincrement
deriving DecidableEq

def KeyFlag.word : KeyFlag → Word
  | auto => ⟨"auto", by decide⟩
  | autoincrement => ⟨"autoincrement", by decide⟩

/-- An argument of a key. -/
inductive KeyArgument where
  | flag (key : KeyFlag) (value : Option Bool)
  | onConflict (value : String)

namespace KeyArgument

def written : KeyArgument → WrittenArgument
  | flag key value => ⟨key.word, .flag value⟩
  | onConflict value => ⟨⟨"on_conflict", by decide⟩, .quote value⟩

def flag? (key : KeyFlag) : KeyArgument → Option Bool
  | flag key' value => if key' = key then some (value.getD true) else none
  | _ => none

def onConflict? : KeyArgument → Option String
  | onConflict value => some value
  | _ => none

end KeyArgument

/-- What the arguments of a key say: the last one of a name counts. -/
def keySaid (as : List KeyArgument) : KeyNotes where
  auto := (as.filterMap (KeyArgument.flag? .auto)).getLast?.getD true
  autoincrement := (as.filterMap (KeyArgument.flag? .autoincrement)).getLast?.getD false
  onConflict := (as.filterMap KeyArgument.onConflict?).getLast?

/-! ## Fields and records -/

/-- An attribute of a field. -/
inductive FieldAttribute where
  | column (arguments : Option (List ColumnArgument))
  | key (arguments : Option (List KeyArgument))

namespace FieldAttribute

def written : FieldAttribute → WrittenAttribute
  | column as => ⟨⟨"column", by decide⟩, as.map (·.map (·.written))⟩
  | key as => ⟨⟨"primary_key", by decide⟩, as.map (·.map (·.written))⟩

/-- The arguments of an attribute on the column; an attribute without parentheses has none. -/
def column? : FieldAttribute → Option (Option (List ColumnArgument))
  | column as => some as
  | key _ => none

def key? : FieldAttribute → Option (Option (List KeyArgument))
  | key as => some as
  | column _ => none

end FieldAttribute

/-- What the attributes of a kind say together, nothing if there are none. -/
def saidTogether? {α β : Type} (said : List α → β) (lists : List (Option (List α))) : Option β :=
  if lists.isEmpty then none else some (said (lists.map (·.getD [])).flatten)

/-- The word in front of what can be seen from elsewhere. -/
def publicText (isPublic : Bool) : String :=
  if isPublic then "pub " else ""

/-- A field of a record. -/
structure WrittenField where
  attributes : List FieldAttribute
  isPublic : Bool
  name : String
  typeText : String

namespace WrittenField

variable (f : WrittenField)

def text : String :=
  String.join (f.attributes.map (·.written.text)) ++ publicText f.isPublic ++ f.name ++ ": " ++
    f.typeText ++ ",\n"

def declared : FieldDeclaration where
  name := f.name
  typeText := f.typeText
  column := saidTogether? columnSaid (f.attributes.filterMap (·.column?))
  key := saidTogether? keySaid (f.attributes.filterMap (·.key?))

end WrittenField

/-- A record with the names that its attributes give the table, each attribute with its own. -/
structure WrittenRecord where
  tables : List (List String)
  isPublic : Bool
  name : String
  fields : List WrittenField

namespace WrittenRecord

variable (w : WrittenRecord)

def tableArgument (name : String) : WrittenArgument :=
  ⟨⟨"name", by decide⟩, .quote name⟩

def tableAttribute (names : List String) : WrittenAttribute :=
  ⟨⟨"table", by decide⟩, some (names.map tableArgument)⟩

/-- What the record looks like. -/
def text : String :=
  String.join (w.tables.map fun names => (tableAttribute names).text) ++ publicText w.isPublic ++
    "struct " ++ w.name ++ " \x7b\n" ++ String.join (w.fields.map (·.text)) ++ "\x7d\n"

/-- The model that is declared. -/
def declared : Declaration where
  name := w.name
  table := w.tables.flatten.getLast?
  fields := w.fields.map (·.declared)

end WrittenRecord

end Tabula.Source
