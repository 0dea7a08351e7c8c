import Tabula.Source.Error

/-! # Record declarations

The parts of a record declaration: attributes, visibility, name, and fields with a type each. Types
are kept as tokens; how far one reaches is told by the marks in it, for between angle brackets a
comma does not end it.
-/

namespace Tabula.Source

/-- The words that are no names. -/
def keywords : List String :=
  ["_", "abstract", "as", "async", "await", "become", "box", "break", "const", "continue", "crate",
    "do", "dyn", "else", "enum", "extern", "false", "final", "fn", "for", "if", "impl", "in", "let",
    "loop", "macro", "match", "mod", "move", "mut", "override", "priv", "pub", "ref", "return",
    "Self", "self", "static", "struct", "super", "trait", "true", "try", "type", "typeof", "unsafe",
    "unsized", "use", "virtual", "where", "while", "yield"]

/-- Takes a name off the front. -/
def name : Parse String
  | .ident n :: rest =>
    if keywords.contains n then .error ⟨.keyword n, some n⟩ else .ok (n, rest)
  | ts => .error (lack "identifier" ts)

/-! ## Attributes -/

/-- A path of names. -/
structure Path where
  /-- Whether the path begins with `::`. -/
  rooted : Bool
  /-- The names, the first one apart. -/
  first : String
  /-- The further names. -/
  rest : List String
deriving DecidableEq

namespace Path

/-- The path of a single name. -/
def only? (p : Path) : Option String :=
  if p.rooted || !p.rest.isEmpty then none else some p.first

/-- The path as it is written. -/
def written (p : Path) : String :=
  (if p.rooted then "::" else "") ++ "::".intercalate (p.first :: p.rest)

end Path

/-- The further names of a path, each after `::`. -/
def pathRest : List Token → List String × List Token
  | .punct "::" :: .ident n :: rest =>
    let (names, rest) := pathRest rest
    (n :: names, rest)
  | ts => ([], ts)

/-- The path at the front, if a name is there. -/
def path? (ts : List Token) : Option (Path × List Token) :=
  let (rooted, ts) :=
    match ts with
    | .punct "::" :: rest => (true, rest)
    | ts => (false, ts)
  match ts with
  | .ident n :: rest =>
    let (names, rest) := pathRest rest
    some (⟨rooted, n, names⟩, rest)
  | _ => none

/-- What stands after the path of an attribute. -/
inductive Arguments where
  | absent
  | list (ts : List Token)
  | value

/-- An attribute. -/
structure Attribute where
  path : Path
  arguments : Arguments

/-- The attribute inside the brackets. -/
def Attribute.ofTokens (ts : List Token) : Except Error Attribute :=
  match path? ts with
  | none => .error (lack "identifier" ts)
  | some (p, []) => .ok ⟨p, .absent⟩
  | some (p, [.group _ inner]) => .ok ⟨p, .list inner⟩
  | some (p, .punct "=" :: _ :: _) => .ok ⟨p, .value⟩
  | some (_, [.punct "="]) => .error ⟨.ended "an expression", none⟩
  | some (_, ts) => .error ⟨.unexpectedToken, nameAt ts⟩

/-- The attributes at the front. -/
def attributes : Parse (List Attribute)
  | .punct "#" :: .group .bracket inner :: rest => do
    let a ← Attribute.ofTokens inner
    let (as, rest) ← attributes rest
    return (a :: as, rest)
  | .punct "#" :: rest => .error (lack "square brackets" rest)
  | ts => .ok ([], ts)

/-! ## Visibilities -/

/-- The tokens of the visibility at the front. -/
def visibility : List Token → List Token × List Token
  | .ident "pub" :: .group .paren inner :: rest =>
    let restricts :=
      match inner with
      | [.ident n] => n == "crate" || n == "self" || n == "super"
      | .ident "in" :: _ => true
      | _ => false
    if restricts then ([.ident "pub", .group .paren inner], rest)
    else ([.ident "pub"], .group .paren inner :: rest)
  | .ident "pub" :: rest => ([.ident "pub"], rest)
  | ts => ([], ts)

/-! ## Types -/

/-- Where the reading of a type stands. -/
structure TypeState where
  /-- How many angle brackets are open. -/
  depth : Nat
  /-- Whether the tokens read so far are a whole type. -/
  whole : Bool
  /-- The token before, as it is written. -/
  before : String

/-- Whether the word stands before a type and is none. -/
def isTypeModifier (word : String) : Bool :=
  ["mut", "const", "dyn", "impl", "unsafe", "extern", "for"].contains word

/-- The state after one more token of a type, nothing if the token is no part of it. -/
def TypeState.next? (s : TypeState) (t : Token) : Option TypeState :=
  let after (depth : Nat) (whole : Bool) : Option TypeState := some ⟨depth, whole, t.written⟩
  if 0 < s.depth then
    match t with
    | .punct "<" => some { s with depth := s.depth + 1 }
    | .punct ">" => some { s with depth := s.depth - 1 }
    | _ => some s
  else if s.whole then
    match t with
    | .punct "::" | .punct "->" | .punct "+" => after 0 false
    | .punct "<" => after 1 true
    | .group .paren _ => if s.before = "::" || s.before = "word" then after 0 true else none
    | _ => none
  else
    match t with
    | .punct "&" | .punct "*" | .punct "?" => after 0 false
    | .punct "::" => after 0 false
    | .punct "<" => after 1 (s.before != "for")
    | .punct "!" => after 0 true
    | .lifetime _ => after 0 (s.before != "&")
    | .group .paren _ | .group .bracket _ => after 0 true
    | .ident word =>
      if isTypeModifier word then after 0 false else some ⟨0, true, "word"⟩
    | .text _ _ => if s.before = "extern" then after 0 false else none
    | _ => none

/-- The tokens of the type at the front, and whether they are a whole type. -/
def typeTokens (s : TypeState) : List Token → List Token × List Token × Bool
  | [] => ([], [], s.whole && s.depth == 0)
  | t :: ts =>
    match s.next? t with
    | some s =>
      let (taken, rest, whole) := typeTokens s ts
      (t :: taken, rest, whole)
    | none => ([], t :: ts, s.whole)

/-- What may stand at the beginning of a type. -/
def typeBeginnings : String :=
  "one of: `for`, parentheses, `fn`, `unsafe`, `extern`, identifier, `::`, `<`, `dyn`, " ++
    "square brackets, `*`, `&`, `!`, `impl`, `_`, lifetime"

/-- Takes a type off the front. -/
def typeExpr : Parse (List Token) := fun ts =>
  match typeTokens ⟨0, false, ""⟩ ts with
  | (taken, rest, true) => .ok (taken, rest)
  | (_, rest, false) => .error (lack typeBeginnings rest)

/-! ## Fields and items -/

/-- A field of a record declaration. -/
structure FieldSource where
  attributes : List Attribute
  name : String
  type : List Token

/-- Takes the name of a field off the front, which may also be left open by an underscore. -/
def fieldName : Parse String
  | .ident "_" :: rest => .ok ("_", rest)
  | ts => name ts

/-- Takes a field off the front. -/
def field : Parse FieldSource := fun ts => do
  let (as, ts) ← attributes ts
  let (_, ts) := visibility ts
  let (n, ts) ← fieldName ts
  let ((), ts) ← mark ":" ts
  let (t, ts) ← typeExpr ts
  return (⟨as, n, t⟩, ts)

/-- The fields between the braces, at most `fuel` of them. -/
def fields : (fuel : Nat) → List Token → Except Error (List FieldSource)
  | 0, _ => .ok []
  | _ + 1, [] => .ok []
  | fuel + 1, ts => do
    let (f, ts) ← field ts
    match ts with
    | [] => return [f]
    | ts =>
      let ((), ts) ← mark "," ts
      return f :: (← fields fuel ts)

/-- The body of an item. -/
inductive Body where
  /-- A record with named fields. -/
  | named (fields : List FieldSource)
  /-- A record whose fields have no names. -/
  | unnamed
  /-- An item that is no record. -/
  | other

/-- An item that declares a type. -/
structure Item where
  attributes : List Attribute
  visibility : List Token
  name : String
  /-- Whether the type has parameters. -/
  isGeneric : Bool
  body : Body

/-- The tokens up to the closing angle bracket of depth `depth`, and the rest. -/
def untilClosed (depth : Nat) : List Token → Option (List Token × List Token)
  | [] => none
  | .punct ">" :: rest =>
    match depth with
    | 0 => some ([], rest)
    | depth + 1 => (untilClosed depth rest).map fun r => (.punct ">" :: r.1, r.2)
  | .punct "<" :: rest =>
    (untilClosed (depth + 1) rest).map fun r => (.punct "<" :: r.1, r.2)
  | t :: rest => (untilClosed depth rest).map fun r => (t :: r.1, r.2)

/-- The parameters of a type. -/
def parameters : Parse (List Token)
  | .punct "<" :: rest =>
    match untilClosed 0 rest with
    | some r => .ok r
    | none => .error ⟨.expected "`>`", none⟩
  | ts => .ok ([], ts)

/-- Whether the token can begin the body of an item. -/
def beginsBody : Token → Bool
  | .group .brace _ | .punct ";" => true
  | _ => false

/-- The tokens after the conditions on the parameters of a type. -/
def afterConditions : List Token → List Token
  | .ident "where" :: rest => rest.dropWhile fun t => !beginsBody t
  | ts => ts

/-- The body of a record, which ends the item. -/
def recordBody (ts : List Token) : Except Error (Body × List Token) :=
  match ts with
  | .group .paren _ :: rest =>
    match afterConditions rest with
    | .punct ";" :: rest => .ok (.unnamed, rest)
    | rest => .error (lack "`where` or `;`" rest)
  | ts =>
    match afterConditions ts with
    | .group .brace inner :: rest => do
      let fs ← fields inner.length inner
      return (.named fs, rest)
    | .punct ";" :: rest => .ok (.unnamed, rest)
    | rest => .error (lack "one of: `where`, parentheses, curly braces, `;`" rest)

/-- The body of an item that is no record. -/
def otherBody (ts : List Token) : Except Error (Body × List Token) :=
  match afterConditions ts with
  | .group .brace _ :: rest => .ok (.other, rest)
  | rest => .error (lack "`where` or curly braces" rest)

/-- The item that the tokens declare. -/
def item (ts : List Token) : Except Error Item := do
  let (as, ts) ← attributes ts
  let (vis, ts) := visibility ts
  let kinds := "one of: `struct`, `enum`, `union`"
  let (isRecord, ts) ←
    match ts with
    | .ident "struct" :: rest => pure (true, rest)
    | .ident "enum" :: rest | .ident "union" :: rest => pure (false, rest)
    | ts => .error (lack kinds ts)
  let (n, ts) ← name ts
  let (params, ts) ← parameters ts
  let (body, ts) ← if isRecord then recordBody ts else otherBody ts
  if ts.isEmpty then return ⟨as, vis, n, !params.isEmpty, body⟩
  else .error ⟨.unexpectedToken, nameAt ts⟩

end Tabula.Source
