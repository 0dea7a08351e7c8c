import Tabula.Schema.Problem
import Tabula.Source.Token

/-! # Errors of record declarations

Why a record declaration has no model: its text is no declaration, an attribute is written in a way
that it cannot be read, or the model that it describes is faulty. An error that is about one name
points at it.
-/

namespace Tabula.Source

/-- What is wrong with a record declaration. -/
inductive Cause where
  /-- Something else stands where something is needed. -/
  | expected (what : String)
  /-- The tokens end where something is needed. -/
  | ended (what : String)
  /-- A keyword stands where a name is needed. -/
  | keyword (name : String)
  /-- Something stands where nothing may. -/
  | unexpectedToken
  /-- An attribute has no arguments. -/
  | needsArguments (path : String)
  /-- An attribute has a value in place of arguments. -/
  | needsParentheses (path : String)
  /-- A literal stands where the name of an argument is needed. -/
  | literalArgument
  /-- Something else than a name stands where the name of an argument is needed. -/
  | unnamedArgument
  /-- An argument that attributes of the kind do not have. -/
  | unsupported (kind : String)
  /-- A capability that is no plain name. -/
  | notACapability
  | generic
  | unnamedFields
  | notAStruct
  | extraction (e : ExtractionError)
  | validation (f : TableFault)
deriving DecidableEq

/-- The message of a cause. -/
def Cause.message : Cause → String
  | expected what => "expected " ++ what
  | ended what => "unexpected end of input, expected " ++ what
  | keyword name => "expected identifier, found keyword `" ++ name ++ "`"
  | unexpectedToken => "unexpected token"
  | needsArguments path =>
    "expected attribute arguments in parentheses: #[" ++ path ++ "(...)]"
  | needsParentheses path => "expected parentheses: #[" ++ path ++ "(...)]"
  | literalArgument => "unexpected literal in nested attribute, expected ident"
  | unnamedArgument => "unexpected token in nested attribute, expected ident"
  | unsupported kind => "unsupported " ++ kind ++ " attribute"
  | notACapability => "expected a helper name"
  | generic => "Model derive does not support generic structs"
  | unnamedFields => "Model derive only supports structs with named fields"
  | notAStruct => "Model derive only supports structs"
  | extraction e => e.message
  | validation f => f.message

/-- A cause, with the name that it is about. -/
structure Error where
  /-- What is wrong. -/
  cause : Cause
  /-- The name that the error points at, if it points at one. -/
  at? : Option String
deriving DecidableEq

/-- The name that the front token is, if it is one. -/
def nameAt : List Token → Option String
  | .ident name :: _ => some name
  | _ => none

/-- The error of tokens that lack something at their front. -/
def lack (what : String) (ts : List Token) : Error :=
  if ts.isEmpty then ⟨.ended what, none⟩ else ⟨.expected what, nameAt ts⟩

/-- The error of tokens that lack a mark at their front, which does not tell of an end. -/
def lackMark (mark : String) (ts : List Token) : Error :=
  ⟨.expected ("`" ++ mark ++ "`"), nameAt ts⟩

/-- Reads something off the front of a list of tokens. -/
abbrev Parse (α : Type) := List Token → Except Error (α × List Token)

/-- Takes a mark off the front. -/
def mark (m : String) : Parse Unit
  | .punct m' :: rest => if m = m' then .ok ((), rest) else .error (lackMark m (.punct m' :: rest))
  | ts => .error (lackMark m ts)

end Tabula.Source
