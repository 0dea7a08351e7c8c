import Tabula.Json.Token

/-! # Reading values of a known shape

A decoder reads one value off a list of tokens and leaves what follows it. Problems are found in the
order of the text: a value of the wrong shape is refused where it stands, before anything behind it
is read. A record may stand as an object, whose fields may come in any order and may not be unknown
or repeated, or as an array of its fields in order.
-/

namespace Tabula.Json

/-- What follows a value: fewer tokens than there were. -/
abbrev Rest (ts : List Token) := { rest : List Token // rest.length < ts.length }

/-- Reads a value off the front of a list of tokens. -/
abbrev Decoder (α : Type) := (ts : List Token) → Except Error (α × Rest ts)

/-- The error of a token that is no value of the expected kind. -/
def unexpected (t : Token) (expected : String) : Error :=
  let invalid (found : Found) : Error := .shape (.invalidType found expected)
  match t with
  | .null => invalid .null
  | .bool b => invalid (.bool b)
  | .number n => invalid (.number n)
  | .text s => invalid (.text s)
  | .openArray => invalid .array
  | .openObject => invalid .object
  | .broken _ e => e
  | .closeArray | .closeObject | .comma | .colon => .malformed

/-- A value that is a single token. -/
def single {α : Type} (expected : String) (value? : Token → Option (Except Error α)) : Decoder α
  | [] => .error .ended
  | t :: ts =>
    match value? t with
    | some (.ok a) => .ok (a, ⟨ts, Nat.lt_succ_self _⟩)
    | some (.error e) => .error e
    | none => .error (unexpected t expected)

/-- A text. -/
def text : Decoder String :=
  single "a string" fun | .text s => some (.ok s) | _ => none

/-- A truth value. -/
def bool : Decoder Bool :=
  single "a boolean" fun | .bool b => some (.ok b) | _ => none

/-- A whole number from zero up to a greatest one, of a type with a name. -/
def natural (greatest : Nat) (name : String) : Decoder Nat :=
  single name fun
    | .number (.whole n) =>
      if 0 ≤ n && n ≤ greatest then some (.ok n.toNat)
      else some (.error (.shape (.invalidValue n name)))
    | _ => none

/-- A value, or null for its absence. -/
def optional {α : Type} (d : Decoder α) : Decoder (Option α)
  | .null :: ts => .ok (none, ⟨ts, Nat.lt_succ_self _⟩)
  | ts => (d ts).map fun r => (some r.1, r.2)

/-- What comes before the next element of an array: nothing before the first, else a comma. -/
def beforeElement (first : Bool) (ts : List Token) :
    Except Error { rest : List Token // rest.length ≤ ts.length } :=
  if first then .ok ⟨ts, Nat.le_refl _⟩
  else
    match ts with
    | [] => .error .ended
    | .comma :: .closeArray :: _ => .error .malformed
    | .comma :: rest => .ok ⟨rest, Nat.le_succ _⟩
    | _ :: _ => .error .malformed

/-- The elements of an array up to its end. -/
def elements {α : Type} (d : Decoder α) (first : Bool) (ts : List Token) :
    Except Error (List α × { rest : List Token // rest.length ≤ ts.length }) :=
  match ts with
  | .closeArray :: rest => .ok ([], ⟨rest, Nat.le_succ _⟩)
  | ts =>
    match beforeElement first ts with
    | .error e => .error e
    | .ok ⟨ts', h'⟩ =>
      match d ts' with
      | .error e => .error e
      | .ok (a, ⟨rest, h⟩) =>
        have shorter : rest.length < ts.length := Nat.lt_of_lt_of_le h h'
        match elements d false rest with
        | .error e => .error e
        | .ok (as, ⟨rest', h''⟩) => .ok (a :: as, ⟨rest', by omega⟩)
termination_by ts.length

/-- An array of values. -/
def list {α : Type} (d : Decoder α) : Decoder (List α)
  | [] => .error .ended
  | .openArray :: ts =>
    match elements d true ts with
    | .error e => .error e
    | .ok (as, ⟨rest, h⟩) => .ok (as, ⟨rest, Nat.lt_succ_of_le h⟩)
  | t :: _ => .error (unexpected t "a sequence")

/-- A field of a record of type `σ`. -/
structure Member (σ : Type) where
  name : String
  /-- Whether a record without the field is refused. -/
  required : Bool
  /-- The change that the value of the field makes to a record. -/
  decode : Decoder (σ → σ)

/-- The shape of a record. -/
structure Shape (σ : Type) where
  /-- The name of the shape in messages. -/
  name : String
  /-- The fields, in the order of an array. -/
  fields : List (Member σ)
  /-- The record before any field is read. -/
  initial : σ

/-- The fields of a record that stands as an array; `index` fields are read already. -/
def positional {σ : Type} (shape : Shape σ) (record : σ) (index : Nat) :
    List (Member σ) → (ts : List Token) →
    Except Error (σ × { rest : List Token // rest.length ≤ ts.length })
  | [], .closeArray :: rest => .ok (record, ⟨rest, Nat.le_succ _⟩)
  | [], [] => .error .ended
  | [], _ :: _ => .error .malformed
  | fields, .closeArray :: rest =>
    match fields.findIdx? (·.required) with
    | some i => .error (.shape (.invalidLength (index + i) shape.name shape.fields.length))
    | none => .ok (record, ⟨rest, Nat.le_succ _⟩)
  | field :: fields, ts =>
    match beforeElement (index == 0) ts with
    | .error e => .error e
    | .ok ⟨ts', h'⟩ =>
      match field.decode ts' with
      | .error e => .error e
      | .ok (change, ⟨rest, h⟩) =>
        match positional shape (change record) (index + 1) fields rest with
        | .error e => .error e
        | .ok (record, ⟨rest', h''⟩) => .ok (record, ⟨rest', by omega⟩)

/-- What comes before the next key of an object: nothing before the first, else a comma. -/
def beforeKey (first : Bool) (ts : List Token) :
    Except Error { rest : List Token // rest.length ≤ ts.length } :=
  if first then .ok ⟨ts, Nat.le_refl _⟩
  else
    match ts with
    | [] => .error .ended
    | .comma :: rest => .ok ⟨rest, Nat.le_succ _⟩
    | _ :: _ => .error .malformed

/-- The record with the defaults of the fields that were not read. -/
def complete {σ : Type} (shape : Shape σ) (seen : List String) (record : σ) : Except Error σ :=
  match shape.fields.find? fun f => f.required && !seen.contains f.name with
  | some f => .error (.shape (.missingField f.name))
  | none => .ok record

/-- The fields of a record that stands as an object; those in `seen` are read already. -/
def named {σ : Type} (shape : Shape σ) (record : σ) (seen : List String) (ts : List Token) :
    Except Error (σ × { rest : List Token // rest.length ≤ ts.length }) :=
  match ts with
  | .closeObject :: rest => (complete shape seen record).map fun r => (r, ⟨rest, Nat.le_succ _⟩)
  | ts =>
    match beforeKey seen.isEmpty ts with
    | .error e => .error e
    | .ok ⟨[], _⟩ => .error .ended
    | .ok ⟨.broken true e :: _, _⟩ => .error e
    | .ok ⟨.text key :: ts', h'⟩ =>
      match shape.fields.find? (·.name == key) with
      | none => .error (.shape (.unknownField key (shape.fields.map (·.name))))
      | some field =>
        if seen.contains key then .error (.shape (.duplicateField key))
        else
          match ts' with
          | [] => .error .ended
          | .colon :: value =>
            match field.decode value with
            | .error e => .error e
            | .ok (change, ⟨rest, h⟩) =>
              have shorter : rest.length < ts.length := by simp_all; omega
              match named shape (change record) (key :: seen) rest with
              | .error e => .error e
              | .ok (record, ⟨rest', h''⟩) => .ok (record, ⟨rest', by omega⟩)
          | _ :: _ => .error .malformed
    | .ok _ => .error .malformed
termination_by ts.length

/-- A record, as an object or as an array. -/
def record {σ : Type} (shape : Shape σ) : Decoder σ
  | [] => .error .ended
  | .openArray :: ts =>
    match positional shape shape.initial 0 shape.fields ts with
    | .error e => .error e
    | .ok (r, ⟨rest, h⟩) => .ok (r, ⟨rest, Nat.lt_succ_of_le h⟩)
  | .openObject :: ts =>
    match named shape shape.initial [] ts with
    | .error e => .error e
    | .ok (r, ⟨rest, h⟩) => .ok (r, ⟨rest, Nat.lt_succ_of_le h⟩)
  | t :: _ => .error (unexpected t ("struct " ++ shape.name))

/-- The value of a whole text, after which nothing may follow. -/
def decode {α : Type} (d : Decoder α) (s : String) : Except Error α :=
  match d (tokens s) with
  | .error e => .error e
  | .ok (a, ⟨[], _⟩) => .ok a
  | .ok (_, ⟨_ :: _, _⟩) => .error .malformed

end Tabula.Json
