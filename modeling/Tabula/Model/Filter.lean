import Tabula.Model.Basic

/-! # Filters

A filter is a condition on the rows of a model that is right by construction: each comparison is one
that the column offers, with as many operands as it takes, all of them of the column's own type.
`Model.compare` builds one from values, or says what is wrong with them.
-/

namespace Tabula

/-- A condition that the model offers. -/
inductive Filter (m : Model) where
  /-- The column compares so with the operands. -/
  | compare (c : ModelColumn) (mem : c ∈ m.columns) (op : Comparison)
      (offered : c.offers (.compare op) = true) (operands : List c.type.scalar.Carrier)
      (counted : op.Takes operands.length)
  /-- Both filters hold. -/
  | both (left right : Filter m)
  /-- One of the filters holds. -/
  | either (left right : Filter m)

namespace Filter

variable {m : Model}

/-- The condition of a filter. -/
def condition : Filter m → Condition
  | compare c _ op _ operands _ => .compare c.column.name op (operands.map c.type.scalar.write)
  | both left right => .both left.condition right.condition
  | either left right => .either left.condition right.condition

/-- A filter has as many operands as its comparisons take. -/
theorem counted_condition (f : Filter m) : f.condition.Counted := by
  induction f with
  | compare c mem op offered operands counted => simpa [condition, Condition.Counted] using counted
  | both left right ihl ihr => exact ⟨ihl, ihr⟩
  | either left right ihl ihr => exact ⟨ihl, ihr⟩

end Filter

/-- An ordering that the model offers. -/
structure ModelOrder (m : Model) where
  column : ModelColumn
  mem : column ∈ m.columns
  direction : Direction
  offered : column.offers (.order direction) = true

/-- The term of an order. -/
def ModelOrder.term {m : Model} (o : ModelOrder m) : OrderTerm :=
  ⟨o.column.column.name, o.direction⟩

/-- Why a model has no such filter, ordering or assignment. -/
inductive OfferError where
  /-- The model has no such column. -/
  | unknownColumn (column : String)
  /-- The column does not offer the capability. -/
  | notOffered (column : String) (capability : Capability)
  /-- The comparison takes another number of operands. -/
  | operandCount (op : Comparison) (found : Nat)
  /-- The value is none of the column's type. -/
  | value (cause : ValueError)
deriving DecidableEq

/-- The operands that the values hold. The first value that is none of the type decides the
error. -/
def Scalar.readAll (t : Scalar) : List Value → Except ValueError (List t.Carrier)
  | [] => .ok []
  | v :: vs => do
    let x ← t.read v
    let xs ← t.readAll vs
    return x :: xs

namespace Model

variable (m : Model)

/-- The column of a name, with its place in the model. -/
def member (name : String) : Except OfferError { c : ModelColumn // c ∈ m.columns } :=
  match h : m.column? name with
  | some c => .ok ⟨c, List.mem_of_find?_eq_some h⟩
  | none => .error (.unknownColumn name)

/-- A comparison of a column with values. That the column offers it is looked at first. -/
def compare (name : String) (op : Comparison) (values : List Value) :
    Except OfferError (Filter m) := do
  let ⟨c, mem⟩ ← m.member name
  if offered : c.offers (.compare op) = true then
    let operands ← (c.type.scalar.readAll values).mapError .value
    if counted : op.Takes operands.length then
      return .compare c mem op offered operands counted
    else throw (.operandCount op operands.length)
  else throw (.notOffered c.column.name (.compare op))

/-- An ordering by a column. -/
def order (name : String) (d : Direction) : Except OfferError (ModelOrder m) := do
  let ⟨c, mem⟩ ← m.member name
  if offered : c.offers (.order d) = true then return ⟨c, mem, d, offered⟩
  else throw (.notOffered c.column.name (.order d))

end Model

end Tabula
