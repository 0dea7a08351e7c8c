import Tabula.Model.Basic
import Tabula.Source.Derivation

/-! # Instances of derived records

What is generated for a record writes an instance as a row and reads one off a row. The two go by
different lists: an instance is written column by column, each with the value of its field, and read
field by field, each from the place of its column. A field without a column is not written, and
holds its default when it is read. Such a field may be of any type, so the types and the defaults of
these fields are parameters here (`other` and `absent`).
-/

namespace Tabula.Source

/-- A field of a derived record. If it has a column, that is the place of the column in a row and
what is read there. -/
structure Slot where
  field : String
  /-- The place and the column, nothing for a field without a column. -/
  column : Option (Nat × RecordColumn)
deriving DecidableEq

namespace Slot

variable (other : String → Type)

/-- What an instance holds in the field. -/
def Carrier : Slot → Type
  | ⟨_, some (_, c)⟩ => c.type.Carrier
  | ⟨field, none⟩ => other field

variable {other}

/-- The value of what is held, nothing for a field without a column. -/
def value? : (s : Slot) → s.Carrier other → Option Value
  | ⟨_, some (_, c)⟩, x => some (c.type.write x)
  | ⟨_, none⟩, _ => none

/-- What the field holds after reading a row. -/
def read (absent : (field : String) → other field) (row : Row) (offset : Nat) :
    (s : Slot) → Except RowError (s.Carrier other)
  | ⟨_, some (place, c)⟩ => row.read c.type (offset + place) c.name
  | ⟨field, none⟩ => .ok (absent field)

/-- What the field holds when its default takes the place of what no column has. -/
def reset (absent : (field : String) → other field) : (s : Slot) → s.Carrier other → s.Carrier other
  | ⟨_, some _⟩, x => x
  | ⟨field, none⟩, _ => absent field

end Slot

/-- What the fields of an instance hold, field by field. -/
def Instance (other : String → Type) : List Slot → Type
  | [] => Unit
  | s :: ss => s.Carrier other × Instance other ss

namespace Instance

variable {other : String → Type}

/-- The value of the first field of the name, nothing if it has no column. -/
def value? (name : String) : (ss : List Slot) → Instance other ss → Option Value
  | [], _ => none
  | s :: ss, (x, rest) => if s.field = name then s.value? x else value? name ss rest

/-- The instance at an offset of a row. The first field that cannot be read decides the error. -/
def read (absent : (field : String) → other field) (row : Row) (offset : Nat) :
    (ss : List Slot) → Except RowError (Instance other ss)
  | [] => .ok ()
  | s :: ss => do
    let x ← s.read absent row offset
    let rest ← read absent row offset ss
    return (x, rest)

/-- The instance with the defaults of the fields without a column. -/
def reset (absent : (field : String) → other field) :
    (ss : List Slot) → Instance other ss → Instance other ss
  | [], _ => ()
  | s :: ss, (x, rest) => (s.reset absent x, reset absent ss rest)

end Instance

namespace Derivation

variable (d : Derivation)

/-- The slot of a field at a place, if the type of the column there is known. -/
def slot? (field : String) : Option Nat → Option Slot
  | none => some ⟨field, none⟩
  | some place => do
    let (c, _) ← d.mapped[place]?
    let r ← c.typed?
    return ⟨field, some (place, r)⟩

/-- The slots of the fields, if the types of all columns are known. -/
def slots? : Option (List Slot) :=
  d.places.mapM fun (field, place) => d.slot? field place

/-- The values of an instance: of each column that of its field, in the order of a row. -/
def write {other : String → Type} (ss : List Slot) (inst : Instance other ss) : Row :=
  d.mapped.filterMap fun (_, f) => inst.value? f.name ss

end Derivation

end Tabula.Source
