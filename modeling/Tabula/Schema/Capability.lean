import Tabula.Value.Basic

/-! # Capabilities of columns

Which comparisons and orderings a column offers to statements. A set of capabilities is a word of
sixteen bits, one for each capability from the lowest bit up; bits that no capability has are
carried along.
-/

namespace Tabula

/-- The comparisons of a column with operands. -/
inductive Comparison where
  | eq
  | notEq
  | isNull
  | isNotNull
  | inList
  | notInList
  | lt
  | le
  | gt
  | ge
  | between
deriving DecidableEq, Inhabited

/-- The directions of an ordering. -/
inductive Direction where
  | asc
  | desc
deriving DecidableEq, Inhabited

/-- What a column can offer. -/
inductive Capability where
  | compare (c : Comparison)
  | order (d : Direction)
deriving DecidableEq, Inhabited

namespace Comparison

/-- Every comparison, in the order of the bits. -/
def all : List Comparison :=
  [eq, notEq, isNull, isNotNull, inList, notInList, lt, le, gt, ge, between]

/-- The name of the comparison in an annotation. -/
def name : Comparison → String
  | eq => "eq"
  | notEq => "not_eq"
  | isNull => "is_null"
  | isNotNull => "is_not_null"
  | inList => "in_list"
  | notInList => "not_in_list"
  | lt => "lt"
  | le => "le"
  | gt => "gt"
  | ge => "ge"
  | between => "between"

end Comparison

namespace Direction

/-- The name of the direction in a statement. -/
def keyword : Direction → String
  | asc => "ASC"
  | desc => "DESC"

end Direction

namespace Capability

/-- The comparisons, in the order of their bits. -/
def comparisons : List Capability := Comparison.all.map compare

/-- The orderings, in the order of their bits. -/
def orders : List Capability := [order .asc, order .desc]

/-- Every capability, in the order of the bits. -/
def all : List Capability := comparisons ++ orders

/-- The name of the capability in an annotation. -/
def name : Capability → String
  | compare c => c.name
  | order .asc => "order_asc"
  | order .desc => "order_desc"

/-- The place of the capability's bit, from the lowest. -/
def place : Capability → Nat
  | compare .eq => 0
  | compare .notEq => 1
  | compare .isNull => 2
  | compare .isNotNull => 3
  | compare .inList => 4
  | compare .notInList => 5
  | compare .lt => 6
  | compare .le => 7
  | compare .gt => 8
  | compare .ge => 9
  | compare .between => 10
  | order .asc => 11
  | order .desc => 12

/-- Every capability has its own place, in the order of the list. -/
theorem place_all : all.map place = List.range 13 := by decide

/-- The word with the capability's bit alone. -/
def bit (c : Capability) : UInt16 :=
  1 <<< UInt16.ofNat c.place

end Capability

/-- A set of capabilities. -/
structure Capabilities where
  /-- The word of bits. -/
  bits : UInt16
deriving DecidableEq, Inhabited

namespace Capabilities

/-- No capability. -/
def none : Capabilities := ⟨0⟩

/-- The capabilities of either set. -/
def union (a b : Capabilities) : Capabilities := ⟨a.bits ||| b.bits⟩

/-- The capabilities of the first set that the second has not. -/
def diff (a b : Capabilities) : Capabilities := ⟨a.bits &&& ~~~b.bits⟩

/-- The capabilities of both sets. -/
def inter (a b : Capabilities) : Capabilities := ⟨a.bits &&& b.bits⟩

/-- The set of the listed capabilities. -/
def ofList (cs : List Capability) : Capabilities :=
  ⟨cs.foldl (fun word c => word ||| c.bit) 0⟩

/-- Whether the set has the capability. -/
def has (s : Capabilities) (c : Capability) : Bool :=
  s.bits &&& c.bit != 0

/-- The capabilities of the set, in the order of the bits. -/
def toList (s : Capabilities) : List Capability :=
  Capability.all.filter s.has

/-- Every comparison. -/
def conditions : Capabilities := ofList Capability.comparisons

def orders : Capabilities := ofList Capability.orders

def all : Capabilities := union conditions orders

/-- The comparisons of more and less. -/
def ranges : Capabilities :=
  ofList ([.lt, .le, .gt, .ge, .between].map Capability.compare)

def nullTests : Capabilities :=
  ofList ([.isNull, .isNotNull].map Capability.compare)

/-- The names of sets and their members, single capabilities included. -/
def named : List (String × Capabilities) :=
  [("none", none), ("in", ofList [.compare .inList]), ("not_in", ofList [.compare .notInList]),
    ("conditions", conditions), ("orders", orders), ("all", all)] ++
    Capability.all.map fun c => (c.name, ofList [c])

/-- The set of a name, in any ASCII case and between blanks. -/
def parse? (s : String) : Option Capabilities :=
  let wanted := Text.asciiLower (Text.trim s)
  (named.find? (·.1 == wanted)).map (·.2)

/-- What a column offers when its annotation names nothing: bytes are not ordered, and only a
column that may be NULL is tested for it. -/
def automatic (t : StorageType) (nullable : Bool) : Capabilities :=
  let offered := if t = .blob then diff conditions ranges else all
  if nullable then offered else diff offered nullTests

end Capabilities

end Tabula
