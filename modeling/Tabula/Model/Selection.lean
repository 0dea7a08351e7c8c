import Tabula.Model.Filter

/-! # Selections

Which records of a model to read, in which order, and which of them to leave out at the beginning
and the end. The same selection is also counted, and then the order and the window have no part.
-/

namespace Tabula

/-- A choice of records. -/
structure Selection (m : Model) where
  /-- What the records must meet. -/
  filters : List (Filter m) := []
  /-- The order of the records, the first term first. -/
  orders : List (ModelOrder m) := []
  /-- How many records to take at most. -/
  limit : Option UInt64 := none
  /-- How many records to leave out before. -/
  offset : Option UInt64 := none

namespace Selection

variable {m : Model}

/-- Every record. -/
def all : Selection m := {}

/-- The records that also meet the filter. -/
def restrict (s : Selection m) (f : Filter m) : Selection m :=
  { s with filters := s.filters ++ [f] }

/-- The records in the order so far, and where it leaves a tie, in the further one. -/
def orderBy (s : Selection m) (o : ModelOrder m) : Selection m :=
  { s with orders := s.orders ++ [o] }

/-- At most so many records. -/
def take (s : Selection m) (count : UInt64) : Selection m :=
  { s with limit := some count }

/-- The records without so many at the beginning. -/
def drop (s : Selection m) (count : UInt64) : Selection m :=
  { s with offset := some count }

/-- What the rows of the records must meet. -/
def conditions (s : Selection m) : List Condition :=
  s.filters.map (·.condition)

/-- The statement that reads the records. -/
def select (s : Selection m) : SelectStatement where
  table := m.table.name
  columns := m.table.columnNames
  conditions := s.conditions
  orders := s.orders.map (·.term)
  limit := s.limit
  offset := s.offset

/-- The statement that counts the records. -/
def count (s : Selection m) : CountStatement where
  table := m.table.name
  conditions := s.conditions

end Selection

end Tabula
