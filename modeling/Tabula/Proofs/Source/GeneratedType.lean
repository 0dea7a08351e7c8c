import Tabula.Source.Derivation

/-! # Types that are told by their names

The items that are generated for columns say by its name what they say of a type. Where no two types
have one name, each type is told the column it is for, and all of its traits; where two have one, the
first of them is told everything and the other one nothing
(`Tabula.Source.Derivation.types_eq_map_own_iff`).
-/

namespace Tabula.Source

namespace GeneratedType

variable {name : String} {f : GeneratedType → GeneratedType} {gs : List GeneratedType}

/-- What is said by a new name is said of the type that was added last. -/
theorem onFirst_append (apart : ∀ g ∈ gs, g.name ≠ name) {g : GeneratedType} (isName : g.name = name) :
    onFirst name f (gs ++ [g]) = gs ++ [f g] := by
  induction gs with
  | nil => exact if_pos isName
  | cons h gs ih =>
      rw [List.cons_append, onFirst, if_neg (apart h List.mem_cons_self),
        ih fun g member => apart g (List.mem_cons_of_mem h member), List.cons_append]

/-- The traits of a column's type, one item each, are all told of the type that was added last. -/
theorem foldl_trait (apart : ∀ g ∈ gs, g.name ≠ name) (traits : List String) {g : GeneratedType}
    (isName : g.name = name) :
    (traits.map (GeneratedItem.trait name)).foldl add (gs ++ [g]) =
      gs ++ [{ g with traits := g.traits ++ traits }] := by
  induction traits generalizing g with
  | nil => rw [List.map_nil, List.foldl_nil, List.append_nil]
  | cons t traits ih =>
      have others := ih (g := { g with traits := g.traits ++ [t] }) isName
      rw [List.append_assoc] at others
      rw [List.map_cons, List.foldl_cons, add, onFirst_append apart isName, others]
      rfl

/-- The items of a column make its own type, if no type of its name is there. -/
theorem foldl_items {c : DerivedColumn} (apart : ∀ g ∈ gs, g.name ≠ c.typeName) :
    c.items.foldl add gs = gs ++ [own c] := by
  rw [DerivedColumn.items, List.foldl_cons, add, List.foldl_cons, add, onFirst_append apart rfl,
    foldl_trait apart _ rfl, List.nil_append]
  rfl

/-- A type with the name of an earlier one is said to be of no column. -/
def Silent (gs : List GeneratedType) : Prop :=
  gs.Pairwise fun g h => g.name = h.name → h.column = none

/-- What is said by a name changes types of that name only. -/
theorem mem_or_name_of_mem_onFirst (keeps : ∀ g, (f g).name = g.name) {h : GeneratedType}
    (member : h ∈ onFirst name f gs) : h ∈ gs ∨ h.name = name := by
  induction gs with
  | nil => cases member
  | cons g gs ih =>
      rw [onFirst] at member
      split at member
      · rename_i isName
        rcases List.mem_cons.mp member with rfl | member
        · exact Or.inr ((keeps g).trans isName)
        · exact Or.inl (List.mem_cons_of_mem g member)
      · rcases List.mem_cons.mp member with rfl | member
        · exact Or.inl List.mem_cons_self
        · exact (ih member).imp_left (List.mem_cons_of_mem g)

/-- What is said of the first type of a name leaves the others of that name silent. -/
theorem Silent.onFirst (silent : Silent gs) (keeps : ∀ g, (f g).name = g.name) :
    Silent (onFirst name f gs) := by
  induction gs with
  | nil => exact silent
  | cons g gs ih =>
      obtain ⟨here, others⟩ := List.pairwise_cons.mp silent
      rw [GeneratedType.onFirst]
      split
      · refine List.pairwise_cons.mpr ⟨fun h member same => here h member ?_, others⟩
        rw [← keeps g, same]
      · rename_i notName
        refine List.pairwise_cons.mpr ⟨fun h member same => ?_, ih others⟩
        rcases mem_or_name_of_mem_onFirst keeps member with member | isName
        · exact here h member same
        · exact absurd (same.trans isName) notName

/-- One more item leaves all but the first types of a name silent. -/
theorem Silent.add (silent : Silent gs) (item : GeneratedItem) : Silent (add gs item) := by
  cases item with
  | type name doc =>
      refine List.pairwise_append.mpr ⟨silent, List.pairwise_singleton _ _, fun g _ h isNew _ => ?_⟩
      rw [List.mem_singleton.mp isNew]
  | column type c => exact silent.onFirst fun g => rfl
  | trait type name => exact silent.onFirst fun g => rfl

/-- However many items are added, all but the first types of a name stay silent. -/
theorem Silent.foldl (silent : Silent gs) (items : List GeneratedItem) :
    Silent (items.foldl GeneratedType.add gs) := by
  induction items generalizing gs with
  | nil => exact silent
  | cons item items ih => exact ih (silent.add item)

/-- The items of columns whose types have distinct new names make their own types. -/
theorem foldl_flatMap_items {cs : List DerivedColumn} (distinct : (cs.map (·.typeName)).Nodup)
    (apart : ∀ g ∈ gs, ∀ c ∈ cs, g.name ≠ c.typeName) :
    (cs.flatMap (·.items)).foldl add gs = gs ++ cs.map own := by
  induction cs generalizing gs with
  | nil => exact (List.append_nil gs).symm
  | cons c cs ih =>
      obtain ⟨isNew, distinct⟩ := List.nodup_cons.mp distinct
      have others : ∀ g ∈ gs ++ [own c], ∀ d ∈ cs, g.name ≠ d.typeName := by
        intro g member d isColumn
        rcases List.mem_append.mp member with member | isOwn
        · exact apart g member d (List.mem_cons_of_mem c isColumn)
        · rw [List.mem_singleton.mp isOwn]
          exact fun same => isNew (List.mem_map.mpr ⟨d, isColumn, same.symm⟩)
      rw [List.flatMap_cons, List.foldl_append,
        foldl_items fun g member => apart g member c List.mem_cons_self, ih distinct others,
        List.append_assoc]
      rfl

end GeneratedType

open GeneratedType

/-- **A type of its own for each column.** The generated types are each told its own column, with all
traits, exactly if no two of them have one name. -/
theorem Derivation.types_eq_map_own_iff (d : Derivation) :
    d.types = d.columns.map own ↔ (d.columns.map (·.typeName)).Nodup := by
  constructor
  · intro isOwn
    have silent : Silent d.types := Silent.foldl .nil _
    rw [isOwn, Silent, List.pairwise_map] at silent
    rw [List.Nodup, List.pairwise_map]
    refine silent.imp fun {c e} isSilent (same : c.typeName = e.typeName) => ?_
    exact Option.some_ne_none e (isSilent same)
  · intro distinct
    exact foldl_flatMap_items distinct fun g member => absurd member List.not_mem_nil

end Tabula.Source
