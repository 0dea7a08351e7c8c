import Tabula.Proofs.Source.Derivation
import Tabula.Proofs.Source.Notes

/-! # Reading written records

The tokens of a written record make the record that is meant (`Tabula.Source.item_tokens`), and it
declares the model that is meant, with the types as their tokens are written
(`Tabula.Source.declaration_item`). The type of a field is read up to the comma after it.
-/

namespace Tabula.Source

/-! ## Types and fields -/

/-- A type that is whole ends before a comma. -/
theorem typeTokens_comma {s : TypeState} {ts : List Token} (rest : List Token)
    (whole : typeTokens s ts = (ts, [], true)) :
    typeTokens s (ts ++ .punct "," :: rest) = (ts, .punct "," :: rest, true) := by
  induction ts generalizing s with
  | nil =>
      simp only [typeTokens, Prod.mk.injEq, Bool.and_eq_true, beq_iff_eq, true_and] at whole
      obtain ⟨depth, isWhole, before⟩ := s
      obtain ⟨rfl, rfl⟩ := whole
      rfl
  | cons t ts ih =>
      rw [typeTokens] at whole
      cases next : s.next? t with
      | none =>
          rw [next] at whole
          cases whole
      | some s' =>
          simp only [next, Prod.mk.injEq, List.cons.injEq, true_and] at whole
          obtain ⟨taken, rest', isWhole⟩ := whole
          have others := ih (Prod.ext taken (Prod.ext rest' isWhole))
          simp only [List.cons_append, typeTokens, next, others]

private theorem typeExpr_comma {ts : List Token} (rest : List Token)
    (whole : typeExpr ts = .ok (ts, [])) :
    typeExpr (ts ++ .punct "," :: rest) = .ok (ts, .punct "," :: rest) := by
  have read : typeTokens ⟨0, false, ""⟩ ts = (ts, [], true) := by
    simp only [typeExpr] at whole
    split at whole
    · rename_i taken left found
      cases whole
      exact found
    · cases whole
  simp only [typeExpr, typeTokens_comma rest read]

private theorem visibility_public (isPublic : Bool) {n : String} (other : n ≠ "pub")
    (rest : List Token) : visibility (publicTokens isPublic ++ .ident n :: rest) =
      (publicTokens isPublic, .ident n :: rest) := by
  cases isPublic with
  | true => rfl
  | false => simp [publicTokens, visibility, other]

/-- A name is a word that is no keyword. -/
theorem isName_iff {n : String} : isName n = true ↔ isWord n = true ∧ n ∉ keywords := by
  simp [isName]

private theorem name_ident {n : String} (named : isName n = true) (rest : List Token) :
    name (.ident n :: rest) = .ok (n, rest) := by
  simp [name, (isName_iff.mp named).2]

/-- The field as it is read. -/
def WrittenField.read (f : WrittenField) : FieldSource where
  attributes := f.attributes.map (·.written.read)
  name := f.name
  type := f.type

/-- A field is read back up to its comma. -/
theorem field_tokens {f : WrittenField} (named : isName f.name = true)
    (isType : isTypeText f.typeText = true) (rest : List Token) :
    field (f.tokens ++ rest) = .ok (f.read, .punct "," :: rest) := by
  have notKeyword := (isName_iff.mp named).2
  have notPub : f.name ≠ "pub" := by
    intro isPub
    exact notKeyword (isPub ▸ (by decide : "pub" ∈ keywords))
  have notOpen : f.name ≠ "_" := by
    intro isOpen
    exact notKeyword (isOpen ▸ (by decide : "_" ∈ keywords))
  have read := attributes_tokens (f.attributes.map (·.written))
    (publicTokens f.isPublic ++ .ident f.name :: .punct ":" :: (f.type ++ .punct "," :: rest))
    (by cases f.isPublic <;> simp [publicTokens])
  have seen := visibility_public f.isPublic notPub (.punct ":" :: (f.type ++ .punct "," :: rest))
  have type := typeExpr_comma rest (WrittenField.spells_type isType).2.1
  have fieldName : fieldName (.ident f.name :: .punct ":" :: (f.type ++ .punct "," :: rest)) =
      .ok (f.name, .punct ":" :: (f.type ++ .punct "," :: rest)) := by
    simp [fieldName, notOpen, name_ident named]
  have colon : mark ":" (.punct ":" :: (f.type ++ .punct "," :: rest)) =
      .ok ((), f.type ++ .punct "," :: rest) := rfl
  have whole : f.tokens ++ rest = (f.attributes.map (·.written)).flatMap (·.tokens) ++
      (publicTokens f.isPublic ++
        .ident f.name :: .punct ":" :: (f.type ++ .punct "," :: rest)) := by
    simp [WrittenField.tokens, List.flatMap_map]
  rw [field, whole]
  simp only [read, bind, Except.bind, seen, fieldName, colon, type]
  simp [WrittenField.read, pure, Except.pure]

private theorem fields_cons {fuel : Nat} {ts rest : List Token} {f : FieldSource}
    {fs : List FieldSource}
    (first : field ts = .ok (f, .punct "," :: rest)) (others : fields fuel rest = .ok fs) :
    fields (fuel + 1) ts = .ok (f :: fs) := by
  have comma : mark "," (.punct "," :: rest) = .ok ((), rest) := rfl
  cases ts with
  | nil => cases first
  | cons t ts => simp only [fields, first, bind, Except.bind, comma, others, pure, Except.pure]

private theorem fields_tokens {fs : List WrittenField} (named : ∀ f ∈ fs, isName f.name = true)
    (types : ∀ f ∈ fs, isTypeText f.typeText = true) {fuel : Nat} (enough : fs.length ≤ fuel) :
    fields fuel (fs.flatMap (·.tokens)) = .ok (fs.map (·.read)) := by
  induction fs generalizing fuel with
  | nil => cases fuel <;> rfl
  | cons f fs ih =>
      obtain ⟨fuel, rfl⟩ := Nat.exists_eq_add_one.mpr (Nat.zero_lt_of_lt enough)
      have first := field_tokens (named f List.mem_cons_self) (types f List.mem_cons_self)
        (fs.flatMap (·.tokens))
      have others := ih (fun g member => named g (List.mem_cons_of_mem _ member))
        (fun g member => types g (List.mem_cons_of_mem _ member)) (Nat.le_of_succ_le_succ enough)
      exact fields_cons first others

/-- The record as it is read. -/
def WrittenRecord.item (w : WrittenRecord) : Item where
  attributes := w.tables.map fun names => (tableAttribute names).read
  visibility := publicTokens w.isPublic
  name := w.name
  isGeneric := false
  body := .named (w.fields.map (·.read))

private theorem length_le_tokens (fs : List WrittenField) :
    fs.length ≤ (fs.flatMap (·.tokens)).length := by
  induction fs with
  | nil => exact Nat.le_refl 0
  | cons f fs ih =>
      simp only [List.flatMap_cons, List.length_append, List.length_cons,
        WrittenField.tokens] at ih ⊢
      omega

/-- A record is read back, with the fields in it. -/
theorem item_tokens {w : WrittenRecord} (named : isName w.name = true)
    (fieldsNamed : ∀ f ∈ w.fields, isName f.name = true)
    (types : ∀ f ∈ w.fields, isTypeText f.typeText = true) : item w.tokens = .ok w.item := by
  have read := attributes_tokens (w.tables.map WrittenRecord.tableAttribute)
    (publicTokens w.isPublic ++
      [.ident "struct", .ident w.name, .group .brace (w.fields.flatMap (·.tokens))])
    (by cases w.isPublic <;> simp [publicTokens])
  have seen := visibility_public w.isPublic (n := "struct") (by decide)
    [.ident w.name, .group .brace (w.fields.flatMap (·.tokens))]
  have parameters : parameters [.group .brace (w.fields.flatMap (·.tokens))] =
      .ok ([], [.group .brace (w.fields.flatMap (·.tokens))]) := rfl
  have body : recordBody [.group .brace (w.fields.flatMap (·.tokens))] =
      .ok (.named (w.fields.map (·.read)), []) := by
    simp only [recordBody, afterConditions,
      fields_tokens fieldsNamed types (length_le_tokens w.fields)]
    rfl
  have whole : w.tokens = (w.tables.map WrittenRecord.tableAttribute).flatMap (·.tokens) ++
      (publicTokens w.isPublic ++
        [.ident "struct", .ident w.name, .group .brace (w.fields.flatMap (·.tokens))]) := by
    simp [WrittenRecord.tokens, List.flatMap_map]
  rw [item, whole]
  simp only [read, bind, Except.bind, seen, pure, Except.pure, name_ident named, parameters, body,
    List.map_map]
  rfl

/-- The field with its type as it is read. -/
def WrittenField.declaration (f : WrittenField) : FieldDeclaration :=
  { f.declared with typeText := writtenAll f.type }

/-- The model with its types as they are read. -/
def WrittenRecord.declaration (w : WrittenRecord) : Declaration :=
  { w.declared with fields := w.fields.map (·.declaration) }

private theorem declaration_read (f : WrittenField) : f.read.declaration = .ok f.declaration := by
  simp only [FieldSource.declaration, WrittenField.read, notes?_column, notes?_key, bind,
    Except.bind]
  rfl

/-- The declaration of a record that was read is that of the record that was written. -/
theorem declaration_item (w : WrittenRecord) :
    w.item.declaration (w.fields.map (·.read)) = .ok w.declaration := by
  have fields : (w.fields.map (·.read)).mapM (·.declaration) =
      .ok (w.fields.map (·.declaration)) := by
    rw [List.mapM_map]
    simp only [Function.comp_def, declaration_read]
    exact List.mapM_pure
  simp only [Item.declaration, WrittenRecord.item, tableName_read, fields, bind, Except.bind]
  rfl

end Tabula.Source
