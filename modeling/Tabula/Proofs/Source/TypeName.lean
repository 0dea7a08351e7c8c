import Mathlib.Data.List.Nodup
import Tabula.Proofs.Source.Contract
import Tabula.Proofs.Source.GeneratedType
import Tabula.Proofs.Source.Identifier

/-! # The types that are generated for columns

For each column a type is generated, with the name of the record and, in capitals, the name of the
field. What is made of a field's name is not another for every other name: underscores are left out
and so is the case of letters behind them. Names of small words with single underscores between them
are told apart (`Tabula.Source.pascalCase_injective`), so a record of such fields has a type of its
own for each column; other names may be given to two types, to a type and the record, or to no type
at all (`Tabula.Source.Derivation.typeNames_of_derive`). Of two types with one name only the first is
told anything, and it is told the column of the other one.
-/

namespace Tabula.Source

/-! ## Letters -/

private theorem toUpper_of_isLower {c : Char} (small : c.isLower = true) :
    c.toUpper.isUpper = true ∧ c.toUpper.toLower = c := by
  have letters : ∀ n < 123, (Char.ofNat n).isLower = true →
      (Char.ofNat n).toUpper.isUpper = true ∧ (Char.ofNat n).toUpper.toLower = Char.ofNat n := by
    decide +kernel
  have bound : c.toNat < 123 := by
    have atMost := (Bool.and_eq_true_iff.mp small).2
    exact Nat.lt_succ_of_le (of_decide_eq_true atMost)
  simpa only [Char.ofNat_toNat] using letters c.toNat bound (by rwa [Char.ofNat_toNat])

private theorem toUpper_of_not_isLower {c : Char} (notSmall : c.isLower = false) :
    c.toUpper = c := by
  refine dif_neg fun small => ?_
  rcases Bool.and_eq_false_iff.mp notSmall with below | above
  · exact of_decide_eq_false below small.1
  · exact of_decide_eq_false above small.2

private theorem continuesName_toUpper {c : Char} (inside : continuesName c = true) :
    continuesName c.toUpper = true := by
  cases small : c.isLower with
  | false => rwa [toUpper_of_not_isLower small]
  | true =>
      have capital := (toUpper_of_isLower small).1
      have letter : c.toUpper.isAlpha = true := Bool.or_eq_true_iff.mpr (Or.inl capital)
      rw [continuesName, beginsName, letter, Bool.true_or, Bool.true_or, Bool.true_or]

/-! ## Names in capitals -/

section PascalCase

variable {capital : Bool} {c : Char} {cs ds : List Char} {n base : String}

private theorem go_underscore : pascalCase.go capital ('_' :: cs) = pascalCase.go true cs := by
  rw [pascalCase.go]

private theorem go_letter (letter : c ≠ '_') :
    pascalCase.go capital (c :: cs) =
      (if capital then c.toUpper else c) :: pascalCase.go false cs := by
  rw [pascalCase.go]
  exact letter

/-- A part of a name in capitals is a part of a name. -/
theorem all_go (inside : ∀ c ∈ cs, continuesName c = true) :
    ∀ c ∈ pascalCase.go capital cs, continuesName c = true := by
  induction cs generalizing capital with
  | nil => exact fun c member => absurd member List.not_mem_nil
  | cons c cs ih =>
      have others (capital : Bool) := @ih capital fun x member =>
        inside x (List.mem_cons_of_mem _ member)
      by_cases isMark : c = '_'
      · rw [isMark, go_underscore]
        exact others true
      · rw [go_letter isMark]
        have here := inside c List.mem_cons_self
        refine List.forall_mem_cons.mpr ⟨?_, others false⟩
        split
        · exact continuesName_toUpper here
        · exact here

/-- Nothing is left just of underscores. -/
theorem go_eq_nil_iff : pascalCase.go capital cs = [] ↔ ∀ c ∈ cs, c = '_' := by
  induction cs generalizing capital with
  | nil => simp [pascalCase.go]
  | cons c cs ih =>
      by_cases isMark : c = '_'
      · rw [isMark, go_underscore, ih]
        simp
      · rw [go_letter isMark]
        simp [isMark]

private theorem isWord_append (isWord : isWord base = true) :
    Source.isWord (base ++ n) = n.toList.all continuesName := by
  obtain ⟨c, cs, chars, begins, inside⟩ := exists_chars_of_isWord isWord
  have others : cs.all continuesName = true :=
    List.all_eq_true.mpr fun x member => inside x (List.mem_cons_of_mem _ member)
  simp only [Source.isWord, String.toList_append, chars, List.cons_append, List.all_append, begins,
    others, Bool.true_and]

/-- An identifier that is no word is a raw name. -/
theorem exists_raw (isIdentifier : isIdentifier n = true) (notWord : isWord n = false) :
    ∃ cs, n.toList = 'r' :: '#' :: cs ∧ isWord (String.ofList cs) = true := by
  rw [Source.isIdentifier, notWord, Bool.false_or] at isIdentifier
  split at isIdentifier
  · rename_i cs chars
    exact ⟨cs, chars, (Bool.and_eq_true_iff.mp isIdentifier).1⟩
  · cases isIdentifier

/-- An identifier without the mark of a raw name is a word. -/
theorem isWord_bareName (isIdentifier : isIdentifier n = true) : isWord (bareName n) = true := by
  cases word : isWord n with
  | true =>
      obtain ⟨c, cs, chars, -, inside⟩ := exists_chars_of_isWord word
      have same : bareName n = n := by
        unfold bareName
        split
        · rename_i rest isRaw
          have mark : continuesName '#' = true := by
            refine inside '#' (chars ▸ ?_)
            rw [isRaw]
            exact List.mem_cons_of_mem _ List.mem_cons_self
          cases mark
        · rfl
      rw [same, word]
  | false =>
      obtain ⟨cs, chars, ofWord⟩ := exists_raw isIdentifier word
      rw [bareName, chars]
      exact ofWord

/-- The name of a type is a name just if that of the field is not raw. -/
theorem isWord_typeName (isBase : isWord base = true) (isIdentifier : isIdentifier n = true) :
    isWord (base ++ pascalCase n) = isWord n := by
  rw [isWord_append isBase, pascalCase, String.toList_ofList]
  cases word : isWord n with
  | true =>
      obtain ⟨c, cs, chars, -, inside⟩ := exists_chars_of_isWord word
      rw [chars]
      exact List.all_eq_true.mpr (all_go inside)
  | false =>
      obtain ⟨cs, chars, -⟩ := exists_raw isIdentifier word
      rw [chars, go_letter (by decide), go_letter (by decide)]
      rfl

/-! ## Small words -/

/-- Whether the characters are small words with one underscore between any two. A word begins with a
small letter and has no capital in it; `start` says that a word is to begin. -/
def areWords (start : Bool) : List Char → Bool
  | [] => !start
  | '_' :: rest => !start && areWords true rest
  | c :: rest =>
    (if start then c.isLower else continuesName c && !c.isUpper) && areWords false rest

/-- Whether a name is made of small words, with one underscore between any two. -/
def isSnakeCase (name : String) : Bool := areWords true name.toList

private theorem areWords_letter {start : Bool} (letter : c ≠ '_') :
    areWords start (c :: cs) =
      ((if start then c.isLower else continuesName c && !c.isUpper) && areWords false cs) := by
  rw [areWords]
  exact letter

/-- A word begins with a small letter, which is made a capital. -/
theorem exists_letter (words : areWords true cs = true) :
    ∃ c rest, cs = c :: rest ∧ c.isLower = true ∧ areWords false rest = true ∧
      pascalCase.go true cs = c.toUpper :: pascalCase.go false rest := by
  cases cs with
  | nil => cases words
  | cons c rest =>
      by_cases isMark : c = '_'
      · rw [isMark] at words
        cases words
      · rw [areWords_letter isMark, Bool.and_eq_true] at words
        exact ⟨c, rest, rfl, words.1, words.2, go_letter isMark⟩

/-- Inside of a word there is no capital. -/
theorem go_head_of_words (letter : c ≠ '_') (words : areWords false (c :: cs) = true)
    (words' : areWords true ds = true) :
    pascalCase.go false (c :: cs) ≠ pascalCase.go true ds := by
  obtain ⟨d, rest, -, small, -, isGo⟩ := exists_letter words'
  rw [areWords_letter letter, Bool.and_eq_true] at words
  have notCapital : (!c.isUpper) = true := (Bool.and_eq_true_iff.mp words.1).2
  intro same
  rw [go_letter letter, isGo] at same
  have isCapital := (toUpper_of_isLower small).1
  obtain ⟨sameHead, -⟩ := List.cons.inj same
  rw [← sameHead, if_neg Bool.false_ne_true] at isCapital
  rw [isCapital] at notCapital
  cases notCapital

/-- Something is left of every word. -/
theorem eq_nil_of_go {start : Bool} (words : areWords start cs = true)
    (none : pascalCase.go start cs = []) : cs = [] := by
  have marks := go_eq_nil_iff.mp none
  cases cs with
  | nil => rfl
  | cons c cs =>
      obtain rfl := marks c List.mem_cons_self
      rw [areWords, Bool.and_eq_true] at words
      obtain ⟨d, rest, rfl, small, -, -⟩ := exists_letter words.2
      obtain rfl := marks d (List.mem_cons_of_mem _ List.mem_cons_self)
      cases small

/-- Small words are read back off the capitals. -/
theorem go_injective {start : Bool} (words : areWords start cs = true)
    (words' : areWords start ds = true) (same : pascalCase.go start cs = pascalCase.go start ds) :
    cs = ds := by
  induction cs generalizing start ds with
  | nil =>
      exact (eq_nil_of_go words' same.symm).symm
  | cons c cs ih =>
      cases start with
      | true =>
          obtain ⟨c', rest, split, small, words, isGo⟩ := exists_letter words
          obtain ⟨d, rest', rfl, small', words', isGo'⟩ := exists_letter words'
          obtain ⟨rfl, rfl⟩ := List.cons.inj split
          rw [isGo, isGo'] at same
          obtain ⟨sameHead, sameRest⟩ := List.cons.inj same
          have sameLetter := congrArg Char.toLower sameHead
          rw [(toUpper_of_isLower small).2, (toUpper_of_isLower small').2] at sameLetter
          rw [sameLetter, ih words words' sameRest]
      | false =>
          cases ds with
          | nil => exact eq_nil_of_go words same
          | cons d ds =>
              by_cases isMark : c = '_' <;> by_cases isMark' : d = '_'
              · subst isMark isMark'
                rw [areWords, Bool.and_eq_true] at words words'
                rw [go_underscore, go_underscore] at same
                rw [ih words.2 words'.2 same]
              · subst isMark
                rw [areWords, Bool.and_eq_true] at words
                rw [go_underscore] at same
                exact absurd same.symm (go_head_of_words isMark' words' words.2)
              · subst isMark'
                rw [areWords, Bool.and_eq_true] at words'
                rw [go_underscore] at same
                exact absurd same (go_head_of_words isMark words words'.2)
              · rw [areWords_letter isMark, Bool.and_eq_true] at words
                rw [areWords_letter isMark', Bool.and_eq_true] at words'
                rw [go_letter isMark, go_letter isMark'] at same
                obtain ⟨sameHead, sameRest⟩ := List.cons.inj same
                rw [show c = d from sameHead, ih words.2 words'.2 sameRest]

private theorem pascalCase_injective {m : String} (words : isSnakeCase n = true)
    (words' : isSnakeCase m = true) (same : pascalCase n = pascalCase m) : n = m :=
  String.toList_injective (go_injective words words' (String.ofList_inj.mp same))

/-- Small words are no raw name. -/
theorem isWord_of_isSnakeCase (isIdentifier : isIdentifier n = true)
    (words : isSnakeCase n = true) : isWord n = true := by
  by_contra notWord
  obtain ⟨cs, chars, -⟩ := exists_raw isIdentifier (Bool.eq_false_iff.mpr notWord)
  rw [isSnakeCase, chars, areWords_letter (by decide), areWords_letter (by decide)] at words
  cases words

/-- No keyword has a capital in it, apart from its first letter. -/
theorem notKeyword_of_capital (isBase : isWord base = true) (words : isSnakeCase n = true) :
    keywords.contains (base ++ pascalCase n) = false := by
  have noCapital : (keywords.all fun k => k.toList.tail.all fun c => !c.isUpper) = true := by
    decide +kernel
  obtain ⟨b, bs, ofBase, -, -⟩ := exists_chars_of_isWord isBase
  obtain ⟨c, rest, -, small, -, isGo⟩ := exists_letter words
  rw [← Bool.not_eq_true, List.contains_iff_mem]
  intro isKeyword
  have inside : c.toUpper ∈ (base ++ pascalCase n).toList.tail := by
    rw [pascalCase, String.toList_append, String.toList_ofList, isGo, ofBase]
    exact List.mem_append_right _ List.mem_cons_self
  have capital := List.all_eq_true.mp (List.all_eq_true.mp noCapital _ isKeyword) _ inside
  rw [(toUpper_of_isLower small).1] at capital
  cases capital

end PascalCase

/-! ## The names of the types -/

namespace Derivation

variable {text : String} {d : Derivation}

private theorem map_typeName (d : Derivation) :
    d.columns.map (·.typeName) =
      d.mapped.map fun p => bareName d.item.name ++ pascalCase p.2.name := by
  have fields := congrArg
    (List.map fun p : Column × FieldSource => bareName d.item.name ++ pascalCase p.2.name)
    (List.zipIdx_map_fst 0 d.mapped)
  rw [List.map_map] at fields
  rw [columns, List.map_map, ← fields]
  rfl

/-- The fields of the columns are fields of the record, each of one column at most. -/
theorem nodup_mapped (derived : derive text = .ok d) (distinct : (d.fields.map (·.name)).Nodup) :
    (d.mapped.map (·.2.name)).Nodup := by
  rw [(map_mapped derived).2]
  exact distinct.sublist (fields_sublist derived)

private theorem isIdentifier_mapped (derived : derive text = .ok d) {p : Column × FieldSource}
    (member : p ∈ d.mapped) : isIdentifier p.2.name = true := by
  obtain ⟨c, -, paired⟩ := List.mem_filterMap.mp member
  obtain ⟨f, found, rfl⟩ := Option.map_eq_some_iff.mp paired
  exact (named_of_derive derived).2.2 f (List.mem_of_find?_eq_some found)

private theorem isWord_bareName_item (derived : derive text = .ok d) :
    isWord (bareName d.item.name) = true :=
  isWord_bareName (named_of_derive derived).1

/-- The types are generated just if no field of a column has a raw name. -/
theorem generated?_eq (derived : derive text = .ok d) :
    d.generated? = if d.mapped.all fun p => isWord p.2.name then some d.columns else none := by
  have names : (d.columns.all fun c => isWord c.typeName) =
      d.mapped.all fun p => isWord p.2.name := by
    have ofTypes : (d.columns.all fun c => isWord c.typeName) =
        (d.columns.map (·.typeName)).all isWord := by
      rw [List.all_map]
      rfl
    rw [ofTypes, map_typeName, List.all_map, Bool.eq_iff_iff, List.all_eq_true, List.all_eq_true]
    refine forall₂_congr fun p member => ?_
    rw [Function.comp_apply,
      isWord_typeName (isWord_bareName_item derived) (isIdentifier_mapped derived member)]
  rw [generated?, names]

/-- **The names of the types for columns.** For a record whose fields have distinct names there is a
type for each column, by the name of the record and that of the column's field in capitals. The types
can be generated just if no field of a column has a raw name. A type goes by the name of the record
just if the field's name is nothing but underscores, and two types by one name just if their fields'
names are the same in capitals. Each column gets a type of its own, with its own traits, just if no two
names are the same. Where the names of the fields are small words with one underscore between any two,
all is well: the types are generated, and their names are names, no two of them the same, and none that
of the record. -/
theorem typeNames_of_derive (derived : derive text = .ok d)
    (distinct : (d.fields.map (·.name)).Nodup) :
    (d.mapped.map (·.1) = d.table.columns ∧ (d.mapped.map (·.2.name)).Nodup ∧
      d.columns.map (·.typeName) =
        d.mapped.map fun p => bareName d.item.name ++ pascalCase p.2.name) ∧
    (d.generated? =
      if d.mapped.all fun p => isWord p.2.name then some d.columns else none) ∧
    (∀ p ∈ d.mapped, bareName d.item.name ++ pascalCase p.2.name = bareName d.item.name ↔
      ∀ c ∈ p.2.name.toList, c = '_') ∧
    ((d.columns.map (·.typeName)).Nodup ↔ (d.mapped.map fun p => pascalCase p.2.name).Nodup) ∧
    (d.types = d.columns.map .own ↔ (d.columns.map (·.typeName)).Nodup) ∧
    ((∀ p ∈ d.mapped, isSnakeCase p.2.name = true) →
      d.generated? = some d.columns ∧
      (∀ c ∈ d.columns, isName c.typeName = true ∧ c.typeName ≠ bareName d.item.name) ∧
      (d.columns.map (·.typeName)).Nodup ∧ d.types = d.columns.map .own) := by
  have isBase := isWord_bareName_item derived
  have generates := generated?_eq derived
  have ofRecord : ∀ p ∈ d.mapped,
      (bareName d.item.name ++ pascalCase p.2.name = bareName d.item.name ↔
        ∀ c ∈ p.2.name.toList, c = '_') := by
    intro p member
    rw [← go_eq_nil_iff, String.append_eq_left_iff, pascalCase, String.ofList_eq_empty_iff]
  have apart : (d.columns.map (·.typeName)).Nodup ↔
      (d.mapped.map fun p => pascalCase p.2.name).Nodup := by
    have joined : d.columns.map (·.typeName) =
        (d.mapped.map fun p => pascalCase p.2.name).map (bareName d.item.name ++ ·) := by
      rw [map_typeName, List.map_map]
      rfl
    rw [joined]
    exact List.nodup_map_iff fun a b same => String.append_right_inj _ |>.mp same
  have fields := nodup_mapped derived distinct
  refine ⟨⟨(map_mapped derived).1, fields, map_typeName d⟩, generates, ofRecord, apart,
    types_eq_map_own_iff d, ?_⟩
  intro words
  have word : ∀ p ∈ d.mapped, isWord p.2.name = true := fun p member =>
    isWord_of_isSnakeCase (isIdentifier_mapped derived member) (words p member)
  have distinctTypes : (d.columns.map (·.typeName)).Nodup := by
    have inCapitals : (d.mapped.map fun p => pascalCase p.2.name) =
        (d.mapped.map (·.2.name)).map pascalCase := by
      rw [List.map_map]
      rfl
    rw [apart, inCapitals]
    refine fields.map_on fun n isField m isField' => ?_
    obtain ⟨p, member, rfl⟩ := List.mem_map.mp isField
    obtain ⟨q, member', rfl⟩ := List.mem_map.mp isField'
    exact pascalCase_injective (words p member) (words q member')
  refine ⟨?_, fun c member => ?_, distinctTypes, (types_eq_map_own_iff d).mpr distinctTypes⟩
  · rw [generates, if_pos (List.all_eq_true.mpr word)]
  · have typed : c.typeName ∈ d.columns.map (·.typeName) := List.mem_map_of_mem member
    rw [map_typeName] at typed
    obtain ⟨p, isMapped, named⟩ := List.mem_map.mp typed
    have identifier := isIdentifier_mapped derived isMapped
    rw [← named]
    constructor
    · rw [isName, isWord_typeName isBase identifier, word p isMapped,
        notKeyword_of_capital isBase (words p isMapped)]
      rfl
    · intro same
      obtain ⟨x, rest, chars, small, -⟩ := exists_letter (words p isMapped)
      have isMark := (ofRecord p isMapped).mp same x (chars ▸ List.mem_cons_self)
      rw [isMark] at small
      cases small

/-- A record with a field without a column between two columns. -/
def priced : String :=
  "struct Item \x7b #[column] id: i64, cache: Cache, #[column] net_price: f64 \x7d"

/-- A record of small words has a type of its own for each column. -/
theorem typeNames_of_derive_priced :
    ∃ d, derive priced = .ok d ∧ (d.fields.map (·.name)).Nodup ∧
      d.columns.map (·.typeName) = ["ItemId", "ItemNetPrice"] ∧
      d.generated? = some d.columns ∧ (∀ c ∈ d.columns, isName c.typeName = true) ∧
      d.types = d.columns.map .own := by
  have found : (derive priced).toOption.map (fun d => (d.fields.map (·.name),
      d.mapped.map (·.2.name), d.columns.map (·.typeName))) =
      some (["id", "cache", "net_price"], ["id", "net_price"], ["ItemId", "ItemNetPrice"]) := by
    decide +kernel
  obtain ⟨d, derived, known⟩ := Option.map_eq_some_iff.mp found
  obtain ⟨names, known⟩ := Prod.mk.inj known
  obtain ⟨mapped, types⟩ := Prod.mk.inj known
  have derived := eq_ok_of_toOption derived
  have distinct : (d.fields.map (·.name)).Nodup := by
    rw [names]
    decide
  have small : ∀ n ∈ d.mapped.map (·.2.name), isSnakeCase n = true := by
    rw [mapped]
    decide +kernel
  obtain ⟨-, -, -, -, -, all⟩ := typeNames_of_derive derived distinct
  obtain ⟨generated, apart, -, own⟩ := all fun p member => small _ (List.mem_map_of_mem member)
  exact ⟨d, derived, distinct, types, generated, fun c member => (apart c member).1, own⟩

/-- Two columns by the names of which one type goes, so that one of the types is told the column of the
other one, and the other is told none; a column whose type goes by the name of the record; and a column
for which no type can be generated. -/
theorem typeNames_clash :
    (∃ d, derive "struct Item \x7b #[column] a_b: i64, #[column] a__b: i64 \x7d" = .ok d ∧
      d.fields.map (·.name) = ["a_b", "a__b"] ∧
      d.columns.map (·.typeName) = ["ItemAB", "ItemAB"] ∧
      d.types.map (fun g => g.column.map (·.column.name)) = [some "a__b", none]) ∧
    (∃ d, derive "struct Item \x7b #[column] __: i64 \x7d" = .ok d ∧
      d.fields.map (·.name) = ["__"] ∧ d.columns.map (·.typeName) = [d.item.name]) ∧
    ∃ d, derive "struct Item \x7b #[column] r#type: i64 \x7d" = .ok d ∧
      d.fields.map (·.name) = ["r#type"] ∧ d.generated?.isNone = true := by
  refine ⟨?_, ?_, ?_⟩
  · have found : (derive "struct Item \x7b #[column] a_b: i64, #[column] a__b: i64 \x7d").toOption.map
        (fun d => (d.fields.map (·.name), d.columns.map (·.typeName),
          d.types.map fun g => g.column.map (·.column.name))) =
        some (["a_b", "a__b"], ["ItemAB", "ItemAB"], [some "a__b", none]) := by
      decide +kernel
    obtain ⟨d, derived, known⟩ := Option.map_eq_some_iff.mp found
    obtain ⟨names, known⟩ := Prod.mk.inj known
    exact ⟨d, eq_ok_of_toOption derived, names, Prod.mk.inj known⟩
  · have found : (derive "struct Item \x7b #[column] __: i64 \x7d").toOption.map
        (fun d => (d.fields.map (·.name), d.columns.map (·.typeName), d.item.name)) =
        some (["__"], ["Item"], "Item") := by
      decide +kernel
    obtain ⟨d, derived, known⟩ := Option.map_eq_some_iff.mp found
    obtain ⟨names, known⟩ := Prod.mk.inj known
    obtain ⟨types, record⟩ := Prod.mk.inj known
    exact ⟨d, eq_ok_of_toOption derived, names, types.trans (by rw [record])⟩
  · have found : (derive "struct Item \x7b #[column] r#type: i64 \x7d").toOption.map
        (fun d => (d.fields.map (·.name), d.generated?.isNone)) =
        some (["r#type"], true) := by
      decide +kernel
    obtain ⟨d, derived, known⟩ := Option.map_eq_some_iff.mp found
    exact ⟨d, eq_ok_of_toOption derived, Prod.mk.inj known⟩

end Derivation

end Tabula.Source
