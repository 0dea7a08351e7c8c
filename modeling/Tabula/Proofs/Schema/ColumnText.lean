import Tabula.Proofs.Schema.Lexeme

/-! # What the definition of a column says

The lexemes of a definition (`Tabula.Column.lexemes`) spell its text, and a word is among them
exactly when an attribute of the column asks for it (`Tabula.Column.word_mem_lexemes`). So every
attribute that has a word can be read off them, and with it what the column references
(`Tabula.Column.alike_of_lexemes_eq`); the constraint of a column that may be NULL and is neither
unique nor a key has no conflict clause, and nothing is known of its policy.
-/

namespace Tabula

open Ddl

/-- A name is quoted character by character. -/
theorem toList_quote (name : String) :
    (Dialect.sqlite.quote name).toList = Text.quoteChars '"' name.toList :=
  String.toList_ofList

/-! ## Columns -/

/-- The lexemes of a reference to another table. -/
def referenceLexemes : Option Association → List Lexeme
  | none => []
  | some a =>
    .word .references :: .name a.target ::
      match a.onDelete with
      | some action => [.word .on, .word (.delete action)]
      | none => []

namespace Column

variable {c c' : Column} {a a' : Option Association}

/-- The lexemes of what a column's constraint says about conflicts. -/
def conflictLexemes (c : Column) : List Lexeme :=
  if c.effectivePolicy = .unset then []
  else [.word .on, .word (.conflict c.effectivePolicy)]

/-- The lexemes of the constraints on the values of a column. -/
def constraintLexemes (c : Column) : List Lexeme :=
  if c.primaryKey then
    .word .primaryKey ::
      (c.conflictLexemes ++ if c.autoincrement then [.word .autoincrement] else [])
  else
    (if c.nullable then []
      else .word .notNull :: if c.unique then [] else c.conflictLexemes) ++
    if c.unique then .word .unique :: c.conflictLexemes else []

/-- The lexemes of the default value of a column. -/
def defaultLexemes (c : Column) : List Lexeme :=
  match c.defaultExpr with
  | some expr => [.default expr]
  | none => []

/-- The lexemes of the collation of a column. -/
def collationLexemes (c : Column) : List Lexeme :=
  if c.collation = .binary then [] else [.word (.collate c.collation)]

/-- The lexemes of the definition of a column. -/
def lexemes (c : Column) (a : Option Association) : List Lexeme :=
  .name c.name :: .word (.storage c.storage) ::
    (c.constraintLexemes ++ c.defaultLexemes ++ c.collationLexemes ++ referenceLexemes a)

private theorem spelling_conflictLexemes :
    spelling c.conflictLexemes = (Dialect.conflictClause c).toList := by
  have twoWords : " ON CONFLICT ".toList = " ON ".toList ++ "CONFLICT ".toList := by
    decide +kernel
  unfold conflictLexemes Dialect.conflictClause ConflictPolicy.keyword?
  split
  · simp
  · simp only [spelling_cons, spelling_nil, Lexeme.chars_word, Word.text, String.toList_append,
      twoWords, List.append_assoc, List.append_nil]

/-- The constraints of a column are spelled by their lexemes. -/
theorem spelling_constraintLexemes :
    spelling c.constraintLexemes = (Dialect.constraintClauses c).toList := by
  have clause := @spelling_conflictLexemes c
  unfold constraintLexemes Dialect.constraintClauses
  split
  · simp only [spelling_cons, spelling_append, Lexeme.chars_word, Word.text, String.toList_append,
      clause, List.append_assoc]
    split <;> simp [Word.text]
  · simp only [spelling_append, String.toList_append]
    congr 1
    · split
      · simp
      · simp only [spelling_cons, Lexeme.chars_word, Word.text, String.toList_append]
        split <;> simp [clause]
    · split
      · simp only [spelling_cons, Lexeme.chars_word, Word.text, String.toList_append, clause]
      · simp

private theorem spelling_defaultLexemes :
    spelling c.defaultLexemes = (Dialect.defaultClause c).toList := by
  unfold defaultLexemes Dialect.defaultClause
  cases c.defaultExpr with
  | none => simp
  | some expr =>
      simp only [spelling_cons, spelling_nil, Lexeme.chars_default, String.toList_append,
        List.append_nil]

private theorem spelling_collationLexemes :
    spelling c.collationLexemes = (Dialect.collationClause c).toList := by
  unfold collationLexemes Dialect.collationClause
  split
  · simp
  · simp only [spelling_cons, spelling_nil, Lexeme.chars_word, Word.text, String.toList_append,
      List.append_nil]

private theorem spelling_referenceLexemes :
    spelling (referenceLexemes a) = (Dialect.sqlite.referenceClause a).toList := by
  have twoWords : " ON DELETE ".toList = " ON ".toList ++ "DELETE ".toList := by
    decide +kernel
  cases a with
  | none => rfl
  | some a =>
      simp only [referenceLexemes, Dialect.referenceClause, spelling_cons, Lexeme.chars_word,
        Lexeme.chars_name, Word.text, String.toList_append, toList_quote, List.append_assoc]
      cases a.onDelete with
      | none => rfl
      | some action =>
          simp only [spelling_cons, spelling_nil, Lexeme.chars_word, Word.text,
            String.toList_append, twoWords, List.append_assoc, List.append_nil]

/-- The definition of a column is spelled by its lexemes. -/
theorem spelling_lexemes :
    spelling (c.lexemes a) = (Dialect.sqlite.definition c a).toList := by
  simp only [lexemes, Dialect.definition, spelling_cons, spelling_append, Lexeme.chars_word,
    Lexeme.chars_name, Word.text, String.toList_append, toList_quote, spelling_constraintLexemes,
    spelling_defaultLexemes, spelling_collationLexemes, spelling_referenceLexemes,
    List.append_assoc]
  rfl

private theorem phrase_conflictLexemes : Phrase c.conflictLexemes := by
  unfold conflictLexemes
  split
  · exact Phrase.nil
  · exact Phrase.word (Phrase.word Phrase.nil.spaced).spaced

/-- The lexemes of constraints may stand after any others. -/
theorem phrase_constraintLexemes : Phrase c.constraintLexemes := by
  have clause := @phrase_conflictLexemes c
  unfold constraintLexemes
  split
  · refine Phrase.word (clause.append ?_).spaced
    split
    · exact Phrase.word Phrase.nil.spaced
    · exact Phrase.nil
  · refine Phrase.append ?_ ?_
    · split
      · exact Phrase.nil
      · refine Phrase.word ?_
        split
        · exact Phrase.nil.spaced
        · exact clause.spaced
    · split
      · exact Phrase.word clause.spaced
      · exact Phrase.nil

private theorem phrase_defaultLexemes : Phrase c.defaultLexemes := by
  unfold defaultLexemes
  split
  · exact Phrase.default _
  · exact Phrase.nil

private theorem phrase_collationLexemes : Phrase c.collationLexemes := by
  unfold collationLexemes
  split
  · exact Phrase.nil
  · exact Phrase.word Phrase.nil.spaced

private theorem phrase_referenceLexemes : Phrase (referenceLexemes a) := by
  unfold referenceLexemes
  split
  · exact Phrase.nil
  · refine Phrase.word (Spaced.name ?_)
    split
    · exact Phrase.word (Phrase.word Phrase.nil.spaced).spaced
    · exact Phrase.nil

/-- The lexemes of a column have something between any two names. -/
theorem spaced_lexemes : Spaced (c.lexemes a) := by
  refine Spaced.name (Phrase.word (Phrase.spaced ?_))
  exact ((phrase_constraintLexemes.append phrase_defaultLexemes).append
    phrase_collationLexemes).append phrase_referenceLexemes

/-- Whether the definition of a column has a conflict clause. -/
def StatesPolicy (c : Column) : Prop :=
  c.effectivePolicy ≠ .unset ∧ (c.primaryKey ∨ c.unique ∨ ¬ c.nullable)

/-- Whether a word is in the definition of a column that makes the reference. -/
def HasWord (c : Column) (a : Option Association) : Word → Prop
  | .storage type => type = c.storage
  | .primaryKey => c.primaryKey
  | .autoincrement => c.primaryKey ∧ c.autoincrement
  | .notNull => ¬ c.primaryKey ∧ ¬ c.nullable
  | .unique => ¬ c.primaryKey ∧ c.unique
  | .conflict policy => c.StatesPolicy ∧ policy = c.effectivePolicy
  | .collate collation => c.collation ≠ .binary ∧ collation = c.collation
  | .references => a.isSome
  | .delete action => a.bind (·.onDelete) = some action
  | .on => c.StatesPolicy ∨ (a.bind (·.onDelete)).isSome
  | _ => False

private theorem mem_constraintLexemes {x : Lexeme} :
    x ∈ c.constraintLexemes ↔
      (x = .word .primaryKey ∧ c.primaryKey) ∨
      (x = .word .autoincrement ∧ c.primaryKey ∧ c.autoincrement) ∨
      (x = .word .notNull ∧ ¬ c.primaryKey ∧ ¬ c.nullable) ∨
      (x = .word .unique ∧ ¬ c.primaryKey ∧ c.unique) ∨
      ((x = .word .on ∨ x = .word (.conflict c.effectivePolicy)) ∧ c.StatesPolicy) := by
  unfold constraintLexemes conflictLexemes StatesPolicy
  cases c.primaryKey <;> cases c.autoincrement <;> cases c.nullable <;> cases c.unique <;>
    by_cases unset : c.effectivePolicy = .unset <;> simp [unset] <;> tauto

private theorem mem_defaultLexemes {x : Lexeme} :
    x ∈ c.defaultLexemes ↔ ∃ expr, c.defaultExpr = some expr ∧ x = .default expr := by
  unfold defaultLexemes
  cases c.defaultExpr <;> simp

private theorem mem_collationLexemes {x : Lexeme} :
    x ∈ c.collationLexemes ↔ c.collation ≠ .binary ∧ x = .word (.collate c.collation) := by
  unfold collationLexemes
  split <;> simp [*]

private theorem mem_referenceLexemes {x : Lexeme} :
    x ∈ referenceLexemes a ↔
      ∃ r, a = some r ∧ (x = .word .references ∨ x = .name r.target ∨
        ∃ action, r.onDelete = some action ∧ (x = .word .on ∨ x = .word (.delete action))) := by
  unfold referenceLexemes
  cases a with
  | none => simp
  | some r =>
      obtain ⟨column, target, onDelete⟩ := r
      cases onDelete <;> simp

/-- The words of a column are those that its attributes ask for. -/
theorem word_mem_lexemes {w : Word} : .word w ∈ c.lexemes a ↔ c.HasWord a w := by
  simp only [lexemes, List.mem_cons, List.mem_append, mem_constraintLexemes, mem_defaultLexemes,
    mem_collationLexemes, mem_referenceLexemes]
  cases w <;> cases a <;> simp [HasWord, and_comm, Option.isSome_iff_exists]

private theorem exists_word_of_mem_constraintLexemes {x : Lexeme}
    (member : x ∈ c.constraintLexemes) : ∃ w, x = .word w := by
  rcases mem_constraintLexemes.mp member with
    ⟨rfl, -⟩ | ⟨rfl, -⟩ | ⟨rfl, -⟩ | ⟨rfl, -⟩ | ⟨rfl | rfl, -⟩ <;> exact ⟨_, rfl⟩

/-- The only default in the definition of a column is its own. -/
theorem defaults_lexemes : defaults (c.lexemes a) = c.defaultExpr.toList := by
  have ofConstraint : defaults c.constraintLexemes = [] := by
    refine List.filterMap_eq_nil_iff.mpr fun x member => ?_
    obtain ⟨w, rfl⟩ := exists_word_of_mem_constraintLexemes member
    rfl
  have ofDefault : defaults c.defaultLexemes = c.defaultExpr.toList := by
    unfold defaultLexemes
    cases c.defaultExpr <;> rfl
  have ofCollation : defaults c.collationLexemes = [] := by
    refine List.filterMap_eq_nil_iff.mpr fun x member => ?_
    rw [(mem_collationLexemes.mp member).2]
    rfl
  have ofReference : defaults (referenceLexemes a) = [] := by
    refine List.filterMap_eq_nil_iff.mpr fun x member => ?_
    obtain ⟨r, -, rfl | rfl | ⟨action, -, rfl | rfl⟩⟩ := mem_referenceLexemes.mp member <;> rfl
  have skip (n : String) (w : Word) (xs : List Lexeme) :
      defaults (.name n :: .word w :: xs) = defaults xs := rfl
  rw [lexemes, skip, defaults_append, defaults_append, defaults_append, ofConstraint, ofDefault,
    ofCollation, ofReference, List.nil_append, List.append_nil, List.append_nil]

/-- The names in the definition of a column are its own and that of the table that it references. -/
theorem names_lexemes :
    (c.lexemes a).filterMap Lexeme.name? = c.name :: (a.map (·.target)).toList := by
  have ofConstraint : c.constraintLexemes.filterMap Lexeme.name? = [] := by
    refine List.filterMap_eq_nil_iff.mpr fun x member => ?_
    obtain ⟨w, rfl⟩ := exists_word_of_mem_constraintLexemes member
    rfl
  have ofDefault : c.defaultLexemes.filterMap Lexeme.name? = [] := by
    refine List.filterMap_eq_nil_iff.mpr fun x member => ?_
    obtain ⟨expr, -, rfl⟩ := mem_defaultLexemes.mp member
    rfl
  have ofCollation : c.collationLexemes.filterMap Lexeme.name? = [] := by
    refine List.filterMap_eq_nil_iff.mpr fun x member => ?_
    rw [(mem_collationLexemes.mp member).2]
    rfl
  have ofReference : (referenceLexemes a).filterMap Lexeme.name? = (a.map (·.target)).toList := by
    cases a with
    | none => rfl
    | some r =>
        obtain ⟨column, target, onDelete⟩ := r
        cases onDelete <;> rfl
  have skip (w : Word) (xs : List Lexeme) :
      (.name c.name :: .word w :: xs).filterMap Lexeme.name? =
        c.name :: xs.filterMap Lexeme.name? := rfl
  rw [lexemes, skip, List.filterMap_append, List.filterMap_append, List.filterMap_append,
    ofConstraint, ofDefault, ofCollation, ofReference]
  rfl

/-- Nothing in a definition starts a line or a statement. -/
theorem starts_of_mem_lexemes {x : Lexeme} (member : x ∈ c.lexemes a) :
    x.startsLine = false ∧ x.startsStatement = false := by
  cases x with
  | name n => exact ⟨rfl, rfl⟩
  | default expr => exact ⟨rfl, rfl⟩
  | word w =>
      have inside := word_mem_lexemes.mp member
      cases w <;> first | exact ⟨rfl, rfl⟩ | exact inside.elim

private theorem effectivePolicy_of_not_unique (notUnique : ¬ c.unique) :
    c.effectivePolicy = c.onConflict := by
  simp [effectivePolicy, ConflictPolicy.effective, notUnique]

/-- Two columns, with what they reference, that agree in everything that the statements of a table
say of a column besides its default value. -/
structure Alike (c c' : Column) (a a' : Option Association) : Prop where
  name : c.name = c'.name
  storage : c.storage = c'.storage
  primaryKey : c.primaryKey = c'.primaryKey
  collation : c.collation = c'.collation
  autoincrement : c.primaryKey → c.autoincrement = c'.autoincrement
  nullable : ¬ c.primaryKey → c.nullable = c'.nullable
  unique : ¬ c.primaryKey → c.unique = c'.unique
  effectivePolicy :
    c.primaryKey ∨ c.unique ∨ ¬ c.nullable → c.effectivePolicy = c'.effectivePolicy
  onConflict : ¬ c.primaryKey → ¬ c.unique → ¬ c.nullable → c.onConflict = c'.onConflict
  target : a.map (·.target) = a'.map (·.target)
  onDelete : a.bind (·.onDelete) = a'.bind (·.onDelete)

/-- Two settings are the same if each is written wherever it is not the default, and both are written
alike. -/
theorem eq_of_written {α : Type} (default : α) {x x' : α}
    (same : ∀ y, (x ≠ default ∧ y = x) ↔ (x' ≠ default ∧ y = x')) : x = x' := by
  by_cases isDefault : x = default
  · by_contra different
    have notDefault : x' ≠ default := fun isDefault' => different (isDefault.trans isDefault'.symm)
    exact ((same x').mpr ⟨notDefault, rfl⟩).1 isDefault
  · exact ((same x).mp ⟨isDefault, rfl⟩).2

/-- A column can be read off its definition. -/
theorem alike_of_lexemes_eq (same : c.lexemes a = c'.lexemes a') : c.Alike c' a a' := by
  have words (w : Word) : c.HasWord a w ↔ c'.HasWord a' w := by
    rw [← word_mem_lexemes, same, word_mem_lexemes]
  have names := congrArg (List.filterMap Lexeme.name?) same
  rw [names_lexemes, names_lexemes] at names
  obtain ⟨sameName, sameTarget⟩ := List.cons.inj names
  have sameKey : c.primaryKey = c'.primaryKey := Bool.eq_iff_iff.mpr (words .primaryKey)
  have sameNullable : ¬ c.primaryKey → c.nullable = c'.nullable := by
    intro notKey
    have notNull := words .notNull
    simp only [HasWord, ← sameKey] at notNull
    rw [and_iff_right notKey, and_iff_right notKey] at notNull
    exact Bool.eq_iff_iff.mpr (not_iff_not.mp notNull)
  have sameUnique : ¬ c.primaryKey → c.unique = c'.unique := by
    intro notKey
    have unique := words .unique
    simp only [HasWord, ← sameKey] at unique
    rw [and_iff_right notKey, and_iff_right notKey] at unique
    exact Bool.eq_iff_iff.mpr unique
  have samePolicy :
      c.primaryKey ∨ c.unique ∨ ¬ c.nullable → c.effectivePolicy = c'.effectivePolicy := by
    intro stated
    have statedToo : c'.primaryKey ∨ c'.unique ∨ ¬ c'.nullable := by
      rw [← sameKey]
      by_cases key : c.primaryKey
      · exact Or.inl key
      · rw [← sameNullable key, ← sameUnique key]
        exact stated
    refine eq_of_written ConflictPolicy.unset fun policy => ?_
    have conflict := words (.conflict policy)
    simp only [HasWord, StatesPolicy, and_iff_left stated, and_iff_left statedToo] at conflict
    exact conflict
  refine ⟨sameName, (words (.storage c.storage)).mp rfl, sameKey, ?_, ?_, sameNullable, sameUnique,
    samePolicy, ?_, ?_, ?_⟩
  · exact eq_of_written Collation.binary fun collation => words (.collate collation)
  · intro key
    have auto := words .autoincrement
    simp only [HasWord, ← sameKey, key, true_and] at auto
    exact Bool.eq_iff_iff.mpr auto
  · intro notKey notUnique notNull
    have policy := samePolicy (Or.inr (Or.inr notNull))
    rwa [effectivePolicy_of_not_unique notUnique,
      effectivePolicy_of_not_unique (sameUnique notKey ▸ notUnique)] at policy
  · rw [← Option.head?_toList (o := a.map _), sameTarget, Option.head?_toList]
  · exact Option.ext fun action => words (.delete action)

/-! ## Indexes -/

/-- The lexemes of the statement that creates the index of a column, with its end. -/
def indexCreation (table : String) (c : Column) : List Lexeme :=
  [.word (.createIndex c.unique), .name (c.indexName table), .word .on, .name table,
    .word .openList, .name c.name, .word .closeIndex, .word .endStatement]

/-- The statement that creates an index is spelled by its lexemes. -/
theorem spelling_indexCreation (table : String) :
    spelling (c.indexCreation table) =
      (Dialect.sqlite.createIndex table c ++ ";\n").toList := by
  have start : (Word.createIndex c.unique).text =
      "CREATE " ++ (if c.unique then "UNIQUE " else "") ++ "INDEX IF NOT EXISTS " := by
    cases c.unique <;> decide +kernel
  simp only [indexCreation, Dialect.createIndex, spelling_cons, spelling_nil, Lexeme.chars_word,
    Lexeme.chars_name, start, String.toList_append, toList_quote, List.append_assoc]
  simp only [Word.text, List.append_nil]

/-- The lexemes that create an index may stand after any others. -/
theorem phrase_indexCreation (table : String) (c : Column) : Phrase (c.indexCreation table) := by
  refine Phrase.word (Spaced.name (Phrase.word (Spaced.name (Phrase.word (Spaced.name ?_)))))
  exact Phrase.word (Phrase.word Phrase.nil.spaced).spaced

/-- The lexemes that create an index are one statement. -/
theorem block_indexCreation (table : String) (c : Column) :
    Block Lexeme.startsStatement (c.indexCreation table) := by
  refine ⟨_, _, rfl, rfl, fun x member => ?_⟩
  simp only [List.mem_cons, List.not_mem_nil, or_false] at member
  rcases member with rfl | rfl | rfl | rfl | rfl | rfl | rfl <;> rfl

end Column

end Tabula
