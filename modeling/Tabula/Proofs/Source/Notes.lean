import Mathlib.Data.List.Induction
import Tabula.Proofs.Source.Writing

/-! # Annotations of written records

The attributes that are written say what is meant. Arguments are read one after the other, each with
its value (`Tabula.Source.foldArguments_comma`), attributes of a kind likewise
(`Tabula.Source.foldlM_read`), and what they leave behind is what the last argument of each name
says (`Tabula.Source.said_eq_foldl`). So it does not matter how the arguments are put into
attributes: `Tabula.Source.notes?_column`, `Tabula.Source.notes?_key` and
`Tabula.Source.tableName_read`.
-/

namespace Tabula.Source

/-! ## Arguments -/

/-- Whether an argument ends in front of the tokens. -/
def EndsArgument (rest : List Token) : Prop :=
  rest = [] ∨ ∃ others, rest = .punct "," :: others

private theorem path?_ident {w : String} {ts : List Token}
    (single : ∀ rest, ts ≠ .punct "::" :: rest) :
    path? (.ident w :: ts) = some (⟨false, w, []⟩, ts) := by
  have none : pathRest ts = ([], ts) := by
    unfold pathRest
    split
    · exact (single _ rfl).elim
    · rfl
  simp only [path?, none]

section

variable {σ α : Type} (take : σ → Argument → Except Error (σ × List Token)) (word : α → String)
  (tail : α → List Token) (apply : σ → α → σ)

/-- The arguments one by one, each of a word and what stands after it. -/
theorem foldArguments_comma
    (single : ∀ a rest others, EndsArgument rest → tail a ++ rest ≠ .punct "::" :: others)
    (takes : ∀ s a rest, EndsArgument rest →
      take s ⟨⟨false, word a, []⟩, tail a ++ rest⟩ = .ok (apply s a, rest))
    (a : α) (as : List α) (s : σ) {fuel : Nat} (enough : as.length < fuel) :
    foldArguments take s fuel (commaTokens ((a :: as).map fun a => .ident (word a) :: tail a)) =
      .ok ((a :: as).foldl apply s) := by
  obtain ⟨fuel, rfl⟩ := Nat.exists_eq_add_one.mpr (Nat.zero_lt_of_lt enough)
  induction as generalizing a s fuel with
  | nil =>
      have path := path?_ident (w := word a) fun others => single a [] others (Or.inl rfl)
      have taken := takes s a [] (Or.inl rfl)
      rw [List.append_nil] at path taken
      simp only [List.map_cons, List.map_nil, commaTokens_singleton, foldArguments, path, taken]
      rfl
  | cons b as ih =>
      obtain ⟨fuel, rfl⟩ := Nat.exists_eq_add_one.mpr
        (Nat.zero_lt_of_lt (Nat.lt_of_succ_lt_succ enough))
      -- The comma ends the argument, and what follows it is no empty list.
      have ends : EndsArgument
          (.punct "," :: commaTokens ((b :: as).map fun a => .ident (word a) :: tail a)) :=
        Or.inr ⟨_, rfl⟩
      have path := path?_ident (w := word a) fun others => single a _ others ends
      have others := ih b (apply s a) fuel (Nat.lt_of_succ_lt_succ enough)
      have taken := takes s a _ ends
      have notEmpty : commaTokens ((b :: as).map fun a => .ident (word a) :: tail a) ≠ [] := by
        cases as <;> simp [commaTokens_singleton, commaTokens_cons_cons]
      have split : commaTokens ((a :: b :: as).map fun a => .ident (word a) :: tail a) =
          .ident (word a) :: (tail a ++ .punct "," ::
            commaTokens ((b :: as).map fun a => .ident (word a) :: tail a)) :=
        commaTokens_cons_cons _ _ _
      rw [split, foldArguments, path, List.foldl_cons, ← others]
      simp only [taken, bind, Except.bind, mark, if_true, List.isEmpty_iff, notEmpty, if_false]

end

/-! ## Values -/

private theorem textValue_quote (value : String) (rest : List Token) :
    textValue ((WrittenValue.quote value).tokens ++ rest) = .ok (value, rest) := by
  rfl

private theorem flagValue_flag (value : Option Bool) {rest : List Token}
    (ends : EndsArgument rest) :
    flagValue ((WrittenValue.flag value).tokens ++ rest) = .ok (value.getD true, rest) := by
  match value with
  | none =>
      obtain rfl | ⟨others, rfl⟩ := ends
      · rfl
      · rfl
  | some true => rfl
  | some false => rfl

/-- Parts that are not empty are no more than their tokens. -/
theorem length_le_commaTokens {p : List (List Token)} (notEmpty : ∀ part ∈ p, part ≠ []) :
    p.length ≤ (commaTokens p).length := by
  induction p with
  | nil => exact Nat.le_refl 0
  | cons part parts ih =>
      have some : 0 < part.length := List.length_pos_iff.mpr (notEmpty part List.mem_cons_self)
      have others := ih fun part member => notEmpty part (List.mem_cons_of_mem _ member)
      cases parts with
      | nil =>
          rw [commaTokens_singleton]
          exact some
      | cons next parts =>
          rw [commaTokens_cons_cons, List.length_append]
          simp only [List.length_cons] at others ⊢
          omega

/-! ## Names in quotes -/

/-- An identifier has no other characters than those of names and the mark of a raw one. -/
theorem mem_identifier {w : String} (isIdentifier : isIdentifier w = true) :
    ∀ c ∈ w.toList, continuesName c = true ∨ c = '#' := by
  rw [Source.isIdentifier, Bool.or_eq_true] at isIdentifier
  obtain isWord | isRaw := isIdentifier
  · obtain ⟨c, cs, chars, _, inside⟩ := exists_chars_of_isWord isWord
    rw [← chars] at inside
    intro x member
    exact Or.inl (inside x member)
  split at isRaw
  case h_2 => cases isRaw
  case h_1 cs chars =>
    rw [Bool.and_eq_true] at isRaw
    obtain ⟨c, others, same, _, inside⟩ := exists_chars_of_isWord isRaw.1
    rw [← same, String.toList_ofList] at inside
    rw [chars]
    intro x member
    rw [List.mem_cons, List.mem_cons] at member
    obtain rfl | rfl | member := member
    · exact Or.inl rfl
    · exact Or.inr rfl
    · exact Or.inl (inside x member)

private theorem trim_name {cs : List Char} (noBlank : ∀ c ∈ cs, Text.isBlank c = false)
    (spaces : Nat) : Text.trimChars (List.replicate spaces ' ' ++ cs) = cs := by
  have spaces : ∀ c ∈ List.replicate spaces ' ', Text.isBlank c = true := by
    intro c member
    rw [List.eq_of_mem_replicate member]
    rfl
  rw [Text.trimChars, List.dropWhile_append_of_pos spaces, ← Text.trimChars,
    Text.trimChars_eq_self noBlank]

private theorem Identifier.isBlank_eq_false (n : Identifier) :
    ∀ c ∈ n.val.toList, Text.isBlank c = false := by
  intro c member
  obtain continues | rfl := mem_identifier n.property c member
  · exact Bool.eq_false_iff.mpr fun blank => by
      rw [continuesName_of_isBlank blank] at continues
      cases continues
  · rfl

private theorem Identifier.comma_not_mem (n : Identifier) : ',' ∉ n.val.toList := by
  intro member
  obtain continues | isHash := mem_identifier n.property ',' member
  · cases continues
  · cases isHash

/-- Each part but the first begins with the spaces after its comma. -/
theorem toList_intercalate_nameSeparator (spaces : Nat) (first : Identifier)
    (more : List Identifier) :
    ((nameSeparator spaces).intercalate ((first :: more).map (·.val))).toList =
      [','].intercalate (first.val.toList ::
        more.map fun n => List.replicate spaces ' ' ++ n.val.toList) := by
  rw [nameSeparator]
  induction more generalizing first with
  | nil => simp
  | cons next more ih =>
      have others := ih next
      rw [List.map_cons] at others
      rw [List.map_cons, List.map_cons, String.intercalate_cons_cons, String.toList_append,
        String.toList_append, others, String.toList_ofList]
      cases more with
      | nil => simp [List.intercalate]
      | cons last more => simp [List.intercalate]

/-- Identifiers with commas between them are the parts between the commas. -/
theorem commaParts_intercalate (spaces : Nat) (first : Identifier) (more : List Identifier) :
    commaParts ((nameSeparator spaces).intercalate ((first :: more).map (·.val))) =
      (first :: more).map (·.val) := by
  have noComma : ∀ part ∈ first.val.toList ::
      more.map (fun n => List.replicate spaces ' ' ++ n.val.toList), ',' ∉ part := by
    intro part member inside
    obtain rfl | member := List.mem_cons.mp member
    · exact first.comma_not_mem inside
    · obtain ⟨n, _, rfl⟩ := List.mem_map.mp member
      obtain inside | inside := List.mem_append.mp inside
      · cases List.eq_of_mem_replicate inside
      · exact n.comma_not_mem inside
  -- Each part is a name after some spaces, and trimming takes off the spaces and nothing else.
  rw [commaParts, toList_intercalate_nameSeparator,
    List.splitOn_intercalate _ noComma (List.cons_ne_nil _ _), List.map_cons, List.map_map,
    List.map_cons]
  refine congrArg₂ List.cons ?_ (List.map_congr_left fun n _ => ?_)
  · have trimmed := trim_name first.isBlank_eq_false 0
    rw [List.replicate_zero, List.nil_append] at trimmed
    rw [Text.trim, String.toList_ofList, trimmed, String.ofList_toList]
  · rw [Function.comp_apply, Text.trim, String.toList_ofList, trim_name n.isBlank_eq_false,
      String.ofList_toList]

/-- The names of capabilities are read back, in whatever style they were written. -/
theorem capabilityNames_names (style : NameStyle) (first : Identifier) (more : List Identifier)
    (rest : List Token) :
    capabilityNames ((WrittenValue.names style first more).tokens ++ rest) =
      .ok ((first :: more).map (·.val), rest) := by
  cases style with
  | listed =>
      have enough :
          more.length < (commaTokens ((first :: more).map fun n => [.ident n.val])).length + 1 := by
        have long := length_le_commaTokens (p := (first :: more).map fun n => [.ident n.val])
          fun part member => by
            obtain ⟨n, _, rfl⟩ := List.mem_map.mp member
            exact List.cons_ne_nil _ _
        rw [List.length_map, List.length_cons] at long
        omega
      have read := foldArguments_comma takeCapability (fun n : Identifier => n.val) (fun _ => [])
        (fun names n => names ++ [n.val])
        (by intro a rest others ends; obtain rfl | ⟨later, rfl⟩ := ends <;> simp)
        (by intro s a rest ends; rfl) first more [] enough
      rw [List.foldl_append_eq_append] at read
      simp only [WrittenValue.tokens, List.singleton_append, capabilityNames, bind, Except.bind,
        read]
      rw [List.nil_append, ← List.flatMap_def, ← List.map_eq_flatMap]
      rfl
  | quoted spaces =>
      have parts := commaParts_intercalate spaces first more
      simp only [WrittenValue.tokens, List.cons_append, List.nil_append, capabilityNames, textValue,
        mark, if_true, bind, Except.bind, pure, Except.pure, parts]

/-- No value makes a path of the name in front of it. -/
theorem WrittenValue.tokens_ne_path (v : WrittenValue) {rest : List Token}
    (ends : EndsArgument rest) (others : List Token) :
    v.tokens ++ rest ≠ .punct "::" :: others := by
  match v with
  | .flag none => obtain rfl | ⟨later, rfl⟩ := ends <;> simp [tokens]
  | .quote _ | .flag (some _) | .names .listed _ _ | .names (.quoted _) _ _ => simp [tokens]

/-! ## Annotations -/

/-- What is written after one more argument of a column. -/
def ColumnArgument.apply (notes : ColumnNotes) : ColumnArgument → ColumnNotes
  | text .name value => { notes with name := some value }
  | text .onConflict value => { notes with onConflict := some value }
  | text .collate value => { notes with collate := some value }
  | text .defaultExpr value => { notes with defaultExpr := some value }
  | text .storageType value => { notes with storageType := some value }
  | text .references value => { notes with references := some value }
  | text .onDelete value => { notes with onDelete := some value }
  | flag .indexed value => { notes with indexed := value.getD true }
  | flag .unique value => { notes with unique := value.getD true }
  | capabilities _ first more => { notes with capabilities := some ((first :: more).map (·.val)) }

/-- What is written after one more argument of a key. -/
def KeyArgument.apply (notes : KeyNotes) : KeyArgument → KeyNotes
  | flag .auto value => { notes with auto := value.getD true }
  | flag .autoincrement value => { notes with autoincrement := value.getD true }
  | onConflict value => { notes with onConflict := some value }

/-- An argument of a column that was written is taken as what it says. -/
theorem takeColumn_written (notes : ColumnNotes) (a : ColumnArgument) {rest : List Token}
    (ends : EndsArgument rest) :
    takeColumn notes ⟨⟨false, a.written.word.val, []⟩, a.written.value.tokens ++ rest⟩ =
      .ok (a.apply notes, rest) := by
  cases a with
  | text key value =>
      have read := textValue_quote value rest
      cases key <;>
      simp [takeColumn, Path.only?, ColumnArgument.written, ColumnText.word, ColumnArgument.apply,
        read, Except.map]
  | flag key value =>
      have read := flagValue_flag value ends
      cases key <;>
      simp [takeColumn, Path.only?, ColumnArgument.written, ColumnFlag.word, ColumnArgument.apply,
        read, Except.map]
  | capabilities style first more =>
      have read := capabilityNames_names style first more rest
      simp [takeColumn, Path.only?, ColumnArgument.written, ColumnArgument.apply, read, Except.map]

private theorem takeKey_written (notes : KeyNotes) (a : KeyArgument) {rest : List Token}
    (ends : EndsArgument rest) :
    takeKey notes ⟨⟨false, a.written.word.val, []⟩, a.written.value.tokens ++ rest⟩ =
      .ok (a.apply notes, rest) := by
  cases a with
  | flag key value =>
      have read := flagValue_flag value ends
      cases key <;>
      simp [takeKey, Path.only?, KeyArgument.written, KeyFlag.word, KeyArgument.apply, read,
        Except.map]
  | onConflict value =>
      have read := textValue_quote value rest
      simp [takeKey, Path.only?, KeyArgument.written, KeyArgument.apply, read, Except.map]

/-- The last argument of a name goes before the others. -/
theorem columnSaid_append (as : List ColumnArgument) (a : ColumnArgument) :
    columnSaid (as ++ [a]) = a.apply (columnSaid as) := by
  cases a with
  | text key value =>
      cases key <;>
      simp [columnSaid, ColumnArgument.apply, ColumnArgument.text?, ColumnArgument.flag?,
        ColumnArgument.capabilities?]
  | flag key value =>
      cases key <;>
      simp [columnSaid, ColumnArgument.apply, ColumnArgument.text?, ColumnArgument.flag?,
        ColumnArgument.capabilities?]
  | capabilities style first more =>
      simp [columnSaid, ColumnArgument.apply, ColumnArgument.text?, ColumnArgument.flag?,
        ColumnArgument.capabilities?]

private theorem keySaid_append (as : List KeyArgument) (a : KeyArgument) :
    keySaid (as ++ [a]) = a.apply (keySaid as) := by
  cases a with
  | flag key value =>
      cases key <;>
      simp [keySaid, KeyArgument.apply, KeyArgument.flag?, KeyArgument.onConflict?]
  | onConflict value =>
      simp [keySaid, KeyArgument.apply, KeyArgument.flag?, KeyArgument.onConflict?]

/-- What is said by the last of each name is what the arguments leave behind one after the other. -/
theorem said_eq_foldl {α σ : Type} (said : List α → σ) (apply : σ → α → σ)
    (append : ∀ as a, said (as ++ [a]) = apply (said as) a) (as : List α) :
    said as = as.foldl apply (said []) := by
  induction as using List.reverseRecOn with
  | nil => rfl
  | append_singleton as a ih => rw [append, ih, List.foldl_append, List.foldl_cons, List.foldl_nil]

/-! ## Attributes -/

/-- The attribute as it is read. -/
def WrittenAttribute.read (a : WrittenAttribute) : Attribute where
  path := ⟨false, a.kind.val, []⟩
  arguments :=
    match a.arguments with
    | none => .absent
    | some as => .list (commaTokens (as.map (·.tokens)))

private theorem ofTokens_inner (a : WrittenAttribute) :
    Attribute.ofTokens a.inner = .ok a.read := by
  obtain ⟨kind, arguments⟩ := a
  cases arguments with
  | none =>
      have path : path? [.ident kind.val] = some (⟨false, kind.val, []⟩, []) :=
        path?_ident fun rest => by simp
      simp [Attribute.ofTokens, WrittenAttribute.inner, WrittenAttribute.read, path]
  | some as =>
      have path := path?_ident (w := kind.val)
        fun rest => show [Token.group .paren (commaTokens (as.map (·.tokens)))] ≠ _ by simp
      simp only [Attribute.ofTokens, WrittenAttribute.inner, WrittenAttribute.read, path]

/-- Attributes are read back one after the other. -/
theorem attributes_tokens (as : List WrittenAttribute) (rest : List Token)
    (ends : ∀ others, rest ≠ .punct "#" :: others) :
    attributes (as.flatMap (·.tokens) ++ rest) = .ok (as.map (·.read), rest) := by
  induction as with
  | nil =>
      rw [List.flatMap_nil, List.nil_append]
      unfold attributes
      split
      · exact (ends _ rfl).elim
      · exact (ends _ rfl).elim
      · rfl
  | cons a as ih =>
      rw [List.flatMap_cons, List.append_assoc, WrittenAttribute.tokens]
      simp only [List.cons_append, List.nil_append, attributes, ofTokens_inner, bind, Except.bind,
        ih]
      rfl

private theorem readArguments_list {σ : Type} {kind : String} {bare : Bool}
    {take : σ → Argument → Except Error (σ × List Token)} {s : σ} {path : Path} {ts : List Token}
    (notEmpty : ts ≠ []) :
    readArguments kind bare take s ⟨path, .list ts⟩ = foldArguments take s ts.length ts := by
  cases ts with
  | nil => exact (notEmpty rfl).elim
  | cons t ts => rfl

/-- Each argument is taken off the tokens as it is written, up to where it ends. -/
def Takes {σ α : Type} (take : σ → Argument → Except Error (σ × List Token))
    (written : α → WrittenArgument) (apply : σ → α → σ) : Prop :=
  ∀ s a rest, EndsArgument rest →
    take s ⟨⟨false, (written a).word.val, []⟩, (written a).value.tokens ++ rest⟩ =
      .ok (apply s a, rest)

section Takes

variable {σ α : Type} {take : σ → Argument → Except Error (σ × List Token)}
  {written : α → WrittenArgument} {apply : σ → α → σ}

/-- The arguments of an attribute are read one after the other. -/
theorem readArguments_read (takes : Takes take written apply)
    (kind : Word) (bare : Bool) (as : Option (List α)) (needs : bare = true ∨ as.isSome) (s : σ) :
    readArguments kind.val bare take s (WrittenAttribute.read ⟨kind, as.map (·.map written)⟩) =
      .ok ((as.getD []).foldl apply s) := by
  match as with
  | none =>
      obtain isBare | given := needs
      · subst isBare
        rfl
      · cases given
  | some [] => rfl
  | some (a :: as) =>
      have long := length_le_commaTokens (p := ((a :: as).map written).map (·.tokens))
        fun part member => by
          obtain ⟨b, _, rfl⟩ := List.mem_map.mp member
          exact List.cons_ne_nil _ _
      rw [List.length_map, List.length_map, List.length_cons] at long
      have read := foldArguments_comma take (fun a => (written a).word.val)
        (fun a => (written a).value.tokens) apply
        (fun a rest others ends => (written a).value.tokens_ne_path ends others) takes a as s
        (Nat.lt_of_succ_le long)
      have same : ((a :: as).map written).map (·.tokens) =
          (a :: as).map fun a => .ident (written a).word.val :: (written a).value.tokens :=
        List.map_map
      rw [same] at long read
      simp only [WrittenAttribute.read, Option.map_some, Option.getD_some, same]
      rw [readArguments_list, read]
      intro empty
      rw [empty] at long
      cases long

/-- The arguments of several attributes are read one after the other. -/
theorem foldlM_read (takes : Takes take written apply)
    (kind : Word) (bare : Bool) (lists : List (Option (List α)))
    (needs : bare = true ∨ ∀ as ∈ lists, as.isSome) (s : σ) :
    (lists.map fun as => WrittenAttribute.read ⟨kind, as.map (·.map written)⟩).foldlM
        (readArguments kind.val bare take) s =
      .ok ((lists.map (·.getD [])).flatten.foldl apply s) := by
  induction lists generalizing s with
  | nil => rfl
  | cons as lists ih =>
      have first := readArguments_read takes kind bare as
        (needs.imp_right fun given => given as List.mem_cons_self) s
      have others :=
        ih (needs.imp_right fun given as member => given as (List.mem_cons_of_mem _ member))
      rw [List.map_cons, List.foldlM_cons, first, List.map_cons, List.flatten_cons,
        List.foldl_append, ← others]
      rfl

/-- The attributes of a kind say together what their arguments say. -/
theorem notes?_read {said : List α → σ} (takes : Takes take written apply)
    (append : ∀ as a, said (as ++ [a]) = apply (said as) a) (kind : Word) {as : List Attribute}
    {lists : List (Option (List α))}
    (ofKind_eq : ofKind kind.val as =
      lists.map fun as => WrittenAttribute.read ⟨kind, as.map (·.map written)⟩) :
    notes? kind.val (said []) take as = .ok (saidTogether? said lists) := by
  have read := foldlM_read takes kind true lists (Or.inl rfl) (said [])
  rw [← said_eq_foldl said apply append, ← ofKind_eq] at read
  cases lists with
  | nil =>
      rw [notes?, ofKind_eq]
      rfl
  | cons first lists =>
      rw [List.map_cons] at ofKind_eq
      rw [notes?, ofKind_eq]
      simp only [← ofKind_eq, read]
      rfl

end Takes

private theorem only?_read (a : WrittenAttribute) : a.read.path.only? = some a.kind.val := by
  rfl

private theorem ofKind_column (attributes : List FieldAttribute) :
    ofKind "column" (attributes.map (·.written.read)) =
      (attributes.filterMap (·.column?)).map fun as => (FieldAttribute.column as).written.read := by
  induction attributes with
  | nil => rfl
  | cons a attributes ih =>
      rw [List.map_cons, ofKind, List.filter_cons, only?_read, ← ofKind, ih]
      cases a <;> rfl

private theorem ofKind_key (attributes : List FieldAttribute) :
    ofKind "primary_key" (attributes.map (·.written.read)) =
      (attributes.filterMap (·.key?)).map fun as => (FieldAttribute.key as).written.read := by
  induction attributes with
  | nil => rfl
  | cons a attributes ih =>
      rw [List.map_cons, ofKind, List.filter_cons, only?_read, ← ofKind, ih]
      cases a <;> rfl

/-- The notes on a column are what its attributes say together. -/
theorem notes?_column (attributes : List FieldAttribute) :
    notes? "column" ColumnNotes.empty takeColumn (attributes.map (·.written.read)) =
      .ok (saidTogether? columnSaid (attributes.filterMap (·.column?))) :=
  notes?_read (fun notes a _ ends => takeColumn_written notes a ends) columnSaid_append
    ⟨"column", rfl⟩ (ofKind_column attributes)

/-- The notes on a key are what its attributes say together. -/
theorem notes?_key (attributes : List FieldAttribute) :
    notes? "primary_key" KeyNotes.empty takeKey (attributes.map (·.written.read)) =
      .ok (saidTogether? keySaid (attributes.filterMap (·.key?))) :=
  notes?_read (fun notes a _ ends => takeKey_written notes a ends) keySaid_append
    ⟨"primary_key", rfl⟩ (ofKind_key attributes)

private theorem foldl_last {α : Type} (as : List α) (s : Option α) :
    as.foldl (fun _ a => some a) s = as.getLast?.or s := by
  induction as using List.reverseRecOn with
  | nil => rfl
  | append_singleton as a ih => simp

/-- The last name that is given to the table is its name. -/
theorem tableName_read (tables : List (List String)) :
    tableName (tables.map fun names => (WrittenRecord.tableAttribute names).read) =
      .ok tables.flatten.getLast? := by
  have ofKind_eq : ofKind "table" (tables.map fun names =>
      (WrittenRecord.tableAttribute names).read) =
        tables.map fun names => (WrittenRecord.tableAttribute names).read := by
    refine List.filter_eq_self.mpr fun a member => ?_
    obtain ⟨names, _, rfl⟩ := List.mem_map.mp member
    rfl
  have given : ∀ as ∈ tables.map some, as.isSome := by
    intro as member
    obtain ⟨names, _, rfl⟩ := List.mem_map.mp member
    rfl
  have takes : Takes takeTable WrittenRecord.tableArgument fun _ n => some n :=
    fun _ _ _ _ => rfl
  have read := foldlM_read takes ⟨"table", rfl⟩ false (tables.map some) (Or.inr given) none
  rw [foldl_last, Option.or_none, List.map_map, List.map_map] at read
  rw [tableName, ofKind_eq]
  simp only [Function.comp_def, Option.map_some, Option.getD_some, List.map_id'] at read
  exact read

end Tabula.Source
