import Tabula.Proofs.Source.Spelling
import Tabula.Proofs.Text.LetterCase

/-! # Tokens of written records

A written record has the tokens that are meant (`Tabula.Source.WrittenRecord.tokens?_text`). Its
parts are put together as `Tabula.Source.Reads`: a part falls into its tokens whatever stands after
it. A word does so only where it ends, that is in front of a blank or a mark other than those which
make it the prefix of a literal; that is `Tabula.Source.ReadsWord`.
-/

namespace Tabula.Source

/-! ## Words and quotes -/

/-- Whether a word ends in front of the text and is no prefix of a literal there. -/
def breaks : List Char → Bool
  | c :: _ => !continuesName c && !(['"', '\'', '#'].contains c)
  | [] => true

/-- The stretches of blank characters beyond ASCII. -/
def highBlanks : List (Nat × Nat) :=
  [(0x85, 0x85), (0xA0, 0xA0), (0x1680, 0x1680), (0x2000, 0x200A), (0x2028, 0x2029),
    (0x202F, 0x202F), (0x205F, 0x205F), (0x3000, 0x3000)]

private theorem isHidden_of_highBlanks {c : Char}
    (within : ∃ r ∈ highBlanks, r.1 ≤ c.toNat ∧ c.toNat ≤ r.2) :
    Text.inRanges Text.hiddenRanges c = true := by
  -- Blanks are among the characters that a text shows as escapes, and no name has one of those.
  have covered : ∀ r ∈ highBlanks, ∃ h ∈ Text.hiddenRanges.toList, h.1 ≤ r.1 ∧ r.2 ≤ h.2 := by
    decide +kernel
  obtain ⟨r, member, low, high⟩ := within
  obtain ⟨h, hidden, below, above⟩ := covered r member
  exact Text.inRanges_eq_true_iff.mpr
    ⟨h, hidden, Nat.le_trans below low, Nat.le_trans high above⟩

/-- No hidden character beyond ASCII continues a name. -/
theorem continuesName_of_hidden {c : Char} (high : 0x80 ≤ c.toNat)
    (hidden : Text.inRanges Text.hiddenRanges c = true) : continuesName c = false := by
  have above (d : Char) (small : d.toNat < 0x80) : ¬c.val ≤ d.val := by
    intro within
    have below : c.toNat ≤ d.toNat := UInt32.le_iff_toNat_le.mp within
    omega
  have noCapital : c.isUpper = false :=
    decide_eq_false fun within => above 'Z' (by decide) within.2
  have noSmall : c.isLower = false :=
    Bool.and_eq_false_iff.mpr (Or.inr (decide_eq_false (above 'z' (by decide))))
  have noDigit : c.isDigit = false :=
    Bool.and_eq_false_iff.mpr (Or.inr (decide_eq_false (above '9' (by decide))))
  have noLetter : c.isAlpha = false := Bool.or_eq_false_iff.mpr ⟨noCapital, noSmall⟩
  have notLow : c ≠ '_' := by
    rintro rfl
    exact absurd high (by decide)
  simp [continuesName, beginsName, noLetter, noDigit, notLow, hidden]

/-- No name has a blank in it. -/
theorem continuesName_of_isBlank {c : Char} (blank : Text.isBlank c = true) :
    continuesName c = false := by
  simp only [Text.isBlank, Bool.or_eq_true, Bool.and_eq_true, decide_eq_true_eq,
    beq_iff_eq] at blank
  by_cases low : c.toNat < 0x80
  · have codes : ∀ n ∈ [9, 10, 11, 12, 13, 0x20], continuesName (Char.ofNat n) = false := by decide
    have none := codes c.toNat (by simp only [List.mem_cons]; omega)
    rwa [Char.ofNat_toNat] at none
  · refine continuesName_of_hidden (Nat.le_of_not_lt low) (isHidden_of_highBlanks ?_)
    simp only [highBlanks, List.exists_mem_cons_iff]
    omega

private theorem bracket?_of_beginsName {c : Char} (begins : beginsName c = true) :
    bracket? c = none := by
  have ne (d : Char) (other : beginsName d = false) : (d == c) = false :=
    beq_false_of_ne (beginsName_ne begins other).symm
  simp [bracket?, Delimiter.all, Delimiter.opening, Delimiter.closing, ne '(' rfl, ne '[' rfl,
    ne '\x7b' rfl, ne ')' rfl, ne ']' rfl, ne '\x7d' rfl]

/-- A word begins as a name does and has no other characters than those of names. -/
theorem exists_chars_of_isWord {w : String} (isWord : isWord w = true) :
    ∃ c cs, w.toList = c :: cs ∧ beginsName c = true ∧ ∀ x ∈ c :: cs, continuesName x = true := by
  unfold Source.isWord at isWord
  cases chars : w.toList with
  | nil =>
      rw [chars] at isWord
      cases isWord
  | cons c cs =>
      rw [chars, Bool.and_eq_true, List.all_eq_true] at isWord
      refine ⟨c, cs, rfl, isWord.1, fun x member => ?_⟩
      obtain rfl | member := List.mem_cons.mp member
      · exact continuesName_of_begins isWord.1
      · exact isWord.2 x member

private theorem takeWhile_breaks {word later : List Char}
    (inside : ∀ c ∈ word, continuesName c = true)
    (free : breaks later = true) : (word ++ later).takeWhile continuesName = word ∧
      (word ++ later).dropWhile continuesName = later := by
  rw [List.takeWhile_append_of_pos inside, List.dropWhile_append_of_pos inside]
  cases later with
  | nil => simp
  | cons c later =>
      rw [breaks, Bool.and_eq_true, Bool.not_eq_true'] at free
      simp [free.1]

private theorem prefixed?_of_breaks (word : List Char) {later : List Char}
    (free : breaks later = true) :
    prefixed? word later = some ([.one (.ident (String.ofList word))], later) := by
  cases later with
  | nil => rfl
  | cons c later =>
      simp only [breaks, Bool.and_eq_true, Bool.not_eq_true', List.contains_eq_mem,
        List.mem_cons, decide_eq_false_iff_not, not_or] at free
      simp [prefixed?, free.2]

private theorem cut?_of_begins {c : Char} (begins : beginsName c = true) (cs : List Char) :
    beginsComment c cs = false ∧ cut? c cs = word? (c :: cs) := by
  have notSlash : (c == '/') = false := beq_false_of_ne (beginsName_ne begins rfl)
  have noComment : beginsComment c cs = false := by rw [beginsComment, notSlash, Bool.false_and]
  have notBlank : Text.isBlank c = false := by
    refine Bool.eq_false_iff.mpr fun blank => ?_
    have stops := continuesName_of_isBlank blank
    rw [continuesName_of_begins begins] at stops
    cases stops
  refine ⟨noComment, ?_⟩
  rw [cut?, notBlank, noComment, bracket?_of_beginsName begins]
  simp only [leaf?, begins, if_true, Bool.false_eq_true, if_false]

/-- A word stands for itself where it ends. -/
theorem spells_word {w : String} (isWord : isWord w = true) {later : List Char} {gs : List Flat}
    (free : breaks later = true) (next : Spells later gs) :
    Spells (w.toList ++ later) (.one (.ident w) :: gs) := by
  obtain ⟨c, cs, chars, begins, inside⟩ := exists_chars_of_isWord isWord
  obtain ⟨noComment, cuts⟩ := cut?_of_begins begins (cs ++ later)
  obtain ⟨taken, dropped⟩ := takeWhile_breaks inside free
  have name : String.ofList (c :: cs) = w := by rw [← chars, String.ofList_toList]
  rw [chars, List.cons_append]
  refine .one noComment ?_ next
  rw [cuts, word?, ← List.cons_append, taken, dropped, prefixed?_of_breaks _ free, name]

/-- An escaped text is read back up to its quote. -/
theorem quotedWithin?_escaped {value later : List Char} {fuel : Nat}
    (enough : value.length < fuel) :
    quotedWithin? fuel (value.flatMap escaped ++ '"' :: later) = some (value, later) := by
  induction value generalizing fuel with
  | nil =>
      obtain ⟨fuel, rfl⟩ := Nat.exists_eq_add_one.mpr enough
      rfl
  | cons c value ih =>
      obtain ⟨fuel, rfl⟩ := Nat.exists_eq_add_one.mpr (Nat.zero_lt_of_lt enough)
      have ih := ih (Nat.lt_of_succ_lt_succ enough)
      rw [List.flatMap_cons, List.append_assoc]
      by_cases special : c ∈ ['"', '\\', '\n', '\r', '\t', '\x00']
      · simp only [List.mem_cons, List.not_mem_nil, or_false] at special
        obtain rfl | rfl | rfl | rfl | rfl | rfl := special
        all_goals simp [escaped, quotedWithin?, escape?, ih]
      · simp only [List.mem_cons, List.not_mem_nil, or_false, not_or] at special
        obtain ⟨quote, backslash, line, back, tab, zero⟩ := special
        have plain : escaped c = [c] := by
          simp [escaped, quote, backslash, line, back, tab, zero]
        rw [plain, List.singleton_append, quotedWithin?.eq_7 fuel c _ quote
          (fun _ isEscape _ => backslash isEscape) backslash (fun _ isBack _ => back isBack), ih]
        rfl

private theorem length_le_escaped (value : List Char) :
    value.length ≤ (value.flatMap escaped).length := by
  induction value with
  | nil => exact Nat.le_refl 0
  | cons c value ih =>
      have some : 1 ≤ (escaped c).length := by
        unfold escaped
        repeat' split
        all_goals simp
      rw [List.flatMap_cons, List.length_append, List.length_cons]
      omega

/-- A text in quotes is read as the text, whatever stands after it. -/
theorem spells_quoted (value : String) {later : List Char} {gs : List Flat}
    (next : Spells later gs) :
    Spells ((quoted value).toList ++ later) (.one (.text value (quoted value)) :: gs) := by
  have chars : (quoted value).toList = '"' :: (value.toList.flatMap escaped ++ ['"']) := by
    rw [quoted, String.toList_ofList, List.cons_append]
  have read : quotedText? (value.toList.flatMap escaped ++ '"' :: later) =
      some (value.toList, later) := by
    refine quotedWithin?_escaped ?_
    have shorter := length_le_escaped value.toList
    rw [List.length_append]
    omega
  have front : consumed ('"' :: (value.toList.flatMap escaped ++ '"' :: later)) later =
      quoted value := by
    rw [List.append_cons _ '"' later, ← List.cons_append, consumed_append, ← chars,
      String.ofList_toList]
  rw [chars, List.cons_append, List.append_assoc, List.singleton_append]
  refine .one rfl ?_ next
  have leaf (cs : List Char) : cut? '"' cs = asToken textToken ('"' :: cs) (quotedText? cs) := rfl
  rw [leaf, read, asToken, Option.map_some, front, textToken, String.ofList_toList]

/-- A raw name stands for itself where it ends. -/
theorem spells_identifier {w : String} (isIdentifier : isIdentifier w = true) {later : List Char}
    {gs : List Flat} (free : breaks later = true) (next : Spells later gs) :
    Spells (w.toList ++ later) (.one (.ident w) :: gs) := by
  rw [Source.isIdentifier, Bool.or_eq_true] at isIdentifier
  obtain isWord | isRaw := isIdentifier
  · exact spells_word isWord free next
  split at isRaw
  case h_2 => cases isRaw
  case h_1 cs chars =>
    rw [Bool.and_eq_true] at isRaw
    obtain ⟨isWord, notNever⟩ := isRaw
    obtain ⟨c, cs, same, begins, inside⟩ := exists_chars_of_isWord isWord
    rw [String.toList_ofList] at same
    subst same
    obtain ⟨taken, dropped⟩ := takeWhile_breaks inside free
    have noText : c ≠ '"' ∧ c ≠ '#' :=
      ⟨beginsName_ne begins rfl, beginsName_ne begins rfl⟩
    have name : "r#" ++ String.ofList (c :: cs) = w := by
      rw [← String.toList_inj, chars]
      simp
    rw [List.cons_append] at taken dropped
    have raw : prefixed? ['r'] ('#' :: c :: (cs ++ later)) = rawName? (c :: (cs ++ later)) := by
      simp [prefixed?, noText]
    obtain ⟨noComment, cuts⟩ := cut?_of_begins (c := 'r') rfl ('#' :: c :: (cs ++ later))
    rw [chars]
    refine .one noComment ?_ next
    calc cut? 'r' ('#' :: c :: (cs ++ later))
      _ = prefixed? ['r'] ('#' :: c :: (cs ++ later)) := cuts
      _ = rawName? (c :: (cs ++ later)) := raw
      _ = some ([.one (.ident w)], later) := by
        rw [rawName?, taken, dropped, begins, notNever, name]
        rfl

/-! ## Parts of a record -/

/-- The text falls into the tokens, whatever stands after it. -/
def Reads (cs : List Char) (fs : List Flat) : Prop :=
  ∀ later gs, Spells later gs → Spells (cs ++ later) (fs ++ gs)

/-- The text falls into the tokens if a word ends in front of what stands after it. -/
def ReadsWord (cs : List Char) (fs : List Flat) : Prop :=
  ∀ later gs, breaks later = true → Spells later gs → Spells (cs ++ later) (fs ++ gs)

section

variable {cs ds : List Char} {fs gs : List Flat}

/-- The empty text has no token. -/
theorem Reads.nil : Reads [] [] := by
  intro later gs next
  exact next

/-- Two texts fall into tokens one after the other. -/
theorem Reads.append (first : Reads cs fs) (second : Reads ds gs) :
    Reads (cs ++ ds) (fs ++ gs) := by
  intro later hs next
  rw [List.append_assoc, List.append_assoc]
  exact first _ _ (second _ _ next)

private theorem Reads.readsWord (reads : Reads cs fs) : ReadsWord cs fs := by
  intro later gs free next
  exact reads _ _ next

/-- A text may stand after a word that ends in front of it. -/
theorem ReadsWord.append (first : ReadsWord cs fs) (free : breaks ds = true)
    (second : ReadsWord ds gs) : ReadsWord (cs ++ ds) (fs ++ gs) := by
  intro later hs freeLater next
  rw [List.append_assoc, List.append_assoc]
  refine first _ _ ?_ (second _ _ freeLater next)
  cases ds with
  | nil => exact freeLater
  | cons d ds => exact free

/-- A word ends in front of a text that begins with a blank or a mark. -/
theorem ReadsWord.ended (first : ReadsWord cs fs) {d : Char} (free : breaks [d] = true)
    (second : Reads (d :: ds) gs) : Reads (cs ++ d :: ds) (fs ++ gs) := by
  intro later hs next
  rw [List.append_assoc, List.append_assoc]
  exact first _ _ free (second _ _ next)

/-- An identifier is one token. -/
theorem ReadsWord.identifier {w : String} (isIdentifier : isIdentifier w = true) :
    ReadsWord w.toList [.one (.ident w)] := by
  intro later gs free next
  exact spells_identifier isIdentifier free next

/-- A word is one token. -/
theorem ReadsWord.word {w : String} (isWord : isWord w = true) :
    ReadsWord w.toList [.one (.ident w)] := by
  intro later gs free next
  exact spells_word isWord free next

/-- A text in quotes is one token. -/
theorem Reads.quoted (value : String) :
    Reads (quoted value).toList [.one (.text value (Source.quoted value))] := by
  intro later gs next
  exact spells_quoted value next

/-- A text that ends by itself may stand before one that ends with a word. -/
theorem Reads.before (first : Reads cs fs) (second : ReadsWord ds gs) :
    ReadsWord (cs ++ ds) (fs ++ gs) := by
  intro later hs free next
  rw [List.append_assoc, List.append_assoc]
  exact first _ _ (second _ _ free next)

/-- A blank before a text is no token. -/
theorem Reads.blank {c : Char} (isBlank : Text.isBlank c = true) (others : Reads cs fs) :
    Reads (c :: cs) fs := by
  intro later gs next
  refine .skip ?_ ?_ (others _ _ next)
  · have notSlash : (c == '/') = false := by
      refine beq_false_of_ne ?_
      rintro rfl
      cases isBlank
    rw [beginsComment, notSlash, Bool.false_and]
  · rw [cut?, if_pos isBlank]
    rfl

/-- A character that is a token whatever stands after it. -/
theorem Reads.single {c : Char} {f : Flat} (noComment : ∀ cs, beginsComment c cs = false)
    (cuts : ∀ cs, cut? c cs = some ([f], cs)) (others : Reads cs fs) :
    Reads (c :: cs) (f :: fs) := by
  intro later gs next
  exact .one (noComment _) (cuts _) (others _ _ next)

/-- A comma before a text is one token more. -/
theorem Reads.comma (others : Reads cs fs) : Reads (',' :: cs) (.one (.punct ",") :: fs) :=
  others.single (fun _ => rfl) fun _ => rfl

/-- An opening bracket before a text is one token more. -/
theorem Reads.opening (d : Delimiter) (others : Reads cs fs) :
    Reads (d.opening :: cs) (.opening d :: fs) := by
  cases d <;> exact others.single (fun _ => rfl) fun _ => rfl

/-- A closing bracket before a text is one token more. -/
theorem Reads.closing (d : Delimiter) (others : Reads cs fs) :
    Reads (d.closing :: cs) (.closing d :: fs) := by
  cases d <;> exact others.single (fun _ => rfl) fun _ => rfl

private theorem breaks_opening (d : Delimiter) : breaks [d.opening] = true := by
  cases d <;> rfl

private theorem breaks_closing (d : Delimiter) : breaks [d.closing] = true := by
  cases d <;> rfl

/-- An equals sign between blanks. -/
theorem Reads.equals : Reads " = ".toList [.one (.punct "=")] := by
  refine .blank rfl ?_
  intro later gs next
  exact .one rfl rfl (Reads.nil.blank (c := ' ') rfl _ _ next)

/-- Parts with a comma between each two. -/
def commaTokens (parts : List (List Token)) : List Token :=
  [Token.punct ","].intercalate parts

/-- A single part needs no comma. -/
theorem commaTokens_singleton (part : List Token) : commaTokens [part] = part := by
  simp [commaTokens]

/-- There is a comma after the first of several parts. -/
theorem commaTokens_cons_cons (part next : List Token) (parts : List (List Token)) :
    commaTokens (part :: next :: parts) = part ++ .punct "," :: commaTokens (next :: parts) := by
  simp [commaTokens, List.intercalate]

/-- Texts with a comma between each two. -/
theorem readsWord_joined {α : Type} (text : α → String) (tokens : α → List Token) (as : List α)
    (each : ∀ a ∈ as, ReadsWord (text a).toList (flattened (tokens a))) :
    ReadsWord (", ".intercalate (as.map text)).toList
      (flattened (commaTokens (as.map tokens))) := by
  induction as with
  | nil => exact Reads.nil.readsWord
  | cons a as ih =>
      have first := each a List.mem_cons_self
      cases as with
      | nil => simpa [commaTokens_singleton] using first
      | cons b as =>
          have others := ih fun c member => each c (List.mem_cons_of_mem a member)
          have joined := first.append rfl (((Reads.nil.blank (c := ' ') rfl).comma).before others)
          simp only [List.map_cons] at joined ⊢
          rw [String.intercalate_cons_cons, commaTokens_cons_cons, flattened_append]
          simpa [flattened, Token.flat] using joined

end

/-! ## Attributes -/

/-- The tokens of the value of an argument. -/
def WrittenValue.tokens : WrittenValue → List Token
  | .quote value => [.punct "=", .text value (quoted value)]
  | .flag none => []
  | .flag (some value) => [.punct "=", .ident (if value then "true" else "false")]
  | .names .listed first more =>
    [.group .paren (commaTokens ((first :: more).map fun n => [.ident n.val]))]
  | .names (.quoted spaces) first more =>
    let value := (nameSeparator spaces).intercalate ((first :: more).map (·.val))
    [.punct "=", .text value (quoted value)]

/-- The tokens of an argument. -/
def WrittenArgument.tokens (a : WrittenArgument) : List Token :=
  .ident a.word.val :: a.value.tokens

/-- The tokens between the brackets of the attribute. -/
def WrittenAttribute.inner (a : WrittenAttribute) : List Token :=
  .ident a.kind.val ::
    match a.arguments with
    | none => []
    | some as => [.group .paren (commaTokens (as.map (·.tokens)))]

/-- The tokens of an attribute. -/
def WrittenAttribute.tokens (a : WrittenAttribute) : List Token :=
  [.punct "#", .group .bracket a.inner]

/-- The value of an argument falls into its tokens. -/
theorem WrittenValue.reads (v : WrittenValue) : ReadsWord v.text.toList (flattened v.tokens) := by
  match v with
  | .quote value =>
      have reads := (Reads.equals.append (Reads.quoted value)).readsWord
      simpa [text, tokens, flattened, Token.flat] using reads
  | .flag none => exact Reads.nil.readsWord
  | .flag (some true) => exact Reads.equals.before (ReadsWord.word (w := "true") rfl)
  | .flag (some false) => exact Reads.equals.before (ReadsWord.word (w := "false") rfl)
  | .names .listed first more =>
      have names := readsWord_joined (fun n : Identifier => n.val) (fun n => [.ident n.val])
        (first :: more) fun n member => ReadsWord.identifier n.property
      have reads := ((Reads.opening .paren .nil).before names).ended (breaks_closing _)
        (Reads.closing .paren .nil)
      simpa [text, tokens, flattened, Token.flat, Delimiter.opening, Delimiter.closing] using
        reads.readsWord
  | .names (.quoted spaces) first more =>
      have reads := (Reads.equals.append (Reads.quoted
        ((nameSeparator spaces).intercalate ((first :: more).map (·.val))))).readsWord
      simpa [text, tokens, flattened, Token.flat] using reads

private theorem WrittenValue.breaks_text (v : WrittenValue) : breaks v.text.toList = true := by
  have space : continuesName ' ' = false := rfl
  have paren : continuesName '(' = false := rfl
  match v with
  | .flag none => rfl
  | .quote _ | .flag (some true) | .flag (some false) | .names .listed _ _
  | .names (.quoted _) _ _ => simp [text, breaks, space, paren]

/-- An argument falls into its tokens. -/
theorem WrittenArgument.reads (a : WrittenArgument) :
    ReadsWord a.text.toList (flattened a.tokens) := by
  have reads := (ReadsWord.word a.word.property).append a.value.breaks_text a.value.reads
  simpa [text, tokens, flattened, Token.flat] using reads

/-- An attribute falls into its tokens. -/
theorem WrittenAttribute.reads (a : WrittenAttribute) :
    Reads a.text.toList (flattened a.tokens) := by
  have front := (Reads.opening .bracket .nil).single (c := '#') (f := .one (.punct "#"))
    (fun _ => rfl) fun _ => rfl
  have back := Reads.closing .bracket (Reads.nil.blank (c := '\n') rfl)
  have kind := ReadsWord.word a.kind.property
  obtain ⟨kind', arguments⟩ := a
  cases arguments with
  | none =>
      have reads := front.append (kind.ended (breaks_closing _) back)
      simpa [text, tokens, inner, flattened, Token.flat, Delimiter.opening, Delimiter.closing]
        using reads
  | some as =>
      have arguments := readsWord_joined (fun a => a.text) (fun a => a.tokens) as
        fun a _ => by exact a.reads
      have reads := front.append (kind.ended (breaks_opening _) ((Reads.opening .paren .nil).append
        (arguments.ended (breaks_closing _) (Reads.closing .paren back))))
      simpa [text, tokens, inner, flattened, Token.flat, Delimiter.opening, Delimiter.closing]
        using reads

/-! ## Fields and records -/

/-- Texts one after the other. -/
theorem Reads.flatMap {α : Type} (text : α → String) (tokens : α → List Token) (as : List α)
    (each : ∀ a ∈ as, Reads (text a).toList (flattened (tokens a))) :
    Reads (String.join (as.map text)).toList (flattened (as.flatMap tokens)) := by
  induction as with
  | nil => exact .nil
  | cons a as ih =>
      have others := ih fun b member => each b (List.mem_cons_of_mem a member)
      have reads := (each a List.mem_cons_self).append others
      rw [List.flatMap_cons, flattened_append]
      simpa using reads

/-- The word in front of what can be seen from elsewhere, as a token. -/
def publicTokens (isPublic : Bool) : List Token :=
  if isPublic then [.ident "pub"] else []

private theorem reads_public (isPublic : Bool) :
    Reads (publicText isPublic).toList (flattened (publicTokens isPublic)) := by
  cases isPublic with
  | false => exact .nil
  | true => exact (ReadsWord.word (w := "pub") rfl).ended rfl (Reads.nil.blank (c := ' ') rfl)

/-- The tokens of the type of a field. -/
def WrittenField.type (f : WrittenField) : List Token :=
  (tokens? f.typeText).getD []

/-- The tokens of a field, its comma included. -/
def WrittenField.tokens (f : WrittenField) : List Token :=
  f.attributes.flatMap (·.written.tokens) ++ (publicTokens f.isPublic ++
    .ident f.name :: .punct ":" :: (f.type ++ [.punct ","]))

/-- The text of a type falls into its tokens, which are a type and are written as the text, but for
blanks. -/
theorem WrittenField.spells_type {f : WrittenField} (isType : isTypeText f.typeText = true) :
    Spells f.typeText.toList (flattened f.type) ∧ typeExpr f.type = .ok (f.type, []) ∧
      Text.removeBlanks (writtenAll f.type) = Text.removeBlanks f.typeText := by
  obtain ⟨ts, spells, whole, written⟩ := exists_tokens_of_isTypeText isType
  have same : f.type = ts := by rw [type, tokens?_of_spells spells, Option.getD_some]
  rw [same]
  exact ⟨spells, whole, written⟩

/-- A field falls into its tokens. -/
theorem WrittenField.reads {f : WrittenField} (named : isWord f.name = true)
    (isType : isTypeText f.typeText = true) : Reads f.text.toList (flattened f.tokens) := by
  have attributes := Reads.flatMap (fun a => a.written.text) (fun a => a.written.tokens)
    f.attributes fun a _ => by exact a.written.reads
  have type :
      Reads (f.typeText.toList ++ [',', '\n']) (flattened f.type ++ [.one (.punct ",")]) := by
    intro later gs next
    rw [List.append_assoc, List.append_assoc]
    exact (spells_type isType).1.comma ((Reads.nil.blank (c := '\n') rfl).comma _ _ next)
  have colon : Reads [':', ' '] [.one (.punct ":")] := by
    intro later gs next
    exact .one rfl rfl (Reads.nil.blank (c := ' ') rfl _ _ next)
  have reads := attributes.append ((reads_public f.isPublic).append
    ((ReadsWord.word named).ended rfl (colon.append type)))
  simpa [text, tokens, flattened, flattened_append, Token.flat] using reads

/-- The tokens of a record. -/
def WrittenRecord.tokens (w : WrittenRecord) : List Token :=
  w.tables.flatMap (fun names => (tableAttribute names).tokens) ++ (publicTokens w.isPublic ++
    [.ident "struct", .ident w.name, .group .brace (w.fields.flatMap (·.tokens))])

/-- The text of a record is read as its tokens. -/
theorem WrittenRecord.tokens?_text {w : WrittenRecord} (named : isWord w.name = true)
    (fieldsNamed : ∀ f ∈ w.fields, isWord f.name = true)
    (types : ∀ f ∈ w.fields, isTypeText f.typeText = true) : tokens? w.text = some w.tokens := by
  have attributes := Reads.flatMap (fun names => (tableAttribute names).text)
    (fun names => (tableAttribute names).tokens) w.tables
    fun names _ => by exact (tableAttribute names).reads
  have fields := Reads.flatMap (fun f : WrittenField => f.text) (fun f => f.tokens) w.fields
    fun f member => WrittenField.reads (fieldsNamed f member) (types f member)
  have body := (Reads.opening .brace (Reads.nil.blank (c := '\n') rfl)).append
    (fields.append (Reads.closing .brace (Reads.nil.blank (c := '\n') rfl)))
  have reads := attributes.append ((reads_public w.isPublic).append
    ((ReadsWord.word (w := "struct") rfl).ended rfl (Reads.blank (c := ' ') rfl
      ((ReadsWord.word named).ended rfl (Reads.blank (c := ' ') rfl body)))))
  have spells := reads [] [] .nil
  refine tokens?_of_spells ?_
  simpa [text, tokens, flattened, flattened_append, Token.flat, Delimiter.opening,
    Delimiter.closing] using spells

end Tabula.Source
