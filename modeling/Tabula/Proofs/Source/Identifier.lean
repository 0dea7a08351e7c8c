import Tabula.Proofs.Source.Derivation
import Tabula.Proofs.Source.Writing

/-! # The names in a declaration

Whatever text is read, the names among its tokens are identifiers, raw ones with their mark
(`Tabula.Source.named_of_tokens?`). What a declaration is read off is never more than the end of what
there was, so the name of a record and those of its fields are such tokens, and the record's name is
no keyword (`Tabula.Source.Derivation.named_of_derive`).
-/

namespace Tabula.Source

/-! ## Tokens -/

/-- Whether the token is none with brackets in it, and an identifier if it is a name. -/
def Flat.isSound : Flat → Bool
  | one (.ident n) => isIdentifier n
  | one (.group _ _) => false
  | _ => true

private theorem Flat.isLeaf_of_isSound {f : Flat} (sound : f.isSound = true) : f.isLeaf = true := by
  cases f with
  | one t =>
      cases t with
      | group d inner => cases sound
      | _ => rfl
  | opening d => rfl
  | closing d => rfl

variable {cs rest : List Char} {fs : List Flat}

private theorem sound_of_asToken {α : Type} {token : α → String → Token}
    {read : Option (α × List Char)}
    (notName : ∀ a s, (Flat.one (token a s)).isSound = true)
    (found : asToken token cs read = some (fs, rest)) : fs.all (·.isSound) := by
  obtain ⟨⟨a, after⟩, -, same⟩ := Option.map_eq_some_iff.mp found
  obtain ⟨rfl, -⟩ := Prod.mk.inj same
  rw [List.all_cons, notName]
  rfl

private theorem isWord_takeWhile {c : Char} (begins : beginsName c = true) (cs : List Char) :
    isWord (String.ofList ((c :: cs).takeWhile continuesName)) = true := by
  rw [isWord, String.toList_ofList, List.takeWhile_cons_of_pos (continuesName_of_begins begins)]
  exact Bool.and_eq_true_iff.mpr ⟨begins, List.all_takeWhile⟩

private theorem isIdentifier_of_isWord {n : String} (word : isWord n = true) :
    isIdentifier n = true := by
  rw [isIdentifier, word, Bool.true_or]

/-- A raw name is an identifier. -/
theorem sound_of_rawName? (found : rawName? cs = some (fs, rest)) : fs.all (·.isSound) := by
  cases cs with
  | nil => cases found
  | cons c others =>
      simp only [rawName?] at found
      split at found
      case isFalse => cases found
      case isTrue plain =>
        obtain ⟨begins, notNever⟩ := Bool.and_eq_true_iff.mp plain
        obtain ⟨rfl, -⟩ := Prod.mk.inj (Option.some.inj found)
        have word := isWord_takeWhile begins others
        have raw : isIdentifier ("r#" ++
            String.ofList ((c :: others).takeWhile continuesName)) = true := by
          refine Bool.or_eq_true_iff.mpr (Or.inr ?_)
          simp only [String.toList_append, String.toList_ofList]
          exact Bool.and_eq_true_iff.mpr ⟨word, notNever⟩
        rw [List.all_cons, Flat.isSound, raw]
        rfl

/-- What is read after letters that may be a prefix is sound, the letters by themselves included. -/
theorem sound_of_prefixed? {word after : List Char} (isWord : isWord (String.ofList word) = true)
    (found : prefixed? word after = some (fs, rest)) : fs.all (·.isSound) := by
  have plain {after : List Char}
      (found : some ([.one (.ident (String.ofList word))], after) = some (fs, rest)) :
      fs.all (·.isSound) := by
    obtain ⟨rfl, -⟩ := Prod.mk.inj (Option.some.inj found)
    rw [List.all_cons, Flat.isSound, isIdentifier_of_isWord isWord]
    rfl
  have text {cs : List Char} {read : Option (List Char × List Char)}
      (found : asToken textToken cs read = some (fs, rest)) : fs.all (·.isSound) :=
    sound_of_asToken (fun _ _ => rfl) found
  have literal {α : Type} {cs : List Char} {read : Option (α × List Char)}
      (found : asToken literalToken cs read = some (fs, rest)) : fs.all (·.isSound) :=
    sound_of_asToken (fun _ _ => rfl) found
  unfold prefixed? at found
  dsimp only at found
  split at found
  · split at found
    · exact text found
    · split at found
      · exact literal found
      · split at found
        · exact literal found
        · exact plain found
  · split at found
    · split at found
      · exact text found
      · exact sound_of_rawName? found
    · split at found
      · exact literal found
      · exact plain found
  · split at found
    · exact literal found
    · exact plain found
  · exact plain found

private theorem sound_of_punct? {c : Char} (found : punct? c cs = some (fs, rest)) :
    fs.all (·.isSound) := by
  unfold punct? at found
  split at found
  · obtain ⟨rfl, -⟩ := Prod.mk.inj (Option.some.inj found)
    rfl
  · split at found
    · obtain ⟨rfl, -⟩ := Prod.mk.inj (Option.some.inj found)
      rfl
    · cases found

private theorem sound_of_afterMark? (found : afterMark? cs = some (fs, rest)) :
    fs.all (·.isSound) := by
  rcases Option.or_eq_some_iff.mp found with isChar | ⟨-, isLifetime⟩
  · exact sound_of_asToken (fun _ _ => rfl) isChar
  · cases cs with
    | nil => cases isLifetime
    | cons c others =>
        rw [lifetime?] at isLifetime
        split at isLifetime
        · obtain ⟨rfl, -⟩ := Prod.mk.inj (Option.some.inj isLifetime)
          rfl
        · cases isLifetime

private theorem sound_of_leaf? {c : Char} (found : leaf? c cs = some (fs, rest)) :
    fs.all (·.isSound) := by
  unfold leaf? at found
  split at found
  · rename_i begins
    exact sound_of_prefixed? (isWord_takeWhile begins cs) found
  · split at found
    · exact sound_of_afterMark? found
    · split at found
      · exact sound_of_asToken (fun _ _ => rfl) found
      · split at found
        · obtain ⟨rfl, -⟩ := Prod.mk.inj (Option.some.inj found)
          rfl
        · exact sound_of_punct? found

private theorem sound_of_comment? (found : comment? cs = some (fs, rest)) : fs.all (·.isSound) := by
  unfold comment? at found
  split at found
  · dsimp only at found
    split at found <;> obtain ⟨rfl, -⟩ := Prod.mk.inj (Option.some.inj found) <;> rfl
  · obtain ⟨after, -, found⟩ := Option.bind_eq_some_iff.mp found
    dsimp only at found
    split at found <;> obtain ⟨rfl, -⟩ := Prod.mk.inj (Option.some.inj found) <;> rfl
  · cases found

private theorem sound_of_bracket? {c : Char} {b : Flat} (found : bracket? c = some b) :
    b.isSound = true := by
  rw [bracket?, Option.or_eq_some_iff, Option.map_eq_some_iff, Option.map_eq_some_iff] at found
  obtain ⟨d, -, rfl⟩ | ⟨-, d, -, rfl⟩ := found <;> rfl

private theorem sound_of_cut? {c : Char} (found : cut? c cs = some (fs, rest)) :
    fs.all (·.isSound) := by
  unfold cut? at found
  split at found
  · obtain ⟨rfl, -⟩ := Prod.mk.inj (Option.some.inj found)
    rfl
  · split at found
    · exact sound_of_comment? found
    · split at found
      · rename_i b isBracket
        obtain ⟨rfl, -⟩ := Prod.mk.inj (Option.some.inj found)
        rw [List.all_cons, sound_of_bracket? isBracket]
        rfl
      · exact sound_of_leaf? found

/-- All tokens that are read off a text are sound. -/
theorem sound_of_flatTokens? {fuel : Nat} (read : flatTokens? fuel cs = some fs) :
    fs.all (·.isSound) := by
  induction fuel generalizing cs fs with
  | zero =>
      obtain rfl := Option.some.inj read
      rfl
  | succ fuel ih =>
      cases cs with
      | nil =>
          obtain rfl := Option.some.inj read
          rfl
      | cons c cs =>
          rw [flatTokens?_cons, Option.bind_eq_some_iff] at read
          obtain ⟨⟨ts, rest⟩, cuts, read⟩ := read
          obtain ⟨others, readRest, rfl⟩ := Option.map_eq_some_iff.mp read
          rw [List.all_append, sound_of_cut? cuts, ih readRest]
          rfl

/-- Every name among the tokens, inside of brackets too, is an identifier. -/
def Named (ts : List Token) : Prop :=
  ∀ n, .one (.ident n) ∈ flattened ts → isIdentifier n = true

/-- The names that are read off a text are identifiers. -/
theorem named_of_tokens? {text : String} {ts : List Token} (read : tokens? text = some ts) :
    Named ts := by
  simp only [tokens?, bind, Option.bind_eq_some_iff] at read
  obtain ⟨fs, read, nests⟩ := read
  have sound := List.all_eq_true.mp (sound_of_flatTokens? read)
  have leaves : fs.all (·.isLeaf) :=
    List.all_eq_true.mpr fun f member => Flat.isLeaf_of_isSound (sound f member)
  have same : flattened ts = fs := flattened_of_nest? fs leaves [] [] nests
  exact fun n member => sound (.one (.ident n)) (same ▸ member)

section Parsing

variable {ts rest : List Token} {n : String}

/-- The names at the end are among all of them. -/
theorem Named.suffix (named : Named ts) (ending : rest <:+ ts) : Named rest := by
  obtain ⟨before, rfl⟩ := ending
  intro n member
  exact named n (flattened_append before rest ▸ List.mem_append_right _ member)

/-- A name at the front is an identifier. -/
theorem Named.head (named : Named (.ident n :: rest)) : isIdentifier n = true :=
  named n (by simp [flattened, Token.flat])

/-- The names in brackets are among all of them. -/
theorem Named.inner {d : Delimiter} {inner : List Token} (named : Named (.group d inner :: rest)) :
    Named inner := by
  intro n member
  refine named n ?_
  rw [flattened, Token.flat]
  exact List.mem_append_left _ (List.mem_cons_of_mem _ (List.mem_append_left _ member))

/-! ## What is read off tokens -/

private theorem name_eq_ok (parsed : name ts = .ok (n, rest)) :
    ts = .ident n :: rest ∧ keywords.contains n = false := by
  unfold name at parsed
  split at parsed
  · split at parsed
    · cases parsed
    · rename_i notKeyword
      obtain ⟨rfl, rfl⟩ := Prod.mk.inj (Except.ok.inj parsed)
      exact ⟨rfl, Bool.eq_false_iff.mpr notKeyword⟩
  · cases parsed

private theorem fieldName_eq_ok (parsed : fieldName ts = .ok (n, rest)) :
    ts = .ident n :: rest := by
  unfold fieldName at parsed
  split at parsed
  · obtain ⟨rfl, rfl⟩ := Prod.mk.inj (Except.ok.inj parsed)
    rfl
  · exact (name_eq_ok parsed).1

private theorem suffix_of_mark {m : String} (parsed : mark m ts = .ok ((), rest)) :
    rest <:+ ts := by
  unfold mark at parsed
  split at parsed
  · split at parsed
    · obtain ⟨-, rfl⟩ := Prod.mk.inj (Except.ok.inj parsed)
      exact List.suffix_cons _ _
    · cases parsed
  · cases parsed

/-- What attributes leave is an end of the tokens. -/
theorem suffix_of_attributes {as : List Attribute} (parsed : attributes ts = .ok (as, rest)) :
    rest <:+ ts := by
  induction ts using attributes.induct generalizing as with
  | case1 inner later ih =>
      rw [attributes] at parsed
      obtain ⟨a, -, parsed⟩ := bind_eq_ok parsed
      obtain ⟨⟨others, after⟩, further, parsed⟩ := bind_eq_ok parsed
      obtain ⟨-, rfl⟩ := Prod.mk.inj (Except.ok.inj parsed)
      exact (ih further).trans ((List.suffix_cons _ _).trans (List.suffix_cons _ _))
  | case2 later other =>
      rw [attributes] at parsed
      · cases parsed
      · exact other
  | case3 ts others notMark =>
      rw [attributes] at parsed
      · obtain ⟨-, rfl⟩ := Prod.mk.inj (Except.ok.inj parsed)
        exact List.suffix_rfl
      · exact others
      · exact notMark

private theorem suffix_visibility (ts : List Token) : (visibility ts).2 <:+ ts := by
  unfold visibility
  split
  · rename_i inner later
    have either (restricts : Bool) :
        (if restricts then (([.ident "pub", .group .paren inner] : List Token), later)
          else ([.ident "pub"], .group .paren inner :: later)).2 <:+
        .ident "pub" :: .group .paren inner :: later := by
      cases restricts with
      | true => exact (List.suffix_cons _ _).trans (List.suffix_cons _ _)
      | false => exact List.suffix_cons _ _
    exact either _
  · exact List.suffix_cons _ _
  · exact List.suffix_rfl

private theorem suffix_of_typeExpr {taken : List Token} (parsed : typeExpr ts = .ok (taken, rest)) :
    rest <:+ ts := by
  have whole := typeTokens_append ⟨0, false, ""⟩ ts
  unfold typeExpr at parsed
  split at parsed
  · rename_i found
    obtain ⟨rfl, rfl⟩ := Prod.mk.inj (Except.ok.inj parsed)
    rw [found] at whole
    exact ⟨_, whole⟩
  · cases parsed

/-- What is left at a closing bracket is an end of the tokens. -/
theorem suffix_of_untilClosed {depth : Nat} {taken : List Token}
    (found : untilClosed depth ts = some (taken, rest)) : rest <:+ ts := by
  induction ts generalizing depth taken with
  | nil => cases found
  | cons t ts ih =>
      have further {depth : Nat} {u : Token}
          (found : (untilClosed depth ts).map (fun r => (u :: r.1, r.2)) = some (taken, rest)) :
          rest <:+ t :: ts := by
        obtain ⟨⟨others, after⟩, foundRest, same⟩ := Option.map_eq_some_iff.mp found
        obtain ⟨-, rfl⟩ := Prod.mk.inj same
        exact (ih foundRest).trans (List.suffix_cons _ _)
      unfold untilClosed at found
      split at found
      · rename_i none
        cases none
      · rename_i isClosing
        obtain ⟨rfl, rfl⟩ := List.cons.inj isClosing
        split at found
        · obtain ⟨-, rfl⟩ := Prod.mk.inj (Option.some.inj found)
          exact List.suffix_cons _ _
        · exact further found
      · rename_i isOpening
        obtain ⟨rfl, rfl⟩ := List.cons.inj isOpening
        exact further found
      · rename_i isOther
        obtain ⟨rfl, rfl⟩ := List.cons.inj isOther
        exact further found

private theorem suffix_of_parameters {taken : List Token}
    (parsed : parameters ts = .ok (taken, rest)) : rest <:+ ts := by
  unfold parameters at parsed
  split at parsed
  · split at parsed
    · rename_i found
      obtain rfl := Except.ok.inj parsed
      exact (suffix_of_untilClosed found).trans (List.suffix_cons _ _)
    · cases parsed
  · obtain ⟨-, rfl⟩ := Prod.mk.inj (Except.ok.inj parsed)
    exact List.suffix_rfl

private theorem suffix_afterConditions (ts : List Token) : afterConditions ts <:+ ts := by
  unfold afterConditions
  split
  · exact (List.dropWhile_suffix _).trans (List.suffix_cons _ _)
  · exact List.suffix_rfl

/-- The name of a field is one of the tokens that the field is read off. -/
theorem field_eq_ok {f : FieldSource} (parsed : field ts = .ok (f, rest)) :
    rest <:+ ts ∧ ∃ later, .ident f.name :: later <:+ ts := by
  obtain ⟨⟨as, afterAttributes⟩, ofAttributes, parsed⟩ := bind_eq_ok parsed
  obtain ⟨⟨n, afterName⟩, ofName, parsed⟩ := bind_eq_ok parsed
  obtain ⟨⟨⟨⟩, afterMark⟩, ofMark, parsed⟩ := bind_eq_ok parsed
  obtain ⟨⟨t, afterType⟩, ofType, parsed⟩ := bind_eq_ok parsed
  obtain ⟨rfl, rfl⟩ := Prod.mk.inj (Except.ok.inj parsed)
  have toName : .ident n :: afterName <:+ ts := by
    rw [← fieldName_eq_ok ofName]
    exact (suffix_visibility afterAttributes).trans (suffix_of_attributes ofAttributes)
  refine ⟨?_, afterName, toName⟩
  exact (suffix_of_typeExpr ofType).trans ((suffix_of_mark ofMark).trans
    ((List.suffix_cons _ _).trans toName))

/-- The name of each field that is read stands among the tokens. -/
theorem suffix_of_mem_fields {fuel : Nat} {fs : List FieldSource}
    (parsed : fields fuel ts = .ok fs) :
    ∀ f ∈ fs, ∃ later, .ident f.name :: later <:+ ts := by
  induction fuel generalizing ts fs with
  | zero =>
      obtain rfl := Except.ok.inj parsed
      exact fun f member => absurd member List.not_mem_nil
  | succ fuel ih =>
      cases ts with
      | nil =>
          obtain rfl := Except.ok.inj parsed
          exact fun f member => absurd member List.not_mem_nil
      | cons t ts =>
          rw [fields] at parsed
          · obtain ⟨⟨first, rest⟩, ofFirst, parsed⟩ := bind_eq_ok parsed
            obtain ⟨shorter, here⟩ := field_eq_ok ofFirst
            intro f member
            cases rest with
            | nil =>
                obtain rfl := Except.ok.inj parsed
                obtain rfl := List.mem_singleton.mp member
                exact here
            | cons u rest =>
                obtain ⟨⟨⟨⟩, afterMark⟩, ofMark, parsed⟩ := bind_eq_ok parsed
                obtain ⟨others, ofOthers, parsed⟩ := bind_eq_ok parsed
                obtain rfl := Except.ok.inj parsed
                rcases List.mem_cons.mp member with rfl | later
                · exact here
                · obtain ⟨after, ending⟩ := ih ofOthers f later
                  exact ⟨after, ending.trans ((suffix_of_mark ofMark).trans shorter)⟩
          · exact nofun

/-- The fields that are read off the body of an item stand between brackets in it. -/
def ReadsInside (body : Parse Body) : Prop :=
  ∀ {ts rest fs}, body ts = .ok (.named fs, rest) → ∃ d inner later,
    .group d inner :: later <:+ ts ∧ ∀ f ∈ fs, ∃ after, .ident f.name :: after <:+ inner

private theorem readsInside_recordBody : ReadsInside recordBody := by
  intro ts rest fs parsed
  unfold recordBody at parsed
  split at parsed
  · split at parsed <;> cases parsed
  · split at parsed
    · rename_i inner later found
      obtain ⟨fs, ofFields, parsed⟩ := bind_eq_ok parsed
      cases parsed
      exact ⟨_, inner, _, found ▸ suffix_afterConditions _, suffix_of_mem_fields ofFields⟩
    · cases parsed
    · cases parsed

private theorem readsInside_otherBody : ReadsInside otherBody := by
  intro ts rest fs parsed
  unfold otherBody at parsed
  split at parsed <;> cases parsed

/-- What is read from the name of an item on. -/
theorem item_eq_ok_of_name {as : List Attribute} {vis : List Token} {read : Parse Body} {i : Item}
    (inside : ReadsInside read) (named : Named ts)
    (parsed : (do
      let (n, ts) ← name ts
      let (params, ts) ← parameters ts
      let (body, ts) ← read ts
      if ts.isEmpty then return (⟨as, vis, n, !params.isEmpty, body⟩ : Item)
      else .error ⟨.unexpectedToken, nameAt ts⟩) = .ok i) :
    isIdentifier i.name = true ∧ keywords.contains i.name = false ∧
      ∀ fs, i.body = .named fs → ∀ f ∈ fs, isIdentifier f.name = true := by
  obtain ⟨⟨n, afterName⟩, ofName, parsed⟩ := bind_eq_ok parsed
  obtain ⟨⟨params, afterParameters⟩, ofParameters, parsed⟩ := bind_eq_ok parsed
  obtain ⟨⟨body, afterBody⟩, isBody, done⟩ := bind_eq_ok parsed
  obtain ⟨rfl, notKeyword⟩ := name_eq_ok ofName
  have toBody : afterParameters <:+ .ident n :: afterName :=
    (suffix_of_parameters ofParameters).trans (List.suffix_cons _ _)
  dsimp only at done
  split at done
  · obtain rfl := Except.ok.inj done
    refine ⟨named.head, notKeyword, ?_⟩
    rintro fs rfl f member
    obtain ⟨d, inner, later, ending, names⟩ := inside isBody
    obtain ⟨after, ofField⟩ := names f member
    exact ((named.suffix (ending.trans toBody)).inner.suffix ofField).head
  · cases done

/-- The name of an item and those of its fields are identifiers, and the item's is no keyword. -/
theorem item_eq_ok {i : Item} (named : Named ts) (parsed : item ts = .ok i) :
    isIdentifier i.name = true ∧ keywords.contains i.name = false ∧
      ∀ fs, i.body = .named fs → ∀ f ∈ fs, isIdentifier f.name = true := by
  obtain ⟨⟨as, afterAttributes⟩, ofAttributes, parsed⟩ := bind_eq_ok parsed
  have behindKind {t : Token} {later : List Token}
      (kind : (visibility afterAttributes).2 = t :: later) : Named later :=
    named.suffix ((List.suffix_cons t later).trans
      (kind ▸ (suffix_visibility afterAttributes).trans (suffix_of_attributes ofAttributes)))
  dsimp only at parsed
  split at parsed
  · rename_i kind
    exact item_eq_ok_of_name readsInside_recordBody (behindKind kind) parsed
  · rename_i kind
    exact item_eq_ok_of_name readsInside_otherBody (behindKind kind) parsed
  · rename_i kind
    exact item_eq_ok_of_name readsInside_otherBody (behindKind kind) parsed
  · cases parsed

end Parsing

private theorem body_of_namedFields {i : Item} {fs : List FieldSource}
    (named : i.namedFields = .ok fs) : i.body = .named fs := by
  unfold Item.namedFields at named
  split at named
  · cases named
  · split at named
    · rename_i isBody
      obtain rfl := Except.ok.inj named
      exact isBody
    · cases named
    · cases named

namespace Derivation

/-- **The names of a derived model.** Whatever the text is, the record that a model is derived from
and its fields are named by identifiers, the record by no keyword. -/
theorem named_of_derive {text : String} {d : Derivation} (derived : derive text = .ok d) :
    isIdentifier d.item.name = true ∧ keywords.contains d.item.name = false ∧
      ∀ f ∈ d.fields, isIdentifier f.name = true := by
  obtain ⟨ts, decl, read, ofItem, ofFields, -, -⟩ := steps_of_derive derived
  obtain ⟨isName, notKeyword, names⟩ := item_eq_ok (named_of_tokens? read) ofItem
  exact ⟨isName, notKeyword, names d.fields (body_of_namedFields ofFields)⟩

end Derivation

end Tabula.Source
