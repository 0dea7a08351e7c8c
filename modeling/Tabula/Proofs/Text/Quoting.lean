import Mathlib.Data.String.Basic
import Tabula.Query.Condition
import Tabula.Schema.Dialect

/-! # Names in quotes

A name is quoted in one sweep that writes every quote twice
(`Tabula.Text.doubleChars_eq_flatMap`), and read back from the left, where a quote followed by
another one belongs to the name and any other quote ends it. What can be read is exactly what was
quoted, up to its last quote (`Tabula.Text.lexQuoted?_eq_some_iff`). So no name ends its quotation
before its end, two quotations differ if the names do, and a dialect with the quote character of row
statements quotes as these do (`Tabula.Dialect.quote_reads_back`).
-/

namespace Tabula

/-! ## Characters -/

namespace Text

variable {q : Char} {name rest text : List Char}

/-- Every quote is replaced by two, and everything else stays. -/
theorem doubleChars_eq_flatMap (q : Char) (name : List Char) :
    doubleChars q name = name.flatMap fun c => if c = q then [c, c] else [c] := by
  induction name with
  | nil => rfl
  | cons c name ih =>
      rw [doubleChars, List.flatMap_cons, ih]
      by_cases isQuote : c = q
      · subst isQuote
        simp only [↓reduceIte, List.cons_append, List.nil_append]
      · simp only [isQuote, ↓reduceIte, List.cons_append, List.nil_append]

/-- What is read is a name with its quotes doubled, up to a quote that no other one follows. -/
theorem eq_of_lexQuotedBody? (read : lexQuotedBody? q text = some (name, rest)) :
    text = doubleChars q name ++ q :: rest ∧ rest.head? ≠ some q := by
  fun_induction lexQuotedBody? q text generalizing name rest with
  | case1 => cases read
  | case2 =>
      obtain ⟨rfl, rfl⟩ := Prod.mk.inj (Option.some.inj read)
      exact ⟨rfl, nofun⟩
  | case3 => cases read
  | case4 text ih =>
      -- a doubled quote belongs to the name
      obtain ⟨⟨name', rest'⟩, readRest, same⟩ := Option.map_eq_some_iff.mp read
      obtain ⟨rfl, rfl⟩ := Prod.mk.inj same
      obtain ⟨rfl, ends⟩ := ih readRest
      exact ⟨by simp only [doubleChars, ↓reduceIte, List.cons_append], ends⟩
  | case5 next text differs =>
      obtain ⟨rfl, rfl⟩ := Prod.mk.inj (Option.some.inj read)
      exact ⟨rfl, by simpa using differs⟩
  | case6 c next text differs ih =>
      obtain ⟨⟨name', rest'⟩, readRest, same⟩ := Option.map_eq_some_iff.mp read
      obtain ⟨rfl, rfl⟩ := Prod.mk.inj same
      obtain ⟨isRest, ends⟩ := ih readRest
      exact ⟨by simp only [isRest, doubleChars, differs, ↓reduceIte, List.cons_append], ends⟩

/-- **What can be read is what was quoted**, where no further quote follows. -/
theorem lexQuoted?_eq_some_iff :
    lexQuoted? q text = some (name, rest) ↔
      text = quoteChars q name ++ rest ∧ rest.head? ≠ some q := by
  constructor
  · intro read
    cases text with
    | nil => cases read
    | cons c text =>
        by_cases opens : c = q
        · subst opens
          rw [lexQuoted?, if_pos rfl] at read
          obtain ⟨rfl, ends⟩ := eq_of_lexQuotedBody? read
          refine ⟨?_, ends⟩
          simp only [quoteChars, List.cons_append, List.append_assoc, List.nil_append]
        · rw [lexQuoted?, if_neg opens] at read
          cases read
  · rintro ⟨rfl, ends⟩
    exact lexQuoted?_quoteChars ends name

end Text

/-! ## Names of a dialect -/

namespace Dialect

variable (d : Dialect)

private theorem toList_quote_append (name rest : String) :
    (d.quote name ++ rest).toList = Text.quoteChars d.quoteChar name.toList ++ rest.toList := by
  rw [quote, Text.quoteWith, String.toList_append, String.toList_ofList]

private theorem lexQuoted?_quote {rest : String} (ends : rest.toList.head? ≠ some d.quoteChar)
    (name : String) :
    Text.lexQuoted? d.quoteChar (d.quote name ++ rest).toList =
      some (name.toList, rest.toList) := by
  rw [toList_quote_append]
  exact Text.lexQuoted?_quoteChars ends name.toList

/-- A text begins with one quotation at most. -/
theorem quote_append_inj {name other rest rest' : String}
    (ends : rest.toList.head? ≠ some d.quoteChar) (ends' : rest'.toList.head? ≠ some d.quoteChar)
    (same : d.quote name ++ rest = d.quote other ++ rest') : name = other ∧ rest = rest' := by
  have read := d.lexQuoted?_quote ends name
  rw [same, d.lexQuoted?_quote ends' other] at read
  obtain ⟨names, rests⟩ := Prod.mk.inj (Option.some.inj read)
  exact ⟨String.toList_injective names.symm, String.toList_injective rests.symm⟩

/-- **Quoted names are read back.** A quotation is the name between two quotes, with each quote in it
replaced by two. Whatever follows, unless it is one more quote, the quotation is read to its end and
gives the name; nothing else can be read. So a quotation does not begin with another one that ends
earlier, and no two names have the same. Row statements quote names as the dialect of the engine
does. -/
theorem quote_reads_back :
    (∀ name : String, (d.quote name).toList = [d.quoteChar] ++
      (name.toList.flatMap fun c => if c = d.quoteChar then [c, c] else [c]) ++ [d.quoteChar]) ∧
    (∀ name rest : String, rest.toList.head? ≠ some d.quoteChar →
      Text.lexQuoted? d.quoteChar (d.quote name ++ rest).toList =
        some (name.toList, rest.toList)) ∧
    (∀ text name rest : String,
      Text.lexQuoted? d.quoteChar text.toList = some (name.toList, rest.toList) →
        text = d.quote name ++ rest ∧ rest.toList.head? ≠ some d.quoteChar) ∧
    (∀ name other rest : String, d.quote name = d.quote other ++ rest →
      rest.toList.head? ≠ some d.quoteChar → other = name ∧ rest = "") ∧
    Function.Injective d.quote ∧
    ∀ name, quoted name = sqlite.quote name := by
  have noQuote : ("" : String).toList.head? ≠ some d.quoteChar := nofun
  refine ⟨fun name => ?_, fun name rest ends => d.lexQuoted?_quote ends name, ?_, ?_, ?_,
    fun name => rfl⟩
  · rw [← Text.doubleChars_eq_flatMap, quote, Text.quoteWith, String.toList_ofList,
      Text.quoteChars, List.append_assoc, List.singleton_append]
  · intro text name rest read
    obtain ⟨isText, ends⟩ := Text.lexQuoted?_eq_some_iff.mp read
    rw [← toList_quote_append] at isText
    exact ⟨String.toList_injective isText, ends⟩
  · intro name other rest same ends
    rw [← String.append_empty (s := d.quote name)] at same
    obtain ⟨rfl, rfl⟩ := d.quote_append_inj noQuote ends same
    exact ⟨rfl, rfl⟩
  · intro name other same
    have appended : d.quote name ++ "" = d.quote other ++ "" := congrArg (· ++ "") same
    exact (d.quote_append_inj noQuote noQuote appended).1

/-- A name of nothing but quotes is read to its end. -/
theorem quote_reads_back_quotes :
    Text.lexQuoted? '"' (sqlite.quote "\"\"" ++ " TEXT").toList =
        some ("\"\"".toList, " TEXT".toList) ∧
      (sqlite.quote "\"\"").toList = List.replicate 6 '"' := by
  obtain ⟨isReplaced, reads, -⟩ := quote_reads_back sqlite
  exact ⟨reads "\"\"" " TEXT" (by decide), (isReplaced "\"\"").trans (by decide)⟩

end Dialect

end Tabula
