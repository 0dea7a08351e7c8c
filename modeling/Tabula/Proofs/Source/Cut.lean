import Tabula.Source.Writing

/-! # What is cut off a text

The piece that is cut off the front of a text comes with tokens that are written as the piece, apart
from blanks. It also comes off when the text goes on: what is in quotes is told where it ends
(`Tabula.Source.Delimits`), and every other piece ends in front of a comma. Both together are
`Tabula.Source.CutsOff`, shown for a kind of piece after the other up to
`Tabula.Source.cutsOff_cut?`. Comments are left out; they leave no trace in the tokens.
-/

namespace Tabula.Source

/-! ## What a part of a text stands for -/

/-- Where the characters of a kind end, they end whatever stands after the one that ends them. -/
theorem split_of_dropWhile {p : Char → Bool} {cs tail : List Char} {c : Char}
    (stops : cs.dropWhile p = c :: tail) :
    cs = cs.takeWhile p ++ c :: tail ∧
      ∀ later, (cs.takeWhile p ++ c :: later).takeWhile p = cs.takeWhile p ∧
        (cs.takeWhile p ++ c :: later).dropWhile p = c :: later := by
  have inside : ∀ x ∈ cs.takeWhile p, p x = true := List.all_eq_true.mp List.all_takeWhile
  have outside : ¬p c = true := by
    have head := List.head?_dropWhile_not p cs
    rw [stops] at head
    simpa using head
  refine ⟨?_, fun later => ?_⟩
  · rw [← stops, List.takeWhile_append_dropWhile]
  · rw [List.takeWhile_append_of_pos inside, List.dropWhile_append_of_pos inside,
      List.takeWhile_cons_of_neg outside, List.dropWhile_cons_of_neg outside, List.append_nil]
    exact ⟨rfl, rfl⟩

/-- What is read of a text is told where it ends: the same is read of it whatever follows. -/
def Delimits {α : Type} (read : List Char → Option (α × List Char)) : Prop :=
  ∀ {cs rest : List Char} {a : α}, read cs = some (a, rest) →
    ∃ front, cs = front ++ rest ∧ ∀ later, read (front ++ later) = some (a, later)

/-- An escape is told where it ends. -/
theorem delimits_escape? : Delimits escape? := by
  intro cs rest c read
  unfold escape? at read
  split at read
  case h_8 a b after =>
    simp only [bind, Option.bind_eq_some_iff] at read
    obtain ⟨n, number, read⟩ := read
    split at read
    · rename_i small
      cases read
      refine ⟨['x', a, b], rfl, fun later => ?_⟩
      simp [escape?, number, small]
    · cases read
  case h_9 after =>
    simp only [bind, Option.bind_eq_some_iff] at read
    obtain ⟨n, number, read⟩ := read
    split at read
    · rename_i tail closing
      obtain ⟨split, again⟩ := split_of_dropWhile closing
      split at read
      · cases read
      · rename_i bounded
        split at read
        · rename_i valid
          cases read
          refine ⟨'u' :: '\x7b' :: (after.takeWhile (· != '\x7d') ++ ['\x7d']), ?_, fun later => ?_⟩
          · simp only [List.cons_append, List.append_assoc, List.nil_append, ← split]
          · obtain ⟨taken, dropped⟩ := again later
            simp only [List.cons_append, List.append_assoc, List.nil_append, escape?, taken,
              dropped, number, bounded, valid, bind, Option.bind_some]
            rfl
        · cases read
    · cases read
  case h_10 => cases read
  all_goals
    cases read
    exact ⟨[_], rfl, fun later => rfl⟩

private theorem Delimits.front_ne_nil {α : Type} {read : List Char → Option (α × List Char)}
    {front : List Char} {a : α} (nothing : read [] = none)
    (again : ∀ later, read (front ++ later) = some (a, later)) : front ≠ [] := by
  intro empty
  have readNothing := again []
  rw [empty, List.append_nil, nothing] at readNothing
  cases readNothing

/-- The characters make the text and close it, whatever stands behind them. The fuel with which they
were first read says nothing on how many they are, so any that goes round them all is enough. -/
structure Closing (front text : List Char) : Prop where
  ne_nil : front ≠ []
  again : ∀ enough later, front.length ≤ enough →
    quotedWithin? enough (front ++ later) = some (text, later)

namespace Closing

variable {front text : List Char}

/-- The first character takes a unit of the fuel. -/
theorem of_succ (notEmpty : front ≠ [])
    (again : ∀ enough later, front.length ≤ enough + 1 →
      quotedWithin? (enough + 1) (front ++ later) = some (text, later)) : Closing front text := by
  refine ⟨notEmpty, fun enough later long => ?_⟩
  obtain ⟨enough, rfl⟩ :=
    Nat.exists_eq_add_one.mpr (Nat.lt_of_lt_of_le (List.length_pos_iff.mpr notEmpty) long)
  exact again enough later long

/-- A quote closes the empty text. -/
theorem quote : Closing ['"'] [] :=
  of_succ (List.cons_ne_nil _ _) fun _ _ _ => rfl

/-- A line break that is escaped is left out, with the blanks that begin the next line. -/
theorem lineBreak {blanks : List Char} (closing : Closing front text)
    (skipped : ∀ later, (blanks ++ (front ++ later)).dropWhile isLineBlank = front ++ later) :
    Closing ('\\' :: '\n' :: (blanks ++ front)) text := by
  refine of_succ (List.cons_ne_nil _ _) fun enough later long => ?_
  simp only [List.length_cons, List.length_append] at long
  simp only [List.cons_append, List.append_assoc, quotedWithin?, skipped]
  exact closing.again enough later (by omega)

/-- An escape adds the character that it stands for. -/
theorem escape {mark : List Char} {c : Char} (closing : Closing front text)
    (read : ∀ later, escape? (mark ++ later) = some (c, later))
    (notLine : ∀ others, mark ≠ '\n' :: others) : Closing ('\\' :: (mark ++ front)) (c :: text) := by
  refine of_succ (List.cons_ne_nil _ _) fun enough later long => ?_
  simp only [List.length_cons, List.length_append] at long
  -- The escape is at least a character long, so what follows makes no line break of it.
  have notLineAgain : ∀ others, mark ++ (front ++ later) = '\n' :: others → False := by
    intro others same
    obtain ⟨m, marks, rfl⟩ := List.exists_cons_of_ne_nil (Delimits.front_ne_nil rfl read)
    cases same
    exact notLine marks rfl
  rw [List.cons_append, List.append_assoc, quotedWithin?.eq_5 enough _ notLineAgain, read]
  simp only [bind, Option.bind_some, closing.again enough later (by omega)]

/-- A line break of two characters is read as one. -/
theorem carriage (closing : Closing front text) :
    Closing ('\r' :: '\n' :: front) ('\n' :: text) := by
  refine of_succ (List.cons_ne_nil _ _) fun enough later long => ?_
  simp only [List.length_cons] at long
  rw [List.cons_append, List.cons_append, quotedWithin?, closing.again enough later (by omega)]
  rfl

/-- A character other than a quote and a backslash adds itself, unless it is the first half of a
line end. -/
theorem char {c : Char} (closing : Closing front text) (notQuote : c ≠ '"') (notEscape : c ≠ '\\')
    (notReturn : ∀ others, c = '\r' → front ≠ '\n' :: others) : Closing (c :: front) (c :: text) := by
  refine of_succ (List.cons_ne_nil _ _) fun enough later long => ?_
  simp only [List.length_cons] at long
  have notReturnAgain : ∀ others, c = '\r' → front ++ later = '\n' :: others → False := by
    intro others isReturn same
    obtain ⟨f, fronts, rfl⟩ := List.exists_cons_of_ne_nil closing.ne_nil
    cases same
    exact notReturn fronts isReturn rfl
  rw [List.cons_append, quotedWithin?.eq_7 enough c _ notQuote
    (fun _ isEscape _ => notEscape isEscape) notEscape notReturnAgain,
    closing.again enough later (by omega)]
  rfl

end Closing

/-- What is read up to a quote is closed by what stands there, whatever the fuel was. -/
theorem quotedWithin?_front {fuel : Nat} {cs rest text : List Char}
    (read : quotedWithin? fuel cs = some (text, rest)) :
    ∃ front, cs = front ++ rest ∧ Closing front text := by
  induction fuel, cs using quotedWithin?.induct generalizing text rest with
  | case1 => cases read
  | case2 => cases read
  | case3 fuel after =>
      cases read
      exact ⟨_, rfl, .quote⟩
  | case4 fuel after ih =>
      rw [quotedWithin?] at read
      obtain ⟨front, found, closing⟩ := ih read
      obtain ⟨c, front, rfl⟩ := List.exists_cons_of_ne_nil closing.ne_nil
      have found : after.dropWhile isLineBlank = c :: (front ++ rest) := found
      obtain ⟨split, skipped⟩ := split_of_dropWhile found
      refine ⟨_, ?_, closing.lineBreak fun later => (skipped (front ++ later)).2⟩
      rw [List.cons_append, List.cons_append, List.append_assoc, List.cons_append, ← split]
  | case5 fuel after notLine ih =>
      rw [quotedWithin?.eq_5 fuel after notLine] at read
      simp only [bind, Option.bind_eq_some_iff, Prod.exists, Option.some.injEq,
        Prod.mk.injEq] at read
      obtain ⟨c, after', escape, text', rest', read, rfl, rfl⟩ := read
      obtain ⟨mark, rfl, again⟩ := delimits_escape? escape
      obtain ⟨front, rfl, closing⟩ := ih after' read
      refine ⟨_, by simp, closing.escape again ?_⟩
      rintro others rfl
      exact notLine _ rfl
  | case6 fuel after ih =>
      rw [quotedWithin?, Option.map_eq_some_iff] at read
      obtain ⟨⟨text', rest'⟩, read, same⟩ := read
      cases same
      obtain ⟨front, rfl, closing⟩ := ih read
      exact ⟨_, rfl, closing.carriage⟩
  | case7 fuel c after notQuote notLine notEscape notReturn ih =>
      rw [quotedWithin?.eq_7 fuel c after notQuote notLine notEscape notReturn,
        Option.map_eq_some_iff] at read
      obtain ⟨⟨text', rest'⟩, read, same⟩ := read
      cases same
      obtain ⟨front, rfl, closing⟩ := ih read
      refine ⟨_, rfl, closing.char notQuote notEscape ?_⟩
      rintro others isReturn rfl
      exact notReturn _ isReturn rfl

private theorem delimits_quotedText? : Delimits quotedText? := by
  intro cs rest text read
  obtain ⟨front, split, closing⟩ := quotedWithin?_front read
  refine ⟨front, split, fun later => closing.again _ later ?_⟩
  simp only [List.length_append]
  omega

/-- A raw text is told where it ends, by its quote and as many hashes as stand before it. -/
theorem rawText?_front {hashes : Nat} {cs rest text : List Char}
    (read : rawText? hashes cs = some (text, rest)) :
    ∃ front, cs = front ++ rest ∧ hashes < front.length ∧
      ∀ later, rawText? hashes (front ++ later) = some (text, later) := by
  induction cs using rawText?.induct hashes generalizing text with
  | case1 => cases read
  | case2 c after closes =>
      rw [rawText?, if_pos closes] at read
      cases read
      have long : (after.take hashes).length = hashes := by
        simp only [Bool.and_eq_true, decide_eq_true_eq] at closes
        exact closes.1.2
      refine ⟨c :: after.take hashes, ?_, ?_, fun later => ?_⟩
      · rw [List.cons_append, List.take_append_drop]
      · rw [List.length_cons, long]
        exact Nat.lt_add_one hashes
      · have same : (after.take hashes ++ later).take hashes = after.take hashes :=
          List.take_left' long
        rw [List.cons_append, rawText?, same, if_pos closes, List.drop_left' long]
  | case3 c after goes ih =>
      rw [rawText?, if_neg goes, Option.map_eq_some_iff] at read
      obtain ⟨⟨text', rest'⟩, read, same⟩ := read
      cases same
      obtain ⟨front, rfl, long, again⟩ := ih read
      refine ⟨c :: front, rfl, Nat.lt_succ_of_lt long, fun later => ?_⟩
      -- The hash marks looked for lie in what was read.
      have same (others : List Char) : (front ++ others).take hashes = front.take hashes :=
        List.take_append_of_le_length (Nat.le_of_lt long)
      rw [same] at goes
      rw [List.cons_append, rawText?, same, if_neg goes, again]
      rfl

private theorem delimits_rawTextFrom? : Delimits rawTextFrom? := by
  intro cs rest text read
  unfold rawTextFrom? at read
  split at read
  · rename_i after opens
    obtain ⟨split, stopped⟩ := split_of_dropWhile opens
    obtain ⟨front, rfl, _, again⟩ := rawText?_front read
    refine ⟨cs.takeWhile (· == '#') ++ '"' :: front, ?_, fun later => ?_⟩
    · rw [List.append_assoc, List.cons_append, ← split]
    · obtain ⟨hashes, mark⟩ := stopped (front ++ later)
      rw [List.append_assoc, List.cons_append, rawTextFrom?, mark, hashes]
      exact again later
  · cases read

/-- A character in quotes is told where it ends. -/
theorem delimits_quotedChar? : Delimits quotedChar? := by
  intro cs rest c read
  unfold quotedChar? at read
  split at read
  · simp only [bind, Option.bind_eq_some_iff, Prod.exists] at read
    obtain ⟨c', after, escape, read⟩ := read
    obtain ⟨mark, rfl, again⟩ := delimits_escape? escape
    split at read
    · cases read
      refine ⟨'\\' :: (mark ++ ['\'']), by simp, fun later => ?_⟩
      rw [List.cons_append, List.append_assoc, quotedChar?, again]
      rfl
    · cases read
  · rename_i c' after notEscape
    split at read
    · cases read
    · rename_i notMark
      cases read
      refine ⟨[c, '\''], rfl, fun later => ?_⟩
      rw [List.cons_append, List.singleton_append, quotedChar?.eq_2 c later notEscape,
        if_neg notMark]
  · cases read

/-! ## What a cut takes away -/

/-- The characters other than blanks. -/
def bare (cs : List Char) : List Char :=
  cs.filter fun c => !Text.isBlank c

namespace Flat

/-- Whether the token is none with brackets in it. -/
def isLeaf : Flat → Bool
  | one (.group _ _) => false
  | _ => true

/-- The token as it is written, without blanks. -/
def written : Flat → String
  | one t => t.written
  | opening d => String.singleton d.opening
  | closing d => String.singleton d.closing

end Flat

/-- The tokens are those of a front part of a text, together with the characters before it; only
blanks are left out of them. -/
def IsFront (before cs : List Char) (fs : List Flat) (rest : List Char) : Prop :=
  ∃ front, cs = front ++ rest ∧ fs.all (·.isLeaf) ∧
    bare (fs.flatMap fun f => f.written.toList) = bare (before ++ front)

private theorem bare_removeSpaces (s : String) :
    bare (Text.removeSpaces s).toList = bare s.toList := by
  simp only [bare, Text.removeSpaces, String.toList_ofList, List.filter_filter]
  refine List.filter_congr fun c _ => ?_
  by_cases space : c = ' '
  · subst space
    rfl
  · simp [space]

/-- What was consumed is the front part. -/
theorem consumed_append (front rest : List Char) :
    consumed (front ++ rest) rest = String.ofList front := by
  rw [consumed, List.length_append, Nat.add_sub_cancel, List.take_left]

private theorem takeWhile_comma {p : Char → Bool} (stops : p ',' = false) (cs later : List Char) :
    (cs ++ ',' :: later).takeWhile p = cs.takeWhile p ∧
      (cs ++ ',' :: later).dropWhile p = cs.dropWhile p ++ ',' :: later := by
  induction cs with
  | nil =>
      simp [stops]
  | cons c cs ih =>
      by_cases inside : p c = true <;> simp [inside, ih]

/-- A single token without brackets is of the front part that it is written as. -/
theorem IsFront.token {before cs rest front : List Char} {t : Token} (split : cs = front ++ rest)
    (leaf : Flat.isLeaf (.one t)) (same : bare t.written.toList = bare (before ++ front)) :
    IsFront before cs [.one t] rest := by
  refine ⟨front, split, by rw [List.all_cons, leaf]; rfl, ?_⟩
  rw [List.flatMap_cons, List.flatMap_nil, List.append_nil]
  exact same

/-- What is cut off a text, with another in front of it, is a front part; the same is cut off if the
text goes on with a comma. -/
def CutsOff (before : List Char) (read : List Char → Cut) (cs : List Char) : Prop :=
  ∀ fs rest, read cs = some (fs, rest) →
    IsFront before cs fs rest ∧
      ∀ later, read (cs ++ ',' :: later) = some (fs, rest ++ ',' :: later)

/-- A cut may be told in another way where both do the same. -/
theorem CutsOff.congr {before : List Char} {read other : List Char → Cut} (lead : List Char)
    {cs : List Char} (cuts : CutsOff before read (lead ++ cs))
    (same : ∀ cs, other (lead ++ cs) = read (lead ++ cs)) : CutsOff before other (lead ++ cs) := by
  intro fs rest found
  rw [same] at found
  obtain ⟨front, again⟩ := cuts fs rest found
  refine ⟨front, fun later => ?_⟩
  rw [List.append_assoc, same, ← List.append_assoc, again]

/-- The characters in front may be counted to the text. -/
theorem CutsOff.lead {before : List Char} {read other : List Char → Cut} (lead : List Char)
    {cs : List Char} (cuts : CutsOff (before ++ lead) read cs)
    (same : ∀ cs, other (lead ++ cs) = read cs) : CutsOff before other (lead ++ cs) := by
  intro fs rest found
  rw [same] at found
  obtain ⟨⟨front, split, leaves, written⟩, again⟩ := cuts fs rest found
  refine ⟨⟨lead ++ front, ?_, leaves, ?_⟩, fun later => ?_⟩
  · rw [split, List.append_assoc]
  · rw [written, List.append_assoc]
  · rw [List.append_assoc, same, again]

/-- Tokens that are written as the text that they are read off. -/
def Writes {α : Type} (token : α → String → Token) : Prop :=
  ∀ a written, Flat.isLeaf (.one (token a written)) ∧
    (token a written).written = Text.removeSpaces written

private theorem writes_textToken : Writes textToken := by
  intro value written
  exact ⟨rfl, by rw [textToken, Token.written]⟩

private theorem writes_literalToken {α : Type} : Writes (literalToken (α := α)) := by
  intro value written
  exact ⟨rfl, by rw [literalToken, Token.written]⟩

private theorem Delimits.cutsOff {α : Type} {read : List Char → Option (α × List Char)}
    (delimits : Delimits read) {token : α → String → Token} (writes : Writes token)
    (before cs : List Char) :
    CutsOff before (fun cs => asToken token (before ++ cs) (read cs)) cs := by
  intro fs rest found
  obtain ⟨⟨a, rest'⟩, readIt, same⟩ := Option.map_eq_some_iff.mp found
  cases same
  obtain ⟨front, rfl, again⟩ := delimits readIt
  obtain ⟨leaf, written⟩ := writes a (consumed (before ++ (front ++ rest')) rest')
  refine ⟨IsFront.token rfl leaf ?_, fun later => ?_⟩
  · rw [written, bare_removeSpaces, ← List.append_assoc, consumed_append, String.toList_ofList]
  · dsimp only
    rw [List.append_assoc, again, asToken, Option.map_some, ← List.append_assoc,
      consumed_append, ← List.append_assoc, consumed_append]

private theorem cutsOff_run (before : List Char) {token : List Char → Token}
    (leaf : ∀ run, Flat.isLeaf (.one (token run)))
    (written : ∀ run, (token run).written.toList = before ++ run) (cs : List Char) :
    CutsOff before (fun cs =>
      some ([.one (token (cs.takeWhile continuesName))], cs.dropWhile continuesName)) cs := by
  intro fs rest found
  cases found
  refine ⟨IsFront.token List.takeWhile_append_dropWhile.symm (leaf _) ?_, fun later => ?_⟩
  · rw [written]
  · obtain ⟨taken, dropped⟩ := takeWhile_comma (p := continuesName) rfl cs later
    simp only [taken, dropped]

/-- A raw name. -/
theorem cutsOff_rawName? (cs : List Char) : CutsOff ['r', '#'] rawName? cs := by
  have run := cutsOff_run ['r', '#'] (fun run => rfl)
    (fun run => show (Token.ident ("r#" ++ String.ofList run)).written.toList = _ by
      simp [Token.written]) cs
  intro fs rest found
  cases cs with
  | nil => cases found
  | cons c others =>
      simp only [rawName?] at found
      split at found
      case isFalse => cases found
      case isTrue plain =>
        obtain ⟨front, again⟩ := run fs rest found
        refine ⟨front, fun later => ?_⟩
        have taken := (takeWhile_comma (p := continuesName) rfl (c :: others) later).1
        have again := again later
        rw [List.cons_append] at taken again ⊢
        simp only [rawName?, taken, plain, if_true]
        simpa only [taken] using again

/-- A text, a character or a name, after the letters that may stand before its quote. -/
theorem cutsOff_prefixed? (word after : List Char) : CutsOff word (prefixed? word) after := by
  have plain (after : List Char) :
      CutsOff word (fun after => some ([.one (.ident (String.ofList word))], after)) after := by
    intro fs rest found
    cases found
    refine ⟨IsFront.token (List.nil_append after).symm rfl ?_, fun later => rfl⟩
    rw [Token.written, String.toList_ofList, List.append_nil]
  have literal {α : Type} {read : List Char → Option (α × List Char)} (delimits : Delimits read)
      (before cs : List Char) :=
    delimits.cutsOff writes_literalToken before cs
  cases after with
  | nil => exact plain []
  | cons c inner =>
  -- One case for each mark after the word, and in it one for each prefix that it goes with.
  by_cases isQuote : c = '"'
  · subst isQuote
    by_cases isRaw : String.ofList word = "r"
    · refine (delimits_rawTextFrom?.cutsOff writes_textToken word _).congr ['"'] fun cs => ?_
      simp [prefixed?, isRaw]
    by_cases isRawBytes : String.ofList word = "br" ∨ String.ofList word = "cr"
    · refine (literal delimits_rawTextFrom? word _).congr ['"'] fun cs => ?_
      simp [prefixed?, isRaw, isRawBytes]
    by_cases isBytes : String.ofList word = "b" ∨ String.ofList word = "c"
    · refine (literal delimits_quotedText? _ _).lead ['"'] fun cs => ?_
      simp [prefixed?, isRaw, isRawBytes, isBytes]
    · refine (plain _).congr ['"'] fun cs => ?_
      simp [prefixed?, isRaw, isRawBytes, isBytes]
  by_cases isHash : c = '#'
  · subst isHash
    by_cases isRaw : String.ofList word = "r"
    · have letter : word = ['r'] := String.ofList_inj.mp isRaw
      cases inner with
      | nil =>
          intro fs rest found
          simp [prefixed?, isRaw, rawName?] at found
      | cons d inner =>
      by_cases isText : d = '"' ∨ d = '#'
      · refine (delimits_rawTextFrom?.cutsOff writes_textToken word _).congr ['#', d] fun cs => ?_
        simp [prefixed?, isRaw, isText]
      · have raw : CutsOff word (fun cs => rawName? cs.tail) ('#' :: d :: inner) := by
          subst letter
          exact CutsOff.lead ['#'] (cutsOff_rawName? (d :: inner)) fun cs => rfl
        refine raw.congr ['#', d] fun cs => ?_
        simp [prefixed?, isRaw, isText]
    by_cases isRawBytes : String.ofList word = "br" ∨ String.ofList word = "cr"
    · refine (literal delimits_rawTextFrom? word _).congr ['#'] fun cs => ?_
      simp [prefixed?, isRaw, isRawBytes]
    · refine (plain _).congr ['#'] fun cs => ?_
      simp [prefixed?, isRaw, isRawBytes]
  by_cases isMark : c = '\''
  · subst isMark
    by_cases isByte : String.ofList word = "b"
    · refine (literal delimits_quotedChar? _ _).lead ['\''] fun cs => ?_
      simp [prefixed?, isByte]
    · refine (plain _).congr ['\''] fun cs => ?_
      simp [prefixed?, isByte]
  · refine (plain _).congr [c] fun cs => ?_
    simp [prefixed?, isQuote, isHash, isMark]

/-- What begins a name may continue one. -/
theorem continuesName_of_begins {c : Char} (begins : beginsName c = true) :
    continuesName c = true := by
  rw [continuesName, begins, Bool.true_or]

private theorem cutsOff_word? {c : Char} (begins : beginsName c = true) (cs : List Char) :
    CutsOff [c] (fun cs => word? (c :: cs)) cs := by
  have continues := continuesName_of_begins begins
  have word (cs : List Char) : word? (c :: cs) =
      prefixed? (c :: cs.takeWhile continuesName) (cs.dropWhile continuesName) := by
    rw [word?, List.takeWhile_cons_of_pos continues, List.dropWhile_cons_of_pos continues]
  intro fs rest found
  simp only [word] at found ⊢
  obtain ⟨⟨front, split, leaves, written⟩, again⟩ := cutsOff_prefixed? _ _ fs rest found
  refine ⟨⟨cs.takeWhile continuesName ++ front, ?_, leaves, written⟩, fun later => ?_⟩
  · rw [List.append_assoc, ← split, List.takeWhile_append_dropWhile]
  · obtain ⟨taken, dropped⟩ := takeWhile_comma (p := continuesName) rfl cs later
    rw [taken, dropped, again]

/-- What begins a name is none of the other characters. -/
theorem beginsName_ne {c d : Char} (begins : beginsName c = true) (other : beginsName d = false) :
    c ≠ d := by
  rintro rfl
  rw [begins] at other
  cases other

private theorem quotedChar?_name {c : Char} (begins : beginsName c = true) (rest : List Char) :
    (quotedChar? (c :: rest)).isSome ↔ rest.head? = some '\'' := by
  have notEscape : c ≠ '\\' := beginsName_ne begins rfl
  have notMark : c ≠ '\'' := beginsName_ne begins rfl
  cases rest with
  | nil => simp [quotedChar?, notEscape]
  | cons d rest =>
      by_cases isMark : d = '\''
      · subst isMark
        simp [quotedChar?, notMark]
      · simp [quotedChar?, notEscape, isMark]

/-- A character in quotes or a lifetime, after the mark that they begin with. -/
theorem cutsOff_afterMark? (cs : List Char) : CutsOff ['\''] afterMark? cs := by
  intro fs rest found
  rw [afterMark?, Option.or_eq_some_iff] at found
  obtain literal | ⟨noChar, found⟩ := found
  · obtain ⟨front, again⟩ :=
      delimits_quotedChar?.cutsOff writes_literalToken ['\''] cs fs rest literal
    refine ⟨front, fun later => ?_⟩
    exact Option.or_eq_some_iff.mpr (Or.inl (again later))
  · cases cs with
    | nil => cases found
    | cons c others =>
        simp only [lifetime?] at found
        split at found
        case isFalse => cases found
        case isTrue begins =>
          have run := cutsOff_run ['\'', c] (fun run => rfl)
            (fun run => show (Token.lifetime (String.ofList (c :: run))).written.toList = _ by
              simp [Token.written]) others
          obtain ⟨⟨front, split, leaves, written⟩, again⟩ := run fs rest found
          refine ⟨⟨c :: front, congrArg (c :: ·) split, leaves, written⟩, fun later => ?_⟩
          refine Option.or_eq_some_iff.mpr (Or.inr ⟨?_, ?_⟩)
          -- A letter is no character in quotes, and neither is it one in front of a comma.
          · rw [asToken, Option.map_eq_none_iff, ← Option.not_isSome_iff_eq_none,
              quotedChar?_name begins] at noChar
            rw [List.cons_append, asToken, Option.map_eq_none_iff, ← Option.not_isSome_iff_eq_none,
              quotedChar?_name begins]
            cases others with
            | nil => simp
            | cons d others => exact noChar
          · simpa only [List.cons_append, lifetime?, begins, if_true] using again later

private theorem number_append (cs : List Char) : (number cs).1 ++ (number cs).2 = cs := by
  unfold number
  split
  · rename_i c rest point
    split
    · rw [List.append_assoc, List.cons_append, List.takeWhile_append_dropWhile, ← point,
        List.takeWhile_append_dropWhile]
    · rw [← point, List.takeWhile_append_dropWhile]
  · rw [List.takeWhile_append_dropWhile]

/-- A number ends before a comma. -/
theorem number_comma (cs later : List Char) :
    number (cs ++ ',' :: later) = ((number cs).1, (number cs).2 ++ ',' :: later) := by
  obtain ⟨taken, dropped⟩ := takeWhile_comma (p := continuesName) rfl cs later
  simp only [number, taken, dropped]
  cases cs.dropWhile continuesName with
  | nil => rfl
  | cons point rest =>
  by_cases isPoint : point = '.'
  · subst isPoint
    cases rest with
    | nil => rfl
    | cons c rest =>
        obtain ⟨taken, dropped⟩ := takeWhile_comma (p := continuesName) rfl (c :: rest) later
        rw [List.cons_append] at taken dropped
        simp only [List.cons_append, taken, dropped]
        split <;> rfl
  · simp [isPoint]

private theorem number_cons {c : Char} (isDigit : c.isDigit = true) (cs : List Char) :
    ∃ digits, (number (c :: cs)).1 = c :: digits := by
  have continues : continuesName c = true := by rw [continuesName, isDigit, Bool.or_true]
  unfold number
  rw [List.takeWhile_cons_of_pos continues, List.dropWhile_cons_of_pos continues]
  split
  · split
    · exact ⟨_, List.cons_append⟩
    · exact ⟨_, rfl⟩
  · exact ⟨_, rfl⟩

private theorem cutsOff_number {c : Char} (isDigit : c.isDigit = true) (cs : List Char) :
    CutsOff [c] (fun cs => some ([.one (.literal (String.ofList (number (c :: cs)).1))],
      (number (c :: cs)).2)) cs := by
  intro fs rest found
  cases found
  obtain ⟨digits, first⟩ := number_cons isDigit cs
  have split := number_append (c :: cs)
  rw [first, List.cons_append, List.cons.injEq] at split
  refine ⟨IsFront.token split.2.symm rfl ?_, fun later => ?_⟩
  · rw [Token.written, bare_removeSpaces, String.toList_ofList, first]
    rfl
  · simp only [← List.cons_append, number_comma]

/-- A punctuation mark of one character or of more. -/
theorem cutsOff_punct? (c : Char) (cs : List Char) : CutsOff [c] (punct? c) cs := by
  intro fs rest found
  unfold punct? at found
  have joinsComma : joinsNext c (some ',') = false := by
    simp [joinsNext]
  split at found
  case isTrue joins =>
    cases found
    cases cs with
    | nil => simp [joinsNext] at joins
    | cons d cs =>
        have split : d :: cs = [d] ++ cs := rfl
        refine ⟨IsFront.token split rfl ?_, fun later => ?_⟩
        · simp [Token.written]
        · simp only [punct?, List.cons_append, List.head?_cons] at joins ⊢
          rw [if_pos joins]
          rfl
  case isFalse apart =>
  split at found
  case isTrue isMark =>
    cases found
    refine ⟨IsFront.token (List.nil_append cs).symm rfl ?_, fun later => ?_⟩
    · simp [Token.written]
    · have apart : joinsNext c (cs ++ ',' :: later).head? = false := by
        cases cs with
        | nil => exact joinsComma
        | cons d cs => exact Bool.eq_false_iff.mpr apart
      simp only [punct?, apart, isMark, if_true]
      rfl
  case isFalse => cases found

/-- A token without brackets. -/
theorem cutsOff_leaf? (c : Char) (cs : List Char) : CutsOff [c] (leaf? c) cs := by
  by_cases isName : beginsName c = true
  · refine (cutsOff_word? isName cs).congr [] fun cs => ?_
    simp [leaf?, isName]
  by_cases isMark : c = '\''
  · subst isMark
    refine (cutsOff_afterMark? cs).congr [] fun cs => ?_
    simp [leaf?, isName]
  by_cases isQuote : c = '"'
  · subst isQuote
    refine (delimits_quotedText?.cutsOff writes_textToken ['"'] cs).congr [] fun cs => ?_
    simp [leaf?, isName]
  by_cases isNumber : c.isDigit = true
  · refine (cutsOff_number isNumber cs).congr [] fun cs => ?_
    simp [leaf?, isName, isMark, isQuote, isNumber]
  · refine (cutsOff_punct? c cs).congr [] fun cs => ?_
    simp [leaf?, isName, isMark, isQuote, isNumber]

private theorem bracket?_eq_some {c : Char} {b : Flat} (found : bracket? c = some b) :
    b.isLeaf ∧ b.written = String.singleton c := by
  rw [bracket?, Option.or_eq_some_iff, Option.map_eq_some_iff, Option.map_eq_some_iff] at found
  obtain ⟨d, found, rfl⟩ | ⟨_, d, found, rfl⟩ := found
  · have same : d.opening = c :=
      eq_of_beq (List.find?_some (p := fun d : Delimiter => d.opening == c) found)
    exact ⟨rfl, by rw [Flat.written, same]⟩
  · have same : d.closing = c :=
      eq_of_beq (List.find?_some (p := fun d : Delimiter => d.closing == c) found)
    exact ⟨rfl, by rw [Flat.written, same]⟩

/-- Whatever token is cut off outside of comments. -/
theorem cutsOff_cut? {c : Char} {cs : List Char} (noComment : beginsComment c cs = false) :
    CutsOff [c] (cut? c) cs := by
  have noCommentLater (later : List Char) : beginsComment c (cs ++ ',' :: later) = false := by
    cases cs with
    | nil => simp [beginsComment]
    | cons d cs => exact noComment
  intro fs rest found
  unfold cut? at found
  by_cases isBlank : Text.isBlank c = true
  · rw [if_pos isBlank] at found
    cases found
    refine ⟨⟨[], rfl, rfl, ?_⟩, fun later => ?_⟩
    · simp [bare, isBlank]
    · rw [cut?, if_pos isBlank]
  rw [if_neg isBlank, noComment, if_neg Bool.false_ne_true] at found
  cases isBracket : bracket? c with
  | some b =>
      rw [isBracket] at found
      cases found
      obtain ⟨leaf, written⟩ := bracket?_eq_some isBracket
      refine ⟨⟨[], rfl, by rw [List.all_cons, leaf]; rfl, ?_⟩, fun later => ?_⟩
      · simp [written]
      · rw [cut?, if_neg isBlank, noCommentLater, if_neg Bool.false_ne_true, isBracket]
  | none =>
      rw [isBracket] at found
      obtain ⟨front, again⟩ := cutsOff_leaf? c cs fs rest found
      refine ⟨front, fun later => ?_⟩
      rw [cut?, if_neg isBlank, noCommentLater, if_neg Bool.false_ne_true, isBracket]
      exact again later

end Tabula.Source
