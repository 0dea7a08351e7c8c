import Tabula.Json.Token
import Tabula.Json.Tree

/-! # Tokens of written values

A written value has the tokens that are meant (`Tabula.Json.Tree.lexes_write`), whatever follows it.
Every character of a text in quotes comes back from the way it is escaped
(`Tabula.Json.lexText_escapeChar`), so quotes, backslashes and control characters can stand in keys
and values alike.
-/

namespace Tabula.Json

/-! ## Texts in quotes -/

private theorem hexWord?_of_control {n : Nat} (control : n < 0x20) :
    hexWord? '0' '0' (Text.hexDigit (n / 16)) (Text.hexDigit (n % 16)) = some n := by
  have each : ∀ n < 0x20,
      hexWord? '0' '0' (Text.hexDigit (n / 16)) (Text.hexDigit (n % 16)) = some n := by
    decide +kernel
  exact each n control

/-- An escaped character is read as the character. -/
theorem lexText_escapeChar (c : Char) (more : List Char) :
    lexText (escapeChar c ++ more) = (lexText more).map fun r => (c :: r.1, r.2) := by
  unfold escapeChar
  -- The characters with an escape of their own are read as they are written.
  split <;> try rfl
  rename_i _ notQuote notBackslash _ _ _ _ _
  split
  · rename_i control
    have noSecond : ¬(0xDC00 ≤ c.toNat ∧ c.toNat ≤ 0xDFFF) := by omega
    have noFirst : ¬(0xD800 ≤ c.toNat ∧ c.toNat ≤ 0xDBFF) := by omega
    simp only [List.cons_append, List.nil_append, lexText, hexWord?_of_control control,
      Bool.and_eq_true, decide_eq_true_eq, noSecond, noFirst, if_false, Char.ofNat_toNat]
  · rename_i printed
    rw [List.singleton_append, lexText, if_neg printed]
    · exact notQuote
    · exact fun same _ => notBackslash same
    · exact fun _ _ _ _ _ same _ => notBackslash same
    · exact fun _ same _ => notBackslash same
    · exact fun _ _ same _ => notBackslash same

private theorem lexText_flatMap (cs rest : List Char) :
    lexText (cs.flatMap escapeChar ++ '"' :: rest) = .ok (cs, rest) := by
  induction cs with
  | nil => rfl
  | cons c cs ih =>
      rw [List.flatMap_cons, List.append_assoc, lexText_escapeChar, ih]
      rfl

/-! ## Parts of a text -/

/-- The characters fall into these tokens, whatever stands after them and however many steps are
left for it. -/
def Lexes (w : List Char) (ts : List Token) : Prop :=
  ts.length ≤ w.length ∧
    ∀ fuel rest, tokensIn (fuel + ts.length) (w ++ rest) = ts ++ tokensIn fuel rest

/-- Two texts fall into tokens one after the other. -/
theorem Lexes.append {v w : List Char} {ts us : List Token} (first : Lexes v ts)
    (second : Lexes w us) : Lexes (v ++ w) (ts ++ us) := by
  obtain ⟨fewer, reads⟩ := first
  obtain ⟨fewer', reads'⟩ := second
  refine ⟨?_, fun fuel rest => ?_⟩
  · rw [List.length_append, List.length_append]
    omega
  · have steps : fuel + (ts ++ us).length = fuel + us.length + ts.length := by
      rw [List.length_append]
      omega
    rw [steps, List.append_assoc, reads, reads', List.append_assoc]

/-- One token at the front of a text. -/
theorem Lexes.of_lexToken {c : Char} {w : List Char} {t : Token} (visible : isSpace c = false)
    (reads : ∀ rest, lexToken c (w ++ rest) = (t, rest)) : Lexes (c :: w) [t] := by
  refine ⟨Nat.succ_le_succ (Nat.zero_le _), fun fuel rest => ?_⟩
  change tokensIn (fuel + 1) (c :: (w ++ rest)) = _
  rw [tokensIn, visible, reads]
  rfl

/-- A mark at the front of a text. -/
theorem Lexes.cons {c : Char} {t : Token} {w : List Char} {ts : List Token}
    (visible : isSpace c = false) (reads : ∀ rest, lexToken c rest = (t, rest))
    (after : Lexes w ts) : Lexes (c :: w) (t :: ts) :=
  (Lexes.of_lexToken (w := []) visible reads).append after

/-- The empty text has no token. -/
theorem Lexes.nil : Lexes [] [] :=
  ⟨Nat.le_refl _, fun _ _ => rfl⟩

/-- A written text is one token. -/
theorem lexes_writeText (s : String) : Lexes (writeText s) [.text s] := by
  refine Lexes.of_lexToken rfl fun rest => ?_
  change lexed true (.text ∘ String.ofList) (lexText (_ ++ rest)) = _
  rw [List.append_assoc, List.singleton_append, lexText_flatMap]
  change (Token.text (String.ofList s.toList), rest) = _
  rw [String.ofList_toList]

private theorem tokensIn_nil (fuel : Nat) : tokensIn fuel [] = [] := by
  cases fuel <;> rfl

/-- A text has the tokens of its front, and then those of what follows. -/
theorem Lexes.exists_tokens {w : List Char} {ts : List Token} (front : Lexes w ts)
    (rest : List Char) :
    ∃ fuel, tokens (String.ofList (w ++ rest)) = ts ++ tokensIn fuel rest := by
  obtain ⟨fewer, reads⟩ := front
  obtain ⟨fuel, steps⟩ : ∃ fuel, (w ++ rest).length = fuel + ts.length := by
    refine ⟨(w ++ rest).length - ts.length, ?_⟩
    rw [List.length_append]
    omega
  exact ⟨fuel, by rw [tokens, String.toList_ofList, steps, reads]⟩

/-- A whole text has just its tokens. -/
theorem Lexes.tokens_eq {w : List Char} {ts : List Token} (whole : Lexes w ts) :
    tokens (String.ofList w) = ts := by
  obtain ⟨fuel, all⟩ := whole.exists_tokens []
  rwa [tokensIn_nil, List.append_nil, List.append_nil] at all

/-! ## Values -/

mutual

/-- The tokens of a value. -/
def Tree.tokens : Tree → List Token
  | .null => [.null]
  | .bool b => [.bool b]
  | .text s => [.text s]
  | .array elements => .openArray :: elementTokens elements
  | .object fields => .openObject :: fieldTokens fields

/-- The tokens of the elements of an array and of its end. -/
def elementTokens : List Tree → List Token
  | [] => [.closeArray]
  | [t] => t.tokens ++ [.closeArray]
  | t :: u :: rest => t.tokens ++ .comma :: elementTokens (u :: rest)

/-- The tokens of the fields of an object and of its end. -/
def fieldTokens : List (String × Tree) → List Token
  | [] => [.closeObject]
  | [(key, t)] => .text key :: .colon :: (t.tokens ++ [.closeObject])
  | (key, t) :: f :: rest =>
    .text key :: .colon :: (t.tokens ++ .comma :: fieldTokens (f :: rest))

end

mutual

/-- A written value has its tokens. -/
theorem Tree.lexes_write : ∀ t : Tree, Lexes t.write t.tokens
  | .null => Lexes.of_lexToken (by decide) fun _ => rfl
  | .bool true => Lexes.of_lexToken (by decide) fun _ => rfl
  | .bool false => Lexes.of_lexToken (by decide) fun _ => rfl
  | .text s => lexes_writeText s
  | .array elements => Lexes.cons (by decide) (fun _ => rfl) (lexes_writeElements elements)
  | .object fields => Lexes.cons (by decide) (fun _ => rfl) (lexes_writeFields fields)

private theorem lexes_writeElements : ∀ ts : List Tree, Lexes (writeElements ts) (elementTokens ts)
  | [] => Lexes.cons (by decide) (fun _ => rfl) .nil
  | [t] => t.lexes_write.append (Lexes.cons (by decide) (fun _ => rfl) .nil)
  | t :: u :: rest =>
    t.lexes_write.append (Lexes.cons (by decide) (fun _ => rfl) (lexes_writeElements (u :: rest)))

private theorem lexes_writeFields :
    ∀ fs : List (String × Tree), Lexes (writeFields fs) (fieldTokens fs)
  | [] => Lexes.cons (by decide) (fun _ => rfl) .nil
  | [(key, t)] =>
    (lexes_writeText key).append (Lexes.cons (by decide) (fun _ => rfl)
      (t.lexes_write.append (Lexes.cons (by decide) (fun _ => rfl) .nil)))
  | (key, t) :: f :: rest =>
    (lexes_writeText key).append (Lexes.cons (by decide) (fun _ => rfl)
      (t.lexes_write.append (Lexes.cons (by decide) (fun _ => rfl)
        (lexes_writeFields (f :: rest)))))

end

end Tabula.Json
