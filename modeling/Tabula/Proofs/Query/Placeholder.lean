import Mathlib.Data.List.Basic
import Tabula.Query.Statement

/-! # Placeholders

Where the parameters of a statement go. A placeholder is a question mark outside of quoted names, and
the values go to the placeholders from left to right (`Tabula.Sql.inlay?`). A text and a list of
values that are put together side by side stay together (`Tabula.Sql.Inlays.append`), since every
quoted name of the text ends where the next part begins. Names may hold question marks and quotes
without taking a value (`Tabula.Sql.Silent.name`).
-/

namespace Tabula

namespace Sql

/-! ## Handing out values -/

/-- A character of a text, or a value where the text has a placeholder. -/
inductive Mark where
  | char (c : Char)
  | value (v : Value)
deriving DecidableEq

/-- A text without values. -/
def plain (s : String) : List Mark :=
  s.toList.map .char

/-- The text with the values in place of its placeholders from left to right, nothing unless there
are as many values as placeholders. -/
def inlay? (inside : Bool) : List Char → List Value → Option (List Mark)
  | [], vs => if vs.isEmpty then some [] else none
  | c :: rest, vs =>
    if c = '"' then (inlay? (!inside) rest vs).map (.char c :: ·)
    else if c = '?' ∧ inside = false then
      vs.head?.bind fun v => (inlay? inside rest vs.tail).map (.value v :: ·)
    else (inlay? inside rest vs).map (.char c :: ·)

variable {inside : Bool} {rest : List Char}

private theorem inlay?_quote (vs : List Value) :
    inlay? inside ('"' :: rest) vs = (inlay? (!inside) rest vs).map (.char '"' :: ·) := by
  rw [inlay?, if_pos rfl]

private theorem inlay?_slot (v : Value) (vs : List Value) :
    inlay? false ('?' :: rest) (v :: vs) = (inlay? false rest vs).map (.value v :: ·) := by
  rw [inlay?, if_neg (by decide), if_pos ⟨rfl, rfl⟩, List.head?_cons, Option.bind_some,
    List.tail_cons]

private theorem inlay?_copied {c : Char} (notQuote : c ≠ '"') (notSlot : c = '?' → inside = true)
    (vs : List Value) :
    inlay? inside (c :: rest) vs = (inlay? inside rest vs).map (.char c :: ·) := by
  have kept : ¬ (c = '?' ∧ inside = false) := by
    rintro ⟨isMark, outside⟩
    rw [notSlot isMark] at outside
    cases outside
  rw [inlay?, if_neg notQuote, if_neg kept]

/-- Inside of a name every character is copied, and a doubled quote leaves the name and comes
back. -/
theorem inlay?_doubleChars (name : List Char) (vs : List Value) :
    inlay? true (Text.doubleChars '"' name ++ rest) vs =
      (inlay? true rest vs).map ((Text.doubleChars '"' name).map .char ++ ·) := by
  induction name with
  | nil => simp [Text.doubleChars]
  | cons c name ih =>
      rw [Text.doubleChars]
      split
      · rw [List.cons_append, List.cons_append, inlay?_quote, inlay?_quote, Bool.not_not,
          ih, Option.map_map, Option.map_map]
        rfl
      · rename_i notQuote
        rw [List.cons_append, inlay?_copied notQuote fun _ => rfl, ih, Option.map_map]
        rfl

private theorem plain_append (s t : String) : plain (s ++ t) = plain s ++ plain t := by
  rw [plain, String.toList_append, List.map_append]
  rfl

private theorem plain_intercalate (separator : String) (texts : List String) :
    plain (separator.intercalate texts) = (plain separator).intercalate (texts.map plain) := by
  induction texts with
  | nil => rfl
  | cons s texts ih =>
      cases texts with
      | nil =>
          rw [List.map_singleton, String.intercalate_singleton, List.intercalate_singleton]
      | cons t texts =>
          rw [List.map_cons, List.map_cons, String.intercalate_cons_cons,
            List.intercalate_cons_cons, plain_append, plain_append, ih, List.map_cons]

/-- The text with the values in place is the marks, whatever text and values follow. -/
def Inlays (text : String) (values : List Value) (marks : List Mark) : Prop :=
  ∀ rest others, inlay? false (text.toList ++ rest) (values ++ others) =
    (inlay? false rest others).map (marks ++ ·)

/-- The text has no placeholder, and no quoted name of it goes on after it. -/
def Silent (text : String) : Prop :=
  Inlays text [] (plain text)

/-- The characters are no placeholder and begin no quoted name. -/
def IsUnmarked (text : String) : Prop :=
  ∀ c ∈ text.toList, c ≠ '"' ∧ c ≠ '?'

instance (text : String) : Decidable (IsUnmarked text) :=
  List.decidableBAll (fun c : Char => c ≠ '"' ∧ c ≠ '?') text.toList

namespace Inlays

variable {text later : String} {values others : List Value} {marks more : List Mark}

/-- Values are put into two texts one after the other. -/
theorem append (first : Inlays text values marks) (second : Inlays later others more) :
    Inlays (text ++ later) (values ++ others) (marks ++ more) := by
  intro rest vs
  rw [String.toList_append, List.append_assoc, List.append_assoc, first, second, Option.map_map]
  simp only [Function.comp_def, List.append_assoc]

/-- A text without placeholders before one that has some. -/
theorem after (first : Silent text) (second : Inlays later others more) :
    Inlays (text ++ later) others (plain text ++ more) :=
  append first second

/-- A text without placeholders after one that has some. -/
theorem before (first : Inlays text values marks) (second : Silent later) :
    Inlays (text ++ later) values (marks ++ plain later) := by
  have both := append first second
  rwa [List.append_nil] at both

/-- A placeholder takes one value. -/
theorem slot (v : Value) : Inlays "?" [v] [.value v] := by
  intro rest vs
  have isSlot : "?".toList = ['?'] := by decide
  rw [isSlot]
  exact inlay?_slot v vs

/-- What holds of a text outside of quotes holds of it alone. -/
theorem whole (inlays : Inlays text values marks) :
    inlay? false text.toList values = some marks := by
  have all := inlays [] []
  have ended : inlay? false [] [] = some [] := rfl
  rwa [List.append_nil, List.append_nil, ended, Option.map_some, List.append_nil] at all

end Inlays

namespace Silent

variable {text later : String}

/-- A text without a quote and a question mark has no placeholder. -/
theorem unmarked (clean : IsUnmarked text) : Silent text := by
  intro rest vs
  have copied : ∀ cs : List Char, (∀ c ∈ cs, c ≠ '"' ∧ c ≠ '?') →
      inlay? false (cs ++ rest) vs = (inlay? false rest vs).map (cs.map .char ++ ·) := by
    intro cs
    induction cs with
    | nil => intro _; simp
    | cons c cs ih =>
        intro clean
        obtain ⟨notQuote, notSlot⟩ := clean c List.mem_cons_self
        rw [List.cons_append, inlay?_copied notQuote (absurd · notSlot),
          ih fun d member => clean d (List.mem_cons_of_mem c member), Option.map_map]
        rfl
  exact copied text.toList clean

/-- A name in quotes has no placeholder, whatever it contains. -/
theorem name (n : String) : Silent (quoted n) := by
  intro rest vs
  rw [plain, quoted, Text.quoteWith, String.toList_ofList, Text.quoteChars, List.cons_append,
    List.append_assoc, List.singleton_append, List.nil_append, inlay?_quote, Bool.not_false,
    inlay?_doubleChars, inlay?_quote, Bool.not_true, Option.map_map, Option.map_map]
  simp only [Function.comp_def, List.map_cons, List.map_append, List.map_nil, List.cons_append,
    List.append_assoc, List.nil_append]

/-- Two texts without placeholders make one. -/
theorem append (first : Silent text) (second : Silent later) : Silent (text ++ later) := by
  have both := Inlays.append first second
  rwa [← plain_append] at both

end Silent

/-- Texts with a separator between each two. -/
theorem Inlays.intercalate {α : Type} {separator : String} {text : α → String}
    {values : α → List Value} {marks : α → List Mark} (clean : IsUnmarked separator)
    {items : List α} (each : ∀ a ∈ items, Inlays (text a) (values a) (marks a)) :
    Inlays (separator.intercalate (items.map text)) (items.flatMap values)
      ((plain separator).intercalate (items.map marks)) := by
  induction items with
  | nil => exact @Silent.unmarked "" (by decide)
  | cons a items ih =>
      have first := each a List.mem_cons_self
      cases items with
      | nil =>
          rw [List.map_singleton, List.map_singleton, String.intercalate_singleton,
            List.intercalate_singleton, List.flatMap_singleton]
          exact first
      | cons b items =>
          have later := ih fun c member => each c (List.mem_cons_of_mem a member)
          have joined := (first.before (Silent.unmarked clean)).append later
          rw [List.map_cons, List.map_cons, List.map_cons, List.map_cons,
            String.intercalate_cons_cons, List.intercalate_cons_cons, List.flatMap_cons]
          exact joined

/-- Texts without placeholders may be listed. -/
theorem Silent.listed {α : Type} {text : α → String} {items : List α}
    (each : ∀ a ∈ items, Silent (text a)) : Silent (listed (items.map text)) := by
  have comma : IsUnmarked ", " := by decide
  have all : Inlays (Tabula.listed (items.map text)) (items.flatMap fun _ => []) _ :=
    Inlays.intercalate comma each
  rw [List.flatMap_eq_nil_iff.mpr fun _ _ => rfl] at all
  rw [Silent, Tabula.listed, plain_intercalate, List.map_map]
  exact all

/-- The values with a comma between each two. -/
def listing (values : List Value) : List Mark :=
  (plain ", ").intercalate (values.map fun v => [.value v])

end Sql

open Sql

end Tabula
