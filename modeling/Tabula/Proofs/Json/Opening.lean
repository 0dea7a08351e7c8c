import Tabula.Proofs.Json.Lexing

/-! # Abridged values and places for keys

Two things can be done to a written value. Keys whose values are the defaults of records can be left
out of its objects (`Tabula.Json.Abridged`). And another key can be written into one of its
objects, after some of the fields: the text up to such a place is that of an opening
(`Tabula.Json.Opening`), and it has its tokens whatever is written from there on.
-/

namespace Tabula.Json

/-! ## Abridged values -/

/-- Whether the value of a key is the default of records that have the key: null, false or, for
`auto`, true, and for `fields` the empty list. -/
def IsDefault (key : String) : Tree → Prop
  | .null => True
  | .bool b => b = (key == "auto")
  | .array [] => key = "fields"
  | _ => False

mutual

/-- The second value is the first one with some keys of default values left out of its objects. -/
inductive Abridged : Tree → Tree → Prop
  | null : Abridged .null .null
  | bool (b : Bool) : Abridged (.bool b) (.bool b)
  | text (s : String) : Abridged (.text s) (.text s)
  | array {ts us : List Tree} : ElementsAbridged ts us → Abridged (.array ts) (.array us)
  | object {fs gs : List (String × Tree)} :
    FieldsAbridged fs gs → Abridged (.object fs) (.object gs)

/-- The elements are abridged one by one. -/
inductive ElementsAbridged : List Tree → List Tree → Prop
  | nil : ElementsAbridged [] []
  | cons {t u : Tree} {ts us : List Tree} :
    Abridged t u → ElementsAbridged ts us → ElementsAbridged (t :: ts) (u :: us)

/-- The fields are kept with abridged values, or left out. -/
inductive FieldsAbridged : List (String × Tree) → List (String × Tree) → Prop
  | nil : FieldsAbridged [] []
  | kept {key : String} {t u : Tree} {fs gs : List (String × Tree)} :
    Abridged t u → FieldsAbridged fs gs → FieldsAbridged ((key, t) :: fs) ((key, u) :: gs)
  | left {key : String} {t : Tree} {fs gs : List (String × Tree)} :
    IsDefault key t → FieldsAbridged fs gs → FieldsAbridged ((key, t) :: fs) gs

end

mutual

/-- A value with all its keys. -/
theorem Abridged.refl : ∀ t : Tree, Abridged t t
  | .null => .null
  | .bool b => .bool b
  | .text s => .text s
  | .array ts => .array (ElementsAbridged.refl ts)
  | .object fs => .object (FieldsAbridged.refl fs)

/-- Elements are their own abridged form. -/
theorem ElementsAbridged.refl : ∀ ts : List Tree, ElementsAbridged ts ts
  | [] => .nil
  | t :: ts => .cons (Abridged.refl t) (ElementsAbridged.refl ts)

/-- Fields are their own abridged form, with nothing left out. -/
theorem FieldsAbridged.refl : ∀ fs : List (String × Tree), FieldsAbridged fs fs
  | [] => .nil
  | (_, t) :: fs => .kept (Abridged.refl t) (FieldsAbridged.refl fs)

end

/-- The keys of abridged fields are some of the keys, in their order. -/
theorem FieldsAbridged.keys_sublist {fs gs : List (String × Tree)} (abridged : FieldsAbridged fs gs) :
    (gs.map (·.1)).Sublist (fs.map (·.1)) := by
  induction fs generalizing gs with
  | nil =>
      cases abridged
      exact .slnil
  | cons f fs ih =>
      cases abridged with
      | kept _ others => exact (ih others).cons_cons _
      | left _ others => exact (ih others).cons _

/-- Each abridged field is one of the fields. -/
theorem FieldsAbridged.exists_of_mem {fs gs : List (String × Tree)}
    (abridged : FieldsAbridged fs gs) {g : String × Tree} (member : g ∈ gs) :
    ∃ t, (g.1, t) ∈ fs ∧ Abridged t g.2 := by
  induction fs generalizing gs with
  | nil =>
      cases abridged
      cases member
  | cons f fs ih =>
      cases abridged with
      | kept first others =>
          rcases List.mem_cons.mp member with rfl | later
          · exact ⟨_, List.mem_cons_self, first⟩
          · obtain ⟨t, inside, ofField⟩ := ih others later
            exact ⟨t, List.mem_cons_of_mem _ inside, ofField⟩
      | left _ others =>
          obtain ⟨t, inside, ofField⟩ := ih others member
          exact ⟨t, List.mem_cons_of_mem _ inside, ofField⟩

/-! ## Places for keys -/

/-- A place for one more key: the way into an object of a value and past some of its fields. -/
inductive Opening where
  /-- In the object itself, after the fields. -/
  | here (before : List (String × Tree))
  /-- In the value of a key, after the fields. -/
  | field (before : List (String × Tree)) (key : String) (inner : Opening)
  /-- In an element of an array, after the elements. -/
  | element (before : List Tree) (inner : Opening)

namespace Opening

/-- Whether the place is in the value. -/
def IsIn : Opening → Tree → Prop
  | here before, .object fs => ∃ after, fs = before ++ after
  | field before key inner, .object fs =>
    ∃ t after, fs = before ++ (key, t) :: after ∧ inner.IsIn t
  | element before inner, .array ts => ∃ t after, ts = before ++ t :: after ∧ inner.IsIn t
  | _, _ => False

/-- The keys that lead to the object of the place. -/
def path : Opening → List String
  | here _ => []
  | field _ key inner => key :: inner.path
  | element _ inner => inner.path

/-- The characters of fields that others follow. -/
def fieldsText (fs : List (String × Tree)) : List Char :=
  fs.flatMap fun f => writeText f.1 ++ ':' :: (f.2.write ++ [','])

/-- The characters of elements that others follow. -/
def elementsText (ts : List Tree) : List Char :=
  ts.flatMap fun t => t.write ++ [',']

/-- The characters up to the place. -/
def write : Opening → List Char
  | here before => '\x7b' :: fieldsText before
  | field before key inner =>
    '\x7b' :: (fieldsText before ++ (writeText key ++ ':' :: inner.write))
  | element before inner => '[' :: (elementsText before ++ inner.write)

/-- The tokens of fields that others follow. -/
def fieldsTokens (fs : List (String × Tree)) : List Token :=
  fs.flatMap fun f => .text f.1 :: .colon :: (f.2.tokens ++ [.comma])

/-- The tokens of elements that others follow. -/
def elementsTokens (ts : List Tree) : List Token :=
  ts.flatMap fun t => t.tokens ++ [.comma]

/-- The tokens up to the place. -/
def tokens : Opening → List Token
  | here before => .openObject :: fieldsTokens before
  | field before key inner =>
    .openObject :: (fieldsTokens before ++ .text key :: .colon :: inner.tokens)
  | element before inner => .openArray :: (elementsTokens before ++ inner.tokens)

private theorem lexes_fieldsText (fs : List (String × Tree)) :
    Lexes (fieldsText fs) (fieldsTokens fs) := by
  induction fs with
  | nil => exact .nil
  | cons f fs ih =>
      have value := f.2.lexes_write.append (Lexes.cons (c := ',') (by decide) (fun _ => rfl) .nil)
      have colon := Lexes.cons (c := ':') (by decide) (fun _ => rfl) value
      exact ((lexes_writeText f.1).append colon).append ih

private theorem lexes_elementsText (ts : List Tree) :
    Lexes (elementsText ts) (elementsTokens ts) := by
  induction ts with
  | nil => exact .nil
  | cons t ts ih =>
      have comma := Lexes.cons (c := ',') (by decide) (fun _ => rfl) .nil
      exact (t.lexes_write.append comma).append ih

/-- The characters up to a place have their tokens. -/
theorem lexes_write (o : Opening) : Lexes o.write o.tokens := by
  induction o with
  | here before => exact Lexes.cons (by decide) (fun _ => rfl) (lexes_fieldsText before)
  | field before key inner ih =>
      have colon := Lexes.cons (c := ':') (by decide) (fun _ => rfl) ih
      exact Lexes.cons (by decide) (fun _ => rfl)
        ((lexes_fieldsText before).append ((lexes_writeText key).append colon))
  | element before inner ih =>
      exact Lexes.cons (by decide) (fun _ => rfl) ((lexes_elementsText before).append ih)

end Opening

end Tabula.Json
