/-! # Blank text

A text is blank when it holds nothing but characters of the Unicode property `White_Space`.
Annotations use a blank text for "absent": `nonBlank?` keeps a text as it is when some character
of it is visible, and answers nothing otherwise.
-/

namespace Tabula.Text

/-- The characters of the Unicode property `White_Space`. -/
def isBlank (c : Char) : Bool :=
  let n := c.toNat
  (9 ≤ n && n ≤ 13) || n == 0x20 || n == 0x85 || n == 0xA0 || n == 0x1680 ||
    (0x2000 ≤ n && n ≤ 0x200A) || n == 0x2028 || n == 0x2029 || n == 0x202F || n == 0x205F ||
    n == 0x3000

/-- The characters without the blanks at either end. -/
def trimChars (cs : List Char) : List Char :=
  ((cs.dropWhile isBlank).reverse.dropWhile isBlank).reverse

/-- The text without the blanks at either end. -/
def trim (s : String) : String :=
  String.ofList (trimChars s.toList)

/-- The text without any of its blanks. -/
def removeBlanks (s : String) : String :=
  String.ofList (s.toList.filter fun c => !isBlank c)

/-- The text without the spaces in it; other blanks stay. -/
def removeSpaces (s : String) : String :=
  String.ofList (s.toList.filter fun c => c != ' ')

/-- The text itself, untrimmed, unless it is blank. -/
def nonBlank? (s : String) : Option String :=
  if s.toList.all isBlank then none else some s

/-- The text of an optional annotation, where a blank text counts as absent. -/
def given? (s : Option String) : Option String :=
  s.bind nonBlank?

/-- The white space of ASCII is blank. -/
theorem isBlank_of_isWhitespace {c : Char} (h : c.isWhitespace = true) : isBlank c = true := by
  simp only [Char.isWhitespace, Bool.or_eq_true, decide_eq_true_eq] at h
  rcases h with (((rfl | rfl) | rfl) | rfl) <;> rfl

private theorem dropWhile_isBlank_eq_self {cs : List Char} (none : ∀ c ∈ cs, isBlank c = false) :
    cs.dropWhile isBlank = cs := by
  cases cs with
  | nil => rfl
  | cons c cs =>
      rw [List.dropWhile_cons, none c List.mem_cons_self]
      rfl

/-- Nothing is cut off where nothing is blank. -/
theorem trimChars_eq_self {cs : List Char} (none : ∀ c ∈ cs, isBlank c = false) :
    trimChars cs = cs := by
  rw [trimChars, dropWhile_isBlank_eq_self none, dropWhile_isBlank_eq_self, List.reverse_reverse]
  intro c member
  exact none c (List.mem_reverse.mp member)

/-- A text that is not blank stays as it is. -/
theorem nonBlank?_eq_some {s t : String} (h : nonBlank? s = some t) : t = s := by
  unfold nonBlank? at h
  split at h
  · cases h
  · exact (Option.some.inj h).symm

/-- A text is blank if every character of it is. -/
theorem nonBlank?_eq_none_iff {s : String} : nonBlank? s = none ↔ ∀ c ∈ s.toList, isBlank c := by
  unfold nonBlank?
  split <;> simp_all

end Tabula.Text
