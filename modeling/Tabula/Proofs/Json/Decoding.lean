import Mathlib.Data.List.Forall2
import Tabula.Json.Decoder
import Tabula.Proofs.Json.Opening

/-! # Reading written values

A decoder knows a value if it reads what is meant from every abridged form of it and refuses every
other key in every object of it (`Tabula.Json.Knows`). The decoders of texts and truth values know
theirs, and a decoder that knows the elements of an array knows the array
(`Tabula.Json.knows_list`). What a decoder leaves of the tokens is looked at without the bound that
its type carries (`Tabula.Json.outcome`).
-/

namespace Tabula.Json

variable {α : Type}

/-! ## What a decoder makes of tokens -/

/-- What is read and what is left, without the bound on the latter. -/
def outcome {p : List Token → Prop} (r : Except Error (α × Subtype p)) :
    Except Error (α × List Token) :=
  r.map fun read => (read.1, read.2.1)

/-- What is read is read within the bound. -/
theorem outcome_eq_ok {p : List Token → Prop} {r : Except Error (α × Subtype p)} {a : α}
    {rest : List Token} (reads : outcome r = .ok (a, rest)) : ∃ h, r = .ok (a, ⟨rest, h⟩) := by
  cases r with
  | error e => cases reads
  | ok read =>
      obtain ⟨a', rest', h⟩ := read
      obtain ⟨rfl, rfl⟩ := Prod.mk.inj (Except.ok.inj reads)
      exact ⟨h, rfl⟩

/-- An error is the same with the bound and without it. -/
theorem outcome_eq_error {p : List Token → Prop} {r : Except Error (α × Subtype p)} {e : Error}
    (refuses : outcome r = .error e) : r = .error e := by
  cases r with
  | error e' => exact congrArg _ (Except.error.inj refuses)
  | ok read => cases refuses

/-- The decoder reads the value off the tokens, whatever follows them. -/
def Reads (d : Decoder α) (ts : List Token) (a : α) : Prop :=
  ∀ rest, outcome (d (ts ++ rest)) = .ok (a, rest)

/-- The decoder refuses every list of tokens that begins so. -/
def Refuses (d : Decoder α) (ts : List Token) (e : Error) : Prop :=
  ∀ rest, outcome (d (ts ++ rest)) = .error e

/-- The decoder reads the value off every abridged form of a tree, and refuses another key in each
of its objects; `known` tells the keys that the object at a path of keys may have. -/
structure Knows (d : Decoder α) (t : Tree) (a : α) (known : List String → List String) : Prop where
  reads : ∀ {u}, Abridged t u → Reads d u.tokens a
  refuses : ∀ {u}, Abridged t u → ∀ {o : Opening}, o.IsIn u → ∀ {key}, key ∉ known o.path →
    Refuses d (o.tokens ++ [.text key]) (.shape (.unknownField key (known o.path)))

/-! ## Single values -/

section Single

variable {known : List String → List String}

/-- The decoder of texts knows every text. -/
theorem knows_text (s : String) : Knows text (.text s) s known where
  reads abridged := by
    cases abridged
    exact fun rest => rfl
  refuses {_} abridged {o} inside := by
    cases abridged
    cases o <;> cases inside

/-- The decoder of truth values knows both. -/
theorem knows_bool (b : Bool) : Knows bool (.bool b) b known where
  reads abridged := by
    cases abridged
    exact fun rest => rfl
  refuses {_} abridged {o} inside := by
    cases abridged
    cases o <;> cases inside

/-- Tokens at whose place neither nothing nor the end of an array stands. -/
def Begins (ts : List Token) : Prop :=
  ∃ first more, ts = first :: more ∧ first ≠ .closeArray

private theorem Tree.begins_tokens (t : Tree) : Begins t.tokens := by
  cases t <;> exact ⟨_, _, rfl, nofun⟩

private theorem Opening.begins_tokens (o : Opening) : Begins o.tokens := by
  cases o <;> exact ⟨_, _, rfl, nofun⟩

/-- A value begins as it does, whatever follows it. -/
theorem Begins.append {ts : List Token} (begins : Begins ts) (more : List Token) :
    Begins (ts ++ more) := by
  obtain ⟨first, others, rfl, present⟩ := begins
  exact ⟨first, others ++ more, rfl, present⟩

private theorem outcome_optional (d : Decoder α) {ts : List Token}
    (present : ts.head? ≠ some .null) :
    outcome (optional d ts) = (outcome (d ts)).map fun r => (some r.1, r.2) := by
  have unfolded : optional d ts = (d ts).map fun r => (some r.1, r.2) := by
    cases ts with
    | nil => rfl
    | cons first more =>
        cases first with
        | null => exact absurd rfl present
        | _ => rfl
  rw [unfolded]
  cases d ts <;> rfl

/-- Where a value may be absent, null is its absence. -/
theorem knows_none (d : Decoder α) : Knows (optional d) .null none known where
  reads abridged := by
    cases abridged
    exact fun rest => rfl
  refuses {_} abridged {o} inside := by
    cases abridged
    cases o <;> cases inside

/-- Where a value may be absent, one that is there is known as before. -/
theorem Knows.some {d : Decoder α} {t : Tree} {a : α} (knows : Knows d t a known)
    (present : t ≠ .null) : Knows (optional d) t (some a) known where
  reads {u} abridged rest := by
    have notNull : (u.tokens ++ rest).head? ≠ Option.some .null := by
      cases abridged with
      | null => exact absurd rfl present
      | bool | text | array | object => nofun
    rw [outcome_optional d notNull, knows.reads abridged]
    rfl
  refuses {u} abridged {o} inside {key} unknown rest := by
    have notNull : (o.tokens ++ [Token.text key] ++ rest).head? ≠ Option.some .null := by
      cases o <;> nofun
    rw [outcome_optional d notNull, knows.refuses abridged inside unknown]
    rfl

end Single

/-! ## Arrays -/

/-- What stands before an element or a key: nothing before the first. -/
def separator (first : Bool) : List Token :=
  if first then [] else [.comma]

section Arrays

variable {d : Decoder α} {known : List String → List String}

private theorem beforeElement_separator (first : Bool) {ts : List Token} (begins : Begins ts) :
    ∃ h, beforeElement first (separator first ++ ts) = .ok ⟨ts, h⟩ := by
  obtain ⟨t, more, rfl, present⟩ := begins
  cases first with
  | true => exact ⟨Nat.le_refl _, rfl⟩
  | false =>
      cases t with
      | closeArray => exact absurd rfl present
      | _ => exact ⟨Nat.le_succ _, rfl⟩

/-- The elements are read one after the other. -/
theorem outcome_elements (d : Decoder α) (first : Bool) {ts : List Token} (begins : Begins ts) :
    outcome (elements d first (separator first ++ ts)) =
      match outcome (d ts) with
      | .error e => .error e
      | .ok (a, rest) => (outcome (elements d false rest)).map fun r => (a :: r.1, r.2) := by
  obtain ⟨bound, separated⟩ := beforeElement_separator first begins
  have notEnd : ∀ rest, separator first ++ ts ≠ .closeArray :: rest := by
    obtain ⟨t, more, rfl, present⟩ := begins
    intro rest same
    cases first with
    | true => exact present (List.cons.inj same).1
    | false => cases same
  rw [elements, separated]
  · dsimp only
    cases d ts with
    | error e => rfl
    | ok read =>
        obtain ⟨a, rest, shorter⟩ := read
        dsimp only [outcome, Except.map]
        cases elements d false rest <;> rfl
  · exact notEnd

/-- One more element of an array is read before the others. -/
theorem Reads.elements {ts : List Token} {a : α} (reads : Reads d ts a) (begins : Begins ts)
    (first : Bool) (more : List Token) :
    outcome (elements d first (separator first ++ (ts ++ more))) =
      (outcome (Json.elements d false more)).map fun r => (a :: r.1, r.2) := by
  rw [outcome_elements d first (begins.append more), reads]

/-- An element that is refused ends the array. -/
theorem Refuses.elements {ts : List Token} {e : Error} (refuses : Refuses d ts e)
    (begins : Begins ts) (first : Bool) (more : List Token) :
    outcome (elements d first (separator first ++ (ts ++ more))) = .error e := by
  rw [outcome_elements d first (begins.append more), refuses]

private theorem outcome_list (d : Decoder α) (ts : List Token) :
    outcome (list d (.openArray :: ts)) = outcome (elements d true ts) := by
  rw [list]
  cases elements d true ts <;> rfl

/-- The tokens after an element: those of the others, or of the end. -/
def followingElements : List Tree → List Token
  | [] => [.closeArray]
  | t :: ts => .comma :: elementTokens (t :: ts)

private theorem elementTokens_cons (t : Tree) (ts : List Tree) :
    elementTokens (t :: ts) = t.tokens ++ followingElements ts := by
  cases ts <;> rfl

/-- The elements that follow others are read. -/
theorem elements_following {ts us : List Tree} {as : List α} (abridged : ElementsAbridged ts us)
    (know : List.Forall₂ (Knows d · · known) ts as) (rest : List Token) :
    outcome (elements d false (followingElements us ++ rest)) = .ok (as, rest) := by
  induction know generalizing us with
  | nil =>
      cases abridged
      rw [followingElements, List.singleton_append, elements]
      rfl
  | cons knows _ ih =>
      cases abridged with
      | cons first others =>
          rename_i u us
          have reads := (knows.reads first).elements u.begins_tokens false
            (followingElements us ++ rest)
          have tokens : followingElements (u :: us) ++ rest =
              separator false ++ (u.tokens ++ (followingElements us ++ rest)) := by
            rw [followingElements, elementTokens_cons, List.cons_append, List.append_assoc]
            rfl
          rw [tokens, reads, ih others]
          rfl

/-- An element that is refused is refused after others, too. -/
theorem elements_before {before : List Tree} (read : ∀ u ∈ before, ∃ a, Reads d u.tokens a)
    {more : List Token} {e : Error}
    (refuses : ∀ first, outcome (elements d first (separator first ++ more)) = .error e)
    (first : Bool) :
    outcome (elements d first (separator first ++ (Opening.elementsTokens before ++ more))) =
      .error e := by
  induction before generalizing first with
  | nil => exact refuses first
  | cons u before ih =>
      obtain ⟨a, reads⟩ := read u List.mem_cons_self
      have others := ih (fun u member => read u (List.mem_cons_of_mem _ member)) false
      have tokens : Opening.elementsTokens (u :: before) ++ more =
          u.tokens ++ (separator false ++ (Opening.elementsTokens before ++ more)) := by
        rw [Opening.elementsTokens, List.flatMap_cons, List.append_assoc, List.append_assoc]
        rfl
      rw [tokens, reads.elements u.begins_tokens, others]
      rfl

/-- Each element of an abridged array is the abridged form of one that is known. -/
theorem ElementsAbridged.exists_of_mem {ts us : List Tree} {as : List α}
    (abridged : ElementsAbridged ts us) (know : List.Forall₂ (Knows d · · known) ts as) {u : Tree}
    (member : u ∈ us) : ∃ t a, Abridged t u ∧ Knows d t a known := by
  induction know generalizing us with
  | nil =>
      cases abridged
      cases member
  | cons knows _ ih =>
      cases abridged with
      | cons first others =>
          rcases List.mem_cons.mp member with rfl | later
          · exact ⟨_, _, first, knows⟩
          · exact ih others later

/-- An array is known by a decoder of its elements. -/
theorem knows_list {ts : List Tree} {as : List α}
    (know : List.Forall₂ (Knows d · · known) ts as) : Knows (list d) (.array ts) as known where
  reads abridged rest := by
    cases abridged with
    | array abridged =>
        rename_i us
        rw [Tree.tokens, List.cons_append, outcome_list]
        cases abridged with
        | nil =>
            cases know
            rw [elementTokens, List.singleton_append, elements]
            rfl
        | cons first others =>
            rename_i t u ts us
            cases know with
            | cons knows know =>
                have reads := (knows.reads first).elements u.begins_tokens true
                  (followingElements us ++ rest)
                rw [elements_following others know] at reads
                rw [elementTokens_cons, List.append_assoc]
                exact reads
  refuses {_} abridged {o} inside {key} unknown rest := by
    cases abridged with
    | array abridged =>
        cases o with
        | here | field => cases inside
        | element before inner =>
            obtain ⟨u, after, rfl, inside⟩ := inside
            have ofMember {v : Tree} (member : v ∈ before ++ u :: after) :=
              ElementsAbridged.exists_of_mem abridged know member
            obtain ⟨t, a, ofElement, knows⟩ :=
              ofMember (List.mem_append_right _ List.mem_cons_self)
            have refuses := knows.refuses ofElement inside unknown
            have read : ∀ v ∈ before, ∃ a, Reads d v.tokens a := by
              intro v member
              obtain ⟨t, a, ofElement, knows⟩ := ofMember (List.mem_append_left _ member)
              exact ⟨a, knows.reads ofElement⟩
            have tokens : (Opening.element before inner).tokens ++ [.text key] ++ rest =
                .openArray :: (separator true ++ (Opening.elementsTokens before ++
                  (inner.tokens ++ [.text key] ++ rest))) := by
              simp only [Opening.tokens, List.cons_append, List.append_assoc]
              rfl
            rw [tokens, outcome_list]
            refine elements_before read (fun first => ?_) true
            exact refuses.elements (inner.begins_tokens.append _) first rest

end Arrays

end Tabula.Json
