import Tabula.Proofs.Json.Decoding

/-! # Reading written records

The fields of an object are read one after the other, and each changes the record
(`Tabula.Json.outcome_named`). If the fields change different parts of it and those with default
values change nothing, it does not matter which of these are left out
(`Tabula.Json.named_following`), so that the decoder of the record knows it as soon as the decoders
of its fields know their values (`Tabula.Json.Describes.knows`). From tokens to texts it is one step
(`Tabula.Json.Knows.decode_render`, `Tabula.Json.Knows.decode_unknown`).
-/

namespace Tabula.Json

variable {α σ : Type}

/-! ## Records -/

section Records

variable {shape : Shape σ} {record : σ} {seen : List String} {key : String} {m : Member σ}

private theorem beforeKey_separator (first : Bool) (ts : List Token) :
    ∃ h, beforeKey first (separator first ++ ts) = .ok ⟨ts, h⟩ := by
  cases first with
  | true => exact ⟨Nat.le_refl _, rfl⟩
  | false => exact ⟨Nat.le_succ _, rfl⟩

private theorem separator_ne_closeObject (first : Bool) (key : String) (ts rest : List Token) :
    separator first ++ .text key :: ts ≠ .closeObject :: rest := by
  cases first <;> nofun

/-- The fields are read one after the other. -/
theorem outcome_named (known : shape.fields.find? (·.name == key) = some m) (new : key ∉ seen)
    (ts : List Token) :
    outcome (named shape record seen (separator seen.isEmpty ++ .text key :: .colon :: ts)) =
      match outcome (m.decode ts) with
      | .error e => .error e
      | .ok (change, rest) => outcome (named shape (change record) (key :: seen) rest) := by
  obtain ⟨bound, separated⟩ := beforeKey_separator seen.isEmpty (.text key :: .colon :: ts)
  have unseen : seen.contains key = false := by
    rw [← Bool.not_eq_true, List.contains_iff_mem]
    exact new
  rw [named, separated]
  · simp only [known, unseen]
    cases m.decode ts with
    | error e => rfl
    | ok read =>
        obtain ⟨change, rest, shorter⟩ := read
        dsimp only [outcome, Except.map]
        cases named shape (change record) (key :: seen) rest <;> rfl
  · exact fun rest => separator_ne_closeObject _ _ _ _

/-- Another key is refused, whatever follows it. -/
theorem named_unknown (unknown : key ∉ shape.fields.map (·.name)) (rest : List Token) :
    outcome (named shape record seen (separator seen.isEmpty ++ .text key :: rest)) =
      .error (.shape (.unknownField key (shape.fields.map (·.name)))) := by
  obtain ⟨bound, separated⟩ := beforeKey_separator seen.isEmpty (.text key :: rest)
  have none : shape.fields.find? (·.name == key) = none := by
    refine List.find?_eq_none.mpr fun m member named => unknown ?_
    exact eq_of_beq named ▸ List.mem_map_of_mem member
  rw [named, separated]
  · simp only [none]
    rfl
  · exact fun rest => separator_ne_closeObject _ _ _ _

private theorem named_end (complete : ∀ m ∈ shape.fields, m.required = true → m.name ∈ seen)
    (rest : List Token) :
    outcome (named shape record seen (.closeObject :: rest)) = .ok (record, rest) := by
  have none : (shape.fields.find? fun m => m.required && !seen.contains m.name) = none := by
    refine List.find?_eq_none.mpr fun m member missing => ?_
    simp only [Bool.and_eq_true, Bool.not_eq_true', List.contains_iff_mem, ← Bool.not_eq_true]
      at missing
    exact missing.2 (complete m member missing.1)
  rw [named, Json.complete, none]
  rfl

private theorem outcome_record (shape : Shape σ) (ts : List Token) :
    outcome (Json.record shape (.openObject :: ts)) = outcome (named shape shape.initial [] ts) := by
  rw [Json.record]
  cases named shape shape.initial [] ts <;> rfl

/-- The tokens of the fields after others or none, and of the end. -/
def followingFields (first : Bool) : List (String × Tree) → List Token
  | [] => [.closeObject]
  | f :: fs => separator first ++ fieldTokens (f :: fs)

private theorem fieldTokens_eq (fs : List (String × Tree)) :
    fieldTokens fs = followingFields true fs := by
  cases fs <;> rfl

private theorem followingFields_cons (first : Bool) (key : String) (t : Tree)
    (fs : List (String × Tree)) : followingFields first ((key, t) :: fs) =
      separator first ++ .text key :: .colon :: (t.tokens ++ followingFields false fs) := by
  cases fs <;> rfl

/-- Where a field is refused, it is refused after other fields, too. -/
theorem named_before {before : List (String × Tree)}
    (read : ∀ f ∈ before, ∃ m change, shape.fields.find? (·.name == f.1) = some m ∧
      Reads m.decode f.2.tokens change)
    (distinct : (before.map (·.1)).Nodup) (new : ∀ f ∈ before, f.1 ∉ seen) {more : List Token}
    {e : Error}
    (refuses : ∀ (record : σ) (seen' : List String),
      (∀ key ∈ seen', key ∈ before.map (·.1) ∨ key ∈ seen) →
      outcome (named shape record seen' (separator seen'.isEmpty ++ more)) = .error e) :
    outcome (named shape record seen
      (separator seen.isEmpty ++ (Opening.fieldsTokens before ++ more))) = .error e := by
  induction before generalizing record seen with
  | nil => exact refuses record seen fun key member => Or.inr member
  | cons f before ih =>
      obtain ⟨m, change, known, reads⟩ := read f List.mem_cons_self
      obtain ⟨unique, distinct⟩ := List.nodup_cons.mp distinct
      have tokens : Opening.fieldsTokens (f :: before) ++ more =
          .text f.1 :: .colon :: (f.2.tokens ++
            (separator false ++ (Opening.fieldsTokens before ++ more))) := by
        rw [Opening.fieldsTokens, List.flatMap_cons, List.append_assoc, List.cons_append,
          List.cons_append, List.append_assoc]
        rfl
      rw [tokens, outcome_named known (new f List.mem_cons_self), reads]
      refine ih (fun g member => read g (List.mem_cons_of_mem _ member)) distinct
        (fun g member => ?_) fun record seen' among => refuses record seen' fun key member => ?_
      · refine List.not_mem_cons_of_ne_of_not_mem (fun same => unique ?_)
          (new g (List.mem_cons_of_mem _ member))
        exact List.mem_map.mpr ⟨g, member, same⟩
      · rcases among key member with later | now
        · exact Or.inl (List.mem_cons_of_mem _ later)
        · rcases List.mem_cons.mp now with rfl | earlier
          · exact Or.inl List.mem_cons_self
          · exact Or.inr earlier

/-! ## Described records -/

/-- A field of a written record, and what it changes in the record that is read. -/
structure Entry (σ : Type) where
  key : String
  tree : Tree
  /-- The change that reading the field makes. -/
  change : σ → σ

/-- The field of an object that the entry is written as. -/
def Entry.field (e : Entry σ) : String × Tree := (e.key, e.tree)

/-- Whether each field that must be there is read already or has an entry that is never left out. -/
def Awaits (shape : Shape σ) (entries : List (Entry σ)) (seen : List String) : Prop :=
  ∀ m ∈ shape.fields, m.required = true →
    m.name ∈ seen ∨ ∃ e ∈ entries, e.key = m.name ∧ ¬IsDefault e.key e.tree

/-- A field that stands in the object is not awaited any more. -/
theorem Awaits.kept {e : Entry σ} {entries : List (Entry σ)}
    (awaits : Awaits shape (e :: entries) seen) : Awaits shape entries (e.key :: seen) := by
  intro m member isRequired
  rcases awaits m member isRequired with old | ⟨e', among, named, present⟩
  · exact Or.inl (List.mem_cons_of_mem _ old)
  · rcases List.mem_cons.mp among with rfl | among
    · exact Or.inl (named ▸ List.mem_cons_self)
    · exact Or.inr ⟨e', among, named, present⟩

/-- A field with its default value may be left out, and the others are still awaited. -/
theorem Awaits.left {e : Entry σ} {entries : List (Entry σ)}
    (awaits : Awaits shape (e :: entries) seen) (isDefault : IsDefault e.key e.tree) :
    Awaits shape entries seen := by
  intro m member isRequired
  rcases awaits m member isRequired with old | ⟨e', among, named, present⟩
  · exact Or.inl old
  · rcases List.mem_cons.mp among with rfl | among
    · exact absurd isDefault present
    · exact Or.inr ⟨e', among, named, present⟩

/-- Where no field is awaited any more, all that are required were there. -/
theorem Awaits.nil (awaits : Awaits shape [] seen) :
    ∀ m ∈ shape.fields, m.required = true → m.name ∈ seen := by
  intro m member isRequired
  rcases awaits m member isRequired with old | ⟨e, absurd, -⟩
  · exact old
  · cases absurd

/-- The entries describe how a record is written with every key: their changes make it out of the
initial record, each by itself and those of default values none. -/
structure Describes (shape : Shape σ) (entries : List (Entry σ)) (whole : σ)
    (known : List String → List String) : Prop where
  names : known [] = shape.fields.map (·.name)
  distinct : (entries.map (·.key)).Nodup
  members : ∀ e ∈ entries, ∃ m, shape.fields.find? (·.name == e.key) = some m ∧
    Knows m.decode e.tree e.change fun path => known (e.key :: path)
  still : ∀ e ∈ entries, IsDefault e.key e.tree → e.change shape.initial = shape.initial
  commute : entries.Pairwise fun e e' => ∀ r, e'.change (e.change r) = e.change (e'.change r)
  awaits : Awaits shape entries []
  whole : entries.foldl (fun r e => e.change r) shape.initial = whole

/-- Fields are read to the same record whichever default values are left out. -/
theorem named_following {entries : List (Entry σ)} {gs : List (String × Tree)}
    {known : List String → List String} (abridged : FieldsAbridged (entries.map Entry.field) gs)
    (distinct : (entries.map (·.key)).Nodup) (new : ∀ e ∈ entries, e.key ∉ seen)
    (members : ∀ e ∈ entries, ∃ m, shape.fields.find? (·.name == e.key) = some m ∧
      Knows m.decode e.tree e.change fun path => known (e.key :: path))
    (still : ∀ e ∈ entries, IsDefault e.key e.tree → e.change record = record)
    (commute : entries.Pairwise fun e e' => ∀ r, e'.change (e.change r) = e.change (e'.change r))
    (awaits : Awaits shape entries seen) (rest : List Token) :
    outcome (named shape record seen (followingFields seen.isEmpty gs ++ rest)) =
      .ok (entries.foldl (fun r e => e.change r) record, rest) := by
  induction entries generalizing gs record seen with
  | nil =>
      cases abridged
      exact named_end awaits.nil rest
  | cons e entries ih =>
      obtain ⟨unique, distinct⟩ := List.nodup_cons.mp distinct
      obtain ⟨independent, commute⟩ := List.pairwise_cons.mp commute
      have members' := fun e' (member : e' ∈ entries) =>
        members e' (List.mem_cons_of_mem _ member)
      have new' : ∀ e' ∈ entries, e'.key ∉ seen := fun e' member =>
        new e' (List.mem_cons_of_mem _ member)
      have still' : ∀ e' ∈ entries, IsDefault e'.key e'.tree → e'.change record = record :=
        fun e' member => still e' (List.mem_cons_of_mem _ member)
      cases abridged with
      | kept first others =>
          rename_i u gs
          obtain ⟨m, isMember, knows⟩ := members e List.mem_cons_self
          have newer : ∀ e' ∈ entries, e'.key ∉ e.key :: seen := by
            intro e' member
            refine List.not_mem_cons_of_ne_of_not_mem (fun same => unique ?_) (new' e' member)
            exact List.mem_map.mpr ⟨e', member, same⟩
          -- A default value changes nothing after another change either, since the two commute.
          have stiller : ∀ e' ∈ entries, IsDefault e'.key e'.tree →
              e'.change (e.change record) = e.change record := by
            intro e' member isDefault
            rw [independent e' member, still' e' member isDefault]
          rw [followingFields_cons, List.append_assoc, List.cons_append, List.cons_append,
            List.append_assoc, outcome_named isMember (new e List.mem_cons_self),
            knows.reads first]
          exact ih others distinct newer members' stiller commute awaits.kept
      | left isDefault others =>
          rw [List.foldl_cons, still e List.mem_cons_self isDefault]
          exact ih others distinct new' members' still' commute (awaits.left isDefault)

variable {entries : List (Entry σ)} {whole : σ} {known : List String → List String}

/-- Each field of an abridged record is read as its entry says, and refuses other keys. -/
theorem Describes.exists_member (described : Describes shape entries whole known)
    {gs : List (String × Tree)} (abridged : FieldsAbridged (entries.map Entry.field) gs)
    {g : String × Tree} (member : g ∈ gs) :
    ∃ m t change, shape.fields.find? (·.name == g.1) = some m ∧ Abridged t g.2 ∧
      Knows m.decode t change fun path => known (g.1 :: path) := by
  obtain ⟨t, isField, ofField⟩ := abridged.exists_of_mem member
  obtain ⟨e, among, same⟩ := List.mem_map.mp isField
  obtain ⟨isKey, rfl⟩ := Prod.mk.inj same
  obtain ⟨m, isMember, knows⟩ := described.members e among
  rw [isKey] at isMember knows
  exact ⟨m, e.tree, e.change, isMember, ofField, knows⟩

/-- Each field of an abridged record that stands before another is read. -/
theorem Describes.reads_before (described : Describes shape entries whole known)
    {gs before : List (String × Tree)} (abridged : FieldsAbridged (entries.map Entry.field) gs)
    (among : before ⊆ gs) :
    ∀ f ∈ before, ∃ m change, shape.fields.find? (·.name == f.1) = some m ∧
      Reads m.decode f.2.tokens change := by
  intro f member
  obtain ⟨m, t, change, isMember, ofField, knows⟩ := described.exists_member abridged (among member)
  exact ⟨m, change, isMember, knows.reads ofField⟩

private theorem Describes.keys_nodup (described : Describes shape entries whole known)
    {gs : List (String × Tree)} (abridged : FieldsAbridged (entries.map Entry.field) gs) :
    (gs.map (·.1)).Nodup := by
  refine abridged.keys_sublist.nodup ?_
  rw [List.map_map]
  exact described.distinct

/-- A record refuses a key that is none of its own, wherever its fields stop. -/
theorem Describes.refuses_here (described : Describes shape entries whole known)
    {before after : List (String × Tree)}
    (abridged : FieldsAbridged (entries.map Entry.field) (before ++ after)) {key : String}
    (unknown : key ∉ known []) (rest : List Token) :
    outcome (Json.record shape ((Opening.here before).tokens ++ [.text key] ++ rest)) =
      .error (.shape (.unknownField key (known []))) := by
  have distinct := described.keys_nodup abridged
  rw [List.map_append] at distinct
  have tokens : (Opening.here before).tokens ++ [.text key] ++ rest =
      .openObject :: (separator true ++ (Opening.fieldsTokens before ++ .text key :: rest)) := by
    simp only [Opening.tokens, List.cons_append, List.append_assoc]
    rfl
  rw [described.names] at unknown ⊢
  rw [tokens, outcome_record]
  exact named_before (described.reads_before abridged (List.subset_append_left _ _))
    (List.nodup_append.mp distinct).1 (fun f _ => List.not_mem_nil)
    fun record seen' _ => named_unknown unknown rest

/-- A record fails where one of its fields does. -/
theorem Describes.refuses_field (described : Describes shape entries whole known)
    {before after : List (String × Tree)} {k : String} {u : Tree}
    (abridged : FieldsAbridged (entries.map Entry.field) (before ++ (k, u) :: after))
    {inner : Opening} (inside : inner.IsIn u) {key : String}
    (unknown : key ∉ known (k :: inner.path)) (rest : List Token) :
    outcome (Json.record shape ((Opening.field before k inner).tokens ++ [.text key] ++ rest)) =
      .error (.shape (.unknownField key (known (k :: inner.path)))) := by
  have distinct := described.keys_nodup abridged
  rw [List.map_append, List.map_cons] at distinct
  obtain ⟨m, t, change, isMember, ofField, knows⟩ := described.exists_member abridged
    (List.mem_append_right before (List.mem_cons_self (a := (k, u))))
  have refuses := knows.refuses ofField inside unknown
  have tokens : (Opening.field before k inner).tokens ++ [.text key] ++ rest =
      .openObject :: (separator true ++ (Opening.fieldsTokens before ++
        .text k :: .colon :: (inner.tokens ++ [.text key] ++ rest))) := by
    simp only [Opening.tokens, List.cons_append, List.append_assoc]
    rfl
  rw [tokens, outcome_record]
  refine named_before (described.reads_before abridged (List.subset_append_left _ _))
    (List.nodup_append.mp distinct).1 (fun f _ => List.not_mem_nil) fun record seen' among => ?_
  have new : k ∉ seen' := by
    intro old
    rcases among k old with earlier | absurd
    · exact (List.nodup_append.mp distinct).2.2 k earlier k List.mem_cons_self rfl
    · cases absurd
  rw [outcome_named isMember new, refuses]

/-- A described record is known by the decoder of its shape. -/
theorem Describes.knows (described : Describes shape entries whole known) :
    Knows (Json.record shape) (.object (entries.map Entry.field)) whole known where
  reads abridged rest := by
    cases abridged with
    | object abridged =>
        rw [Tree.tokens, List.cons_append, outcome_record, fieldTokens_eq, ← described.whole]
        exact named_following abridged described.distinct (fun e _ => List.not_mem_nil)
          described.members described.still described.commute described.awaits rest
  refuses {_} abridged {o} inside {key} unknown rest := by
    cases abridged with
    | object abridged =>
        cases o with
        | element => cases inside
        | here before =>
            obtain ⟨after, rfl⟩ := inside
            exact described.refuses_here abridged unknown rest
        | field before k inner =>
            obtain ⟨u, after, rfl, inside⟩ := inside
            exact described.refuses_field abridged inside unknown rest

end Records

/-! ## Texts -/

section Texts

variable {d : Decoder α} {t u : Tree} {a : α} {known : List String → List String}

private theorem decode_eq (d : Decoder α) (s : String) :
    decode d s =
      match outcome (d (tokens s)) with
      | .error e => .error e
      | .ok (a, []) => .ok a
      | .ok (_, _ :: _) => .error .malformed := by
  unfold decode
  cases d (tokens s) with
  | error e => rfl
  | ok read =>
      obtain ⟨a, _ | ⟨first, more⟩, shorter⟩ := read <;> rfl

/-- The text of an abridged value is decoded to what is meant. -/
theorem Knows.decode_render (knows : Knows d t a known) (abridged : Abridged t u) :
    decode d u.render = .ok a := by
  have reads := knows.reads abridged []
  rw [List.append_nil] at reads
  rw [decode_eq, Tree.render, u.lexes_write.tokens_eq, reads]

/-- A text that goes on with another key in one of the objects is refused, whatever follows. -/
theorem Knows.decode_unknown (knows : Knows d t a known) (abridged : Abridged t u) {o : Opening}
    (inside : o.IsIn u) {key : String} (unknown : key ∉ known o.path) (rest : List Char) :
    decode d (String.ofList (o.write ++ writeText key ++ rest)) =
      .error (.shape (.unknownField key (known o.path))) := by
  obtain ⟨fuel, tokens⟩ := (o.lexes_write.append (lexes_writeText key)).exists_tokens rest
  rw [decode_eq, tokens, knows.refuses abridged inside unknown]

end Texts

end Tabula.Json
