import Tabula.Engine.Limit

/-! # Conditions that are shallow enough

How deep a condition can be for the number of its comparisons. Each connective adds a level to the
deeper one of two conditions, and a comparison has four levels at most, so a condition has no more
than three levels above the number of its comparisons (`Tabula.Condition.exists_outline`). Conditions
with few comparisons between them are therefore taken (`Tabula.Conditions.isShallow_of_comparisons`).
-/

namespace Tabula

/-- How many comparisons a condition is made of. -/
def Condition.comparisons : Condition → Nat
  | compare _ _ _ => 1
  | both left right | either left right => left.comparisons + right.comparisons

/-- How many comparisons conditions are made of together. -/
def Conditions.comparisons : List Condition → Nat
  | [] => 0
  | c :: cs => c.comparisons + comparisons cs

private theorem Comparison.height_outline (op : Comparison) (count : Nat) :
    (op.outline count).height ≤ 4 := by
  unfold outline
  split <;> decide

/-- Two conditions are taken together if there is a level left above the deeper one. -/
theorem Outline.exists_join {a b : Outline} {n : Nat} (left : a.height < n) (right : b.height < n)
    (bound : n ≤ Limit.depth) : ∃ o, a.join? b = some o ∧ o.height ≤ n := by
  have higher : max a.height b.height + 1 ≤ n := by omega
  exact ⟨_, if_pos (Nat.le_trans higher bound), higher⟩

private theorem Outline.exists_both {a b : Outline} {n : Nat} (left : a.height < n)
    (right : b.height < n) (bound : n ≤ Limit.depth) : ∃ o, a.both? b = some o ∧ o.height ≤ n := by
  unfold both?
  split
  · exact ⟨never, rfl, Nat.one_le_of_lt left⟩
  · exact exists_join left right bound

private theorem Condition.comparisons_pos (c : Condition) : 0 < c.comparisons := by
  induction c with
  | compare => exact Nat.one_pos
  | both left right ihl ihr => exact Nat.add_pos_left ihl _
  | either left right ihl ihr => exact Nat.add_pos_left ihl _

/-- A condition of few comparisons is not too deep. -/
theorem Condition.exists_outline (c : Condition) (few : c.comparisons + 3 ≤ Limit.depth) :
    ∃ o, c.outline? = some o ∧ o.height ≤ c.comparisons + 3 := by
  induction c with
  | compare column op operands => exact ⟨_, rfl, op.height_outline _⟩
  | both left right ihl ihr =>
      have parts : (both left right).comparisons = left.comparisons + right.comparisons := rfl
      have ofLeft := left.comparisons_pos
      have ofRight := right.comparisons_pos
      obtain ⟨a, isLeft, heightLeft⟩ := ihl (by omega)
      obtain ⟨b, isRight, heightRight⟩ := ihr (by omega)
      obtain ⟨o, joined, height⟩ := Outline.exists_both (a := a) (b := b)
        (n := (both left right).comparisons + 3) (by omega) (by omega) few
      exact ⟨o, by rw [outline?, isLeft, isRight]; exact joined, height⟩
  | either left right ihl ihr =>
      have parts : (either left right).comparisons = left.comparisons + right.comparisons := rfl
      have ofLeft := left.comparisons_pos
      have ofRight := right.comparisons_pos
      obtain ⟨a, isLeft, heightLeft⟩ := ihl (by omega)
      obtain ⟨b, isRight, heightRight⟩ := ihr (by omega)
      obtain ⟨o, joined, height⟩ := Outline.exists_join (a := a) (b := b)
        (n := (either left right).comparisons + 3) (by omega) (by omega) few
      exact ⟨o, by rw [outline?, isLeft, isRight]; exact joined, height⟩

namespace Conditions

/-- The conjunction of conditions has their comparisons. -/
theorem comparisons_together {cs : List Condition} {c : Condition} (joined : together cs = some c) :
    c.comparisons = comparisons cs := by
  have folded : ∀ (cs : List Condition) (c : Condition),
      (cs.foldl .both c).comparisons = c.comparisons + comparisons cs := by
    intro cs
    induction cs with
    | nil => exact fun c => rfl
    | cons d cs ih =>
        intro c
        rw [List.foldl_cons, ih, Condition.comparisons, comparisons, Nat.add_assoc]
  cases cs with
  | nil => cases joined
  | cons d cs =>
      obtain rfl := Option.some.inj joined
      exact folded cs d

/-- **Conditions of few comparisons are taken**, however they are joined. -/
theorem isShallow_of_comparisons {cs : List Condition}
    (few : comparisons cs + 3 ≤ Limit.depth) : isShallow cs = true := by
  unfold isShallow
  cases joined : together cs with
  | none => rfl
  | some c =>
      rw [← comparisons_together joined] at few
      obtain ⟨o, isOutline, -⟩ := c.exists_outline few
      rw [Option.all_some, isOutline]
      rfl

end Conditions

end Tabula
