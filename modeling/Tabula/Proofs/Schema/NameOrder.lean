import Mathlib.Data.List.Nodup
import Tabula.Proofs.Text.ByteOrder

/-! # Members in the order of their names

What putting tables or statements in order keeps and what it changes: the members are the same, the
bytes of their names ascend, and members of one name stay in the order in which they came
(`Tabula.InNameOrder`). No second list is in the name order of the same members, and where no two
members have one name it is the same order for all their permutations
(`Tabula.mergeSort_eq_of_perm`).
-/

namespace Tabula

variable {α : Type} {name : α → String} {members ordered : List α}

/-- The members in the byte order of their names, those of one name as they came. -/
structure InNameOrder (name : α → String) (members ordered : List α) : Prop where
  perm : ordered.Perm members
  ascending : ordered.Pairwise fun a b => Text.bytes (name a) ≤ Text.bytes (name b)
  stable : ∀ n, ordered.filter (name · == n) = members.filter (name · == n)

/-- Whether one member may stand before another. -/
def nameLe (name : α → String) (a b : α) : Bool :=
  decide (name a ≤ name b)

/-- The order by name is transitive. -/
theorem nameLe_trans (a b c : α) (first : nameLe name a b = true)
    (second : nameLe name b c = true) : nameLe name a c = true := by
  simp only [nameLe, decide_eq_true_eq] at first second ⊢
  exact le_trans first second

/-- The order by name is total. -/
theorem nameLe_total (a b : α) : (nameLe name a b || nameLe name b a) = true := by
  simp only [nameLe, Bool.or_eq_true, decide_eq_true_eq]
  exact le_total _ _

/-- Sorting by name puts the members in the order of their names. -/
theorem inNameOrder_mergeSort (name : α → String) (members : List α) :
    InNameOrder name members (members.mergeSort fun a b => decide (name a ≤ name b)) := by
  have perm := List.mergeSort_perm members (nameLe name)
  refine ⟨perm, ?_, fun n => ?_⟩
  · refine (List.pairwise_mergeSort nameLe_trans nameLe_total members).imp ?_
    intro a b le
    exact Text.bytes_le_bytes.mpr (of_decide_eq_true le)
  · have alike : (members.filter (name · == n)).Pairwise (nameLe name · ·) := by
      refine List.pairwise_of_forall_mem_list fun a memberA b memberB => ?_
      have nameA := eq_of_beq (List.mem_filter.mp memberA).2
      have nameB := eq_of_beq (List.mem_filter.mp memberB).2
      simp only [nameLe, nameA, nameB, le_refl, decide_true]
    have inside : (members.filter (name · == n)).Sublist (members.mergeSort (nameLe name)) :=
      List.sublist_mergeSort nameLe_trans nameLe_total alike List.filter_sublist
    have within := inside.filter (name · == n)
    rw [List.filter_filter] at within
    simp only [Bool.and_self] at within
    exact (within.eq_of_length (perm.filter _).length_eq.symm).symm

/-- No two lists are in the name order of the same members. -/
theorem InNameOrder.unique {other : List α} (first : InNameOrder name members ordered)
    (second : InNameOrder name members other) : ordered = other := by
  obtain ⟨perm, ascending, stable⟩ := first
  have alike : ∀ n, ordered.filter (name · == n) = other.filter (name · == n) :=
    fun n => (stable n).trans (second.stable n).symm
  have permOther := perm.trans second.perm.symm
  have ascendingOther := second.ascending
  clear stable perm second
  induction ordered generalizing other with
  | nil => exact (List.nil_perm.mp permOther).symm
  | cons a ordered ih =>
      cases other with
      | nil => exact List.perm_nil.mp permOther
      | cons b other =>
          have sameName : name a = name b := by
            refine le_antisymm (Text.bytes_le_bytes.mp ?_) (Text.bytes_le_bytes.mp ?_)
            · rcases List.mem_cons.mp (permOther.mem_iff.mpr List.mem_cons_self) with same | later
              · exact same ▸ List.le_refl _
              · exact List.rel_of_pairwise_cons ascending later
            · rcases List.mem_cons.mp (permOther.mem_iff.mp List.mem_cons_self) with same | later
              · exact same ▸ List.le_refl _
              · exact List.rel_of_pairwise_cons ascendingOther later
          have heads := alike (name b)
          simp only [List.filter_cons, sameName, beq_self_eq_true, ↓reduceIte] at heads
          obtain rfl := (List.cons.inj heads).1
          refine congrArg _ (ih ascending.of_cons (fun n => ?_) permOther.cons_inv
            ascendingOther.of_cons)
          have tails := alike n
          rw [List.filter_cons, List.filter_cons] at tails
          split at tails
          · exact (List.cons.inj tails).2
          · exact tails

/-- Where no two members have one name, their order does not matter. -/
theorem InNameOrder.of_perm {others : List α} (sorted : InNameOrder name members ordered)
    (distinct : (members.map name).Nodup) (perm : members.Perm others) :
    InNameOrder name others ordered := by
  refine ⟨sorted.perm.trans perm, sorted.ascending, fun n => ?_⟩
  rw [sorted.stable n]
  have alike : (members.filter (name · == n)).Perm (others.filter (name · == n)) := perm.filter _
  have single : (members.filter (name · == n)).length ≤ 1 := by
    have atMostOnce := List.nodup_iff_count_le_one.mp distinct n
    rwa [List.count_eq_countP, List.countP_map, List.countP_eq_length_filter] at atMostOnce
  match named : members.filter (name · == n) with
  | [] => exact (List.nil_perm.mp (named ▸ alike)).symm
  | [only] => exact (List.perm_singleton.mp (named ▸ alike).symm).symm
  | _ :: _ :: _ => rw [named] at single; simp at single

/-- Members of distinct names are sorted alike, whatever order they were in. -/
theorem mergeSort_eq_of_perm {others : List α} (distinct : (members.map name).Nodup)
    (perm : members.Perm others) :
    (members.mergeSort fun a b => decide (name a ≤ name b)) =
      others.mergeSort fun a b => decide (name a ≤ name b) :=
  ((inNameOrder_mergeSort name members).of_perm distinct perm).unique
    (inNameOrder_mergeSort name others)

/-- Members in the order of their names stay as they are when they are sorted. -/
theorem mergeSort_of_ascending
    (ascending : members.Pairwise fun a b => Text.bytes (name a) ≤ Text.bytes (name b)) :
    (members.mergeSort fun a b => decide (name a ≤ name b)) = members := by
  refine List.mergeSort_of_pairwise (ascending.imp fun le => ?_)
  exact decide_eq_true (Text.bytes_le_bytes.mp le)

end Tabula
