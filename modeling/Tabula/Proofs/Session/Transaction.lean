import Tabula.Proofs.Engine.Refusal
import Tabula.Proofs.Session.Undoing
import Tabula.Session.Session

/-! # What undoing a transaction undoes

While the transaction of a session is open, what the database held at its beginning is set aside, and
undoing the transaction finds it again whatever was done and refused in between. Only a refused row
can end the transaction early, and only where the statement or its table asks for that; without such
a statement everything since the beginning is undone (`Tabula.Session.contents_of_undone`). Otherwise
the session does not notice: what comes after stands for itself, and undoing the transaction leaves it
there (`Tabula.Session.exists_later`, `Tabula.Session.contents_of_undone_reverted`).
-/

namespace Tabula

/-! ## Statements one after the other -/

namespace Engine

variable {e : Engine} {c : Contents} {s : RowStatement} {ss : List RowStatement}

/-- Runs statements on rows until one is refused. -/
def performAll : List RowStatement → Engine → Engine
  | [], e => e
  | s :: rest, e =>
    match e.perform s with
    | (none, e) => e
    | (some _, e) => performAll rest e

private theorem performAll_singleton (e : Engine) (s : RowStatement) :
    performAll [s] e = (e.perform s).2 := by
  rw [performAll]
  split
  · rename_i after refused
    rw [refused]
  · rename_i n after done
    rw [done]
    rfl

/-- A transaction is as open as it was, and what is set aside is the same. -/
def StillOpen (e after : Engine) : Prop :=
  after.saved = e.saved ∧ after.enforced = e.enforced

/-- To undo an open transaction is to put back what was set aside. -/
theorem rollback_eq (isOpen : e.saved = some c) : e.rollback = ⟨c, none, e.enforced⟩ := by
  rw [rollback, isOpen, Option.getD_some]

/-- What keeps a transaction open is undone along with it. -/
theorem StillOpen.rollback_eq {after : Engine} (still : StillOpen e after)
    (isOpen : e.saved = some c) : after.rollback = e.rollback := by
  rw [Engine.rollback_eq isOpen, Engine.rollback_eq (still.1.trans isOpen), still.2]

private theorem perform_cases (e : Engine) (s : RowStatement) :
    StillOpen e (e.perform s).2 ∨ e.perform s = (none, e.rollback) := by
  rw [perform_eq_change, change]
  cases s.effect e.enforced e.contents with
  | done after changed last => exact Or.inl ⟨rfl, rfl⟩
  | refused after => exact Or.inl ⟨rfl, rfl⟩
  | reverted => exact Or.inr rfl

/-- Statements leave the transaction open, or end it with all that was done in it. -/
theorem performAll_cases (ss : List RowStatement) (isOpen : e.saved = some c) :
    StillOpen e (performAll ss e) ∨ performAll ss e = e.rollback := by
  induction ss generalizing e with
  | nil => exact Or.inl ⟨rfl, rfl⟩
  | cons s ss ih =>
      rcases perform_cases e s with still | undone
      · cases ran : e.perform s with
        | mk n after =>
            rw [ran] at still
            rw [performAll, ran]
            cases n with
            | none => exact Or.inl still
            | some n =>
                rcases ih (still.1.trans isOpen) with later | undone
                · exact Or.inl ⟨later.1.trans still.1, later.2.trans still.2⟩
                · exact Or.inr (undone.trans (still.rollback_eq isOpen))
      · rw [performAll, undone]
        exact Or.inr rfl

/-- Row statements begin no transaction. -/
theorem idle_performAll (isIdle : e.saved = none) : (performAll ss e).saved = none := by
  induction ss generalizing e with
  | nil => exact isIdle
  | cons s ss ih =>
      have idleNext : (e.perform s).2.saved = none := by
        rcases perform_cases e s with still | undone
        · exact still.1.trans isIdle
        · rw [undone]
          rfl
      cases ran : e.perform s with
      | mk n after =>
          rw [ran] at idleNext
          rw [performAll, ran]
          cases n with
          | none => exact idleNext
          | some n => exact ih idleNext

/-- Statements that may not undo the transaction leave it open. -/
theorem saved_performAll (mild : ∀ s ∈ ss, ¬s.MayUndo c)
    (redefines : Contents.Redefines c e.contents) :
    (performAll ss e).saved = e.saved ∧ Contents.Redefines c (performAll ss e).contents := by
  induction ss generalizing e with
  | nil => exact ⟨rfl, redefines⟩
  | cons s ss ih =>
      have mildNow : ¬s.MayUndo e.contents := fun mayUndo =>
        mild s List.mem_cons_self (mayUndo.of_redefines redefines)
      obtain ⟨sameSaved, redefinesNow⟩ := saved_perform mildNow
      have redefinesAfter := redefines.trans redefinesNow
      cases ran : e.perform s with
      | mk n after =>
          rw [ran] at sameSaved redefinesAfter
          rw [performAll, ran]
          cases n with
          | none => exact ⟨sameSaved, redefinesAfter⟩
          | some n =>
              obtain ⟨sameLater, redefinesLater⟩ :=
                ih (fun s' member => mild s' (List.mem_cons_of_mem s member)) redefinesAfter
              exact ⟨sameLater.trans sameSaved, redefinesLater⟩

end Engine

/-! ## Operations of a session -/

/-- What can be done within a transaction. -/
inductive Operation where
  | insert {m : Model} (i : Insertion m) (entry : m.Entry)
  | insertAll {m : Model} (i : Insertion m) (entries : List m.Entry)
  | update (s : UpdateStatement)
  | delete (s : DeleteStatement)
  | select {m : Model} (s : Selection m)
  | first {m : Model} (s : Selection m)
  | count {m : Model} (s : Selection m)

namespace Operation

/-- The statements on rows that the operation runs, up to the first that is refused. -/
def statements : Operation → List RowStatement
  | insert i entry => [.insert (i.insert [entry])]
  | insertAll i entries => (Records.insertions i entries).map .insert
  | update s => [.update s]
  | delete s => [.delete s]
  | select _ | first _ | count _ => []

/-- No statement of the operation may undo the transaction. -/
def IsMild (op : Operation) (c : Contents) : Prop :=
  ∀ s ∈ op.statements, ¬s.MayUndo c

instance (op : Operation) (c : Contents) : Decidable (op.IsMild c) :=
  inferInstanceAs (Decidable (∀ s ∈ op.statements, ¬s.MayUndo c))

end Operation

/-- No records take no statement. -/
theorem Records.insertions_nil {m : Model} (i : Insertion m) : Records.insertions i [] = [] := by
  unfold Records.insertions Insertion.batches pieces
  split <;> rfl

/-- Insertions leave of the connection what they do as row statements, up to the first that is
refused. -/
theorem Records.snd_runInsertions (ss : List InsertStatement) (e : Engine) :
    (Records.runInsertions ss e).2 = Engine.performAll (ss.map .insert) e := by
  induction ss generalizing e with
  | nil => rfl
  | cons s ss ih =>
      rw [Records.runInsertions, List.map_cons, Engine.performAll, Engine.perform]
      cases e.insert s with
      | mk n after =>
          cases n with
          | none => rfl
          | some n => exact ih after

namespace Session

variable {s b : Session} {c : Contents} {ops : List Operation}

/-- The session after an operation, whatever the operation answers. Reading changes nothing. -/
def operate (s : Session) : Operation → Session
  | .insert i entry => (s.perform (Records.insert i entry)).2
  | .insertAll i entries => (s.insertAll i entries).2
  | .update u => (s.perform (Records.update u)).2
  | .delete d => (s.perform (Records.delete d)).2
  | .select _ | .first _ | .count _ => s

/-- The session after operations, done or refused. -/
def operateAll (s : Session) (ops : List Operation) : Session :=
  ops.foldl operate s

private theorem snd_perform {α : Type} (isOpen : s.isClosed = false) (f : Engine → Answer α) :
    (s.perform f).2 = { s with engine := (f s.engine).2 } := by
  rw [perform, isOpen]
  rfl

/-- Within a transaction an operation runs its statements on the connection. -/
theorem operate_eq (isOpen : s.isClosed = false) (within : s.inTransaction = true)
    (op : Operation) :
    s.operate op = { s with engine := Engine.performAll op.statements s.engine } := by
  cases op with
  | insert i entry =>
      rw [operate, snd_perform isOpen, Records.insert, Answer.snd_ofChange, Operation.statements,
        Engine.performAll_singleton, Engine.perform]
  | insertAll i entries =>
      rw [operate, insertAll, Operation.statements]
      cases entries with
      | nil =>
          rw [Records.insertions_nil]
          rfl
      | cons entry entries =>
          rw [if_neg (by simp), if_pos within, snd_perform isOpen, Records.insertRows,
            Records.snd_runInsertions]
  | update u =>
      rw [operate, snd_perform isOpen, Records.update, Answer.snd_ofChange, Operation.statements,
        Engine.performAll_singleton, Engine.perform]
  | delete d =>
      rw [operate, snd_perform isOpen, Records.delete, Answer.snd_ofChange, Operation.statements,
        Engine.performAll_singleton, Engine.perform]
  | select _ => rfl
  | first _ => rfl
  | count _ => rfl

private theorem operateAll_cons (s : Session) (op : Operation) (ops : List Operation) :
    s.operateAll (op :: ops) = (s.operate op).operateAll ops :=
  rfl

/-- The session of a begun transaction has set aside what the database held. -/
theorem begin_eq_ok (begins : s.begin = (.ok (), b)) :
    s.engine.saved = none ∧ b.isClosed = false ∧ b.inTransaction = true ∧
      b.engine = { s.engine with saved := some s.engine.contents } := by
  unfold begin at begins
  split at begins
  · cases begins
  · rename_i idle
    obtain ⟨isOpen, -⟩ := Bool.or_eq_false_iff.mp (Bool.eq_false_iff.mpr idle)
    unfold Engine.begin? at begins
    cases noneSaved : s.engine.saved with
    | some c =>
        rw [noneSaved] at begins
        cases begins
    | none =>
        rw [noneSaved] at begins
        obtain rfl := (Prod.mk.inj begins).2
        exact ⟨rfl, isOpen, rfl, rfl⟩

/-- Outside of a transaction of the engine none begins by an operation. -/
theorem idle_operateAll (isOpen : s.isClosed = false) (within : s.inTransaction = true)
    (isIdle : s.engine.saved = none) (ops : List Operation) :
    (s.operateAll ops).engine.saved = none := by
  induction ops generalizing s with
  | nil => exact isIdle
  | cons op ops ih =>
      rw [operateAll_cons, operate_eq isOpen within op]
      refine ih ?_ ?_ ?_
      · exact isOpen
      · exact within
      · exact Engine.idle_performAll isIdle

/-- The session as it goes on when the engine has ended its transaction early. -/
def unguarded (s b : Session) : Session :=
  { b with engine := s.engine }

/-- After any operations the transaction is open and what the database held is set aside, or the
engine ended it early, and the operations since then stood each for itself. -/
theorem operateAll_cases (begins : s.begin = (.ok (), b)) (ops : List Operation) :
    (b.operateAll ops).engine.saved = some s.engine.contents ∨
      ∃ later, later <:+ ops ∧ b.operateAll ops = (unguarded s b).operateAll later := by
  obtain ⟨isIdle, isOpen, within, begun⟩ := begin_eq_ok begins
  -- The invariant of an open transaction: the engine alone has changed, and is still open.
  have run (now : Session) (ops : List Operation)
      (same : now = { b with engine := now.engine }) (still : b.engine.StillOpen now.engine) :
      (now.operateAll ops).engine.saved = some s.engine.contents ∨
        ∃ later, later <:+ ops ∧ now.operateAll ops = (unguarded s b).operateAll later := by
    induction ops generalizing now with
    | nil =>
        refine Or.inl (still.1.trans ?_)
        rw [begun]
    | cons op ops ih =>
        have openNow : now.isClosed = false := same ▸ isOpen
        have withinNow : now.inTransaction = true := same ▸ within
        have savedBegun : b.engine.saved = some s.engine.contents := by rw [begun]
        have next := operate_eq openNow withinNow op
        have sameNext : now.operate op = { b with engine := (now.operate op).engine } := by
          rw [next, same]
        rw [operateAll_cons]
        rcases Engine.performAll_cases op.statements (still.1.trans savedBegun) with
          goesOn | undone
        · rcases ih _ sameNext (by
            rw [next]
            exact ⟨goesOn.1.trans still.1, goesOn.2.trans still.2⟩) with isSaved | ⟨later, suffix, ran⟩
          · exact Or.inl isSaved
          · exact Or.inr ⟨later, suffix.trans (List.suffix_cons op ops), ran⟩
        · refine Or.inr ⟨ops, List.suffix_cons op ops, ?_⟩
          have asBefore : now.engine.rollback = s.engine := by
            rw [still.rollback_eq savedBegun, Engine.rollback_eq savedBegun, begun, ← isIdle]
          rw [sameNext, next, undone, asBefore]
          rfl
  exact run b ops rfl ⟨rfl, rfl⟩

/-- Operations that may not undo the transaction leave it open. -/
theorem saved_operateAll (isOpen : s.isClosed = false) (within : s.inTransaction = true)
    (mild : ∀ op ∈ ops, op.IsMild c) (redefines : Contents.Redefines c s.engine.contents) :
    (s.operateAll ops).engine.saved = s.engine.saved := by
  induction ops generalizing s with
  | nil => rfl
  | cons op ops ih =>
      obtain ⟨sameSaved, redefinesNext⟩ :=
        Engine.saved_performAll (mild op List.mem_cons_self) redefines
      rw [operateAll_cons, operate_eq isOpen within op]
      refine (ih ?_ ?_ (fun op' member => mild op' (List.mem_cons_of_mem op member)) ?_).trans
        sameSaved
      · exact isOpen
      · exact within
      · exact redefinesNext

private theorem contents_abandon_of_saved (isSaved : s.engine.saved = some c) :
    s.abandon.engine.contents = c :=
  Engine.rollback_of_saved isSaved

/-- What stays when a transaction is undone is what the operations do that came after its early end,
each for itself; where there was no such end, nothing. -/
theorem exists_later (begins : s.begin = (.ok (), b)) (ops : List Operation) :
    ∃ later, later <:+ ops ∧
      (b.operateAll ops).abandon.engine.contents =
        ((unguarded s b).operateAll later).engine.contents := by
  obtain ⟨isIdle, isOpen, within, -⟩ := begin_eq_ok begins
  rcases operateAll_cases begins ops with isSaved | ⟨later, suffix, ran⟩
  · exact ⟨[], List.nil_suffix, contents_abandon_of_saved isSaved⟩
  · have noneSaved : ((unguarded s b).operateAll later).engine.saved = none :=
      idle_operateAll (s := unguarded s b) isOpen within isIdle later
    refine ⟨later, suffix, ?_⟩
    rw [ran, abandon, Engine.rollback, noneSaved, Option.getD_none]

/-- **Everything is undone.** After any operations on an open transaction, done or refused, undoing it
or leaving it brings back what the database held at its beginning, unless an operation may undo the
transaction by itself. -/
theorem contents_of_undone (begins : s.begin = (.ok (), b))
    (mild : ∀ op ∈ ops, op.IsMild s.engine.contents) :
    (b.operateAll ops).abandon.engine.contents = s.engine.contents ∧
      ∃ ended, (b.operateAll ops).rollback = (.ok (), ended) ∧
        ended.engine.contents = s.engine.contents := by
  obtain ⟨-, isOpen, within, begun⟩ := begin_eq_ok begins
  have redefines : Contents.Redefines s.engine.contents b.engine.contents := by
    rw [begun]
    exact .refl _
  have isSaved : (b.operateAll ops).engine.saved = some s.engine.contents := by
    rw [saved_operateAll isOpen within mild redefines, begun]
  refine ⟨contents_abandon_of_saved isSaved, (b.operateAll ops).abandon, ?_,
    contents_abandon_of_saved isSaved⟩
  rw [rollback, finish, Engine.rollback?, isSaved]
  rfl

/-- Records of nothing but a key. -/
def numbers : Model where
  table := .keyed "Number"
  record := [⟨"id", .int .i64, false⟩]
  names := rfl

/-- A session on a database with the table of the numbers. -/
def numbering : Session :=
  .ofEngine { Engine.new true with contents := ⟨[.new numbers.table]⟩ }

/-- The session after its transaction has begun. -/
def counting : Session where
  engine := { numbering.engine with saved := some numbering.engine.contents }
  inTransaction := true
  isClosed := false

/-- Inserts the number one or two under a policy. -/
def insertNumber (p : ConflictPolicy) (two : Bool) : Operation :=
  .insert (m := numbers) { policy := p, omitsAutoKey := false }
    (if two then ⟨2, by decide⟩ else ⟨1, by decide⟩, ())

/-- Done and refused, and then undone. -/
theorem contents_of_undone_numbers :
    let ops := [insertNumber .unset false, insertNumber .fail false,
      .update ⟨.abort, "Number", [("id", .text "one")], []⟩, .delete ⟨"Number", []⟩,
      insertNumber .replace true, .count (m := numbers) .all]
    numbering.begin = (.ok (), counting) ∧
      (∀ op ∈ ops, op.IsMild numbering.engine.contents) ∧
      (counting.operateAll ops).engine.contents ≠ numbering.engine.contents ∧
      (counting.operateAll ops).abandon.engine.contents = numbering.engine.contents := by
  intro ops
  have mild : ∀ op ∈ ops, op.IsMild numbering.engine.contents := by decide +kernel
  exact ⟨rfl, mild, by decide +kernel, (contents_of_undone (s := numbering) rfl mild).1⟩

/-- A refused row under a policy that undoes the transaction is its early end, and the row after it
stays when the transaction is undone. -/
theorem contents_of_undone_reverted :
    numbering.begin = (.ok (), counting) ∧
      (counting.operateAll [insertNumber .unset false, insertNumber .rollback false,
        insertNumber .unset true]).abandon.engine.contents ≠ numbering.engine.contents :=
  ⟨rfl, by decide +kernel⟩

end Session

end Tabula
