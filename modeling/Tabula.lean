import Tabula.Query.Surface
import Tabula.Proofs.Schema.AssociationCycle
import Tabula.Proofs.Schema.Diagnosis
import Tabula.Proofs.Schema.DigestText
import Tabula.Schema.Build
import Tabula.Schema.DeclarationJson
import Tabula.Session.Session
import Tabula.Source.Derivation
import Tabula.Proofs.Engine.Creation
import Tabula.Proofs.Schema.Coexistence
import Tabula.Proofs.Schema.CreatedName
import Tabula.Proofs.Query.Clause
import Tabula.Proofs.Schema.Reference
import Tabula.Proofs.Model.Change
import Tabula.Proofs.Session.Undoing
import Tabula.Proofs.Engine.Alteration
import Tabula.Proofs.Session.StoredDigest
import Tabula.Proofs.Session.Reopening
import Tabula.Proofs.Session.Rebuild
import Tabula.Proofs.Session.Transaction
import Tabula.Proofs.Session.Storing
import Tabula.Source.Writing
import Tabula.Proofs.Source.Declared
import Tabula.Proofs.Schema.AddingOrder
import Tabula.Proofs.Session.Enforcement
import Tabula.Proofs.Source.Contract
import Tabula.Proofs.Schema.DeclarationText
import Tabula.Proofs.Schema.Description
import Tabula.Proofs.Schema.AnnotatedText
import Tabula.Proofs.Model.Batch
import Tabula.Proofs.Session.BulkInsertion
import Tabula.Proofs.Session.RowKey
import Tabula.Proofs.Session.AssignedKey
import Tabula.Proofs.Session.Report
import Tabula.Proofs.Schema.ReferenceClause
import Tabula.Proofs.Source.TypeName
import Tabula.Proofs.Session.Selecting
import Tabula.Proofs.Text.Quoting
import Tabula.Proofs.Schema.SharedName
import Tabula.Proofs.Source.Rereading
import Tabula.Proofs.Schema.UnknownTarget
