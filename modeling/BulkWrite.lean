import BulkWrite.Connection.Recording
import BulkWrite.Main
import BulkWrite.Model
import BulkWrite.Value.Conversion
import BulkWrite.Proofs.NormalForm
import BulkWrite.Proofs.Alignment
import BulkWrite.Proofs.Compilation
import BulkWrite.Proofs.Cells
import BulkWrite.Proofs.Reading
import BulkWrite.Proofs.Recovery
import BulkWrite.Proofs.Determination
import BulkWrite.Proofs.Scanning
import BulkWrite.Proofs.Blindness
import BulkWrite.Proofs.Sending
import BulkWrite.Proofs.DefaultUpdate
import BulkWrite.Proofs.Literals
import BulkWrite.Proofs.Places
import BulkWrite.Proofs.Integers
import BulkWrite.Proofs.KeyOrder
import BulkWrite.Proofs.Acceptance
import BulkWrite.Proofs.Extension
import BulkWrite.Proofs.History
import BulkWrite.Proofs.UpdateClause
import BulkWrite.Proofs.Refinement
import BulkWrite.Proofs.Documents
import BulkWrite.Proofs.Finiteness
import BulkWrite.Proofs.RoundTrip
import BulkWrite.Proofs.CanonicalForm
import BulkWrite.Proofs.Outcomes
import BulkWrite.Proofs.BindList
import BulkWrite.Proofs.Decision
import BulkWrite.Proofs.Names
import BulkWrite.Proofs.References
import BulkWrite.Proofs.Assembly
import BulkWrite.Proofs.Edits
import BulkWrite.Proofs.DriverNames
