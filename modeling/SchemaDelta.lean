import SchemaDelta.Command.Directory
import SchemaDelta.Main
import SchemaDelta.Proofs.Change.Delta
import SchemaDelta.Proofs.Change.Synchronized
import SchemaDelta.Proofs.Change.Edit
import SchemaDelta.Proofs.Script.Lines
import SchemaDelta.Proofs.Script.Active
import SchemaDelta.Proofs.Sql.Header
import SchemaDelta.Proofs.Script.Replay
import SchemaDelta.Proofs.Change.Layout
import SchemaDelta.Proofs.Change.Operation
import SchemaDelta.Proofs.Change.Converge
import SchemaDelta.Proofs.Dump.LastWrite
import SchemaDelta.Proofs.Dump.WellFormed
import SchemaDelta.Proofs.Script.Opening
import SchemaDelta.Proofs.Text.Words
import SchemaDelta.Proofs.Dump.Clean
import SchemaDelta.Proofs.Dump.Rewalk
import SchemaDelta.Proofs.Script.Reread
import SchemaDelta.Proofs.Script.Recreate
import SchemaDelta.Proofs.Sql.Phrase
import SchemaDelta.Proofs.Dump.Head
import SchemaDelta.Proofs.Dump.Concat
import SchemaDelta.Proofs.Dump.Block
import SchemaDelta.Proofs.Sql.Nesting
import SchemaDelta.Proofs.Sql.Listing
import SchemaDelta.Proofs.Dump.Declaration
import SchemaDelta.Proofs.Dump.Definition
import SchemaDelta.Proofs.Change.Partition
import SchemaDelta.Proofs.Change.Views
import SchemaDelta.Proofs.Dump.Kept
import SchemaDelta.Proofs.Dump.Trace
import SchemaDelta.Proofs.Change.Mirror
import SchemaDelta.Proofs.Script.Shape
import SchemaDelta.Proofs.Change.Addition
import SchemaDelta.Proofs.Dump.TableBody
import SchemaDelta.Proofs.Dump.Stitch
import SchemaDelta.Proofs.Dump.Spacing
import SchemaDelta.Proofs.Dump.Literals
import SchemaDelta.Proofs.Schema.RoundTrip
import SchemaDelta.Proofs.Sql.Cut
import SchemaDelta.Proofs.Dump.NameMarks
import SchemaDelta.Proofs.Dump.KeyPart
import SchemaDelta.Proofs.Dump.Spelling
import SchemaDelta.Proofs.Dump.QuotedName
import SchemaDelta.Proofs.Dump.QualifiedView
import SchemaDelta.Proofs.Dump.Filling
import SchemaDelta.Proofs.Change.Phases
import SchemaDelta.Proofs.Dump.Uncommented
