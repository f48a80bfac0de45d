import RecordQuery.Main
import RecordQuery.Proofs.Ambiguity
import RecordQuery.Proofs.Comments.Interruption
import RecordQuery.Proofs.Comparison.Keys
import RecordQuery.Proofs.Concatenation
import RecordQuery.Proofs.Context.Absence
import RecordQuery.Proofs.Context.Blindness
import RecordQuery.Proofs.Excerpts
import RecordQuery.Proofs.Frame
import RecordQuery.Proofs.Grammar.Spans
import RecordQuery.Proofs.Interchange
import RecordQuery.Proofs.Layout
import RecordQuery.Proofs.Loading.Files
import RecordQuery.Proofs.Markup.Lines
import RecordQuery.Proofs.Options
import RecordQuery.Proofs.Overflow.Runs
import RecordQuery.Proofs.Product
import RecordQuery.Proofs.Rendering.Listing
import RecordQuery.Proofs.Selection.Partition
import RecordQuery.Proofs.Steps
import RecordQuery.Proofs.Variables.Commutation
