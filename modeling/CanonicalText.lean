import CanonicalText.Main
import CanonicalText.Reader.Script
import CanonicalText.View.Program
import CanonicalText.Proofs.Reader.Placement
import CanonicalText.Proofs.Reader.LineBreaks
import CanonicalText.Proofs.LineIndex
import CanonicalText.Proofs.LineIndex.Places
import CanonicalText.Proofs.Reader.Ends
import CanonicalText.Proofs.Reader.Shapes
import CanonicalText.Proofs.Reader.Chunks
import CanonicalText.Proofs.View.Steps
import CanonicalText.Proofs.View.Runs
import CanonicalText.Proofs.View.Chains
import CanonicalText.Proofs.View.Paths
import CanonicalText.Proofs.View.Cells
import CanonicalText.Proofs.View.Guard
import CanonicalText.Proofs.View.Aliasing
import CanonicalText.Proofs.Command.LineOption
import CanonicalText.Proofs.Command.Partition
import CanonicalText.Proofs.Json.RoundTrip
import CanonicalText.Proofs.View.Encoding
import CanonicalText.Proofs.Location
import CanonicalText.Proofs.Location.Comparison
import CanonicalText.Proofs.Location.Cover
import CanonicalText.Proofs.Json.LineBreaks
import CanonicalText.Proofs.Command.LineEndings
import CanonicalText.Proofs.Command.Outcomes
import CanonicalText.Proofs.Command.Documents
import CanonicalText.Proofs.View.Equality
import CanonicalText.Proofs.Command.Configuration
import CanonicalText.Proofs.Command.ConfigurationGrammar
import CanonicalText.Proofs.Command.Requests
import CanonicalText.Proofs.View.Slices
import CanonicalText.Proofs.View.Walks
import CanonicalText.Proofs.Reader.Concatenation
import CanonicalText.Proofs.Reader.Coordinates
import CanonicalText.Proofs.Reader.Laziness
import CanonicalText.Proofs.Reader.Hints
import CanonicalText.Proofs.Command.Lines
import CanonicalText.Proofs.View.Reads
import CanonicalText.Proofs.Exact.Operations
