import Latent.Main
import Latent.Binary64.Bits
import Latent.Proofs.Wire.Transport
import Latent.Proofs.Wire.Rebuilding
import Latent.Proofs.Wire.Modes
import Latent.Proofs.Syntax.Canonical
import Latent.Proofs.Syntax.Acceptance
import Latent.Proofs.Wire.PlainData
import Latent.Proofs.Json.Numbers
import Latent.Proofs.Json.Texts
import Latent.Proofs.Wire.CalendarValues
import Latent.Proofs.Wire.Rebuilt
import Latent.Proofs.Json.Keys
import Latent.Proofs.Wire.Canonical
import Latent.Proofs.Syntax.Built
import Latent.Proofs.Wire.OpaqueLeaves
import Latent.Proofs.Evaluate.Variables
import Latent.Proofs.Json.Nesting
import Latent.Proofs.Wire.Nesting
import Latent.Proofs.Command.Agreement
import Latent.Proofs.Evaluate.Congruence
import Latent.Proofs.Wire.Times
import Latent.Proofs.Evaluate.Finished
import Latent.Proofs.Wire.KeyOrder
import Latent.Proofs.Evaluate.Walks
import Latent.Proofs.Node.Positions
import Latent.Proofs.Evaluate.Comparisons
import Latent.Proofs.Value.Equality
import Latent.Proofs.Calendar.Adjustment
import Latent.Proofs.Evaluate.Truths
import Latent.Proofs.Calendar.Sums
import Latent.Proofs.Calendar.Components
import Latent.Proofs.Evaluate.CalendarNodes
import Latent.Proofs.Evaluate.DateComparisons
import Latent.Proofs.Wire.Untagged
import Latent.Proofs.Syntax.Rereading
import Latent.Proofs.Syntax.Spelling
import Latent.Proofs.Syntax.Progress
import Latent.Proofs.Value.WholeNumbers
