import Caret.Failure
import Caret.Json
import Caret.Number.ReadBack
import Caret.Proofs.Alike
import Caret.Proofs.Boundary
import Caret.Proofs.Canonical
import Caret.Proofs.ClassicalTruth
import Caret.Proofs.Comparand
import Caret.Proofs.Construction
import Caret.Proofs.ExactText
import Caret.Proofs.Expectations
import Caret.Proofs.Flaws
import Caret.Proofs.Grammar
import Caret.Proofs.Laws
import Caret.Proofs.Layout
import Caret.Proofs.Leafwise
import Caret.Proofs.LooseEquality
import Caret.Proofs.Nesting
import Caret.Proofs.Ordering
import Caret.Proofs.Reach
import Caret.Proofs.Reads
import Caret.Proofs.Relocation
import Caret.Proofs.RoundTrip
import Caret.Proofs.Sameness
import Caret.Proofs.Scanning
import Caret.Proofs.Termination
import Caret.Proofs.Tokenization
import Caret.Proofs.UniqueReading
import Caret.Proofs.ViablePrefix
import Caret.Proofs.WholeNumber
