import Deduction.Formula.Leaf
import Deduction.Main
import Deduction.Proofs.Climbing
import Deduction.Proofs.Completeness
import Deduction.Proofs.Display
import Deduction.Proofs.Grammar
import Deduction.Proofs.Heredity
import Deduction.Proofs.Inference
import Deduction.Proofs.KeySequences
import Deduction.Proofs.Keys
import Deduction.Proofs.Paths
import Deduction.Proofs.Prompts
import Deduction.Proofs.Replay
import Deduction.Proofs.Requests
import Deduction.Proofs.RoundTrip
import Deduction.Proofs.Run
import Deduction.Proofs.Scanning
import Deduction.Proofs.Script
import Deduction.Proofs.Semantics
import Deduction.Proofs.Shape
import Deduction.Proofs.Soundness
import Deduction.Web.Launch
import Deduction.Web.Page
import Deduction.Proofs.Structural
import Deduction.Proofs.Views
import Deduction.Proofs.Spelling
import Deduction.Proofs.Keyboard
import Deduction.Proofs.FrontEnds
import Deduction.Proofs.Inversion
import Deduction.Proofs.Locality
import Deduction.Proofs.Subformulas
import Deduction.Proofs.Substitution
import Deduction.Proofs.Editing
import Deduction.Proofs.Faults
import Deduction.Proofs.Replies
import Deduction.Proofs.Columns
import Deduction.Proofs.Pads
import Deduction.Proofs.Scrolling
import Deduction.Proofs.Viability
import Deduction.Proofs.Listing
import Deduction.Proofs.OpenGoals
import Deduction.Proofs.Confinement
import Deduction.Proofs.Sameness
import Deduction.Proofs.Filing
import Deduction.Proofs.Extent
