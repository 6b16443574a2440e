import Cascade.Json.Decode
import Cascade.Proofs.Condition.JsonText
import Cascade.Proofs.Condition.RoundTrip
import Cascade.Proofs.Hook
import Cascade.Proofs.Sheet
import Cascade.Proofs.Sheet.Notations
import Cascade.Workspace
import Cascade.Proofs.Grammar.Definitions
import Cascade.Proofs.Value.Expression
import Cascade.Proofs.LocalConditions
import Cascade.Proofs.Condition.NormalForm
import Cascade.Proofs.Distinct
import Cascade.Proofs.Condition.Questions
import Cascade.Proofs.Stylesheet.Layout
import Cascade.Proofs.Sheet.Lines
import Cascade.Proofs.Condition.Size
import Cascade.Proofs.Condition.Traversal
import Cascade.Proofs.Condition.Literals
import Cascade.Proofs.Condition.Faults
import Cascade.Proofs.HookId
import Cascade.Proofs.Sheet.LineEnds
import Cascade.Proofs.HookId.Collisions
import Cascade.Proofs.Stylesheet.Formats
import Cascade.Proofs.Value.Matching
import Cascade.Proofs.Condition.Shape
import Cascade.Proofs.Workspace
