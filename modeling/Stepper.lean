import Stepper.CommandLine
import Stepper.Main
import Stepper.Program
import Stepper.Proofs.Bindings
import Stepper.Proofs.Compilation
import Stepper.Proofs.Execution.Arguments
import Stepper.Proofs.Execution.ControlFlow
import Stepper.Proofs.Execution.Growth
import Stepper.Proofs.Execution.Heap
import Stepper.Proofs.Execution.Hooks
import Stepper.Proofs.Execution.Stack
import Stepper.Proofs.Execution.Still
import Stepper.Proofs.Execution.Traceback
import Stepper.Proofs.Expr.Height
import Stepper.Proofs.Expr.Keywords
import Stepper.Proofs.Expr.Levels
import Stepper.Proofs.Expr.Precedence
import Stepper.Proofs.Expr.Tokens
import Stepper.Proofs.Json.RoundTrip
import Stepper.Proofs.Message.RoundTrip
import Stepper.Proofs.Number.Order
import Stepper.Proofs.Operation.Comparison
import Stepper.Proofs.Operation.Containment
import Stepper.Proofs.Operation.Division
import Stepper.Proofs.Operation.Extreme
import Stepper.Proofs.Operation.Identity
import Stepper.Proofs.Operation.Membership
import Stepper.Proofs.Operation.Range
import Stepper.Proofs.Operation.Splitting
import Stepper.Proofs.Operation.WholeNumbers
import Stepper.Proofs.Output
import Stepper.Proofs.Parse.Reading
import Stepper.Proofs.Session.CodeIntake
import Stepper.Proofs.Session.Conversation
import Stepper.Proofs.Session.Display
import Stepper.Proofs.Session.Lines
import Stepper.Proofs.Session.Lockstep
import Stepper.Proofs.Session.Requests
import Stepper.Proofs.Session.Termination
import Stepper.Proofs.Snapshot
import Stepper.Proofs.Stmt.Blocks
import Stepper.Proofs.Stmt.Locals
import Stepper.Proofs.SyntaxTrace
import Stepper.Proofs.Token.Layout
import Stepper.Proofs.Token.Lexing
import Stepper.Proofs.Token.LineEnds
import Stepper.Proofs.Token.ProgramText
import Stepper.Proofs.Token.TabStops
import Stepper.Proofs.Value.Datum
import Stepper.Proofs.Value.Faithful
import Stepper.Proofs.Value.Insertion
import Stepper.Proofs.Value.Literal
import Stepper.Proofs.Value.Order
import Stepper.Proofs.Value.ReadBack
import Stepper.Run
import Stepper.Session
import Stepper.Settings
