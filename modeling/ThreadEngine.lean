import ThreadEngine.Body.IntMachine
import ThreadEngine.Body.Interpreter
import ThreadEngine.Body.Program
import ThreadEngine.Body.Script
import ThreadEngine.Body.Task
import ThreadEngine.Call.Marshal
import ThreadEngine.Call.Thread
import ThreadEngine.Failure.Abort
import ThreadEngine.Failure.Error
import ThreadEngine.Frame
import ThreadEngine.Frame.Locals
import ThreadEngine.Frame.Op
import ThreadEngine.Frame.OperandStack
import ThreadEngine.Frame.Slot
import ThreadEngine.Journal.Event
import ThreadEngine.Method
import ThreadEngine.Method.Descriptor
import ThreadEngine.Number.Ieee
import ThreadEngine.Number.Shortest
import ThreadEngine.Session
import ThreadEngine.Session.Command
import ThreadEngine.Session.View
import ThreadEngine.Text.CodeRange
import ThreadEngine.Text.Combining
import ThreadEngine.Text.Quoted
import ThreadEngine.Text.Unassigned
import ThreadEngine.Value
import ThreadEngine.Value.Diagnostic
import ThreadEngine.World
import ThreadEngine.World.Config
import ThreadEngine.Lifecycle
import ThreadEngine.World.Host
import ThreadEngine.World.Registry
import ThreadEngine.World.Serve
import ThreadEngine.World.Step
import ThreadEngine.Proofs.FrameDiscipline
import ThreadEngine.Proofs.LeakedFrames
import ThreadEngine.Proofs.Ledger
import ThreadEngine.Proofs.Guards
import ThreadEngine.Proofs.Roster
import ThreadEngine.Proofs.Shift
import ThreadEngine.Proofs.Custody
import ThreadEngine.Proofs.Holders
import ThreadEngine.Proofs.LaunchOrder
import ThreadEngine.Proofs.TaskRuns
import ThreadEngine.Proofs.Accounts
import ThreadEngine.Proofs.DeadEntries
import ThreadEngine.Proofs.FineSteps
import ThreadEngine.Proofs.FineInvariants
import ThreadEngine.Proofs.Atomicity
import ThreadEngine.Proofs.Registration
import ThreadEngine.Proofs.Retirement
import ThreadEngine.Proofs.Bookkeeping
import ThreadEngine.Proofs.Joining
import ThreadEngine.Proofs.Grammar
import ThreadEngine.Proofs.Outliving
import ThreadEngine.Proofs.Lifecycles
import ThreadEngine.Proofs.Waiting
import ThreadEngine.Proofs.Stages
import ThreadEngine.Proofs.Handshake
import ThreadEngine.Proofs.Evaluator
import ThreadEngine.Proofs.RecursiveCalls
import ThreadEngine.Proofs.Commons
import ThreadEngine.Proofs.Isolation
import ThreadEngine.Proofs.CallInputs
import ThreadEngine.Proofs.JobRuns
import ThreadEngine.Proofs.Interleaving
import ThreadEngine.Proofs.BodyCalls
import ThreadEngine.Proofs.DeniedStarts
import ThreadEngine.Proofs.Receivers
import ThreadEngine.Proofs.StartEnds
import ThreadEngine.Proofs.CreationOutcome
import ThreadEngine.Proofs.Marshalling
import ThreadEngine.Proofs.CallEntry
import ThreadEngine.Proofs.ExactArithmetic
import ThreadEngine.Proofs.DepthLimits
import ThreadEngine.Proofs.DescriptorFaults
import ThreadEngine.Proofs.Factorial
import ThreadEngine.Proofs.IeeeFloats
import ThreadEngine.Proofs.NumericEquality
import ThreadEngine.Proofs.Limits
import ThreadEngine.Proofs.Configuration
import ThreadEngine.Proofs.PlainFrames
import ThreadEngine.Proofs.EventReplay
import ThreadEngine.Proofs.PrefixCode
