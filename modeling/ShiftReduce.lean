import ShiftReduce.Stack.Lemmas
import ShiftReduce.Stack.Operation
import ShiftReduce.Calculator.Evaluator
import ShiftReduce.Calculator.Builder
import ShiftReduce.Greeting.Plain
import ShiftReduce.Greeting.Counted
import ShiftReduce.NumberList.Builder
import ShiftReduce.Tabular.Transcript
import ShiftReduce.Proofs.Stack.Reference
import ShiftReduce.Proofs.Parser.Step
import ShiftReduce.Proofs.Parser.Transaction
import ShiftReduce.Proofs.Parser.Forest
import ShiftReduce.Proofs.Parser.Atomicity
import ShiftReduce.Proofs.Parser.Simulation
import ShiftReduce.Proofs.Parser.Capacity
import ShiftReduce.Proofs.Parser.Control
import ShiftReduce.Proofs.Parser.Execution
import ShiftReduce.Proofs.Calculator.Configuration
import ShiftReduce.Proofs.Calculator.Yield
import ShiftReduce.Proofs.Calculator.Evaluation
import ShiftReduce.Proofs.NumberList.Configuration
import ShiftReduce.Proofs.NumberList.Segments
import ShiftReduce.Proofs.Parser.Moves
import ShiftReduce.Proofs.Stack.Ledger
import ShiftReduce.Proofs.Parser.Path
import ShiftReduce.Proofs.Parser.Resynchronisation
import ShiftReduce.Proofs.Parser.Typing
import ShiftReduce.Proofs.Parser.Bookkeeping
import ShiftReduce.Proofs.Kinds
import ShiftReduce.Proofs.Parser.Height
import ShiftReduce.Proofs.Bounds
import ShiftReduce.Proofs.Parser.Accounting
import ShiftReduce.Proofs.Calculator.Display
import ShiftReduce.Proofs.Calculator.Offence
import ShiftReduce.Proofs.Economy
import ShiftReduce.Proofs.Source.Rendering
import ShiftReduce.Proofs.Source.LongestMatch
import ShiftReduce.Proofs.Source.Partition
import ShiftReduce.Proofs.Calculator.Exact
import ShiftReduce.Proofs.Parser.Conservation
import ShiftReduce.Proofs.Calculator.Nodes
import ShiftReduce.Proofs.Stack.Replacement
import ShiftReduce.Proofs.Parser.Renewal
import ShiftReduce.Proofs.Parser.Ending
import ShiftReduce.Proofs.Parser.Termination
import ShiftReduce.Proofs.Endings
