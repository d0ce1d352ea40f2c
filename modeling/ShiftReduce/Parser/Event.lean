import ShiftReduce.Table
import ShiftReduce.Semantics
import ShiftReduce.Parser.Error

/-!
# The journal of a run

Everything a run does is an event. The journal keeps them as data; `Event.line` writes one down, its
level first.
-/

namespace ShiftReduce

/-- One entry of the parse stack: the state that it leads to and the value that it carries. -/
structure Frame (σ ν : Type) where
  state : σ
  value : ν
  deriving DecidableEq

inductive Event (σ τ π ν : Type)
  /-- The stack, bottom first, and the token it is about to meet. -/
  | stack (frames : List (Frame σ ν)) (incoming : τ)
  | shift (token : τ) (next : σ)
  | reduce (production : π)
  | goto (next : σ)
  | accept
  /-- A token came after the end of the run. -/
  | ignored (token : τ)
  | failed (error : ParseError)
  /-- No frame has an action for the error token. -/
  | unrecoverable (errorToken : τ)
  | recovering (state : σ)
  /-- The end of the input was rejected again after recovery. -/
  | givingUp (error : ParseError)
  /-- A token was rejected again after recovery. -/
  | discarding (token : τ)
  | overflow (capacity : Nat)
  /-- A remark of the actions or of the source. -/
  | note (text : String)

namespace Event

variable {σ τ π ν α : Type}

def stackLine (table : Table σ τ π) (sem : Semantics π ν α) (frames : List (Frame σ ν))
    (incoming : τ) : String :=
  let shown := frames.map fun f =>
    "<" ++ stateName (table.stateIndex f.state) ++ "> " ++ sem.describe f.value ++ "  "
  String.join shown ++ "<-  " ++ table.tokenLabel incoming

def line (table : Table σ τ π) (sem : Semantics π ν α) : Event σ τ π ν → String
  | stack frames incoming => "TRACE " ++ stackLine table sem frames incoming
  | shift token next =>
    "TRACE Shift " ++ table.tokenLabel token ++ " -> " ++ stateName (table.stateIndex next)
  | reduce production =>
    "TRACE Reduce " ++ table.productionName production ++ " (" ++
      table.tokenLabel (table.lhs production) ++ " -> " ++
      Decimal.ofNat (table.arity production) ++ " symbols)"
  | goto next => "TRACE Goto " ++ stateName (table.stateIndex next)
  | accept => "TRACE Accept"
  | ignored token => "DEBUG Ignoring " ++ table.tokenLabel token ++ " after the run has finished"
  | failed error => "DEBUG " ++ error.message
  | unrecoverable token => "DEBUG No state accepts " ++ table.tokenLabel token
  | recovering state => "DEBUG Recovering in state " ++ stateName (table.stateIndex state)
  | givingUp error => "DEBUG Giving up: " ++ error.message
  | discarding token => "DEBUG Discarding " ++ table.tokenLabel token
  | overflow capacity =>
    "WARN Stack overflow: all " ++ Decimal.ofNat capacity ++ " frames in use"
  | note text => "DEBUG " ++ text

end Event

end ShiftReduce
