import ShiftReduce.Text.Decimal

/-! # How a run can fail -/

namespace ShiftReduce

inductive ParseError
  /-- The state has no action for the token. -/
  | unexpected (token : String) (state : Nat)
  /-- A frame found all slots in use. -/
  | overflow (capacity : Nat)
  deriving DecidableEq

def ParseError.message : ParseError → String
  | .unexpected token state =>
    "syntax error: unexpected " ++ token ++ " in state " ++ Decimal.ofNat state
  | .overflow capacity => "stack overflow: all " ++ Decimal.ofNat capacity ++ " frames in use"

end ShiftReduce
