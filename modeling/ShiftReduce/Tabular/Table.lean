import ShiftReduce.Table

/-!
# Tables written out as data

Tokens are their labels and states are numbers. What a row does not mention is an error.
-/

namespace ShiftReduce.Tabular

structure Production where
  label : String
  lhs : String
  arity : Nat
  /-- The arguments that the action takes; all in order unless given. -/
  taken : Option (List Nat) := none
  deriving DecidableEq

/-- A row: the entries of the tokens that it mentions. -/
abbrev Row := List (String × Action Nat Production)

structure Spec where
  start : Nat := 0
  endToken : String
  errorToken : Option String := none
  rows : Array Row

namespace Spec

def entry (spec : Spec) (state : Nat) (token : String) : Action Nat Production :=
  ((spec.rows.getD state []).lookup token).getD .error

def table (spec : Spec) : Table Nat String Production where
  start := spec.start
  entry := spec.entry
  lhs := Production.lhs
  arity := Production.arity
  endToken := spec.endToken
  errorToken := spec.errorToken
  tokenLabel := id
  productionName := Production.label
  stateIndex := id

end Spec

end ShiftReduce.Tabular
