import ShiftReduce.Text.Decimal

/-!
# Breaches of contract

A table, the actions that give it meaning and the stack have to fit together. Nothing checks this
beforehand: a run that finds them at odds stops with a `Breach`, which no caller is meant to handle.
-/

namespace ShiftReduce

/-- An integer operation that can leave the 64-bit range. -/
inductive Arithmetic
  | add
  | multiply
  deriving DecidableEq

/-- A way in which a table, its actions and the stack fail to fit together. -/
inductive Breach
  | pop (count depth : Nat)
  /-- A production asks for an argument beyond its arity or below the bottom of the stack. -/
  | argument (index arity depth : Nat)
  | cast (expected found : String)
  /-- After a reduction the uncovered state has no goto entry for the nonterminal. -/
  | missingGoto (token : String) (state : Nat)
  /-- An offered token meets a goto entry. -/
  | gotoUnderToken (token : String) (state : Nat)
  | emptyStack
  /-- The start production, which is accepted and never reduced, is reduced. -/
  | startReduced
  | outOfRange (operation : Arithmetic)
  /-- An action has run as often as it is willing to. -/
  | reductionLimit
  deriving DecidableEq

def stateName (index : Nat) : String := "StateID(" ++ Decimal.ofNat index ++ ")"

def Breach.message : Breach → String
  | .pop count depth =>
    "pop(" ++ Decimal.ofNat count ++ ") on a stack of depth " ++ Decimal.ofNat depth
  | .argument index arity depth =>
    "argument " ++ Decimal.ofNat index ++ " out of range for a production of arity " ++
      Decimal.ofNat arity ++ " on a stack of depth " ++ Decimal.ofNat depth
  | .cast expected found =>
    "downcast contract violated: expected " ++ expected ++ ", found " ++ found
  | .missingGoto token state => "no goto on " ++ token ++ " in state " ++ stateName state
  | .gotoUnderToken token state =>
    "goto entry for terminal " ++ token ++ " in state " ++ stateName state
  | .emptyStack => "value stack is empty"
  | .startReduced => "internal error: entered unreachable code"
  | .outOfRange .add => "attempt to add with overflow"
  | .outOfRange .multiply => "attempt to multiply with overflow"
  | .reductionLimit => "reduction limit"

end ShiftReduce
