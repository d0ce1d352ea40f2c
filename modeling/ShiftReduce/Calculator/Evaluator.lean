import ShiftReduce.Calculator.Algebra

/-!
# Evaluating while parsing

The values on the stack are 64-bit integers. Arithmetic wraps around. A division by zero yields zero
and is remembered, and a text in which one occurs has no value.
-/

namespace ShiftReduce.Calculator

structure Evaluator where
  syntaxErrors : Nat := 0
  stackOverflows : Nat := 0
  divisionByZero : Bool := false
  deriving DecidableEq

namespace Evaluator

/-- What the journal says about an operation. -/
def remark (level : String) (left : Int64) (operator : String) (right : Int64) : String :=
  level ++ " " ++ Decimal.ofInt64 left ++ " " ++ operator ++ " " ++ Decimal.ofInt64 right

def algebra : Algebra Int64 Evaluator Int64 Int64 where
  numbers := Cast.identity Int64
  exprs := Cast.identity Int64
  terms := Cast.identity Int64
  sum left right actions := ⟨left + right, actions, [remark "expr" left "+" right]⟩
  difference left right actions := ⟨left - right, actions, [remark "expr" left "-" right]⟩
  single term actions := ⟨term, actions, []⟩
  product left right actions := ⟨left * right, actions, [remark "term" left "*" right]⟩
  quotient left right actions :=
    let notes := [remark "term" left "/" right]
    if right = 0 then ⟨0, { actions with divisionByZero := true }, notes⟩
    else ⟨left / right, actions, notes⟩
  literal number actions := ⟨number, actions, []⟩

def semantics : Semantics Production Int64 Evaluator where
  blank := 0
  fresh := {}
  reduce := algebra.reduce
  onSyntaxError actions := { actions with syntaxErrors := actions.syntaxErrors + 1 }
  onOverflow actions := { actions with stackOverflows := actions.stackOverflows + 1 }
  describe := Decimal.ofInt64

def language : Language (Fin 12) Token Production Int64 Evaluator := algebra.language semantics

end Evaluator

def evaluate (source : String) : Except Failure Int64 :=
  Outcome.result (Evaluator.language.read source) fun p =>
    if p.actions.divisionByZero then .error (.source .divisionByZero)
    else p.accepted (Cast.identity Int64)

def evaluateLog (source : String) : List String :=
  Evaluator.language.log (Evaluator.language.read source)

end ShiftReduce.Calculator
