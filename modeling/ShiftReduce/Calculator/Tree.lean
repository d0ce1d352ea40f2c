import ShiftReduce.Checked
import ShiftReduce.Text.Decimal

/-!
# Expression trees

The trees of the calculator grammar: the left operand of an operation is a whole expression or term,
the right one is a term or a number. A tree has a value unless a division by zero or a result beyond
64 bits stands in the way, and a text in which every operation is in parentheses.
-/

namespace ShiftReduce.Calculator

inductive Term
  | mul (left : Term) (right : Int64)
  | div (left : Term) (right : Int64)
  | number (value : Int64)
  deriving DecidableEq

inductive Expr
  | add (left : Expr) (right : Term)
  | sub (left : Expr) (right : Term)
  | term (term : Term)
  deriving DecidableEq

namespace Term

def eval : Term → Option Int64
  | mul left right => do Checked.mul? (← left.eval) right
  | div left right => do Checked.div? (← left.eval) right
  | number value => some value

/-- The text with every operation in parentheses. -/
def chars : Term → List Char
  | mul left right =>
    '(' :: (left.chars ++ [' ', '*', ' '] ++ Decimal.signed right.toInt ++ [')'])
  | div left right =>
    '(' :: (left.chars ++ [' ', '/', ' '] ++ Decimal.signed right.toInt ++ [')'])
  | number value => Decimal.signed value.toInt

def display (t : Term) : String := String.ofList t.chars

def describe : Term → String
  | mul left right => "Mul(" ++ left.describe ++ ", " ++ Decimal.ofInt64 right ++ ")"
  | div left right => "Div(" ++ left.describe ++ ", " ++ Decimal.ofInt64 right ++ ")"
  | number value => "Number(" ++ Decimal.ofInt64 value ++ ")"

end Term

namespace Expr

def eval : Expr → Option Int64
  | add left right => do Checked.add? (← left.eval) (← right.eval)
  | sub left right => do Checked.sub? (← left.eval) (← right.eval)
  | term t => t.eval

/-- The text with every operation in parentheses. -/
def chars : Expr → List Char
  | add left right => '(' :: (left.chars ++ [' ', '+', ' '] ++ right.chars ++ [')'])
  | sub left right => '(' :: (left.chars ++ [' ', '-', ' '] ++ right.chars ++ [')'])
  | term t => t.chars

def display (e : Expr) : String := String.ofList e.chars

def describe : Expr → String
  | add left right => "Add(" ++ left.describe ++ ", " ++ right.describe ++ ")"
  | sub left right => "Sub(" ++ left.describe ++ ", " ++ right.describe ++ ")"
  | term t => "Term(" ++ t.describe ++ ")"

end Expr

end ShiftReduce.Calculator
