import ShiftReduce.Table

/-!
# The calculator grammar

    Expr → Expr + Term | Expr - Term | Term
    Term → Term * number | Term / number | number

Operators associate to the left, and `*` and `/` bind tighter than `+` and `-`.
-/

namespace ShiftReduce.Calculator

inductive Token
  | start
  | expr
  | term
  | finish
  | add
  | sub
  | mul
  | div
  | number
  | error
  deriving DecidableEq

def Token.label : Token → String
  | start => "Start"
  | expr => "Expr"
  | term => "Term"
  | finish => "end"
  | add => "add"
  | sub => "sub"
  | mul => "mul"
  | div => "div"
  | number => "number"
  | error => "error"

/-- The productions, named for what they build. -/
inductive Production
  | start
  | sum
  | difference
  | single
  | product
  | quotient
  | literal
  deriving DecidableEq

namespace Production

def name : Production → String
  | start => "Start"
  | sum => "Expr1"
  | difference => "Expr2"
  | single => "Expr3"
  | product => "Term1"
  | quotient => "Term2"
  | literal => "Term3"

def label : Production → String
  | start => "start"
  | sum => "expr1"
  | difference => "expr2"
  | single => "expr3"
  | product => "term1"
  | quotient => "term2"
  | literal => "term3"

def lhs : Production → Token
  | start => .start
  | sum | difference | single => .expr
  | product | quotient | literal => .term

def arity : Production → Nat
  | start | single | literal => 1
  | sum | difference | product | quotient => 3

end Production

def entry : Fin 12 → Token → Action (Fin 12) Production
  | 0 => fun
    | .expr => .goto 1
    | .term => .goto 2
    | .number => .shift 7
    | _ => .error
  | 1 => fun
    | .finish => .accept
    | .add => .shift 3
    | .sub => .shift 5
    | _ => .error
  | 2 => fun
    | .finish | .add | .sub => .reduce .single
    | .mul => .shift 8
    | .div => .shift 10
    | _ => .error
  | 3 => fun
    | .term => .goto 4
    | .number => .shift 7
    | _ => .error
  | 4 => fun
    | .finish | .add | .sub => .reduce .sum
    | .mul => .shift 8
    | .div => .shift 10
    | _ => .error
  | 5 => fun
    | .term => .goto 6
    | .number => .shift 7
    | _ => .error
  | 6 => fun
    | .finish | .add | .sub => .reduce .difference
    | .mul => .shift 8
    | .div => .shift 10
    | _ => .error
  | 7 => fun
    | .finish | .add | .sub | .mul | .div => .reduce .literal
    | _ => .error
  | 8 => fun
    | .number => .shift 9
    | _ => .error
  | 9 => fun
    | .finish | .add | .sub | .mul | .div => .reduce .product
    | _ => .error
  | 10 => fun
    | .number => .shift 11
    | _ => .error
  | 11 => fun
    | .finish | .add | .sub | .mul | .div => .reduce .quotient
    | _ => .error

def grammar : Grammar (Fin 12) Token Production where
  start := 0
  entry := entry
  lhs := Production.lhs
  arity := Production.arity
  endToken := .finish
  errorToken := none
  tokenLabel := Token.label
  productionName := Production.name
  stateIndex := Fin.val
  states := List.finRange 12
  nonterminals := [.start, .expr, .term]
  terminals := [.finish, .add, .sub, .mul, .div, .number]
  reserved := .error
  productions := [.start, .sum, .difference, .single, .product, .quotient, .literal]
  productionLabel := Production.label

end ShiftReduce.Calculator
