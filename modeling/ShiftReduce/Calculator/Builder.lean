import ShiftReduce.Calculator.Algebra
import ShiftReduce.Calculator.Tree

/-!
# Building the tree of a text

The values on the stack are tagged, and each production checks the tags of its arguments. The builder
counts the nodes that it makes.
-/

namespace ShiftReduce.Calculator

inductive Node
  /-- The value of operators and of the bottom frame. -/
  | none
  | number (value : Int64)
  | expr (expr : Expr)
  | term (term : Term)
  deriving DecidableEq

namespace Node

def describe : Node → String
  | none => "None"
  | number value => "Number(" ++ Decimal.ofInt64 value ++ ")"
  | expr e => "Expr(" ++ e.describe ++ ")"
  | term t => "Term(" ++ t.describe ++ ")"

def numbers : Cast Node Int64 where
  down
    | number value => .ok value
    | other => .error (.cast "Number" other.describe)
  up := number

def exprs : Cast Node Expr where
  down
    | expr e => .ok e
    | other => .error (.cast "Expr" other.describe)
  up := expr

def terms : Cast Node Term where
  down
    | term t => .ok t
    | other => .error (.cast "Term" other.describe)
  up := term

end Node

structure Builder where
  nodes : Nat := 0
  syntaxErrors : Nat := 0
  stackOverflows : Nat := 0
  deriving DecidableEq

namespace Builder

def make {β : Type} (node : β) (actions : Builder) : Reduced β Builder :=
  ⟨node, { actions with nodes := actions.nodes + 1 }, []⟩

def algebra : Algebra Node Builder Expr Term where
  numbers := Node.numbers
  exprs := Node.exprs
  terms := Node.terms
  sum left right := make (.add left right)
  difference left right := make (.sub left right)
  single term := make (.term term)
  product left right := make (.mul left right)
  quotient left right := make (.div left right)
  literal number := make (.number number)

def semantics : Semantics Production Node Builder where
  blank := .none
  fresh := {}
  reduce := algebra.reduce
  onSyntaxError actions := { actions with syntaxErrors := actions.syntaxErrors + 1 }
  onOverflow actions := { actions with stackOverflows := actions.stackOverflows + 1 }
  describe := Node.describe

def language : Language (Fin 12) Token Production Node Builder := algebra.language semantics

end Builder

def tree (source : String) : Except Failure Expr :=
  Outcome.result (Builder.language.read source) fun p => p.accepted Node.exprs

def treeLog (source : String) : List String :=
  Builder.language.log (Builder.language.read source)

end ShiftReduce.Calculator
