import ShiftReduce.NumberList.Grammar
import ShiftReduce.Source.Reading

/-!
# Collecting the numbers of a list

The values on the stack are tagged. A malformed item becomes a number of its own, `lostItem`.
-/

namespace ShiftReduce.NumberList

/-- What stands in the place of a malformed item. -/
def lostItem : Int64 := -1

inductive Value
  /-- The value of punctuation, of the error token and of the bottom frame. -/
  | none
  | number (value : Int64)
  | list (items : List Int64)
  deriving DecidableEq

namespace Value

def describe : Value → String
  | none => "None"
  | number value => "Number(" ++ Decimal.ofInt64 value ++ ")"
  | list items => "List(" ++ Quoted.integers items ++ ")"

def numbers : Cast Value Int64 where
  down
    | number value => .ok value
    | other => .error (.cast "Number" other.describe)
  up := number

def lists : Cast Value (List Int64) where
  down
    | list items => .ok items
    | other => .error (.cast "List" other.describe)
  up := list

end Value

structure Builder where
  syntaxErrors : Nat := 0
  stackOverflows : Nat := 0
  /-- How many malformed items have been reduced. -/
  errorsCaught : Nat := 0
  deriving DecidableEq

namespace Builder

def reduce (production : Production) (args : Args Value) (actions : Builder) :
    Except Breach (Reduced Value Builder) :=
  match production with
  | .start => .error .startReduced
  | .document => do
    let items ← args.cast Value.lists 1
    pure ⟨.list items, actions, ["list: " ++ Quoted.integers items]⟩
  | .single => do
    let item ← args.cast Value.numbers 0
    pure ⟨.list [item], actions, []⟩
  | .append => do
    let items ← args.cast Value.lists 0
    let item ← args.cast Value.numbers 2
    pure ⟨.list (items ++ [item]), actions, []⟩
  | .item => do
    let number ← args.cast Value.numbers 0
    pure ⟨.number number, actions, []⟩
  | .lost =>
    pure ⟨.number lostItem, { actions with errorsCaught := actions.errorsCaught + 1 },
      ["catching error"]⟩

def semantics : Semantics Production Value Builder where
  blank := .none
  fresh := {}
  reduce := reduce
  onSyntaxError actions := { actions with syntaxErrors := actions.syntaxErrors + 1 }
  onOverflow actions := { actions with stackOverflows := actions.stackOverflows + 1 }
  describe := Value.describe

end Builder

/-- The token of a lexeme; plus, minus and slash have none. -/
def token (lexeme : Lexeme) : Except SourceError (Token × Value) :=
  match lexeme with
  | .leftParen => .ok (.leftParen, .none)
  | .rightParen => .ok (.rightParen, .none)
  | .comma => .ok (.comma, .none)
  | .star => .ok (.star, .none)
  | .number n => .ok (.number, Value.numbers.up n)
  | .plus | .minus | .slash => .error (.foreign lexeme.label)

def language : Language (Fin 10) Token Production Value Builder :=
  ⟨grammar, Builder.semantics, token⟩

/-- The numbers of a list, with `lostItem` for each malformed item. -/
def parse (source : String) : Except Failure (List Int64) :=
  Outcome.result (language.read source) fun p => p.accepted Value.lists

def parseLog (source : String) : List String := language.log (language.read source)

end ShiftReduce.NumberList
