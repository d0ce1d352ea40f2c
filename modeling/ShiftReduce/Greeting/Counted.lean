import ShiftReduce.Source.Reading
import ShiftReduce.Checked

/-!
# A greeting behind two empty words

    Greeting → Empty0 Empty1 hello
    Empty0   →
    Empty1   →

Both empty words are reduced while `hello` is still ahead, so one post puts three frames on the stack.
They count 1 and 2, and the greeting weighs them as hundreds and tens in front of the value of
`hello`. A result out of range is a breach.
-/

namespace ShiftReduce.Greeting.Counted

inductive Token
  | start
  | greeting
  | empty0
  | empty1
  | finish
  | hello
  | error
  deriving DecidableEq

def Token.label : Token → String
  | start => "Start"
  | greeting => "Greeting"
  | empty0 => "Empty0"
  | empty1 => "Empty1"
  | finish => "end"
  | hello => "hello"
  | error => "error"

inductive Production
  | start
  | greeting
  | empty0
  | empty1
  deriving DecidableEq

namespace Production

def name : Production → String
  | start => "Start"
  | greeting => "Greeting1"
  | empty0 => "Empty0"
  | empty1 => "Empty1"

def label : Production → String
  | start => "start"
  | greeting => "greeting1"
  | empty0 => "empty0"
  | empty1 => "empty1"

def lhs : Production → Token
  | start => .start
  | greeting => .greeting
  | empty0 => .empty0
  | empty1 => .empty1

def arity : Production → Nat
  | start => 1
  | greeting => 3
  | empty0 | empty1 => 0

end Production

def entry : Fin 5 → Token → Action (Fin 5) Production
  | 0 => fun
    | .greeting => .goto 1
    | .empty0 => .goto 2
    | .hello => .reduce .empty0
    | _ => .error
  | 1 => fun
    | .finish => .accept
    | _ => .error
  | 2 => fun
    | .empty1 => .goto 3
    | .hello => .reduce .empty1
    | _ => .error
  | 3 => fun
    | .hello => .shift 4
    | _ => .error
  | 4 => fun
    | .finish => .reduce .greeting
    | _ => .error

def grammar : Grammar (Fin 5) Token Production where
  start := 0
  entry := entry
  lhs := Production.lhs
  arity := Production.arity
  endToken := .finish
  errorToken := none
  tokenLabel := Token.label
  productionName := Production.name
  stateIndex := Fin.val
  states := List.finRange 5
  nonterminals := [.start, .greeting, .empty0, .empty1]
  terminals := [.finish, .hello]
  reserved := .error
  productions := [.start, .greeting, .empty0, .empty1]
  productionLabel := Production.label

/-- The calls made so far, the latest last. -/
structure Tally where
  calls : Array String := #[]
  syntaxErrors : Nat := 0
  stackOverflows : Nat := 0
  deriving DecidableEq

def Tally.called (actions : Tally) (name : String) : Tally :=
  { actions with calls := actions.calls.push name }

/-- The result of an operation that must stay in range. -/
def inRange (operation : Arithmetic) : Option Int64 → Except Breach Int64
  | some result => .ok result
  | none => .error (.outOfRange operation)

/-- The two empty words as hundreds and tens in front of a value. -/
def weigh (empty0 empty1 hello : Int64) : Except Breach Int64 := do
  let hundreds ← inRange .multiply (Checked.mul? empty0 100)
  let tens ← inRange .multiply (Checked.mul? empty1 10)
  let front ← inRange .add (Checked.add? hundreds tens)
  inRange .add (Checked.add? front hello)

def reduce (production : Production) (args : Args Int64) (actions : Tally) :
    Except Breach (Reduced Int64 Tally) :=
  match production with
  | .start => .error .startReduced
  | .greeting => do
    let empty0 ← args.get 0
    let empty1 ← args.get 1
    let hello ← args.get 2
    pure ⟨← weigh empty0 empty1 hello, actions.called "greeting", []⟩
  | .empty0 => pure ⟨1, actions.called "empty0", []⟩
  | .empty1 => pure ⟨2, actions.called "empty1", []⟩

def semantics : Semantics Production Int64 Tally where
  blank := 0
  fresh := {}
  reduce := reduce
  onSyntaxError actions := { actions with syntaxErrors := actions.syntaxErrors + 1 }
  onOverflow actions := { actions with stackOverflows := actions.stackOverflows + 1 }
  describe := Decimal.ofInt64

/-- The counted greeting as a language; no lexeme is a token of it. -/
def language : Language (Fin 5) Token Production Int64 Tally :=
  ⟨grammar, semantics, fun lexeme => .error (.foreign lexeme.label)⟩

/-- The run over `hello` and the end of the input. -/
def run (hello : Int64) : Outcome (Fin 5) Token Production Int64 Tally :=
  language.postAll [(.hello, hello), (.finish, 0)]

def greet (hello : Int64) : Except Failure Int64 :=
  Outcome.result (run hello) fun p => p.accepted (Cast.identity Int64)

def greetLog (hello : Int64) : List String := language.log (run hello)

end ShiftReduce.Greeting.Counted
