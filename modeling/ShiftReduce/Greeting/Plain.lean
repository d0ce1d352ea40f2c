import ShiftReduce.Source.Reading

/-!
# A greeting of two words

    Greeting → hello world

The values are strings, and the greeting is the two words one behind the other.
-/

namespace ShiftReduce.Greeting.Plain

inductive Token
  | start
  | greeting
  | finish
  | hello
  | world
  | error
  deriving DecidableEq

def Token.label : Token → String
  | start => "Start"
  | greeting => "Greeting"
  | finish => "end"
  | hello => "hello"
  | world => "world"
  | error => "error"

inductive Production
  | start
  | greeting
  deriving DecidableEq

namespace Production

def name : Production → String
  | start => "Start"
  | greeting => "Greeting1"

def label : Production → String
  | start => "start"
  | greeting => "greeting1"

def lhs : Production → Token
  | start => .start
  | greeting => .greeting

def arity : Production → Nat
  | start => 1
  | greeting => 2

end Production

def entry : Fin 4 → Token → Action (Fin 4) Production
  | 0 => fun
    | .greeting => .goto 1
    | .hello => .shift 2
    | _ => .error
  | 1 => fun
    | .finish => .accept
    | _ => .error
  | 2 => fun
    | .world => .shift 3
    | _ => .error
  | 3 => fun
    | .finish => .reduce .greeting
    | _ => .error

def grammar : Grammar (Fin 4) Token Production where
  start := 0
  entry := entry
  lhs := Production.lhs
  arity := Production.arity
  endToken := .finish
  errorToken := none
  tokenLabel := Token.label
  productionName := Production.name
  stateIndex := Fin.val
  states := List.finRange 4
  nonterminals := [.start, .greeting]
  terminals := [.finish, .hello, .world]
  reserved := .error
  productions := [.start, .greeting]
  productionLabel := Production.label

/-- The action of each production. It has no state. -/
def reduce (production : Production) (args : Args String) (actions : Unit) :
    Except Breach (Reduced String Unit) :=
  match production with
  | .start => .error .startReduced
  | .greeting => do
    let text := (← args.get 0) ++ (← args.get 1)
    pure ⟨text, actions, [text]⟩

def semantics : Semantics Production String Unit where
  blank := ""
  fresh := ()
  reduce := reduce
  describe := Quoted.quote

/-- The greeting as a language; no lexeme is a token of it. -/
def language : Language (Fin 4) Token Production String Unit :=
  ⟨grammar, semantics, fun lexeme => .error (.foreign lexeme.label)⟩

def run (hello world : String) : Outcome (Fin 4) Token Production String Unit :=
  language.postAll [(.hello, hello), (.world, world), (.finish, "")]

def greet (hello world : String) : Except Failure String :=
  Outcome.result (run hello world) fun p => p.accepted (Cast.identity String)

def greetLog (hello world : String) : List String := language.log (run hello world)

end ShiftReduce.Greeting.Plain
