import ShiftReduce.Parser.Recovery
import ShiftReduce.Source.Lexeme

/-!
# Parsing a source text

The items of a text are posted one after the other until the run is done, and then the end of the
input if it is not. The first item that is no token of the grammar ends the reading.
-/

namespace ShiftReduce

variable {σ τ π ν α β : Type}

/-- Why a source text has no result. -/
inductive Failure
  | source (error : SourceError)
  | halt (cause : Halt)
  deriving DecidableEq

/-- The end of a run: the parser and whether its input is in order, or why there is no answer. -/
abbrev Outcome (σ τ π ν α : Type) :=
  Except (Halted σ τ π ν) (Parser σ τ π ν α × Except SourceError Unit)

/-- A grammar that reads source text: a table, a meaning, and the token of each lexeme. -/
structure Language (σ τ π ν α : Type) where
  grammar : Grammar σ τ π
  semantics : Semantics π ν α
  /-- The token of a lexeme, with its value. -/
  token : Lexeme → Except SourceError (τ × ν)

namespace Parser

/-- How a run stands after the end of the input. -/
def verdict (p : Parser σ τ π ν α) : Except SourceError Unit :=
  match p.status with
  | .accepted _ => .ok ()
  | .errored error => .error (.parse error)
  | .running => .error .incomplete

/-- The most recent error of a run, if any. -/
def blame (p : Parser σ τ π ν α) : Except SourceError Unit :=
  match p.lastError with
  | some error => .error (.parse error)
  | none => .ok ()

/-- Posts the end of the input unless the run is done. -/
def finish [DecidableEq τ] (table : Table σ τ π) (sem : Semantics π ν α) (limit : Nat)
    (p : Parser σ τ π ν α) :
    Except (Halted σ τ π ν) (Parser σ τ π ν α × Except SourceError Unit) := do
  let p ← if p.isDone then pure p else p.post table sem limit table.endToken sem.blank
  pure (p, p.verdict)

/-- Posts items until the run is done or one of them is no token, and then the end of the input. -/
def read [DecidableEq τ] (table : Table σ τ π) (sem : Semantics π ν α) (limit : Nat)
    (token : Lexeme → Except SourceError (τ × ν)) :
    List Item → Parser σ τ π ν α →
      Except (Halted σ τ π ν) (Parser σ τ π ν α × Except SourceError Unit)
  | [], p => p.finish table sem limit
  | item :: rest, p =>
    match item.content with
    | .error e => pure (p.record (.note e.message), .error e)
    | .ok lexeme =>
      match token lexeme with
      | .error e => pure (p, .error e)
      | .ok (t, value) => do
        let p ← p.post table sem limit t value
        if p.isDone then pure (p, p.verdict) else read table sem limit token rest p

end Parser

namespace Language

/-- A parser of the default capacity, before its first token. -/
def parser (lang : Language σ τ π ν α) : Parser σ τ π ν α :=
  .create lang.grammar.toTable lang.semantics lang.semantics.fresh Parser.defaultCapacity

def read [DecidableEq τ] (lang : Language σ τ π ν α) (source : String) : Outcome σ τ π ν α :=
  lang.parser.read lang.grammar.toTable lang.semantics Parser.stepLimit lang.token (scan source)

/-- The run over the given tokens, all of them posted, whatever becomes of each. -/
def postAll [DecidableEq τ] (lang : Language σ τ π ν α) (tokens : List (τ × ν)) :
    Outcome σ τ π ν α :=
  (lang.parser.postAll lang.grammar.toTable lang.semantics Parser.stepLimit tokens).map
    fun p => (p, p.blame)

def log (lang : Language σ τ π ν α) (outcome : Outcome σ τ π ν α) : List String :=
  let journal := match outcome with
    | .error halted => halted.journal
    | .ok (p, _) => p.journal
  (journal.map (Event.line lang.grammar.toTable lang.semantics)).reverse

end Language

/-- What a run comes to; `answer` takes the result from a parser whose input is in order. -/
def Outcome.result (outcome : Outcome σ τ π ν α)
    (answer : Parser σ τ π ν α → Except Failure β) : Except Failure β :=
  match outcome with
  | .error halted => .error (.halt halted.cause)
  | .ok (_, .error e) => .error (.source e)
  | .ok (p, .ok ()) => answer p

/-- The accepted value as one of the given kind. -/
def Parser.accepted (kind : Cast ν β) (p : Parser σ τ π ν α) : Except Failure β :=
  match p.valueAs? kind with
  | .error breach => .error (.halt (.breach breach))
  | .ok none => .error (.source .incomplete)
  | .ok (some value) => .ok value

end ShiftReduce
