import ShiftReduce.Parser.Basic

/-!
# Posting tokens

`post` runs one token through the automaton in a transaction. A rejected token is reported and the
transaction undone. If the grammar has an error token, frames are then popped down to the nearest
state with an action for it, the error token is offered there, and the rejected token gets one more
chance; rejected again, it is dropped. The run fails if no frame has an action for the error token,
if the error token is not taken, or if the end of the input is still rejected after recovery.
-/

namespace ShiftReduce.Parser

variable {σ τ π ν α : Type}

/-- The error that a rejection of the token by the state on top amounts to. -/
def rejection (table : Table σ τ π) (p : Parser σ τ π ν α) (token : τ) :
    Except (Halted σ τ π ν) ParseError := do
  let state ← p.topState
  pure (.unexpected (table.tokenLabel token) (table.stateIndex state))

/-- How many frames lie above the nearest one with an action for the token. -/
def unwindDepth (table : Table σ τ π) (p : Parser σ τ π ν α) (token : τ) : Nat :=
  (p.frames.reverse.takeWhile fun frame => (table.entry frame.state token).isError).length

/-- Pops down to the nearest frame with an action for the error token and offers it there. The answer
says whether it was taken; if not, the stack is as before. -/
def recover (table : Table σ τ π) (sem : Semantics π ν α) (limit : Nat) (errorToken : τ)
    (p : Parser σ τ π ν α) : Except (Halted σ τ π ν) (Parser σ τ π ν α × Bool) := do
  let (stack, _) := p.stack.drop (p.unwindDepth table errorToken)
  match stack.top? with
  | none => pure (p.record (.unrecoverable errorToken), false)
  | some frame =>
    let p := { p with stack }.record (.recovering frame.state)
    let (p, fate) ← p.offer table sem errorToken sem.blank limit
    match fate with
    | .shifted | .accepted =>
      pure ({ p.commit with stats := { p.stats with recoveries := p.stats.recoveries + 1 } }, true)
    | .rejected | .overflowed => pure (p.rollback, false)

/-- Offers a rejected token again after recovery. -/
def retry [DecidableEq τ] (table : Table σ τ π) (sem : Semantics π ν α) (limit : Nat) (token : τ)
    (value : ν) (p : Parser σ τ π ν α) : Except (Halted σ τ π ν) (Parser σ τ π ν α) := do
  let (p, fate) ← p.offer table sem token value limit
  match fate with
  | .shifted | .accepted => pure p.commit
  | .overflowed => pure p.rollback
  | .rejected =>
    let p := p.rollback
    if token = table.endToken then
      let error ← p.rejection table token
      pure { p.record (.givingUp error) with lastError := some error, status := .errored error }
    else
      pure { p.record (.discarding token) with
        stats := { p.stats with discarded := p.stats.discarded + 1 } }

/-- Reports a rejected token, and recovers if the grammar provides for it. -/
def reject [DecidableEq τ] (table : Table σ τ π) (sem : Semantics π ν α) (limit : Nat) (token : τ)
    (value : ν) (p : Parser σ τ π ν α) : Except (Halted σ τ π ν) (Parser σ τ π ν α) := do
  let p := p.rollback
  let error ← p.rejection table token
  let p := { p.record (.failed error) with
    stats := { p.stats with syntaxErrors := p.stats.syntaxErrors + 1 }
    actions := sem.onSyntaxError p.actions
    lastError := some error }
  let (p, recovered) ← match table.errorToken with
    | some errorToken => p.recover table sem limit errorToken
    | none => pure (p, false)
  if p.isDone then pure p
  else if recovered then p.retry table sem limit token value
  else pure { p with status := .errored error }

/-- Offers one token and its value to a running parser, each offering for at most `limit` steps. A
parser that is done stays as it is. -/
def post [DecidableEq τ] (table : Table σ τ π) (sem : Semantics π ν α) (limit : Nat) (token : τ)
    (value : ν) (p : Parser σ τ π ν α) : Except (Halted σ τ π ν) (Parser σ τ π ν α) := do
  if p.isDone then pure (p.record (.ignored token))
  else
    let p := { p.rollback with stats := { p.stats with tokens := p.stats.tokens + 1 } }
    let (p, fate) ← (p.recordStack token).offer table sem token value limit
    match fate with
    | .shifted | .accepted => pure p.commit
    | .overflowed => pure p.rollback
    | .rejected => p.reject table sem limit token value

/-- Posts tokens with their values, one after the other. -/
def postAll [DecidableEq τ] (table : Table σ τ π) (sem : Semantics π ν α) (limit : Nat)
    (tokens : List (τ × ν)) (p : Parser σ τ π ν α) :
    Except (Halted σ τ π ν) (Parser σ τ π ν α) :=
  tokens.foldlM (fun p (token, value) => p.post table sem limit token value) p

/-- The journal as lines of text, the earliest event first. -/
def log (table : Table σ τ π) (sem : Semantics π ν α) (p : Parser σ τ π ν α) : List String :=
  (p.journal.map (Event.line table sem)).reverse

end ShiftReduce.Parser
