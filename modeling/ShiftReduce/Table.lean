/-!
# Action tables

A table says what an automaton does in each state on each token. Its columns are the terminals, where
a token is shifted, reduced on, accepted or rejected, and the nonterminals, where entries name the
state to enter after a reduction. No table is assumed to be consistent.
-/

namespace ShiftReduce

/-- One entry of a table, over states `σ` and productions `π`. -/
inductive Action (σ π : Type)
  | error
  | accept
  | shift (next : σ)
  | reduce (production : π)
  | goto (next : σ)
  deriving DecidableEq

def Action.isError {σ π : Type} : Action σ π → Bool
  | .error => true
  | _ => false

/-- An automaton over states `σ`, tokens `τ` (terminals and nonterminals) and productions `π`. -/
structure Table (σ τ π : Type) where
  start : σ
  entry : σ → τ → Action σ π
  /-- The nonterminal on the left of a production. -/
  lhs : π → τ
  /-- The number of symbols on the right of a production. -/
  arity : π → Nat
  endToken : τ
  /-- The token to which a run resynchronises after a rejection, if the grammar has one. -/
  errorToken : Option τ
  tokenLabel : τ → String
  productionName : π → String
  stateIndex : σ → Nat

/-- A table together with its states, symbols and productions, listed in index order. -/
structure Grammar (σ τ π : Type) extends Table σ τ π where
  states : List σ
  nonterminals : List τ
  terminals : List τ
  /-- The token reserved for errors; without recovery no entry mentions it. -/
  reserved : τ
  productions : List π
  productionLabel : π → String

namespace Grammar

variable {σ τ π : Type}

/-- All columns of the table: nonterminals, terminals and the reserved error token. -/
def tokens (g : Grammar σ τ π) : List τ := g.nonterminals ++ g.terminals ++ [g.reserved]

def token? (g : Grammar σ τ π) (label : String) : Option τ :=
  g.tokens.find? fun t => g.tokenLabel t == label

end Grammar

end ShiftReduce
