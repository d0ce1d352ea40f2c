import ShiftReduce.Calculator.Grammar
import ShiftReduce.Source.Reading

/-!
# What a calculator computes with

An `Algebra` gives the carriers of expressions and terms, the operations on them, and the place of
both and of numbers among the values of the stack. Each algebra makes the calculator grammar a
language.
-/

namespace ShiftReduce.Calculator

/-- Expressions `ε` and terms `θ` among the values `ν`, with operations over a state `α`. -/
structure Algebra (ν α ε θ : Type) where
  numbers : Cast ν Int64
  exprs : Cast ν ε
  terms : Cast ν θ
  sum : ε → θ → α → Reduced ε α
  difference : ε → θ → α → Reduced ε α
  single : θ → α → Reduced ε α
  product : θ → Int64 → α → Reduced θ α
  quotient : θ → Int64 → α → Reduced θ α
  literal : Int64 → α → Reduced θ α

namespace Algebra

variable {ν α ε θ : Type}

def reduce (alg : Algebra ν α ε θ) (production : Production) (args : Args ν) (actions : α) :
    Except Breach (Reduced ν α) :=
  match production with
  | .start => .error .startReduced
  | .sum => do
    let left ← args.cast alg.exprs 0
    let right ← args.cast alg.terms 2
    pure ((alg.sum left right actions).map alg.exprs.up)
  | .difference => do
    let left ← args.cast alg.exprs 0
    let right ← args.cast alg.terms 2
    pure ((alg.difference left right actions).map alg.exprs.up)
  | .single => do
    let term ← args.cast alg.terms 0
    pure ((alg.single term actions).map alg.exprs.up)
  | .product => do
    let left ← args.cast alg.terms 0
    let right ← args.cast alg.numbers 2
    pure ((alg.product left right actions).map alg.terms.up)
  | .quotient => do
    let left ← args.cast alg.terms 0
    let right ← args.cast alg.numbers 2
    pure ((alg.quotient left right actions).map alg.terms.up)
  | .literal => do
    let number ← args.cast alg.numbers 0
    pure ((alg.literal number actions).map alg.terms.up)

/-- The token of a lexeme; parentheses and commas have none. -/
def token (alg : Algebra ν α ε θ) (blank : ν) (lexeme : Lexeme) :
    Except SourceError (Token × ν) :=
  match lexeme with
  | .plus => .ok (.add, blank)
  | .minus => .ok (.sub, blank)
  | .star => .ok (.mul, blank)
  | .slash => .ok (.div, blank)
  | .number n => .ok (.number, alg.numbers.up n)
  | .leftParen | .rightParen | .comma => .error (.foreign lexeme.label)

/-- The calculator language with the given meaning, whose actions are those of the algebra. -/
def language (alg : Algebra ν α ε θ) (semantics : Semantics Production ν α) :
    Language (Fin 12) Token Production ν α :=
  ⟨grammar, semantics, alg.token semantics.blank⟩

end Algebra

end ShiftReduce.Calculator
