import ShiftReduce.Tabular.Table
import ShiftReduce.Semantics
import ShiftReduce.Text.Quoted

/-!
# A transcript of a run

The meaning that any table has: each value is the text of its derivation, and the actions list the
productions reduced. After `reductionLimit` reductions the next one is a breach, so that a table that
reduces without end still comes to a stop.
-/

namespace ShiftReduce.Tabular

structure Transcript where
  /-- The labels of the productions reduced, the latest last. -/
  reductions : Array String := #[]
  syntaxErrors : Nat := 0
  stackOverflows : Nat := 0
  deriving DecidableEq

namespace Transcript

def reductionLimit : Nat := 3000

/-- The text of a derivation: the label, the arity and the texts of the arguments taken. -/
def derivation (production : Production) (taken : List String) : String :=
  if production.arity = 0 then production.label ++ "/e"
  else
    production.label ++ "/" ++ Decimal.ofNat production.arity ++
      "(" ++ String.intercalate " " taken ++ ")"

def reduce (production : Production) (args : Args String) (actions : Transcript) :
    Except Breach (Reduced String Transcript) := do
  if actions.reductions.size ≥ reductionLimit then .error .reductionLimit
  else
    let taken ← match production.taken with
      | some indices => indices.mapM args.get
      | none => args.all
    pure
      { value := derivation production taken
        actions := { actions with reductions := actions.reductions.push production.label } }

def semantics : Semantics Production String Transcript where
  blank := ""
  fresh := {}
  reduce := reduce
  onSyntaxError actions := { actions with syntaxErrors := actions.syntaxErrors + 1 }
  onOverflow actions := { actions with stackOverflows := actions.stackOverflows + 1 }
  describe := Quoted.quote

end Transcript

end ShiftReduce.Tabular
