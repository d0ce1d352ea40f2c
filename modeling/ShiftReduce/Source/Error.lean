import ShiftReduce.Parser.Error
import ShiftReduce.Text.Quoted

/-! # What can be wrong with a source text -/

namespace ShiftReduce

inductive SourceError
  /-- No lexeme begins with this text. Offsets count bytes of UTF-8. -/
  | unreadable (offset : Nat) (text : String)
  /-- The grammar has no token for the lexeme. -/
  | foreign (label : String)
  | divisionByZero
  | incomplete
  | parse (error : ParseError)
  deriving DecidableEq

def SourceError.message : SourceError → String
  | .unreadable offset text =>
    "unexpected input " ++ Quoted.quote text ++ " at offset " ++ Decimal.ofNat offset
  | .foreign label => label ++ " is not a token of this grammar"
  | .divisionByZero => "division by zero"
  | .incomplete => "input ended before the parse finished"
  | .parse error => "parse error: " ++ error.message

end ShiftReduce
