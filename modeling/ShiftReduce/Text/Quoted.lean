import ShiftReduce.Text.Hidden
import ShiftReduce.Text.Decimal

/-!
# Quoted text

Text between double quotes, on one line and free of hidden characters: each of these is written by an
escape. Lists are written in brackets with commas between the items.
-/

namespace ShiftReduce.Quoted

/-- The number of a code point in lower-case hexadecimal, between braces. -/
def byNumber (c : Char) : List Char :=
  '\\' :: 'u' :: '\x7b' :: (Nat.toDigits 16 c.toNat ++ ['\x7d'])

def escape (c : Char) : List Char :=
  match c with
  | '\x00' => ['\\', '0']
  | '\t' => ['\\', 't']
  | '\r' => ['\\', 'r']
  | '\n' => ['\\', 'n']
  | '\x22' => ['\\', '\x22']
  | '\\' => ['\\', '\\']
  | _ => if isHidden c then byNumber c else [c]

def quote (text : String) : String :=
  String.ofList ('\x22' :: (text.toList.flatMap escape ++ ['\x22']))

/-- The items in brackets, each already written. -/
def brackets (items : List String) : String :=
  "[" ++ String.intercalate ", " items ++ "]"

def integers (items : List Int64) : String := brackets (items.map Decimal.ofInt64)

end ShiftReduce.Quoted
