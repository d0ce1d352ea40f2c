import ShiftReduce.Source.Error

/-!
# Lexemes of a source text

`scan` splits a text into items: single punctuation characters, maximal runs of ASCII digits, and
errors. Blanks separate items and belong to none. A run of digits whose value does not fit into 64
bits is one error, any other character is an error of its own, and the scan goes on behind it.
-/

namespace ShiftReduce

inductive Lexeme
  | plus
  | minus
  | star
  | slash
  | leftParen
  | rightParen
  | comma
  | number (value : Int64)
  deriving DecidableEq

namespace Lexeme

def label : Lexeme → String
  | plus => "'+'"
  | minus => "'-'"
  | star => "'*'"
  | slash => "'/'"
  | leftParen => "'('"
  | rightParen => "')'"
  | comma => "','"
  | number _ => "number"

def ofPunctuation? : Char → Option Lexeme
  | '+' => some plus
  | '-' => some minus
  | '*' => some star
  | '/' => some slash
  | '(' => some leftParen
  | ')' => some rightParen
  | ',' => some comma
  | _ => none

/-- The number that a run of digits denotes, if it is below 2⁶³. -/
def ofDigits? (run : List Char) : Option Lexeme :=
  let value := Decimal.value run
  if value < 0x8000000000000000 then some (number (Int64.ofNat value)) else none

end Lexeme

/-- Space, tab, carriage return, line feed and form feed. -/
def isBlank (c : Char) : Bool := [' ', '\t', '\r', '\n', '\x0c'].contains c

/-- The length of a text in bytes of UTF-8. -/
def byteLength : List Char → Nat
  | [] => 0
  | c :: rest => c.utf8Size + byteLength rest

/-- A lexeme or an error, with the byte range of the text that it was read from. -/
structure Item where
  start : Nat
  stop : Nat
  content : Except SourceError Lexeme

/-- The item read from `text` at the byte `offset`; without a lexeme it is an error. -/
def Item.of (offset : Nat) (text : List Char) (lexeme? : Option Lexeme) : Item :=
  { start := offset
    stop := offset + byteLength text
    content := match lexeme? with
      | some lexeme => .ok lexeme
      | none => .error (.unreadable offset (String.ofList text)) }

/-- The items of the text that begins at the byte `offset`. -/
def scanFrom (offset : Nat) : List Char → List Item
  | [] => []
  | c :: rest =>
    if isBlank c then scanFrom (offset + c.utf8Size) rest
    else if c.isDigit then
      let run := c :: rest.takeWhile Char.isDigit
      Item.of offset run (Lexeme.ofDigits? run) ::
        scanFrom (offset + byteLength run) (rest.dropWhile Char.isDigit)
    else
      Item.of offset [c] (Lexeme.ofPunctuation? c) :: scanFrom (offset + c.utf8Size) rest
termination_by text => text.length
decreasing_by
  · simp
  · have := (List.dropWhile_sublist Char.isDigit (l := rest)).length_le
    simp only [List.length_cons]
    omega
  · simp

def scan (text : String) : List Item := scanFrom 0 text.toList

/-- The lexemes of a text, or its first error. -/
def tokenize (text : String) : Except SourceError (List Lexeme) := (scan text).mapM Item.content

def Item.errors (items : List Item) : List SourceError :=
  items.filterMap fun item => match item.content with
    | .error e => some e
    | .ok _ => none

/-- What the journal of a scan says: each error as it comes up. -/
def scanLog (text : String) : List String :=
  (Item.errors (scan text)).map fun e => "DEBUG " ++ e.message

/-- What the journal says when the scan ends at its first error. -/
def tokenizeLog (text : String) : List String := (scanLog text).take 1

end ShiftReduce
