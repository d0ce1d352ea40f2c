import ShiftReduce.Table

/-!
# The grammar of number lists

    Document → ( Items )
    Items    → Item | Items , Item
    Item     → number | error

A malformed item does not end the run: in its place comes an error token, which is an item too. The
star is a terminal that no state takes; it stands for junk of any kind.
-/

namespace ShiftReduce.NumberList

inductive Token
  | start
  | document
  | items
  | item
  | finish
  | leftParen
  | rightParen
  | comma
  | number
  | star
  | error
  deriving DecidableEq

def Token.label : Token → String
  | start => "Start"
  | document => "Document"
  | items => "Items"
  | item => "Item"
  | finish => "end"
  | leftParen => "lParen"
  | rightParen => "rParen"
  | comma => "comma"
  | number => "number"
  | star => "star"
  | error => "error"

/-- The productions, named for what they build. -/
inductive Production
  | start
  | document
  | single
  | append
  | item
  | lost
  deriving DecidableEq

namespace Production

def name : Production → String
  | start => "Start"
  | document => "Document1"
  | single => "Items1"
  | append => "Items2"
  | item => "Item1"
  | lost => "Item2"

def label : Production → String
  | start => "start"
  | document => "document1"
  | single => "items1"
  | append => "items2"
  | item => "item1"
  | lost => "item2"

def lhs : Production → Token
  | start => .start
  | document => .document
  | single | append => .items
  | item | lost => .item

def arity : Production → Nat
  | start | single | item | lost => 1
  | document | append => 3

end Production

def entry : Fin 10 → Token → Action (Fin 10) Production
  | 0 => fun
    | .document => .goto 1
    | .leftParen => .shift 2
    | _ => .error
  | 1 => fun
    | .finish => .accept
    | _ => .error
  | 2 => fun
    | .items => .goto 3
    | .item => .goto 4
    | .number => .shift 5
    | .error => .shift 6
    | _ => .error
  | 3 => fun
    | .rightParen => .shift 7
    | .comma => .shift 8
    | _ => .error
  | 4 => fun
    | .rightParen | .comma => .reduce .single
    | _ => .error
  | 5 => fun
    | .rightParen | .comma => .reduce .item
    | _ => .error
  | 6 => fun
    | .rightParen | .comma => .reduce .lost
    | _ => .error
  | 7 => fun
    | .finish => .reduce .document
    | _ => .error
  | 8 => fun
    | .item => .goto 9
    | .number => .shift 5
    | .error => .shift 6
    | _ => .error
  | 9 => fun
    | .rightParen | .comma => .reduce .append
    | _ => .error

def grammar : Grammar (Fin 10) Token Production where
  start := 0
  entry := entry
  lhs := Production.lhs
  arity := Production.arity
  endToken := .finish
  errorToken := some .error
  tokenLabel := Token.label
  productionName := Production.name
  stateIndex := Fin.val
  states := List.finRange 10
  nonterminals := [.start, .document, .items, .item]
  terminals := [.finish, .leftParen, .rightParen, .comma, .number, .star]
  reserved := .error
  productions := [.start, .document, .single, .append, .item, .lost]
  productionLabel := Production.label

end ShiftReduce.NumberList
