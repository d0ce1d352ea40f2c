import ShiftReduce.Breach

/-!
# What productions mean

A semantics folds the values on the stack: each reduction takes the values of its right-hand side to
the value of its left-hand side and may change a state of its own. Two hooks tell it of syntax errors
and of a full stack.
-/

namespace ShiftReduce

/-- The values of a right-hand side, the leftmost symbol first. A stack of fewer than `arity` frames
has none of them. -/
structure Args (ν : Type) where
  arity : Nat
  depth : Nat
  values : List ν
  deriving DecidableEq

namespace Args

variable {ν : Type}

/-- The argument at `index`, which has to be below the arity and on the stack. -/
def get (args : Args ν) (index : Nat) : Except Breach ν :=
  match args.values[index]? with
  | some value => .ok value
  | none => .error (.argument index args.arity args.depth)

def all (args : Args ν) : Except Breach (List ν) :=
  if args.arity ≤ args.depth then .ok args.values else .error (.argument 0 args.arity args.depth)

end Args

/-- A passage between the values of a stack and one kind of value among them. Going down fails on
values of another kind. -/
structure Cast (ν β : Type) where
  down : ν → Except Breach β
  up : β → ν

/-- The cast of a stack that holds values of one kind only. -/
def Cast.identity (ν : Type) : Cast ν ν := ⟨.ok, id⟩

/-- The argument at `index`, as a value of the kind the production expects. -/
def Args.cast {ν β : Type} (args : Args ν) (kind : Cast ν β) (index : Nat) : Except Breach β := do
  kind.down (← args.get index)

/-- The result of a reduction: a value, the actions' own state, and remarks for the journal. -/
structure Reduced (β α : Type) where
  value : β
  actions : α
  notes : List String := []
  deriving DecidableEq

def Reduced.map {β γ α : Type} (f : β → γ) (r : Reduced β α) : Reduced γ α :=
  ⟨f r.value, r.actions, r.notes⟩

/-- The meaning of productions `π` over values `ν`, with a state `α` of its own. -/
structure Semantics (π ν α : Type) where
  /-- The value of the bottom frame and of an error token. -/
  blank : ν
  /-- The state before the first reduction. -/
  fresh : α
  reduce : π → Args ν → α → Except Breach (Reduced ν α)
  /-- Runs once for each rejected token. -/
  onSyntaxError : α → α := id
  /-- Runs when a frame finds the stack full. -/
  onOverflow : α → α := id
  /-- A value as the journal shows it. -/
  describe : ν → String

end ShiftReduce
