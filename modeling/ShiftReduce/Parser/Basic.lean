import ShiftReduce.Stack.Basic
import ShiftReduce.Parser.Event

/-!
# The automaton

A parser offers each token to the state on top of its stack. Reductions that the token calls for come
first; then it is shifted, accepted or rejected, or it finds the stack full. All of this happens in
one transaction of the stack, so a token that is not taken leaves no frame behind.

`offer` is the loop over table entries. It is bounded by a number of steps, because a table may
reduce without end; what it answers within the bound does not depend on the bound.
-/

namespace ShiftReduce

variable {σ τ π ν α : Type}

structure Stats where
  /-- Tokens posted to a running parser. -/
  tokens : Nat := 0
  shifts : Nat := 0
  reductions : Nat := 0
  syntaxErrors : Nat := 0
  recoveries : Nat := 0
  discarded : Nat := 0
  deriving DecidableEq

inductive Status (ν : Type)
  | running
  /-- The input was accepted with the value of its last symbol. -/
  | accepted (value : ν)
  | errored (error : ParseError)
  deriving DecidableEq

inductive Fate
  | shifted
  | accepted
  | rejected
  | overflowed
  deriving DecidableEq

structure Parser (σ τ π ν α : Type) where
  actions : α
  stack : Stack (Frame σ ν)
  status : Status ν := .running
  /-- The most recent error, also one from which the run has recovered. -/
  lastError : Option ParseError := none
  stats : Stats := {}
  /-- What has happened, the latest event first. -/
  journal : List (Event σ τ π ν) := []

/-- Why a run stopped without an answer. -/
inductive Halt
  | breach (cause : Breach)
  | exhausted
  deriving DecidableEq

/-- A run that stopped without an answer, with its journal. -/
structure Halted (σ τ π ν : Type) where
  cause : Halt
  journal : List (Event σ τ π ν)

namespace Parser

def defaultCapacity : Nat := 1024

/-- A bound on the steps for one token that no grammar of this library reaches. -/
def stepLimit : Nat := 4096

def isDone (p : Parser σ τ π ν α) : Bool :=
  match p.status with
  | .running => false
  | _ => true

def isAccepted (p : Parser σ τ π ν α) : Bool :=
  match p.status with
  | .accepted _ => true
  | _ => false

def isErrored (p : Parser σ τ π ν α) : Bool :=
  match p.status with
  | .errored _ => true
  | _ => false

def value? (p : Parser σ τ π ν α) : Option ν :=
  match p.status with
  | .accepted value => some value
  | _ => none

/-- The accepted value as one of the given kind. -/
def valueAs? {β : Type} (kind : Cast ν β) (p : Parser σ τ π ν α) : Except Breach (Option β) :=
  match p.status with
  | .accepted value => some <$> kind.down value
  | _ => .ok none

def frames (p : Parser σ τ π ν α) : List (Frame σ ν) := p.stack.toList

def depth (p : Parser σ τ π ν α) : Nat := p.stack.size

def capacity (p : Parser σ τ π ν α) : Nat := p.stack.capacity

def record (p : Parser σ τ π ν α) (event : Event σ τ π ν) : Parser σ τ π ν α :=
  { p with journal := event :: p.journal }

def withoutJournal (p : Parser σ τ π ν α) : Parser σ τ π ν α := { p with journal := [] }

/-- Stops the run with what has happened so far. -/
def halt {β : Type} (p : Parser σ τ π ν α) (cause : Breach) : Except (Halted σ τ π ν) β :=
  .error ⟨.breach cause, p.journal⟩

/-- Records the stack in front of a token. -/
def recordStack (p : Parser σ τ π ν α) (incoming : τ) : Parser σ τ π ν α :=
  p.record (.stack p.frames incoming)

def commit (p : Parser σ τ π ν α) : Parser σ τ π ν α := { p with stack := p.stack.commit.1 }

def rollback (p : Parser σ τ π ν α) : Parser σ τ π ν α := { p with stack := p.stack.rollback.1 }

def topState (p : Parser σ τ π ν α) : Except (Halted σ τ π ν) σ :=
  match p.stack.top? with
  | some frame => .ok frame.state
  | none => p.halt .emptyStack

/-- The arguments of a production of the given arity. -/
def args (p : Parser σ τ π ν α) (arity : Nat) : Args ν :=
  let depth := p.stack.size
  let present := if arity ≤ depth then arity else 0
  ⟨arity, depth, (List.range present).filterMap fun i => (p.stack.arg? arity i).map Frame.value⟩

/-- Pushes a frame. If there is no room for it the run ends in error; the answer says which. -/
def push (sem : Semantics π ν α) (p : Parser σ τ π ν α) (state : σ) (value : ν) :
    Parser σ τ π ν α × Bool :=
  match p.stack.push? ⟨state, value⟩ with
  | some stack => ({ p with stack }, true)
  | none =>
    let error := ParseError.overflow p.capacity
    ({ p.record (.overflow p.capacity) with
        actions := sem.onOverflow p.actions
        lastError := some error
        status := .errored error }, false)

/-- Starts over with a stack of one frame, in the start state. The actions keep their state. -/
def reset (table : Table σ τ π) (sem : Semantics π ν α) (p : Parser σ τ π ν α) :
    Parser σ τ π ν α :=
  let p := { p with
    status := .running, lastError := none, stats := {}, stack := p.stack.clear.1 }
  match p.push sem table.start sem.blank with
  | (p, true) => p.commit
  | (p, false) => p

/-- A parser whose stack holds at most `capacity` frames, the one of the start state included. -/
def create (table : Table σ τ π) (sem : Semantics π ν α) (actions : α) (capacity : Nat) :
    Parser σ τ π ν α :=
  reset table sem { actions, stack := .ofCapacity capacity }

/-- Reduces by a production: its action runs, its right-hand side is popped, and its value is pushed
with the state that the uncovered one goes to. The answer says whether there was room for it. -/
def reduce (table : Table σ τ π) (sem : Semantics π ν α) (p : Parser σ τ π ν α) (production : π) :
    Except (Halted σ τ π ν) (Parser σ τ π ν α × Bool) := do
  let p := p.record (.reduce production)
  let arity := table.arity production
  match sem.reduce production (p.args arity) p.actions with
  | .error breach => p.halt breach
  | .ok result =>
    let p := { p with
      actions := result.actions
      journal := (result.notes.map Event.note).reverse ++ p.journal }
    match p.stack.pop? arity with
    | none => p.halt (.pop arity p.stack.size)
    | some (stack, _) =>
      let p := { p with
        stack, stats := { p.stats with reductions := p.stats.reductions + 1 } }
      let state ← p.topState
      let lhs := table.lhs production
      match table.entry state lhs with
      | .goto next => pure ((p.record (.goto next)).push sem next result.value)
      | _ => p.halt (.missingGoto (table.tokenLabel lhs) (table.stateIndex state))

/-- Follows one entry of the table. The token has met its fate unless the entry was a reduction. -/
def step (table : Table σ τ π) (sem : Semantics π ν α) (token : τ) (value : ν)
    (p : Parser σ τ π ν α) : Except (Halted σ τ π ν) (Parser σ τ π ν α × Option Fate) := do
  let state ← p.topState
  match table.entry state token with
  | .shift next =>
    match (p.record (.shift token next)).push sem next value with
    | (p, true) =>
      pure ({ p with stats := { p.stats with shifts := p.stats.shifts + 1 } }, some .shifted)
    | (p, false) => pure (p, some .overflowed)
  | .reduce production =>
    match ← p.reduce table sem production with
    | (p, true) => pure (p, none)
    | (p, false) => pure (p, some .overflowed)
  | .accept =>
    let p := p.record .accept
    match p.stack.arg? 1 0 with
    | some frame => pure ({ p with status := .accepted frame.value }, some .accepted)
    | none => p.halt .emptyStack
  | .error => pure (p, some .rejected)
  | .goto _ => p.halt (.gotoUnderToken (table.tokenLabel token) (table.stateIndex state))

/-- Offers a token until it has met its fate, for at most the given number of steps. -/
def offer (table : Table σ τ π) (sem : Semantics π ν α) (token : τ) (value : ν) :
    Nat → Parser σ τ π ν α → Except (Halted σ τ π ν) (Parser σ τ π ν α × Fate)
  | 0, p => .error ⟨.exhausted, p.journal⟩
  | limit + 1, p => do
    match ← p.step table sem token value with
    | (p, some fate) => pure (p, fate)
    | (p, none) => p.offer table sem token value limit

end Parser

end ShiftReduce
