import ShiftReduce.Stack.Basic
import ShiftReduce.Breach
import ShiftReduce.Text.Quoted

/-!
# Operations on the stack as data

A program over a stack is a list of operations. Running one says whether a push found room and which
values were destroyed, a refused one included.
-/

namespace ShiftReduce.Stack

variable {α : Type}

inductive Operation (α : Type)
  | push (value : α)
  | pop (count : Nat)
  | commit
  | rollback
  | clear

structure Effect (α : Type) where
  stack : Stack α
  /-- Whether the operation was carried out; only a push on a full stack is not. -/
  done : Bool
  dropped : List α

def perform (s : Stack α) : Operation α → Except Breach (Effect α)
  | .push a =>
    match s.push? a with
    | some s => .ok ⟨s, true, []⟩
    | none => .ok ⟨s, false, [a]⟩
  | .pop n =>
    match s.pop? n with
    | some (s, dropped) => .ok ⟨s, true, dropped⟩
    | none => .error (.pop n s.size)
  | .commit => let (s, dropped) := s.commit; .ok ⟨s, true, dropped⟩
  | .rollback => let (s, dropped) := s.rollback; .ok ⟨s, true, dropped⟩
  | .clear => let (s, dropped) := s.clear; .ok ⟨s, true, dropped⟩

/-- The text of a stack: its counters and the frames in view. -/
def describe (frame : α → String) (s : Stack α) : String :=
  "ValueStack \x7b capacity: " ++ Decimal.ofNat s.capacity ++
    ", top: " ++ Decimal.ofNat s.committed ++
    ", gap: " ++ Decimal.ofNat s.live ++
    ", tmp: " ++ Decimal.ofNat s.pending ++
    ", frames: " ++ Quoted.brackets (s.toList.map frame) ++ " \x7d"

end ShiftReduce.Stack
