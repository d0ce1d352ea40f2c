/-!
# A transactional stack of fixed capacity

The slots are allocated once. The *committed* frames fill them from the front. Frames pushed since
the last commit are *pending* and fill them from the back, the newest foremost. Popping takes the
pending frames first and then hides committed ones: these keep their slots, so that rolling back
brings them into view again. Committing moves the pending frames down onto the first hidden slot.

Operations that destroy frames return them beside the stack, in the order of their destruction.
-/

namespace ShiftReduce

/-- A stack whose first `committed` slots and last `pending` slots hold frames. Of the committed
frames the first `live` are in view, the others have been popped since the last commit. -/
structure Stack (α : Type) where
  slots : Array (Option α)
  committed : Nat
  live : Nat
  pending : Nat
  deriving DecidableEq

namespace Stack

variable {α : Type}

/-- The stack with room for `capacity` frames and none in it. -/
def ofCapacity (capacity : Nat) : Stack α := ⟨Array.replicate capacity none, 0, 0, 0⟩

/-- How many frames fit, committed and pending together. -/
def capacity (s : Stack α) : Nat := s.slots.size

def size (s : Stack α) : Nat := s.live + s.pending

def isEmpty (s : Stack α) : Bool := s.size == 0

def slot (s : Stack α) (i : Nat) : Option α := s.slots.getD i none

def toList (s : Stack α) : List α :=
  let kept := (s.slots.extract 0 s.live).toList
  let newest := (s.slots.extract (s.capacity - s.pending) s.capacity).toList
  (kept ++ newest.reverse).filterMap id

def top? (s : Stack α) : Option α :=
  if 0 < s.pending then s.slot (s.capacity - s.pending)
  else if 0 < s.live then s.slot (s.live - 1)
  else none

/-- Of the `base` topmost frames the one at `index`, counted from the deepest. -/
def arg? (s : Stack α) (base index : Nat) : Option α :=
  if index < base ∧ base ≤ s.size then
    let depth := base - index
    if depth ≤ s.pending then s.slot (s.capacity - 1 - (s.pending - depth))
    else s.slot (s.live - (depth - s.pending))
  else none

/-- Puts a frame on top, unless all slots are in use; hidden frames use theirs until the commit. -/
def push? (s : Stack α) (a : α) : Option (Stack α) :=
  if s.committed + s.pending < s.capacity then
    some { s with
      slots := s.slots.setIfInBounds (s.capacity - 1 - s.pending) (some a)
      pending := s.pending + 1 }
  else none

/-- Empties the slots at `indices` one after the other. -/
def release (slots : Array (Option α)) : List Nat → Array (Option α) × List α
  | [] => (slots, [])
  | i :: rest =>
    let held := (slots.getD i none).toList
    let (slots, dropped) := release (slots.setIfInBounds i none) rest
    (slots, held ++ dropped)

/-- Takes `n` frames off the top, where there are as many: pending ones are destroyed, newest first,
committed ones are hidden. -/
def drop (s : Stack α) (n : Nat) : Stack α × List α :=
  let cancelled := min n s.pending
  let (slots, dropped) := release s.slots (List.range' (s.capacity - s.pending) cancelled)
  ({ s with slots, pending := s.pending - cancelled, live := s.live - (n - cancelled) }, dropped)

/-- Takes `n` frames off the top, or none if there are fewer. -/
def pop? (s : Stack α) (n : Nat) : Option (Stack α × List α) :=
  if n ≤ s.size then some (s.drop n) else none

/-- Undoes the work since the last commit: pending frames are destroyed, newest first, and hidden
ones come into view. -/
def rollback (s : Stack α) : Stack α × List α :=
  let (slots, dropped) := release s.slots (List.range' (s.capacity - s.pending) s.pending)
  ({ s with slots, pending := 0, live := s.committed }, dropped)

/-- Reverses the `n` slots from `first` on. -/
def flip (slots : Array (Option α)) (first : Nat) : Nat → Array (Option α)
  | 0 | 1 => slots
  | n + 2 => flip (slots.swapIfInBounds first (first + n + 1)) (first + 1) n

/-- Moves the `n` slots from `source` on down to `target`, one after the other; what they overwrite
is destroyed. -/
def settle (slots : Array (Option α)) (source target : Nat) : Nat → Array (Option α) × List α
  | 0 => (slots, [])
  | n + 1 =>
    if source = target then (slots, [])
    else
      let frame := slots.getD source none
      let replaced := (slots.getD target none).toList
      let slots := (slots.setIfInBounds source none).setIfInBounds target frame
      let (slots, dropped) := settle slots (source + 1) (target + 1) n
      (slots, replaced ++ dropped)

/-- Keeps the work since the last commit. The pending frames move down, oldest first, onto the first
hidden slot, which destroys the frames they overwrite; hidden frames beyond them are destroyed next,
topmost first. -/
def commit (s : Stack α) : Stack α × List α :=
  let oldest := s.capacity - s.pending
  let size := s.size
  let hidden := s.committed - size
  let (slots, replaced) := settle (flip s.slots oldest s.pending) oldest s.live s.pending
  let (slots, leftover) := release slots (List.range' size hidden).reverse
  (⟨slots, size, size, 0⟩, replaced ++ leftover)

/-- Destroys all frames: pending ones as in a rollback, then committed ones, topmost first. -/
def clear (s : Stack α) : Stack α × List α :=
  let (s, undone) := s.rollback
  let (slots, dropped) := release s.slots (List.range s.committed).reverse
  (⟨slots, 0, 0, 0⟩, undone ++ dropped)

end Stack

end ShiftReduce
