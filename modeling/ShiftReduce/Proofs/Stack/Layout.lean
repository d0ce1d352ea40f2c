import Mathlib.Data.List.Induction
import ShiftReduce.Stack.Lemmas
import ShiftReduce.Stack.Operation

/-!
# What fills the slots

A `Layout` lists what the slots of a stack hold, front to back. Every operation takes a layout to a
layout, so a stack that starts empty always has one, and the loops over slots are met only here.
-/

namespace ShiftReduce

/-! ## Loops over slots -/

namespace Stack

variable {α : Type}

theorem release_run (front : List (Option α)) (held : List α) (back : List (Option α)) :
    release (front ++ held.map some ++ back).toArray (List.range' front.length held.length) =
      ((front ++ List.replicate held.length none ++ back).toArray, held) := by
  induction held generalizing front with
  | nil => rfl
  | cons a held ih =>
    have hset : (front ++ (a :: held).map some ++ back).toArray.setIfInBounds front.length none =
        (front ++ [none] ++ held.map some ++ back).toArray := by
      simp
    have hrest := ih (front ++ [none])
    simp only [List.length_append, List.length_singleton] at hrest
    simp only [List.length_cons, List.range'_succ, release, hset, hrest]
    simp [List.replicate_succ]

theorem release_run_reverse (front : List (Option α)) (held : List α) (back : List (Option α)) :
    release (front ++ held.map some ++ back).toArray
        (List.range' front.length held.length).reverse =
      ((front ++ List.replicate held.length none ++ back).toArray, held.reverse) := by
  induction held using List.reverseRecOn generalizing back with
  | nil => rfl
  | append_singleton held a ih =>
    have hset : (front ++ (held ++ [a]).map some ++ back).toArray.setIfInBounds
        (front.length + held.length) none = (front ++ held.map some ++ none :: back).toArray := by
      simp
    have hget : (front ++ (held ++ [a]).map some ++ back).toArray.getD
        (front.length + held.length) none = some a := by
      simp
    have hrange : (List.range' front.length (held ++ [a]).length).reverse =
        (front.length + held.length) :: (List.range' front.length held.length).reverse := by
      simp [List.range'_concat]
    rw [hrange, release, hget, hset, ih]
    simp [List.replicate_succ']

theorem flip_run (front run back : List (Option α)) :
    flip (front ++ run ++ back).toArray front.length run.length =
      (front ++ run.reverse ++ back).toArray := by
  -- The loop swaps the two ends, so the induction takes one slot from either end.
  induction run using List.bidirectionalRec generalizing front back with
  | nil => rfl
  | singleton a => rfl
  | cons_append a run b ih =>
    have hswap : (front ++ (a :: (run ++ [b])) ++ back).toArray.swapIfInBounds front.length
        (front.length + run.length + 1) = (front ++ [b] ++ run ++ (a :: back)).toArray := by
      rw [Array.swapIfInBounds, dif_pos (by simp), dif_pos (by simp; omega)]
      simp [Nat.add_assoc]
    have hrest := ih (front ++ [b]) (a :: back)
    simp only [List.length_append, List.length_singleton] at hrest
    simp only [List.length_cons, List.length_append, List.length_nil, Nat.zero_add]
    unfold flip
    rw [hswap, hrest]
    simp

theorem filterMap_take_append_none (gap : List (Option α)) (n : Nat) :
    ((gap ++ [none]).take n).filterMap id = (gap.take n).filterMap id := by
  rw [List.take_append, List.filterMap_append]
  cases n - gap.length <;> simp

/-- Moving frames down over a gap pushes the gap up, and what it held at its lower end is destroyed,
the deepest first. The two ranges may overlap. -/
theorem settle_run (front gap run back : List (Option α)) :
    settle (front ++ gap ++ run ++ back).toArray (front.length + gap.length) front.length
        run.length =
      ((front ++ run ++ (gap ++ List.replicate run.length none).drop run.length ++ back).toArray,
        (gap.take run.length).filterMap id) := by
  induction run generalizing front gap with
  | nil => simp [settle]
  | cons a run ih =>
    cases gap with
    | nil => simp [settle]
    | cons g gap =>
      have hmove : ((front ++ g :: gap ++ a :: run ++ back).toArray.setIfInBounds
          (front.length + (gap.length + 1)) none).setIfInBounds front.length a =
            (front ++ [a] ++ (gap ++ [none]) ++ run ++ back).toArray := by
        simp
      have hsource : (front ++ g :: gap ++ a :: run ++ back).toArray.getD
          (front.length + (gap.length + 1)) none = a := by
        simp
      have htarget : (front ++ g :: gap ++ a :: run ++ back).toArray.getD
          front.length none = g := by
        simp
      -- The gap has lost its lowest slot and gained the one that the frame has left.
      have hrest := ih (front ++ [a]) (gap ++ [none])
      simp only [List.length_append, List.length_singleton] at hrest
      rw [show front.length + 1 + (gap.length + 1) = front.length + (gap.length + 1) + 1 by omega]
        at hrest
      rw [List.length_cons, List.length_cons, settle, if_neg (by omega)]
      simp only [hsource, htarget, hmove, hrest, filterMap_take_append_none]
      cases g <;> simp [List.replicate_succ]

end Stack

/-! ## Layouts -/

/-- What fills the slots of a stack, front to back: the committed frames in view, those that have
been popped, empty slots, and the pending frames with the newest foremost. -/
structure Layout (α : Type) where
  kept : List α
  hidden : List α
  free : Nat
  /-- The oldest first. -/
  pending : List α

namespace Layout

variable {α : Type}

def slots (l : Layout α) : List (Option α) :=
  l.kept.map some ++ l.hidden.map some ++ List.replicate l.free none ++ l.pending.reverse.map some

/-- The stack that is filled in this way. -/
def stack (l : Layout α) : Stack α :=
  ⟨l.slots.toArray, l.kept.length + l.hidden.length, l.kept.length, l.pending.length⟩

def frames (l : Layout α) : List α := l.kept ++ l.pending

/-- The frames of the last commit, bottom first. -/
def committed (l : Layout α) : List α := l.kept ++ l.hidden

def capacity (l : Layout α) : Nat :=
  l.kept.length + l.hidden.length + l.free + l.pending.length

def settled (frames : List α) (free : Nat) : Layout α := ⟨frames, [], free, []⟩

def push (l : Layout α) (a : α) : Layout α :=
  { l with free := l.free - 1, pending := l.pending ++ [a] }

/-- The topmost `n` frames taken off: pending ones first, and then committed ones are hidden. -/
def drop (l : Layout α) (n : Nat) : Layout α :=
  let live := l.kept.length - (n - l.pending.length)
  { kept := l.kept.take live
    hidden := l.kept.drop live ++ l.hidden
    free := l.free + min n l.pending.length
    pending := l.pending.take (l.pending.length - n) }

def rollback (l : Layout α) : Layout α := settled l.committed (l.free + l.pending.length)

def commit (l : Layout α) : Layout α := settled l.frames (l.free + l.hidden.length)

/-! ## What the operations do to a layout -/

theorem stack_settled_nil (n : Nat) : (settled [] n : Layout α).stack = Stack.ofCapacity n := by
  simp [settled, stack, slots, Stack.ofCapacity]

@[simp] theorem capacity_stack (l : Layout α) : l.stack.capacity = l.capacity := by
  simp [stack, slots, Stack.capacity, capacity, Nat.add_assoc]

@[simp] theorem committed_stack (l : Layout α) :
    l.stack.committed = l.kept.length + l.hidden.length := rfl

@[simp] theorem live_stack (l : Layout α) : l.stack.live = l.kept.length := rfl

@[simp] theorem pending_stack (l : Layout α) : l.stack.pending = l.pending.length := rfl

@[simp] theorem size_stack (l : Layout α) : l.stack.size = l.frames.length := by
  simp [stack, Stack.size, frames]

def front (l : Layout α) : List (Option α) :=
  l.kept.map some ++ l.hidden.map some ++ List.replicate l.free none

theorem slots_eq (l : Layout α) : l.slots = l.front ++ l.pending.reverse.map some := rfl

theorem length_front (l : Layout α) : l.capacity - l.pending.length = l.front.length := by
  simp only [front, capacity, List.length_append, List.length_map, List.length_replicate]
  omega

theorem length_slots (l : Layout α) : l.slots.length = l.capacity := by
  simp [slots, capacity, Nat.add_assoc]

theorem toList_stack (l : Layout α) : l.stack.toList = l.frames := by
  have hkept : (l.slots.toArray.extract 0 l.kept.length).toList = l.kept.map some := by
    simp [slots]
  have hnewest : (l.slots.toArray.extract l.front.length l.capacity).toList =
      l.pending.reverse.map some := by
    rw [← length_slots, List.extract_toArray, slots_eq]
    simp [List.take_of_length_le]
  simp only [Stack.toList, capacity_stack]
  simp only [stack, length_front, hkept, hnewest]
  simp [frames, List.filterMap_map]

theorem push?_stack (l : Layout α) (a : α) :
    l.stack.push? a = if 0 < l.free then some (l.push a).stack else none := by
  have hroom : l.kept.length + l.hidden.length + l.pending.length < l.capacity ↔ 0 < l.free := by
    simp only [capacity]
    omega
  simp only [Stack.push?, capacity_stack]
  simp only [stack, hroom]
  split
  next h =>
    obtain ⟨free, hfree⟩ : ∃ n, l.free = n + 1 := ⟨l.free - 1, by omega⟩
    have hslot : l.capacity - 1 - l.pending.length =
        l.kept.length + (l.hidden.length + free) := by
      simp only [capacity]
      omega
    simp [push, slots, hfree, hslot, List.replicate_succ']
  next => rfl

theorem slots_drop (l : Layout α) (n : Nat) :
    (l.drop n).slots = l.front ++ List.replicate (min n l.pending.length) none ++
      (l.pending.reverse.drop n).map some := by
  have hcommitted : (l.drop n).kept ++ (l.drop n).hidden = l.kept ++ l.hidden := by
    simp only [drop, ← List.append_assoc, List.take_append_drop]
  rw [slots, ← List.map_append, hcommitted]
  simp [drop, front, List.reverse_take, List.replicate_append_replicate]
  omega

theorem drop_stack (l : Layout α) (n : Nat) :
    l.stack.drop n = ((l.drop n).stack, l.pending.reverse.take n) := by
  have hsplit : l.slots.toArray = (l.front ++ (l.pending.reverse.take n).map some ++
      (l.pending.reverse.drop n).map some).toArray := by
    rw [List.append_assoc, ← List.map_append, List.take_append_drop, slots_eq]
  have hlen : (l.pending.reverse.take n).length = min n l.pending.length := by simp
  have hrun := Stack.release_run l.front (l.pending.reverse.take n)
    ((l.pending.reverse.drop n).map some)
  rw [hlen] at hrun
  simp only [Stack.drop, capacity_stack]
  simp only [stack, length_front, slots_drop, hsplit, hrun]
  simp only [drop, List.length_append, List.length_take, List.length_drop, Prod.mk.injEq,
    Stack.mk.injEq, true_and, and_true]
  omega

theorem rollback_stack (l : Layout α) :
    l.stack.rollback = (l.rollback.stack, l.pending.reverse) := by
  have hrun := Stack.release_run l.front l.pending.reverse []
  simp only [List.append_nil, List.length_reverse] at hrun
  simp only [Stack.rollback, capacity_stack]
  simp only [stack, length_front, slots_eq, hrun]
  simp [rollback, settled, front, committed, List.replicate_append_replicate]

theorem flip_slots (l : Layout α) :
    Stack.flip l.slots.toArray l.front.length l.pending.length =
      (l.front ++ l.pending.map some).toArray := by
  have := Stack.flip_run l.front (l.pending.reverse.map some) []
  simpa [slots_eq] using this

/-- How many slots above the pending frames are empty once these have moved down. -/
def cleared (l : Layout α) : Nat :=
  l.free + l.pending.length - (l.pending.length - l.hidden.length)

theorem settle_slots (l : Layout α) :
    Stack.settle (l.front ++ l.pending.map some).toArray l.front.length l.kept.length
        l.pending.length =
      ((l.frames.map some ++ (l.hidden.drop l.pending.length).map some ++
        List.replicate l.cleared none).toArray, l.hidden.take l.pending.length) := by
  have hrun := Stack.settle_run (l.kept.map some)
    (l.hidden.map some ++ List.replicate l.free none) (l.pending.map some) []
  -- What the pending frames move over: hidden frames below, empty slots above.
  have hgap : (l.hidden.map some ++ List.replicate l.free none ++
      List.replicate l.pending.length none).drop l.pending.length =
        (l.hidden.drop l.pending.length).map some ++ List.replicate l.cleared none := by
    simp [List.drop_append, List.replicate_append_replicate, cleared]
  have hdropped : ((l.hidden.map some ++ List.replicate l.free none).take
      l.pending.length).filterMap id = l.hidden.take l.pending.length := by
    simp [List.take_append, List.filterMap_map, ← List.map_take]
  simp only [List.length_map, hgap, hdropped] at hrun
  simpa [front, frames, Nat.add_assoc] using hrun

theorem commit_stack (l : Layout α) :
    l.stack.commit = (l.commit.stack,
      l.hidden.take l.pending.length ++ (l.hidden.drop l.pending.length).reverse) := by
  have hleft := Stack.release_run_reverse (l.frames.map some) (l.hidden.drop l.pending.length)
    (List.replicate l.cleared none)
  have hlen : (l.hidden.drop l.pending.length).length =
      l.kept.length + l.hidden.length - l.frames.length := by
    simp only [frames, List.length_drop, List.length_append]
    omega
  have hempty : (l.hidden.drop l.pending.length).length + l.cleared =
      l.free + l.hidden.length := by
    simp only [cleared, List.length_drop]
    omega
  simp only [List.length_map, List.append_assoc, List.replicate_append_replicate, hempty] at hleft
  simp only [Stack.commit, capacity_stack, size_stack]
  simp only [stack, length_front, flip_slots, settle_slots, ← hlen, List.append_assoc, hleft]
  simp [commit, settled, slots]

theorem clear_stack (l : Layout α) :
    l.stack.clear = ((settled [] l.capacity : Layout α).stack,
      l.pending.reverse ++ l.committed.reverse) := by
  have hrun := Stack.release_run_reverse [] l.committed
    (List.replicate (l.free + l.pending.length) none)
  simp only [List.nil_append, List.length_nil, ← List.range_eq_range'] at hrun
  simp only [Stack.clear, rollback_stack]
  simp only [rollback, settled, stack, slots, List.map_nil, List.append_nil, List.reverse_nil,
    List.length_nil, Nat.add_zero, hrun]
  simp [List.replicate_append_replicate, capacity, committed, Nat.add_assoc]

/-! ## What the layout says about single slots -/

theorem slot_stack (l : Layout α) (i : Nat) : l.stack.slot i = (l.slots[i]?).getD none := by
  simp [stack, Stack.slot, Array.getD_eq_getD_getElem?]

theorem slot_kept (l : Layout α) {i : Nat} (h : i < l.kept.length) :
    l.stack.slot i = l.kept[i]? := by
  rw [slot_stack]
  simp [slots, List.getElem?_append_left, h]

/-- Counted from the back, the slots hold the pending frames in the order of their pushes. -/
theorem slot_pending (l : Layout α) {i : Nat} (h : i < l.pending.length) :
    l.stack.slot (l.capacity - 1 - i) = l.pending[i]? := by
  have hindex : l.capacity - 1 - i = l.front.length + (l.pending.length - 1 - i) := by
    rw [← length_front]
    simp only [capacity]
    omega
  have hback : l.pending.reverse[l.pending.length - 1 - i]? = l.pending[i]? := by
    rw [List.getElem?_reverse (by omega)]
    congr 1
    omega
  rw [slot_stack, slots_eq, hindex, List.getElem?_append_right (by omega), Nat.add_sub_cancel_left,
    List.getElem?_map, hback, List.getElem?_eq_getElem h]
  rfl

theorem top?_stack (l : Layout α) : l.stack.top? = l.frames.getLast? := by
  rw [List.getLast?_eq_getElem?, Stack.top?]
  split
  next h =>
    rw [pending_stack] at h
    have hslot := l.slot_pending (i := l.pending.length - 1) (by omega)
    rw [capacity_stack, pending_stack,
      show l.capacity - l.pending.length = l.capacity - 1 - (l.pending.length - 1) by omega, hslot,
      frames, List.length_append, List.getElem?_append_right (by omega)]
    congr 1
    omega
  next h =>
    rw [pending_stack] at h
    have hnil : l.pending = [] := List.eq_nil_of_length_eq_zero (by omega)
    unfold frames
    rw [hnil, List.append_nil]
    split
    next hk => rw [live_stack] at hk ⊢; rw [slot_kept l (by omega)]
    next hk =>
      rw [live_stack] at hk
      rw [List.eq_nil_of_length_eq_zero (show l.kept.length = 0 by omega)]
      rfl

theorem arg?_stack (l : Layout α) (base index : Nat) :
    l.stack.arg? base index =
      if index < base ∧ base ≤ l.frames.length then l.frames[l.frames.length - base + index]?
      else none := by
  simp only [Stack.arg?, capacity_stack, size_stack, pending_stack, live_stack]
  split
  next h =>
    have hlen : l.frames.length = l.kept.length + l.pending.length := by simp [frames]
    split
    next hp =>
      rw [slot_pending l (by omega), frames, List.getElem?_append_right (by simp; omega)]
      congr 1
      simp
      omega
    next hp =>
      rw [slot_kept l (by omega), frames, List.getElem?_append_left (by simp; omega)]
      congr 1
      simp
      omega
  next h => rfl

theorem isSome_getD_map_some (xs : List α) (i : Nat) :
    ((xs.map some)[i]?.getD none).isSome ↔ i < xs.length := by
  by_cases h : i < xs.length <;> simp [h]

theorem isSome_slot_stack (l : Layout α) (i : Nat) :
    (l.stack.slot i).isSome ↔
      i < l.kept.length + l.hidden.length ∨
        l.capacity - l.pending.length ≤ i ∧ i < l.capacity := by
  have hfront : l.front.length = l.kept.length + l.hidden.length + l.free := by
    simp only [front, List.length_append, List.length_map, List.length_replicate]
  have hcap : l.capacity = l.front.length + l.pending.length := by rw [hfront, capacity]
  rw [slot_stack, length_front, slots_eq]
  by_cases hp : i < l.front.length
  · rw [List.getElem?_append_left hp, front, ← List.map_append]
    by_cases hc : i < (l.kept ++ l.hidden).length
    · rw [List.getElem?_append_left (by simpa using hc), isSome_getD_map_some]
      simp only [List.length_append] at hc ⊢
      omega
    · rw [List.getElem?_append_right (by simpa using hc), List.getElem?_replicate]
      simp only [List.length_append] at hc
      split <;> simp <;> omega
  · rw [List.getElem?_append_right (by omega), isSome_getD_map_some, List.length_reverse]
    omega

/-! ## Frames and capacity -/

@[simp] theorem frames_settled (frames : List α) (free : Nat) :
    (settled frames free).frames = frames := by
  simp [settled, Layout.frames]

@[simp] theorem frames_push (l : Layout α) (a : α) : (l.push a).frames = l.frames ++ [a] := by
  simp [push, frames]

@[simp] theorem committed_push (l : Layout α) (a : α) : (l.push a).committed = l.committed := rfl

theorem frames_drop (l : Layout α) (n : Nat) :
    (l.drop n).frames = l.frames.take (l.frames.length - n) := by
  simp only [frames, drop, List.take_append, List.length_append]
  by_cases h : n ≤ l.pending.length
  · rw [List.take_of_length_le (i := l.kept.length - _) (by omega),
      List.take_of_length_le (i := l.kept.length + _ - n) (by omega)]
    congr 2
    omega
  · congr 2 <;> omega

@[simp] theorem committed_drop (l : Layout α) (n : Nat) : (l.drop n).committed = l.committed := by
  simp only [drop, committed, ← List.append_assoc, List.take_append_drop]

@[simp] theorem frames_rollback (l : Layout α) : l.rollback.frames = l.committed := by
  simp [rollback]

@[simp] theorem frames_commit (l : Layout α) : l.commit.frames = l.frames := by
  simp [commit]

@[simp] theorem committed_settled (frames : List α) (free : Nat) :
    (settled frames free).committed = frames := by
  simp [settled, committed]

@[simp] theorem rollback_settled (frames : List α) (free : Nat) :
    (settled frames free).rollback = settled frames free := by
  simp [rollback, settled, committed]

@[simp] theorem commit_settled (frames : List α) (free : Nat) :
    (settled frames free).commit = settled frames free := by
  simp [commit, settled, Layout.frames]

@[simp] theorem capacity_settled (frames : List α) (free : Nat) :
    (settled frames free).capacity = frames.length + free := by
  simp [settled, capacity]

theorem capacity_push {l : Layout α} (h : 0 < l.free) (a : α) :
    (l.push a).capacity = l.capacity := by
  simp only [push, capacity, List.length_append, List.length_singleton]
  omega

@[simp] theorem capacity_drop (l : Layout α) (n : Nat) : (l.drop n).capacity = l.capacity := by
  simp only [drop, capacity, List.length_append, List.length_take, List.length_drop]
  omega

@[simp] theorem capacity_rollback (l : Layout α) : l.rollback.capacity = l.capacity := by
  unfold rollback
  rw [capacity_settled, committed, List.length_append, capacity]
  omega

@[simp] theorem capacity_commit (l : Layout α) : l.commit.capacity = l.capacity := by
  unfold commit
  rw [capacity_settled, frames, List.length_append, capacity]
  omega

theorem commit_eq (l : Layout α) :
    l.commit = settled l.frames (l.capacity - l.frames.length) := by
  have hfree : l.free + l.hidden.length = l.capacity - l.frames.length := by
    rw [capacity, frames, List.length_append]
    omega
  unfold commit
  rw [hfree]

theorem rollback_eq (l : Layout α) :
    l.rollback = settled l.committed (l.capacity - l.committed.length) := by
  have hfree : l.free + l.pending.length = l.capacity - l.committed.length := by
    rw [capacity, committed, List.length_append]
    omega
  unfold rollback
  rw [hfree]

/-! ## Operations as data -/

/-- What an operation makes of a layout, whether it was carried out, and what it destroys. -/
def perform (l : Layout α) : Stack.Operation α → Except Breach (Layout α × Bool × List α)
  | .push a => .ok (if 0 < l.free then (l.push a, true, []) else (l, false, [a]))
  | .pop n =>
    if n ≤ l.frames.length then .ok (l.drop n, true, l.pending.reverse.take n)
    else .error (.pop n l.frames.length)
  | .commit =>
    .ok (l.commit, true,
      l.hidden.take l.pending.length ++ (l.hidden.drop l.pending.length).reverse)
  | .rollback => .ok (l.rollback, true, l.pending.reverse)
  | .clear => .ok (settled [] l.capacity, true, l.pending.reverse ++ l.committed.reverse)

theorem perform_stack (l : Layout α) (op : Stack.Operation α) :
    l.stack.perform op =
      (l.perform op).map fun (l', done, dropped) => ⟨l'.stack, done, dropped⟩ := by
  cases op with
  | push a =>
    rw [Stack.perform, push?_stack, perform]
    by_cases h : 0 < l.free
    · rw [if_pos h, if_pos h]; rfl
    · rw [if_neg h, if_neg h]; rfl
  | pop n =>
    rw [Stack.perform, Stack.pop?, drop_stack, size_stack, perform]
    by_cases h : n ≤ l.frames.length
    · rw [if_pos h, if_pos h]; rfl
    · rw [if_neg h, if_neg h]; rfl
  | commit => rw [Stack.perform, commit_stack]; rfl
  | rollback => rw [Stack.perform, rollback_stack]; rfl
  | clear => rw [Stack.perform, clear_stack]; rfl

theorem capacity_of_perform {l l' : Layout α} {op : Stack.Operation α} {done : Bool}
    {dropped : List α} (h : l.perform op = .ok (l', done, dropped)) :
    l'.capacity = l.capacity := by
  cases op with
  | push a =>
    simp only [perform] at h
    split at h <;> cases h
    · exact capacity_push ‹_› a
    · rfl
  | pop n =>
    simp only [perform] at h
    split at h <;> cases h
    exact capacity_drop l n
  | commit => cases h; exact capacity_commit l
  | rollback => cases h; exact capacity_rollback l
  | clear => cases h; simp

end Layout

end ShiftReduce
