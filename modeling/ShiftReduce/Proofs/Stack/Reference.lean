import ShiftReduce.Proofs.Stack.Layout

/-!
# The stack as two lists

Seen from outside, a transactional stack is the list of its frames beside the list that the last
commit has left. `Reference` says this without slots, and the stack answers every program over it as
the reference does.
-/

namespace ShiftReduce

variable {α : Type}

/-! ## The reference -/

/-- A stack as its frames, those of the last commit, and the number of frames pushed since then that
are still there. -/
structure Reference (α : Type) where
  committed : List α
  logical : List α
  pending : Nat

namespace Reference

def empty : Reference α := ⟨[], [], 0⟩

/-- One operation on a stack with room for `capacity` frames, and whether it was carried out. Popping
more frames than there are is a breach. -/
def perform (capacity : Nat) (r : Reference α) : Stack.Operation α → Except Breach (Reference α × Bool)
  | .push a =>
    if r.committed.length + r.pending < capacity then
      .ok ({ r with logical := r.logical ++ [a], pending := r.pending + 1 }, true)
    else .ok (r, false)
  | .pop n =>
    if n ≤ r.logical.length then
      .ok ({ r with
        logical := r.logical.take (r.logical.length - n)
        pending := r.pending - min n r.pending }, true)
    else .error (.pop n r.logical.length)
  | .commit => .ok ({ r with committed := r.logical, pending := 0 }, true)
  | .rollback => .ok ({ r with logical := r.committed, pending := 0 }, true)
  | .clear => .ok (empty, true)

/-- Runs a program. A breach changes nothing, and the program goes on behind it. -/
def run (capacity : Nat) (r : Reference α) :
    List (Stack.Operation α) → Reference α × List (Except Breach Bool)
  | [] => (r, [])
  | op :: rest =>
    match r.perform capacity op with
    | .ok (r, done) => let (r, answers) := run capacity r rest; (r, .ok done :: answers)
    | .error breach => let (r, answers) := run capacity r rest; (r, .error breach :: answers)

end Reference

/-- Runs a program. A breach changes nothing, and the program goes on behind it. -/
def Stack.run (s : Stack α) : List (Stack.Operation α) → Stack α × List (Except Breach Bool)
  | [] => (s, [])
  | op :: rest =>
    match s.perform op with
    | .ok effect =>
      let (s, answers) := effect.stack.run rest; (s, .ok effect.done :: answers)
    | .error breach => let (s, answers) := s.run rest; (s, .error breach :: answers)

/-! ## Soundness of the slots -/

/-- The slots agree with the counters: the committed frames come first, the pending ones last, and
all slots between are empty. -/
structure Stack.Sound (s : Stack α) : Prop where
  live_le : s.live ≤ s.committed
  fits : s.committed + s.pending ≤ s.capacity
  filled : ∀ i, i < s.committed → (s.slot i).isSome
  waiting : ∀ i, s.capacity - s.pending ≤ i → i < s.capacity → (s.slot i).isSome
  vacant : ∀ i, s.committed ≤ i → i < s.capacity - s.pending → s.slot i = none

theorem Layout.sound (l : Layout α) : l.stack.Sound where
  live_le := by simp
  fits := by
    rw [capacity_stack, capacity, committed_stack, pending_stack]
    omega
  filled i h := by rw [isSome_slot_stack]; exact Or.inl h
  waiting i h h' := by
    rw [capacity_stack] at h'
    rw [isSome_slot_stack]
    exact Or.inr ⟨by simpa using h, h'⟩
  vacant i h h' := by
    rw [← Option.not_isSome_iff_eq_none, isSome_slot_stack]
    simp only [committed_stack, capacity_stack, pending_stack] at h h'
    omega

/-! ## The refinement -/

namespace Layout

def reference (l : Layout α) : Reference α := ⟨l.committed, l.frames, l.pending.length⟩

theorem reference_perform (l : Layout α) (op : Stack.Operation α) :
    l.reference.perform l.capacity op =
      (l.perform op).map fun (l', done, _) => (l'.reference, done) := by
  cases op with
  | push a =>
    have hroom : l.reference.committed.length + l.reference.pending < l.capacity ↔ 0 < l.free := by
      simp only [reference, committed, capacity, List.length_append]
      omega
    simp only [Reference.perform, hroom, perform]
    split
    · simp [reference, Except.map, push, frames, committed]
    · rfl
  | pop n =>
    have hlogical : l.reference.logical = l.frames := rfl
    rw [Reference.perform, perform, hlogical]
    by_cases h : n ≤ l.frames.length
    · have hpending : (l.drop n).pending.length = l.pending.length - min n l.pending.length := by
        simp only [drop, List.length_take]
        omega
      rw [if_pos h, if_pos h]
      simp [Except.map, reference, frames_drop, hpending]
    · rw [if_neg h, if_neg h]
      rfl
  | commit => simp [Reference.perform, perform, Except.map, reference, commit, settled,
      committed, frames]
  | rollback => simp [Reference.perform, perform, Except.map, reference, rollback, settled,
      committed, frames]
  | clear => simp [Reference.perform, perform, Except.map, reference, Reference.empty, settled,
      committed, frames]

/-- A program keeps the stack in a layout, and the reference of the layout follows it. -/
theorem run_stack (l : Layout α) (ops : List (Stack.Operation α)) :
    ∃ l' : Layout α, l'.capacity = l.capacity ∧
      l.reference.run l.capacity ops = (l'.reference, (l.stack.run ops).2) ∧
      (l.stack.run ops).1 = l'.stack := by
  induction ops generalizing l with
  | nil => exact ⟨l, rfl, rfl, rfl⟩
  | cons op rest ih =>
    rw [Stack.run, Reference.run, reference_perform, perform_stack]
    cases h : l.perform op with
    | error breach =>
      obtain ⟨l', hcap, hrun, hstack⟩ := ih l
      refine ⟨l', hcap, ?_, hstack⟩
      simp only [Except.map, hrun]
    | ok result =>
      obtain ⟨l₁, done, dropped⟩ := result
      obtain ⟨l', hcap, hrun, hstack⟩ := ih l₁
      have hcap₁ := capacity_of_perform h
      refine ⟨l', hcap.trans hcap₁, ?_, hstack⟩
      rw [hcap₁] at hrun
      simp only [Except.map, hrun]

end Layout

/-- What the queries on a stack answer where its frames are those of `r`. -/
structure Stack.Shows (s : Stack α) (r : Reference α) : Prop where
  toList_eq : s.toList = r.logical
  size_eq : s.size = r.logical.length
  committed_eq : s.committed = r.committed.length
  pending_eq : s.pending = r.pending
  top?_eq : s.top? = r.logical.getLast?
  arg?_eq (base index : Nat) : s.arg? base index =
    if index < base ∧ base ≤ r.logical.length then r.logical[r.logical.length - base + index]?
    else none

theorem Layout.shows (l : Layout α) : l.stack.Shows l.reference where
  toList_eq := l.toList_stack
  size_eq := l.size_stack
  committed_eq := by simp [reference, committed]
  pending_eq := rfl
  top?_eq := l.top?_stack
  arg?_eq base index := l.arg?_stack base index

/-- After every program, and so after each of its operations, the stack shows what the reference
shows. It has answered alike on the way: which pushes found room, and which pops were breaches. The
slots agree with the counters. -/
theorem Stack.run_refines_reference (capacity : Nat) (ops : List (Stack.Operation α)) :
    ((ofCapacity capacity).run ops).2 = (Reference.empty.run capacity ops).2 ∧
      ((ofCapacity capacity).run ops).1.Shows (Reference.empty.run capacity ops).1 ∧
      ((ofCapacity capacity).run ops).1.capacity = capacity ∧
      ((ofCapacity capacity).run ops).1.Sound := by
  obtain ⟨l, hcap, href, hstack⟩ := (Layout.settled [] capacity : Layout α).run_stack ops
  have hempty : (Layout.settled [] capacity : Layout α).reference = Reference.empty := by
    simp [Layout.reference, Reference.empty, Layout.settled, Layout.committed, Layout.frames]
  have hroom : (Layout.settled [] capacity : Layout α).capacity = capacity := by simp
  rw [Layout.stack_settled_nil, hempty, hroom] at href
  rw [Layout.stack_settled_nil] at hstack
  rw [href, hstack]
  exact ⟨rfl, l.shows, by rw [Layout.capacity_stack, hcap, hroom], l.sound⟩

end ShiftReduce
