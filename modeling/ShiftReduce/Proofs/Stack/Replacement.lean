import ShiftReduce.Proofs.Stack.Ledger
import ShiftReduce.Proofs.Stack.Reference

/-!
# What a commit destroys, in order

The pending frames move down onto the hidden slots, the oldest first. A hidden frame is destroyed when
another takes its slot, so the deepest goes first; those whose slots nobody takes go after that, the
topmost first. The slots that the pending frames leave and the ones that they take may overlap, and
still no pending frame is lost.
-/

namespace ShiftReduce

variable {α : Type}

namespace Stack

/-- The slots whose frames a commit destroys, in the order of their destruction: those that pending
frames take, and then the other hidden ones. -/
def doomed (s : Stack α) : List Nat :=
  List.range' s.live (min s.size s.committed - s.live) ++
    (List.range' s.size (s.committed - s.size)).reverse

/-- A commit destroys the frames of the doomed slots, in order, and no pending frame. It leaves the
committed frames in view where they are, the pending ones above them, and nothing else. -/
structure Replaces (s : Stack α) : Prop where
  destroyed_eq : s.commit.2.map some = s.doomed.map s.slot
  /-- What is destroyed and what is pending are different frames in the slots. -/
  spared : (s.commit.2 : Multiset α) + s.waiting ≤ s.held
  /-- The pending frames fill the slots from the back, the oldest in the last one. -/
  slot_eq : ∀ i, s.commit.1.slot i =
    if i < s.live then s.slot i
    else if i < s.size then s.slot (s.capacity - 1 - (i - s.live))
    else none
  committed_eq : s.commit.1.committed = s.size
  live_eq : s.commit.1.live = s.size
  pending_eq : s.commit.1.pending = 0
  capacity_eq : s.commit.1.capacity = s.capacity

end Stack

namespace Layout

theorem map_slot_hidden (l : Layout α) (first count : Nat) :
    (List.range' (l.kept.length + first) ((l.hidden.drop first).take count).length).map
        l.stack.slot =
      ((l.hidden.drop first).take count).map some := by
  apply List.ext_getElem
  · simp
  · intro i hi _
    have hhidden : first + i < l.hidden.length := by
      simp only [List.length_map, List.length_range', List.length_take, List.length_drop] at hi
      omega
    have hcommitted : l.kept.length + first + i < l.committed.length := by
      rw [committed, List.length_append]
      omega
    have hindex : l.kept.length + first + i - l.kept.length = first + i := by omega
    rw [List.getElem_map, List.getElem_range', Nat.one_mul, l.slot_committed hcommitted, committed,
      List.getElem?_append_right (by omega), hindex, List.getElem?_eq_getElem hhidden]
    simp

theorem map_slot_doomed (l : Layout α) :
    l.stack.doomed.map l.stack.slot =
      (l.hidden.take l.pending.length ++ (l.hidden.drop l.pending.length).reverse).map some := by
  have hsize : l.stack.size = l.kept.length + l.pending.length := rfl
  have htaken := l.map_slot_hidden 0 l.pending.length
  have hleft := l.map_slot_hidden l.pending.length l.hidden.length
  have htaken_count : min l.stack.size l.stack.committed - l.stack.live =
      (l.hidden.take l.pending.length).length := by
    rw [hsize, committed_stack, live_stack, List.length_take]
    omega
  have hleft_count : l.stack.committed - l.stack.size =
      (l.hidden.drop l.pending.length).length := by
    rw [hsize, committed_stack, List.length_drop]
    omega
  rw [List.drop_zero, Nat.add_zero] at htaken
  rw [List.take_of_length_le (by rw [List.length_drop]; omega)] at hleft
  rw [Stack.doomed, List.map_append, List.map_reverse, htaken_count, hleft_count, live_stack, hsize,
    htaken, hleft, List.map_append, List.map_reverse]

theorem slot_commit (l : Layout α) (i : Nat) :
    l.commit.stack.slot i =
      if i < l.kept.length then l.stack.slot i
      else if i < l.frames.length then l.stack.slot (l.capacity - 1 - (i - l.kept.length))
      else none := by
  have hcommitted : l.commit.committed = l.frames := by simp [commit]
  have hframes : l.frames.length = l.kept.length + l.pending.length := by simp [frames]
  by_cases hsize : i < l.frames.length
  · rw [slot_committed _ (by rwa [hcommitted]), hcommitted]
    by_cases hkept : i < l.kept.length
    · rw [if_pos hkept, slot_kept l hkept, frames, List.getElem?_append_left hkept]
    · rw [if_neg hkept, if_pos hsize, slot_pending l (by omega), frames,
        List.getElem?_append_right (by omega)]
  · have hempty : ¬ (l.commit.stack.slot i).isSome := by
      rw [isSome_slot_stack]
      simp only [commit, settled, List.length_nil]
      omega
    rw [if_neg (by omega), if_neg hsize]
    exact Option.not_isSome_iff_eq_none.mp hempty

theorem spared_commit (l : Layout α) :
    ((l.hidden.take l.pending.length ++ (l.hidden.drop l.pending.length).reverse : List α) :
      Multiset α) + l.stack.waiting ≤ l.stack.held := by
  have hhidden := coe_take_add_drop l.hidden l.pending.length
  rw [← Multiset.coe_add, Multiset.coe_reverse, hhidden, waiting_stack, Multiset.coe_reverse,
    coe_held, stock, add_assoc]
  exact Multiset.le_add_left _ _

theorem replaces (l : Layout α) : l.stack.Replaces where
  destroyed_eq := by rw [commit_stack, map_slot_doomed]
  spared := by
    rw [commit_stack]
    exact l.spared_commit
  slot_eq i := by
    rw [commit_stack, live_stack, size_stack, capacity_stack]
    exact l.slot_commit i
  committed_eq := rfl
  live_eq := rfl
  pending_eq := rfl
  capacity_eq := Stack.capacity_commit _

end Layout

/-- Whatever a stack has been through, its next commit destroys the hidden frames, first those that are
replaced, the deepest first, and then the others, the topmost first. -/
theorem Stack.commit_destroys_in_order (capacity : Nat) (ops : List (Stack.Operation α)) :
    ((ofCapacity capacity).run ops).1.Replaces := by
  obtain ⟨l, -, -, hstack⟩ := (Layout.settled [] capacity : Layout α).run_stack ops
  rw [Layout.stack_settled_nil] at hstack
  rw [hstack]
  exact l.replaces

/-- Two pending frames replace the deepest of four hidden ones. -/
example : ((Stack.ofCapacity 7 : Stack Nat).run
    [.push 1, .push 2, .push 3, .push 4, .push 5, .commit, .pop 4, .push 6, .push 7]).1.commit.2 =
      [2, 3, 5, 4] := by
  decide

end ShiftReduce
