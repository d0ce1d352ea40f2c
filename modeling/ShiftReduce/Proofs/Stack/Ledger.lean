import Mathlib.Algebra.Order.Group.Multiset
import Mathlib.Tactic.Abel
import ShiftReduce.Proofs.Stack.Layout

/-!
# Every value is destroyed once

A ledger writes down which values a stack has been offered and which it has destroyed. The books
balance after every operation: what has been offered and not destroyed is in the slots, each value
once. Committed frames are destroyed by a commit or by clearing the stack and by nothing else, also
those that have been popped.
-/

namespace ShiftReduce

variable {α : Type}

/-! ## Books -/

namespace Stack

/-- The values in the slots, front to back. -/
def held (s : Stack α) : List α := s.slots.toList.filterMap id

/-- The values pushed since the last commit that are still there, the newest first. -/
def waiting (s : Stack α) : List α :=
  (s.slots.extract (s.capacity - s.pending) s.capacity).toList.filterMap id

/-- The values that go with the stack: it is cleared, and what its slots still hold goes, too. -/
def discard (s : Stack α) : List α :=
  let (s, dropped) := s.clear
  dropped ++ s.held

namespace Operation

/-- The values that an operation hands over to the stack. -/
def offers : Operation α → List α
  | push a => [a]
  | _ => []

/-- The operations that a rollback undoes. -/
def isTransient : Operation α → Bool
  | push _ | pop _ | rollback => true
  | commit | clear => false

end Operation

end Stack

/-- A stack, all values that it has been offered, and those that it has destroyed, in order. -/
structure Ledger (α : Type) where
  stack : Stack α
  offered : List α
  destroyed : List α

namespace Ledger

def opened (capacity : Nat) : Ledger α := ⟨.ofCapacity capacity, [], []⟩

/-- One operation. A breach changes nothing. -/
def enter (l : Ledger α) (op : Stack.Operation α) : Ledger α :=
  match l.stack.perform op with
  | .ok effect => ⟨effect.stack, l.offered ++ op.offers, l.destroyed ++ effect.dropped⟩
  | .error _ => l

def run (l : Ledger α) (ops : List (Stack.Operation α)) : Ledger α := ops.foldl enter l

/-- Each value that has been offered has been destroyed once or is in one slot. -/
structure Balanced (l : Ledger α) : Prop where
  conserved : (l.offered : Multiset α) = l.destroyed + l.stack.held
  alive : l.offered.length = l.destroyed.length + (l.stack.committed + l.stack.pending)
  cleared : ((l.enter .clear).destroyed : Multiset α) = l.offered
  discarded : ((l.destroyed ++ l.stack.discard : List α) : Multiset α) = l.offered

/-- From the first ledger to the second one no committed frame has been destroyed, and a rollback
brings all of them into view. -/
structure Spares (l l' : Ledger α) : Prop where
  committed_eq : l'.stack.committed = l.stack.committed
  slot_eq : ∀ i < l.stack.committed, l'.stack.slot i = l.stack.slot i
  /-- What has been destroyed was pending, or has been offered since. -/
  destroyed_eq : ∃ added dropped, l'.offered = l.offered ++ added ∧
    l'.destroyed = l.destroyed ++ dropped ∧
    (added : Multiset α) + l.stack.waiting = dropped + l'.stack.waiting
  restored : (l'.enter .rollback).stack.toList.map some =
    (List.range l.stack.committed).map l.stack.slot

end Ledger

/-! ## Books of a layout -/

namespace Layout

theorem held_stack (l : Layout α) : l.stack.held = l.committed ++ l.pending.reverse := by
  simp [Stack.held, stack, slots, committed, List.filterMap_map]

theorem waiting_stack (l : Layout α) : l.stack.waiting = l.pending.reverse := by
  have hback : (l.slots.toArray.extract l.front.length l.capacity).toList =
      l.pending.reverse.map some := by
    rw [← length_slots, List.extract_toArray, slots_eq]
    simp [List.take_of_length_le]
  simp only [Stack.waiting, capacity_stack]
  simp only [stack, length_front, hback]
  simp [List.filterMap_map]

theorem discard_stack (l : Layout α) :
    l.stack.discard = l.pending.reverse ++ l.committed.reverse := by
  simp only [Stack.discard, clear_stack, held_stack]
  simp [settled, committed]

/-- The values in the slots, in no order. -/
def stock (l : Layout α) : Multiset α := l.kept + l.hidden + l.pending

theorem coe_committed (l : Layout α) : (l.committed : Multiset α) = l.kept + l.hidden :=
  (Multiset.coe_add l.kept l.hidden).symm

theorem coe_held (l : Layout α) : (l.stack.held : Multiset α) = l.stock := by
  rw [held_stack, ← Multiset.coe_add, Multiset.coe_reverse, coe_committed, stock]

theorem coe_discard (l : Layout α) : (l.stack.discard : Multiset α) = l.stock := by
  rw [discard_stack, ← Multiset.coe_add, Multiset.coe_reverse, Multiset.coe_reverse, coe_committed,
    stock, add_comm]

theorem coe_take_add_drop (xs : List α) (n : Nat) :
    (xs.take n : Multiset α) + (xs.drop n : List α) = xs := by
  rw [Multiset.coe_add, List.take_append_drop]

theorem perform_conserves {l l' : Layout α} {op : Stack.Operation α} {done : Bool}
    {dropped : List α} (h : l.perform op = .ok (l', done, dropped)) :
    (op.offers : Multiset α) + l.stock = dropped + l'.stock := by
  cases op with
  | push a =>
    simp only [perform] at h
    split at h <;> cases h
    · simp only [Stack.Operation.offers, stock, push, ← Multiset.coe_add, Multiset.coe_nil]
      abel
    · rfl
  | pop n =>
    simp only [perform] at h
    split at h <;> cases h
    have hcommitted : ((l.drop n).kept : Multiset α) + (l.drop n).hidden = l.kept + l.hidden := by
      rw [← coe_committed, committed_drop, coe_committed]
    have hpending : (l.pending : Multiset α) =
        l.pending.reverse.take n + (l.drop n).pending := by
      rw [List.take_reverse, Multiset.coe_reverse, add_comm]
      exact (coe_take_add_drop l.pending _).symm
    simp only [Stack.Operation.offers, stock, hcommitted]
    rw [hpending, Multiset.coe_nil]
    abel
  | commit =>
    cases h
    have hhidden := coe_take_add_drop l.hidden l.pending.length
    simp only [Stack.Operation.offers, stock, commit, settled, frames, ← Multiset.coe_add,
      Multiset.coe_reverse, Multiset.coe_nil, hhidden]
    abel
  | rollback =>
    cases h
    simp only [Stack.Operation.offers, stock, rollback, settled, committed, ← Multiset.coe_add,
      Multiset.coe_reverse, Multiset.coe_nil]
    abel
  | clear =>
    cases h
    simp only [Stack.Operation.offers, stock, settled, committed, ← Multiset.coe_add,
      Multiset.coe_reverse, Multiset.coe_nil]
    abel

theorem card_stock (l : Layout α) : l.stock.card = l.stack.committed + l.stack.pending := by
  simp [stock, Nat.add_assoc]

theorem committed_of_transient {l l' : Layout α} {op : Stack.Operation α} {done : Bool}
    {dropped : List α} (hop : op.isTransient = true)
    (h : l.perform op = .ok (l', done, dropped)) : l'.committed = l.committed := by
  cases op with
  | push a =>
    simp only [perform] at h
    split at h <;> cases h
    · exact committed_push l a
    · rfl
  | pop n =>
    simp only [perform] at h
    split at h <;> cases h
    exact committed_drop l n
  | rollback =>
    cases h
    exact committed_settled _ _
  | commit | clear => cases hop

theorem slot_committed (l : Layout α) {i : Nat} (h : i < l.committed.length) :
    l.stack.slot i = l.committed[i]? := by
  have hslots : l.slots = l.committed.map some ++
      (List.replicate l.free none ++ l.pending.reverse.map some) := by
    simp [slots, committed]
  rw [slot_stack, hslots, List.getElem?_append_left (by simpa using h), List.getElem?_map,
    List.getElem?_eq_getElem h]
  rfl

theorem map_slot_range (l : Layout α) :
    (List.range l.stack.committed).map l.stack.slot = l.committed.map some := by
  rw [committed_stack, ← List.length_append]
  apply List.ext_getElem
  · simp [committed]
  · intro i h h'
    have hi : i < l.committed.length := by simpa using h'
    rw [List.getElem_map, List.getElem_range, slot_committed l hi, List.getElem_map,
      List.getElem?_eq_getElem hi]

end Layout

/-! ## Books of a program -/

namespace Ledger

variable {l : Ledger α} {layout layout' : Layout α}

theorem enter_of_ok {op : Stack.Operation α} {done : Bool} {dropped : List α}
    (hl : l.stack = layout.stack) (h : layout.perform op = .ok (layout', done, dropped)) :
    l.enter op = ⟨layout'.stack, l.offered ++ op.offers, l.destroyed ++ dropped⟩ := by
  unfold enter
  rw [hl, Layout.perform_stack, h]
  rfl

theorem enter_of_error {op : Stack.Operation α} {breach : Breach} (hl : l.stack = layout.stack)
    (h : layout.perform op = .error breach) : l.enter op = l := by
  unfold enter
  rw [hl, Layout.perform_stack, h]
  rfl

theorem exists_enter_eq (hl : l.stack = layout.stack) (op : Stack.Operation α) :
    ∃ (layout' : Layout α) (added dropped : List α),
      l.enter op = ⟨layout'.stack, l.offered ++ added, l.destroyed ++ dropped⟩ ∧
      (added : Multiset α) + layout.stock = dropped + layout'.stock ∧
      (op.isTransient = true → layout'.committed = layout.committed) := by
  cases hop : layout.perform op with
  | error breach =>
    refine ⟨layout, [], [], ?_, rfl, fun _ => rfl⟩
    rw [enter_of_error hl hop, List.append_nil, List.append_nil, ← hl]
  | ok result =>
    obtain ⟨layout', done, dropped⟩ := result
    refine ⟨layout', op.offers, dropped, enter_of_ok hl hop, Layout.perform_conserves hop, ?_⟩
    intro htransient
    exact Layout.committed_of_transient htransient hop

theorem exists_run_eq (hl : l.stack = layout.stack) (ops : List (Stack.Operation α)) :
    ∃ (layout' : Layout α) (added dropped : List α),
      l.run ops = ⟨layout'.stack, l.offered ++ added, l.destroyed ++ dropped⟩ ∧
      (added : Multiset α) + layout.stock = dropped + layout'.stock ∧
      ((∀ op ∈ ops, op.isTransient = true) → layout'.committed = layout.committed) := by
  induction ops generalizing l layout with
  | nil =>
    refine ⟨layout, [], [], ?_, rfl, fun _ => rfl⟩
    rw [List.append_nil, List.append_nil, ← hl]
    rfl
  | cons op ops ih =>
    obtain ⟨layout₁, added₁, dropped₁, henter, hmoved₁, hkept₁⟩ := exists_enter_eq hl op
    have hstack₁ : (l.enter op).stack = layout₁.stack := by rw [henter]
    obtain ⟨layout₂, added₂, dropped₂, hrun, hmoved₂, hkept₂⟩ := ih hstack₁
    refine ⟨layout₂, added₁ ++ added₂, dropped₁ ++ dropped₂, ?_, ?_, ?_⟩
    · have hrun' : l.run (op :: ops) = (l.enter op).run ops := rfl
      rw [hrun', hrun, henter, List.append_assoc, List.append_assoc]
    · calc ((added₁ ++ added₂ : List α) : Multiset α) + layout.stock
          = added₂ + (added₁ + layout.stock) := by rw [← Multiset.coe_add]; abel
        _ = dropped₁ + (added₂ + layout₁.stock) := by rw [hmoved₁]; abel
        _ = (dropped₁ ++ dropped₂ : List α) + layout₂.stock := by
          rw [hmoved₂, ← Multiset.coe_add, add_assoc]
    · intro htransient
      rw [hkept₂ fun o ho => htransient o (List.mem_cons_of_mem op ho),
        hkept₁ (htransient op List.mem_cons_self)]

theorem balanced_of_stock (hl : l.stack = layout.stack)
    (hstock : (l.offered : Multiset α) = l.destroyed + layout.stock) : l.Balanced where
  conserved := by rw [hl, Layout.coe_held, hstock]
  alive := by
    have hcard := congrArg Multiset.card hstock
    rwa [Multiset.card_add, Multiset.coe_card, Multiset.coe_card, Layout.card_stock, ← hl] at hcard
  cleared := by
    have hclear : l.enter .clear = ⟨_, _, _⟩ := enter_of_ok hl rfl
    rw [hclear, ← Layout.discard_stack, ← Multiset.coe_add, Layout.coe_discard, hstock]
  discarded := by rw [hl, ← Multiset.coe_add, Layout.coe_discard, hstock]

theorem spares_of_committed {added dropped : List α} (hl : l.stack = layout.stack)
    (hmoved : (added : Multiset α) + layout.stock = dropped + layout'.stock)
    (hkept : layout'.committed = layout.committed) :
    l.Spares ⟨layout'.stack, l.offered ++ added, l.destroyed ++ dropped⟩ where
  committed_eq := by
    have hlength := congrArg List.length hkept
    simpa [hl, Layout.committed] using hlength
  slot_eq i hi := by
    rw [hl, Layout.committed_stack, ← List.length_append] at hi
    have hi' : i < layout.committed.length := hi
    rw [hl, layout.slot_committed hi', layout'.slot_committed (hkept ▸ hi'), hkept]
  destroyed_eq := by
    refine ⟨added, dropped, rfl, rfl, ?_⟩
    -- Both stocks hold the committed frames, which therefore cancel.
    rw [hl, Layout.waiting_stack, Layout.waiting_stack, Multiset.coe_reverse, Multiset.coe_reverse]
    rw [Layout.stock, Layout.stock, ← Layout.coe_committed, ← Layout.coe_committed, hkept] at hmoved
    apply add_left_cancel (a := (layout.committed : Multiset α))
    calc (layout.committed : Multiset α) + (added + layout.pending)
        = added + (layout.committed + layout.pending) := by abel
      _ = layout.committed + (dropped + layout'.pending) := by rw [hmoved]; abel
  restored := by
    have hrollback : (⟨layout'.stack, l.offered ++ added, l.destroyed ++ dropped⟩ :
        Ledger α).enter .rollback = ⟨layout'.rollback.stack, _, _⟩ := enter_of_ok rfl rfl
    rw [hrollback, Layout.toList_stack, Layout.frames_rollback, hkept, hl, Layout.map_slot_range]

/-- After every program the books balance, and they stay balanced when the stack is cleared or
discarded. Whatever is pushed, popped and rolled back afterwards, no committed frame is destroyed. -/
theorem run_destroys_once (capacity : Nat) (ops later : List (Stack.Operation α)) :
    ((opened capacity).run ops).Balanced ∧
      ((∀ op ∈ later, op.isTransient = true) →
        ((opened capacity).run ops).Spares (((opened capacity).run ops).run later)) := by
  obtain ⟨layout, offered, destroyed, hrun, hstock, -⟩ :=
    exists_run_eq (l := opened capacity) (Layout.stack_settled_nil capacity).symm ops
  have hstack : ((opened capacity).run ops).stack = layout.stack := by rw [hrun]
  constructor
  · apply balanced_of_stock hstack
    have hempty : (Layout.settled [] capacity : Layout α).stock = 0 := rfl
    rw [hempty, add_zero] at hstock
    rw [hrun]
    exact hstock
  · intro htransient
    obtain ⟨layout', added, dropped, hlater, hmoved, hkept⟩ := exists_run_eq hstack later
    rw [hlater]
    exact spares_of_committed hstack hmoved (hkept htransient)

section

/-- Of two committed values one is popped, together with a pending one. -/
def popped : List (Stack.Operation Nat) := [.push 1, .push 2, .commit, .push 3, .pop 2]

/-- The second push finds the stack full. -/
def undone : List (Stack.Operation Nat) := [.push 4, .push 5, .rollback]

theorem run_destroys_once_undone :
    ((opened 3).run popped).destroyed = [3] ∧
      (((opened 3).run popped).run undone).destroyed = [3, 5, 4] ∧
      (((opened 3).run popped).run undone).stack.toList = [1, 2] ∧
      ((opened 3).run popped).Balanced ∧
      (∀ op ∈ undone, op.isTransient = true) ∧
      ((opened 3).run popped).Spares (((opened 3).run popped).run undone) := by
  have htransient : ∀ op ∈ undone, op.isTransient = true := by
    simp [undone, Stack.Operation.isTransient]
  obtain ⟨hbalanced, hspares⟩ := run_destroys_once 3 popped undone
  exact ⟨by decide, by decide, by decide, hbalanced, htransient, hspares htransient⟩

end

end Ledger

end ShiftReduce
