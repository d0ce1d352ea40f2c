import ShiftReduce.Stack.Basic

/-!
# What no stack operation changes

The slots are allocated once: every operation keeps their number. Taking frames off and rolling back
keep the committed ones. A push adds the top frame, and taking `n` frames off leaves `n` fewer.
-/

namespace ShiftReduce.Stack

variable {α : Type}

@[simp] theorem size_release (slots : Array (Option α)) (indices : List Nat) :
    (release slots indices).1.size = slots.size := by
  induction indices generalizing slots with
  | nil => rfl
  | cons i rest ih => simp [release, ih]

@[simp] theorem size_flip (slots : Array (Option α)) (first n : Nat) :
    (flip slots first n).size = slots.size := by
  fun_induction flip slots first n with
  | case1 => rfl
  | case2 => rfl
  | case3 slots first n ih => simp [ih]

@[simp] theorem size_settle (slots : Array (Option α)) (source target n : Nat) :
    (settle slots source target n).1.size = slots.size := by
  induction n generalizing slots source target with
  | zero => rfl
  | succ n ih =>
    rw [settle]
    split
    · rfl
    · simp [ih]

@[simp] theorem capacity_ofCapacity (n : Nat) : (ofCapacity n : Stack α).capacity = n := by
  simp [ofCapacity, capacity]

@[simp] theorem toList_ofCapacity (n : Nat) : (ofCapacity n : Stack α).toList = [] := by
  simp [ofCapacity, toList, capacity]

theorem isSome_push?_iff (s : Stack α) (a : α) :
    (s.push? a).isSome ↔ s.committed + s.pending < s.capacity := by
  unfold push?
  split <;> simp [*]

theorem capacity_of_push? {s t : Stack α} {a : α} (h : s.push? a = some t) :
    t.capacity = s.capacity := by
  unfold push? at h
  split at h
  · obtain rfl := Option.some.inj h
    simp [capacity]
  · cases h

theorem size_of_push? {s t : Stack α} {a : α} (h : s.push? a = some t) : t.size = s.size + 1 := by
  unfold push? at h
  split at h
  · obtain rfl := Option.some.inj h
    rfl
  · cases h

theorem top?_of_push? {s t : Stack α} {a : α} (h : s.push? a = some t) : t.top? = some a := by
  unfold push? at h
  split at h
  next hroom =>
    obtain rfl := Option.some.inj h
    unfold capacity at hroom
    have hslot : s.slots.size - (s.pending + 1) = s.slots.size - 1 - s.pending := by omega
    have hsize : s.slots.size - 1 - s.pending < s.slots.size := by omega
    unfold top? slot
    simp [capacity, hslot, hsize]
  · cases h

@[simp] theorem capacity_drop (s : Stack α) (n : Nat) : (s.drop n).1.capacity = s.capacity := by
  simp [drop, capacity]

@[simp] theorem committed_drop (s : Stack α) (n : Nat) : (s.drop n).1.committed = s.committed := rfl

theorem size_drop {s : Stack α} {n : Nat} (h : n ≤ s.size) : (s.drop n).1.size = s.size - n := by
  simp only [drop, size] at *
  omega

theorem size_of_pop? {s t : Stack α} {n : Nat} {dropped : List α} (h : s.pop? n = some (t, dropped)) :
    t.size + n = s.size := by
  unfold pop? at h
  split at h
  next hn =>
    have ht : (s.drop n).1 = t := congrArg Prod.fst (Option.some.inj h)
    rw [← ht, size_drop hn]
    omega
  · cases h

@[simp] theorem capacity_rollback (s : Stack α) : s.rollback.1.capacity = s.capacity := by
  simp [rollback, capacity]

@[simp] theorem size_rollback (s : Stack α) : s.rollback.1.size = s.committed := by
  simp [rollback, size]

@[simp] theorem capacity_commit (s : Stack α) : s.commit.1.capacity = s.capacity := by
  simp [commit, capacity]

@[simp] theorem size_commit (s : Stack α) : s.commit.1.size = s.size := by
  simp [commit, size]

@[simp] theorem capacity_clear (s : Stack α) : s.clear.1.capacity = s.capacity := by
  simp [clear, rollback, capacity]

@[simp] theorem size_clear (s : Stack α) : s.clear.1.size = 0 := rfl

end ShiftReduce.Stack
