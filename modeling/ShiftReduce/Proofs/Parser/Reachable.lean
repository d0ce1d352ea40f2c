import ShiftReduce.Proofs.Parser.Transaction

/-!
# Runs of posts

A parser is fresh when it has been created or reset and not been posted to since. Between calls no
transaction is open, whatever the table.
-/

namespace ShiftReduce.Parser

variable {σ τ π ν α : Type} {table : Table σ τ π} {sem : Semantics π ν α} {token : τ} {value : ν}
  {limit : Nat} {p q : Parser σ τ π ν α} {l : Layout (Frame σ ν)}

/-! ## Starting over -/

theorem reset_of_room (hp : p.stack = l.stack) (h : 0 < l.capacity) :
    p.reset table sem = { p with
      status := .running
      lastError := none
      stats := {}
      stack := (Layout.settled [⟨table.start, sem.blank⟩] (l.capacity - 1)).stack } := by
  have hcommit : ((Layout.settled [] l.capacity).push
      (⟨table.start, sem.blank⟩ : Frame σ ν)).commit =
        Layout.settled [⟨table.start, sem.blank⟩] (l.capacity - 1) := by
    simp [Layout.settled, Layout.push, Layout.commit, Layout.frames]
  unfold reset
  rw [hp, l.clear_stack]
  simp only
  rw [push_eq (l := Layout.settled [] l.capacity) rfl,
    if_pos (show 0 < (Layout.settled [] l.capacity : Layout (Frame σ ν)).free from h)]
  simp only [commit, Layout.commit_stack, hcommit]

theorem reset_of_no_room (hp : p.stack = l.stack) (h : l.capacity = 0) :
    p.reset table sem = { p with
      status := .running
      lastError := none
      stats := {}
      stack := (Layout.settled [] 0 : Layout (Frame σ ν)).stack }.overflowed sem := by
  unfold reset
  rw [hp, l.clear_stack, h]
  simp only
  rw [push_eq (l := Layout.settled [] 0) rfl, if_neg (by simp [Layout.settled])]

theorem settled_reset (hp : p.stack = l.stack) : (p.reset table sem).Settled := by
  by_cases h : 0 < l.capacity
  · rw [reset_of_room hp h]
    exact ⟨_, _, rfl⟩
  · rw [reset_of_no_room hp (by omega)]
    exact ⟨_, _, rfl⟩

/-! ## Reachable parsers -/

variable [DecidableEq τ]

/-- The parsers that posts and resets lead to. Between calls the actions may be given any state, and
a post may have any bound on its steps. -/
inductive Reachable (table : Table σ τ π) (sem : Semantics π ν α) : Parser σ τ π ν α → Prop
  | create (actions : α) (capacity : Nat) : Reachable table sem (create table sem actions capacity)
  | post {p₁ p₂ limit token value} : Reachable table sem p₁ →
      p₁.post table sem limit token value = .ok p₂ → Reachable table sem p₂
  | reset {p₁} : Reachable table sem p₁ → Reachable table sem (p₁.reset table sem)
  | update {p₁} (actions : α) : Reachable table sem p₁ → Reachable table sem { p₁ with actions }

theorem Reachable.settled (h : Reachable table sem p) : p.Settled := by
  induction h with
  | create actions capacity => exact settled_reset (Layout.stack_settled_nil capacity).symm
  | post _ hpost ih => exact ih.post hpost
  | reset _ ih =>
    obtain ⟨frames, free, hstack⟩ := ih
    exact settled_reset hstack
  | update actions _ ih => exact ih

/-- A parser before its first token. -/
inductive Fresh (table : Table σ τ π) (sem : Semantics π ν α) : Parser σ τ π ν α → Prop
  | create (actions : α) (capacity : Nat) : Fresh table sem (create table sem actions capacity)
  | reset {p₁} : Reachable table sem p₁ → Fresh table sem (p₁.reset table sem)

theorem Fresh.exists_reset (h : Fresh table sem p) :
    ∃ (p₀ : Parser σ τ π ν α) (l : Layout (Frame σ ν)), p₀.stack = l.stack ∧
      p = p₀.reset table sem := by
  cases h with
  | create actions capacity =>
    exact ⟨_, .settled [] capacity, (Layout.stack_settled_nil capacity).symm, rfl⟩
  | reset h =>
    obtain ⟨frames, free, hstack⟩ := h.settled
    exact ⟨_, _, hstack, rfl⟩

theorem Fresh.cases (h : Fresh table sem p) :
    p.isErrored = true ∨
      p.status = .running ∧ p.stats = {} ∧
        ∃ free, p.stack = (Layout.settled [⟨table.start, sem.blank⟩] free).stack := by
  obtain ⟨p₀, l, hp₀, rfl⟩ := h.exists_reset
  by_cases hroom : 0 < l.capacity
  · rw [reset_of_room hp₀ hroom]
    exact .inr ⟨rfl, rfl, _, rfl⟩
  · rw [reset_of_no_room hp₀ (by omega)]
    exact .inl rfl

theorem Fresh.isAccepted_eq (h : Fresh table sem p) : p.isAccepted = false := by
  rcases h.cases with herrored | ⟨hrunning, -, -⟩
  · exact isAccepted_of_errored herrored
  · rw [isAccepted, hrunning]

theorem Fresh.settled (h : Fresh table sem p) : p.Settled := by
  obtain ⟨p₀, l, hp₀, rfl⟩ := h.exists_reset
  exact settled_reset hp₀

/-! ## Runs -/

theorem postAll_concat (posts : List (τ × ν)) :
    p.postAll table sem limit (posts ++ [(token, value)]) =
      p.postAll table sem limit posts >>= fun q => q.post table sem limit token value := by
  simp only [postAll, List.foldlM_append, List.foldlM_cons, List.foldlM_nil, bind_pure]

theorem postAll_keeps {I : Parser σ τ π ν α → Prop} {posts : List (τ × ν)}
    (hkeep : ∀ p q t v, I p → p.post table sem limit t v = .ok q → I q) (hp : I p)
    (h : p.postAll table sem limit posts = .ok q) : I q := by
  induction posts using List.reverseRecOn generalizing q with
  | nil => cases h; exact hp
  | append_singleton posts post ih =>
    rw [postAll_concat, bind_eq_ok] at h
    obtain ⟨p₁, hrun, hpost⟩ := h
    exact hkeep _ _ _ _ (ih hrun) hpost

theorem Reachable.postAll {posts : List (τ × ν)} (hp : Reachable table sem p)
    (h : p.postAll table sem limit posts = .ok q) : Reachable table sem q :=
  postAll_keeps (fun _ _ _ _ => .post) hp h

theorem Settled.postAll {posts : List (τ × ν)} (hp : p.Settled)
    (h : p.postAll table sem limit posts = .ok q) : q.Settled :=
  postAll_keeps (fun _ _ _ _ => .post) hp h

/-! ## Runs of posts and resets -/

/-- A call that moves a run on. -/
inductive Command (τ ν : Type)
  | post (token : τ) (value : ν)
  | reset

def Command.map {ν' : Type} (f : ν → ν') : Command τ ν → Command τ ν'
  | .post token value => .post token (f value)
  | .reset => .reset

def perform (table : Table σ τ π) (sem : Semantics π ν α) (limit : Nat) (p : Parser σ τ π ν α) :
    Command τ ν → Except (Halted σ τ π ν) (Parser σ τ π ν α)
  | .post token value => p.post table sem limit token value
  | .reset => pure (p.reset table sem)

/-- The parser before the first command and the one after each, up to a command that halts, and the
cause of the halt if there is one. -/
def trace (table : Table σ τ π) (sem : Semantics π ν α) (limit : Nat) (p : Parser σ τ π ν α) :
    List (Command τ ν) → List (Parser σ τ π ν α) × Option Halt
  | [] => ([p], none)
  | command :: rest =>
    match p.perform table sem limit command with
    | .ok q => (p :: (q.trace table sem limit rest).1, (q.trace table sem limit rest).2)
    | .error halted => ([p], some halted.cause)

theorem trace_of_ok {command : Command τ ν} {rest : List (Command τ ν)}
    (h : p.perform table sem limit command = .ok q) :
    p.trace table sem limit (command :: rest) =
      (p :: (q.trace table sem limit rest).1, (q.trace table sem limit rest).2) := by
  rw [trace, h]

theorem trace_of_error {command : Command τ ν} {rest : List (Command τ ν)}
    {halted : Halted σ τ π ν} (h : p.perform table sem limit command = .error halted) :
    p.trace table sem limit (command :: rest) = ([p], some halted.cause) := by
  rw [trace, h]

theorem exists_trace_eq_cons (table : Table σ τ π) (sem : Semantics π ν α) (limit : Nat)
    (p : Parser σ τ π ν α) (commands : List (Command τ ν)) :
    ∃ later, (p.trace table sem limit commands).1 = p :: later := by
  cases commands with
  | nil => exact ⟨[], rfl⟩
  | cons command rest =>
    cases hq : p.perform table sem limit command with
    | ok q => rw [trace_of_ok hq]; exact ⟨_, rfl⟩
    | error halted => rw [trace_of_error hq]; exact ⟨[], rfl⟩

theorem forall_mem_trace {I : Parser σ τ π ν α → Prop} {commands : List (Command τ ν)}
    (hperform : ∀ p q, ∀ command ∈ commands, I p →
      p.perform table sem limit command = .ok q → I q)
    (hp : I p) : ∀ q ∈ (p.trace table sem limit commands).1, I q := by
  induction commands generalizing p with
  | nil =>
    intro q hq
    rw [List.mem_singleton.mp hq]
    exact hp
  | cons command rest ih =>
    have hrest (p q : Parser σ τ π ν α) (c : Command τ ν) (hc : c ∈ rest) :=
      hperform p q c (List.mem_cons_of_mem command hc)
    intro r hr
    cases hq : p.perform table sem limit command with
    | error halted =>
      rw [trace_of_error hq] at hr
      rw [List.mem_singleton.mp hr]
      exact hp
    | ok q =>
      rw [trace_of_ok hq] at hr
      rcases List.mem_cons.mp hr with rfl | hr
      · exact hp
      · exact ih hrest (hperform p q command List.mem_cons_self hp hq) r hr

end ShiftReduce.Parser
