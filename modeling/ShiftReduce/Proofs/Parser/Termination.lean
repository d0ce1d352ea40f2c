import ShiftReduce.Proofs.Parser.Transaction

/-!
# Posts on ranked tables come to an end

The bound on the steps of an offer is there because a table may reduce without end. It cannot if no
production is empty and if its states are ranked such that a reduction of one symbol lowers the rank
of the state on top: each reduction then makes the stack shorter, or keeps its depth and lowers that
rank. No layout is assumed of the stack, so a step is opened here once more.
-/

namespace ShiftReduce

variable {σ τ π ν α β γ : Type}

/-- No production is empty, and where a reduction on a token takes one frame off, the state that is
entered for it has a lower rank for this token than the state that was there. -/
structure Table.Ranked (table : Table σ τ π) (rank : τ → σ → Nat) : Prop where
  arity_pos : ∀ production, 0 < table.arity production
  falls : ∀ token s production, table.entry s token = .reduce production →
    table.arity production = 1 → ∀ under next, table.entry under (table.lhs production) = .goto next →
      rank token next < rank token s

/-! ## Runs that do not run out of steps -/

/-- There is an answer or a breach. -/
def Answered (x : Except (Halted σ τ π ν) β) : Prop :=
  ∀ halted, x = .error halted → halted.cause ≠ .exhausted

/-- Some number of steps is enough for an answer or a breach, and more of them make no difference. -/
def Finishes (run : Nat → Except (Halted σ τ π ν) β) : Prop :=
  ∃ bound answer, Answered answer ∧ ∀ limit, bound ≤ limit → run limit = answer

theorem answered_ok (b : β) : Answered (.ok b : Except (Halted σ τ π ν) β) := by
  intro halted h
  cases h

theorem answered_error_iff {halted : Halted σ τ π ν} :
    Answered (.error halted : Except (Halted σ τ π ν) β) ↔ halted.cause ≠ .exhausted := by
  constructor
  · intro h
    exact h halted rfl
  · intro h halted' heq
    cases heq
    exact h

theorem answered_halt (p : Parser σ τ π ν α) (cause : Breach) :
    Answered (p.halt cause : Except (Halted σ τ π ν) β) :=
  answered_error_iff.mpr nofun

theorem Answered.bind {x : Except (Halted σ τ π ν) β} {f : β → Except (Halted σ τ π ν) γ}
    (hx : Answered x) (hf : ∀ b, Answered (f b)) : Answered (x >>= f) := by
  cases x with
  | error halted => exact answered_error_iff.mpr (answered_error_iff.mp hx)
  | ok b => exact hf b

theorem Answered.finishes {x : Except (Halted σ τ π ν) β} (h : Answered x) :
    Finishes fun _ => x :=
  ⟨0, x, h, fun _ _ => rfl⟩

theorem Finishes.bind {run : Nat → Except (Halted σ τ π ν) β}
    {next : β → Nat → Except (Halted σ τ π ν) γ} (hrun : Finishes run)
    (hnext : ∀ b, Finishes (next b)) : Finishes fun limit => run limit >>= fun b => next b limit := by
  obtain ⟨bound, answer, hanswer, heq⟩ := hrun
  cases answer with
  | error halted =>
    refine ⟨bound, .error halted, answered_error_iff.mpr (answered_error_iff.mp hanswer), ?_⟩
    intro limit hlimit
    simp only [heq limit hlimit]
    rfl
  | ok b =>
    obtain ⟨bound', answer', hanswer', heq'⟩ := hnext b
    refine ⟨max bound bound', answer', hanswer', ?_⟩
    intro limit hlimit
    simp only [heq limit (by omega)]
    exact heq' limit (by omega)

namespace Parser

variable {table : Table σ τ π} {sem : Semantics π ν α} {token : τ} {value : ν}
  {p q : Parser σ τ π ν α} {rank : τ → σ → Nat}

/-! ## What a reduction does to the top of the stack -/

theorem push_taken {state : σ} (h : p.push sem state value = (q, true)) :
    q.depth = p.depth + 1 ∧ q.stack.top? = some ⟨state, value⟩ := by
  unfold push at h
  split at h
  next stack hpush =>
    obtain ⟨rfl, -⟩ := Prod.mk.inj h
    exact ⟨Stack.size_of_push? hpush, Stack.top?_of_push? hpush⟩
  next => cases (Prod.mk.inj h).2

theorem answered_topState (p : Parser σ τ π ν α) : Answered p.topState := by
  unfold topState
  split
  · exact answered_ok _
  · exact answered_halt p _

theorem answered_rejection (table : Table σ τ π) (p : Parser σ τ π ν α) (token : τ) :
    Answered (p.rejection table token) :=
  (answered_topState p).bind fun _ => answered_ok _

theorem reduce_taken {production : π} (h : p.reduce table sem production = .ok (q, true)) :
    q.depth + table.arity production = p.depth + 1 ∧
      ∃ under next value, table.entry under (table.lhs production) = .goto next ∧
        q.stack.top? = some ⟨next, value⟩ := by
  unfold reduce at h
  simp only at h
  split at h
  next => cases h
  next result _ =>
    split at h
    next => cases h
    next stack dropped hpop =>
      obtain ⟨under, -, h⟩ := bind_eq_ok.mp h
      split at h
      next next hgoto =>
        obtain ⟨hdepth, htop⟩ := push_taken (Except.ok.inj h)
        have hpopped : stack.size + table.arity production = p.depth := Stack.size_of_pop? hpop
        change q.depth = stack.size + 1 at hdepth
        exact ⟨by omega, under, next, result.value, hgoto, htop⟩
      next => cases h

theorem answered_reduce (table : Table σ τ π) (sem : Semantics π ν α) (p : Parser σ τ π ν α)
    (production : π) : Answered (p.reduce table sem production) := by
  unfold reduce
  simp only
  split
  · exact answered_halt _ _
  · split
    · exact answered_halt _ _
    · apply (answered_topState _).bind
      intro state
      split
      · exact answered_ok _
      · exact answered_halt _ _

/-! ## Steps -/

/-- The rank of the state on top, if there is one. -/
def topRank (rank : σ → Nat) (p : Parser σ τ π ν α) : Nat :=
  (p.stack.top?.map fun frame => rank frame.state).getD 0

theorem answered_step (table : Table σ τ π) (sem : Semantics π ν α) (token : τ) (value : ν)
    (p : Parser σ τ π ν α) : Answered (p.step table sem token value) := by
  unfold step
  apply (answered_topState p).bind
  intro state
  split
  · split <;> exact answered_ok _
  · apply (answered_reduce table sem p _).bind
    rintro ⟨q, room⟩
    cases room <;> exact answered_ok _
  · simp only
    split
    · exact answered_ok _
    · exact answered_halt _ _
  · exact answered_ok _
  · exact answered_halt p _

theorem step_reduces (h : p.step table sem token value = .ok (q, none)) :
    ∃ top production, p.stack.top? = some top ∧ table.entry top.state token = .reduce production ∧
      p.reduce table sem production = .ok (q, true) := by
  unfold step at h
  obtain ⟨state, hstate, h⟩ := bind_eq_ok.mp h
  obtain ⟨top, htop, rfl⟩ : ∃ top, p.stack.top? = some top ∧ top.state = state := by
    unfold topState at hstate
    split at hstate
    next top htop => exact ⟨top, htop, Except.ok.inj hstate⟩
    next => cases hstate
  split at h
  next => split at h <;> cases h
  next production hentry =>
    obtain ⟨⟨q', room⟩, hreduce, h⟩ := bind_eq_ok.mp h
    cases room with
    | true => cases h; exact ⟨top, production, htop, hentry, hreduce⟩
    | false => cases h
  next =>
    simp only at h
    split at h <;> cases h
  next => cases h
  next => cases h

end Parser

namespace Table.Ranked

open ShiftReduce.Parser

variable {table : Table σ τ π} {rank : τ → σ → Nat} (h : table.Ranked rank) {sem : Semantics π ν α}
  {token : τ} {value : ν} {p q : Parser σ τ π ν α}

include h

theorem step_falls (hstep : p.step table sem token value = .ok (q, none)) :
    q.depth < p.depth ∨ q.depth = p.depth ∧ q.topRank (rank token) < p.topRank (rank token) := by
  obtain ⟨top, production, htop, hentry, hreduce⟩ := step_reduces hstep
  obtain ⟨hdepth, under, next, value', hgoto, htop'⟩ := reduce_taken hreduce
  have harity := h.arity_pos production
  by_cases hunit : table.arity production = 1
  · right
    refine ⟨by omega, ?_⟩
    unfold topRank
    rw [htop, htop']
    exact h.falls token top.state production hentry hunit under next hgoto
  · left
    omega

/-! ## Offers and posts -/

theorem offer_finishes (sem : Semantics π ν α) (token : τ) (value : ν) (p : Parser σ τ π ν α) :
    Finishes fun limit => p.offer table sem token value limit := by
  -- A step answers, or it goes on with a parser that is lower, in depth or else in rank.
  have hanswered := answered_step table sem token value p
  cases hstep : p.step table sem token value with
  | error halted =>
    rw [hstep, answered_error_iff] at hanswered
    refine ⟨1, .error halted, answered_error_iff.mpr hanswered, ?_⟩
    intro limit hlimit
    obtain ⟨limit, rfl⟩ := Nat.exists_eq_add_of_le' hlimit
    simp only [offer, hstep]
    rfl
  | ok result =>
    obtain ⟨q, fate?⟩ := result
    cases fate? with
    | some fate =>
      refine ⟨1, .ok (q, fate), answered_ok _, ?_⟩
      intro limit hlimit
      obtain ⟨limit, rfl⟩ := Nat.exists_eq_add_of_le' hlimit
      simp only [offer, hstep]
      rfl
    | none =>
      have hfalls := h.step_falls hstep
      obtain ⟨bound, answer, hanswer, heq⟩ := offer_finishes sem token value q
      refine ⟨bound + 1, answer, hanswer, ?_⟩
      intro limit hlimit
      obtain ⟨limit, rfl⟩ : ∃ n, limit = n + 1 := ⟨limit - 1, by omega⟩
      simp only [offer, hstep]
      exact heq limit (by omega)
termination_by (p.depth, p.topRank (rank token))
decreasing_by
  rcases hfalls with hdepth | ⟨hdepth, hrank⟩
  · exact .left _ _ hdepth
  · rw [hdepth]
    exact .right _ hrank

theorem recover_finishes (sem : Semantics π ν α) (errorToken : τ) (p : Parser σ τ π ν α) :
    Finishes fun limit => p.recover table sem limit errorToken := by
  cases htop : (p.stack.drop (p.unwindDepth table errorToken)).1.top? with
  | none =>
    simp only [recover_of_none htop]
    exact (answered_ok _).finishes
  | some frame =>
    simp only [recover_of_some htop]
    apply (h.offer_finishes sem errorToken sem.blank _).bind
    rintro ⟨q, fate⟩
    cases fate <;> exact (answered_ok _).finishes

variable [DecidableEq τ]

theorem retry_finishes (sem : Semantics π ν α) (token : τ) (value : ν) (p : Parser σ τ π ν α) :
    Finishes fun limit => p.retry table sem limit token value := by
  unfold retry
  apply (h.offer_finishes sem token value p).bind
  rintro ⟨q, fate⟩
  cases fate with
  | shifted | accepted | overflowed => exact (answered_ok _).finishes
  | rejected =>
    simp only
    split
    · exact ((answered_rejection _ _ _).bind fun _ => answered_ok _).finishes
    · exact (answered_ok _).finishes

theorem reject_finishes (sem : Semantics π ν α) (token : τ) (value : ν) (p : Parser σ τ π ν α) :
    Finishes fun limit => p.reject table sem limit token value := by
  simp only [reject_eq]
  apply (answered_rejection _ _ _).finishes.bind
  intro error
  apply Finishes.bind
  · cases table.errorToken with
    | none => exact (answered_ok _).finishes
    | some errorToken => exact h.recover_finishes sem errorToken _
  · rintro ⟨q, recovered⟩
    simp only
    split
    · exact (answered_ok _).finishes
    · split
      · exact h.retry_finishes sem token value q
      · exact (answered_ok _).finishes

/-- A post on a ranked table comes to an end, the recovery and the second offering included, and this
whatever is on the stack. -/
theorem post_finishes (sem : Semantics π ν α) (token : τ) (value : ν) (p : Parser σ τ π ν α) :
    Finishes fun limit => p.post table sem limit token value := by
  cases hdone : p.isDone with
  | true =>
    simp only [post_of_done hdone]
    exact (answered_ok _).finishes
  | false =>
    simp only [post_of_running hdone]
    apply (h.offer_finishes sem token value _).bind
    rintro ⟨q, fate⟩
    cases fate with
    | shifted | accepted | overflowed => exact (answered_ok _).finishes
    | rejected => exact h.reject_finishes sem token value q

end Table.Ranked

end ShiftReduce
