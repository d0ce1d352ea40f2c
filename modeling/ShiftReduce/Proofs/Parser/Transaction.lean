import ShiftReduce.Proofs.Parser.Step

/-!
# What one post can do

A post opens a transaction, offers the token, perhaps recovers and offers again, and closes the
transaction in one way or the other. Between posts the stack is `Settled`: nothing is pending and
nothing is hidden.
-/

namespace ShiftReduce

variable {σ τ π ν α : Type}

theorem bind_eq_ok {ε β γ : Type} {x : Except ε β} {f : β → Except ε γ} {c : γ} :
    x >>= f = .ok c ↔ ∃ b, x = .ok b ∧ f b = .ok c := by
  cases x with
  | error e => simp [bind, Except.bind]
  | ok b => simp [bind, Except.bind]

theorem toOption_bind_eq_some {ε β γ : Type} {x : Except ε β} {f : β → Except ε γ} {c : γ} :
    (x >>= f).toOption = some c ↔ ∃ b, x = .ok b ∧ (f b).toOption = some c := by
  cases x with
  | error e => simp [bind, Except.bind, Except.toOption]
  | ok b => simp [bind, Except.bind]

namespace Parser

variable {table : Table σ τ π} {sem : Semantics π ν α} {token : τ} {value : ν} {limit : Nat}
  {p q : Parser σ τ π ν α} {l : Layout (Frame σ ν)} {fate : Fate}

/-! ## Offers -/

theorem offer_effect {I : Layout (Frame σ ν) → Parser σ τ π ν α → Prop}
    (hkeep : ∀ l p l' q, I l p → Effect table sem token value l p l' q none → I l' q)
    (hp : p.stack = l.stack) (hI : I l p)
    (h : p.offer table sem token value limit = .ok (q, fate)) :
    ∃ l₁ p₁ l', I l₁ p₁ ∧ q.stack = l'.stack ∧
      Effect table sem token value l₁ p₁ l' q (some fate) := by
  induction limit generalizing p l with
  | zero => cases h
  | succ limit ih =>
    unfold offer at h
    rw [bind_eq_ok] at h
    obtain ⟨⟨p₁, fate?⟩, hstep, hrest⟩ := h
    obtain ⟨l₁, hp₁, heffect⟩ := step_effect hp hstep
    cases fate? with
    | none => exact ih hp₁ (hkeep l p l₁ p₁ hI heffect) hrest
    | some fate₁ =>
      cases hrest
      exact ⟨l, p, l₁, hI, hp₁, heffect⟩

theorem exists_effect_of_offer (hp : p.stack = l.stack)
    (h : p.offer table sem token value limit = .ok (q, fate)) :
    ∃ l₁ p₁ l', q.stack = l'.stack ∧ Effect table sem token value l₁ p₁ l' q (some fate) := by
  obtain ⟨l₁, p₁, l', -, hq, heffect⟩ := offer_effect (I := fun _ _ => True)
    (fun _ _ _ _ _ _ => trivial) hp trivial h
  exact ⟨l₁, p₁, l', hq, heffect⟩

theorem offer_stack (hp : p.stack = l.stack)
    (h : p.offer table sem token value limit = .ok (q, fate)) :
    ∃ l' : Layout (Frame σ ν), q.stack = l'.stack := by
  obtain ⟨_, _, l', hq, -⟩ := exists_effect_of_offer hp h
  exact ⟨l', hq⟩

theorem offer_keeps {β : Type} {f : Parser σ τ π ν α → β}
    (hkeep : ∀ {l p l' q fate?}, Effect table sem token value l p l' q fate? → f q = f p)
    (hp : p.stack = l.stack) (h : p.offer table sem token value limit = .ok (q, fate)) :
    f q = f p := by
  obtain ⟨_, p₁, _, hp₁, -, heffect⟩ := offer_effect (I := fun _ p' => f p' = f p)
    (fun _ _ _ _ hI he => (hkeep he).trans hI) hp rfl h
  exact (hkeep heffect).trans hp₁

theorem offer_of_fate {l' : Layout (Frame σ ν)} (hp : p.stack = l.stack)
    (h : Effect table sem token value l p l' q (some fate)) :
    p.offer table sem token value (limit + 1) = .ok (q, fate) := by
  unfold offer
  rw [h.step_eq hp]
  rfl

theorem offer_of_reduction {l' : Layout (Frame σ ν)} (hp : p.stack = l.stack)
    (h : Effect table sem token value l p l' q none) :
    p.offer table sem token value (limit + 1) = q.offer table sem token value limit := by
  rw [offer, h.step_eq hp]
  rfl

/-! ## Settled stacks -/

/-- No transaction is open on the stack. -/
def Settled (p : Parser σ τ π ν α) : Prop :=
  ∃ frames free, p.stack = (Layout.settled frames free).stack

theorem frames_eq (hp : p.stack = l.stack) : p.frames = l.frames := by
  unfold frames
  rw [hp, l.toList_stack]

theorem commit_stack (hp : p.stack = l.stack) : p.commit.stack = l.commit.stack := by
  unfold commit
  rw [hp, l.commit_stack]

theorem rollback_stack (hp : p.stack = l.stack) : p.rollback.stack = l.rollback.stack := by
  unfold rollback
  rw [hp, l.rollback_stack]

theorem settled_commit (hp : p.stack = l.stack) : p.commit.Settled := ⟨_, _, commit_stack hp⟩

theorem settled_rollback (hp : p.stack = l.stack) : p.rollback.Settled := ⟨_, _, rollback_stack hp⟩

/-- The parser that a token is offered to, with the token counted. -/
def opened (p : Parser σ τ π ν α) (token : τ) : Parser σ τ π ν α :=
  { p.rollback with stats := { p.stats with tokens := p.stats.tokens + 1 } }.recordStack token

theorem opened_stack {frames : List (Frame σ ν)} {free : Nat}
    (hp : p.stack = (Layout.settled frames free).stack) (token : τ) :
    (p.opened token).stack = (Layout.settled frames free).stack := by
  have h := rollback_stack hp
  rw [Layout.rollback_settled] at h
  exact h

/-- The parser that goes on after a rejection, with the error reported. -/
def reported (sem : Semantics π ν α) (p : Parser σ τ π ν α) (error : ParseError) :
    Parser σ τ π ν α :=
  { p.rollback.record (.failed error) with
    stats := { p.stats with syntaxErrors := p.stats.syntaxErrors + 1 }
    actions := sem.onSyntaxError p.actions
    lastError := some error }

theorem offer_status (hp : p.stack = l.stack)
    (h : p.offer table sem token value limit = .ok (q, fate)) :
    match fate with
    | .shifted | .rejected => q.status = p.status
    | .accepted => q.isAccepted = true
    | .overflowed => q.isErrored = true := by
  obtain ⟨_, p₁, _, hp₁, -, heffect⟩ := offer_effect (I := fun _ p' => p'.status = p.status)
    (fun _ _ _ _ hI he => by cases he; exact hI) hp rfl h
  cases heffect with
  | shift => exact hp₁
  | shiftFull => rfl
  | reduceFull => rfl
  | accept => rfl
  | reject => exact hp₁

theorem offer_overflowed (hp : p.stack = l.stack)
    (h : p.offer table sem token value limit = .ok (q, .overflowed)) :
    ∃ capacity, q.status = .errored (.overflow capacity) := by
  obtain ⟨_, _, _, -, heffect⟩ := exists_effect_of_offer hp h
  cases heffect with
  | shiftFull | reduceFull => exact ⟨_, rfl⟩

theorem isDone_congr (h : q.status = p.status) : q.isDone = p.isDone := by
  rw [isDone, isDone, h]

theorem isErrored_congr (h : q.status = p.status) : q.isErrored = p.isErrored := by
  rw [isErrored, isErrored, h]

theorem status_of_running (h : p.isDone = false) : p.status = .running := by
  unfold isDone at h
  split at h
  next hstatus => exact hstatus
  next => cases h

theorem isErrored_of_running (h : p.isDone = false) : p.isErrored = false := by
  rw [isErrored, status_of_running h]

theorem isErrored_of_accepted (h : p.isAccepted = true) : p.isErrored = false := by
  unfold isAccepted at h
  unfold isErrored
  split at h
  next hstatus => rw [hstatus]
  next => cases h

theorem isAccepted_of_running (h : p.isDone = false) : p.isAccepted = false := by
  rw [isAccepted, status_of_running h]

theorem isAccepted_of_errored (h : p.isErrored = true) : p.isAccepted = false := by
  unfold isErrored at h
  unfold isAccepted
  split at h
  next hstatus => rw [hstatus]
  next => cases h

theorem isDone_of_accepted (h : p.isAccepted = true) : p.isDone = true := by
  unfold isAccepted at h
  unfold isDone
  split at h
  next hstatus => rw [hstatus]
  next => cases h

theorem isDone_of_errored (h : p.isErrored = true) : p.isDone = true := by
  unfold isErrored at h
  unfold isDone
  split at h
  next hstatus => rw [hstatus]
  next => cases h

/-! ## How a recovery can end -/

/-- The parser that offers the error token, with its topmost `count` frames taken off. -/
def unwound (p : Parser σ τ π ν α) (count : Nat) (frame : Frame σ ν) : Parser σ τ π ν α :=
  { p with stack := (p.stack.drop count).1 }.record (.recovering frame.state)

/-- The parser behind a token that has not been taken: unless the stack was full, it fails. -/
def failed (p : Parser σ τ π ν α) (error : ParseError) : Parser σ τ π ν α :=
  if p.isDone then p else { p with status := .errored error }

/-- What recovery makes of a parser, and whether the error token has been taken. -/
inductive Recovers (table : Table σ τ π) (sem : Semantics π ν α) (limit : Nat) (errorToken : τ)
    (p : Parser σ τ π ν α) : Parser σ τ π ν α → Bool → Prop
  | noFrame (hnone : (p.stack.drop (p.unwindDepth table errorToken)).1.top? = none) :
      Recovers table sem limit errorToken p (p.record (.unrecoverable errorToken)) false
  | taken {frame q fate}
      (hframe : (p.stack.drop (p.unwindDepth table errorToken)).1.top? = some frame)
      (hoffer : (p.unwound (p.unwindDepth table errorToken) frame).offer table sem errorToken
        sem.blank limit = .ok (q, fate))
      (hfate : fate = .shifted ∨ fate = .accepted) :
      Recovers table sem limit errorToken p
        { q.commit with stats := { q.stats with recoveries := q.stats.recoveries + 1 } } true
  | refused {frame q fate}
      (hframe : (p.stack.drop (p.unwindDepth table errorToken)).1.top? = some frame)
      (hoffer : (p.unwound (p.unwindDepth table errorToken) frame).offer table sem errorToken
        sem.blank limit = .ok (q, fate))
      (hfate : fate = .rejected ∨ fate = .overflowed) :
      Recovers table sem limit errorToken p q.rollback false

theorem recover_of_none {errorToken : τ}
    (h : (p.stack.drop (p.unwindDepth table errorToken)).1.top? = none) :
    p.recover table sem limit errorToken = .ok (p.record (.unrecoverable errorToken), false) := by
  unfold recover
  simp only [h]
  rfl

theorem recover_of_some {errorToken : τ} {frame : Frame σ ν}
    (h : (p.stack.drop (p.unwindDepth table errorToken)).1.top? = some frame) :
    p.recover table sem limit errorToken =
      (p.unwound (p.unwindDepth table errorToken) frame).offer table sem errorToken sem.blank
          limit >>= fun (q, fate) =>
        match fate with
        | .shifted | .accepted =>
          pure ({ q.commit with
            stats := { q.stats with recoveries := q.stats.recoveries + 1 } }, true)
        | .rejected | .overflowed => pure (q.rollback, false) := by
  unfold recover
  simp only [h]
  rfl

theorem recover_cases {errorToken : τ} {taken : Bool}
    (h : p.recover table sem limit errorToken = .ok (q, taken)) :
    Recovers table sem limit errorToken p q taken := by
  cases htop : (p.stack.drop (p.unwindDepth table errorToken)).1.top? with
  | none =>
    rw [recover_of_none htop] at h
    cases h
    exact .noFrame htop
  | some frame =>
    rw [recover_of_some htop] at h
    obtain ⟨⟨q, fate⟩, hoffer, hrest⟩ := bind_eq_ok.mp h
    cases fate with
    | shifted => cases hrest; exact .taken htop hoffer (.inl rfl)
    | accepted => cases hrest; exact .taken htop hoffer (.inr rfl)
    | rejected => cases hrest; exact .refused htop hoffer (.inl rfl)
    | overflowed => cases hrest; exact .refused htop hoffer (.inr rfl)

theorem unwound_stack (hp : p.stack = l.stack) (count : Nat) (frame : Frame σ ν) :
    (p.unwound count frame).stack = (l.drop count).stack := by
  change (p.stack.drop count).1 = _
  rw [hp, Layout.drop_stack]

theorem Recovers.settled {errorToken : τ} {taken : Bool} (hp : p.Settled)
    (h : Recovers table sem limit errorToken p q taken) : q.Settled := by
  obtain ⟨frames, free, hstack⟩ := hp
  cases h with
  | noFrame => exact ⟨frames, free, hstack⟩
  | @taken frame p₁ _ _ hoffer =>
    obtain ⟨l', hl'⟩ := offer_stack (unwound_stack hstack _ frame) hoffer
    exact settled_commit hl'
  | @refused frame p₁ _ _ hoffer =>
    obtain ⟨l', hl'⟩ := offer_stack (unwound_stack hstack _ frame) hoffer
    exact settled_rollback hl'

/-- The counts that a step leaves alone. -/
def tally (p : Parser σ τ π ν α) : Stats := { p.stats with shifts := 0, reductions := 0 }

theorem Effect.tally_eq {l' : Layout (Frame σ ν)} {fate? : Option Fate}
    (h : Effect table sem token value l p l' q fate?) : q.tally = p.tally := by
  cases h <;> rfl

theorem offer_tally (hp : p.stack = l.stack)
    (h : p.offer table sem token value limit = .ok (q, fate)) : q.tally = p.tally :=
  offer_keeps Effect.tally_eq hp h

/-! ## How a post can end -/

/-- What a token comes to that is offered again. -/
inductive Retries (table : Table σ τ π) (sem : Semantics π ν α) (limit : Nat) (token : τ)
    (value : ν) (p : Parser σ τ π ν α) : Parser σ τ π ν α → Prop
  | taken {r : Parser σ τ π ν α} {fate : Fate}
      (hoffer : p.offer table sem token value limit = .ok (r, fate))
      (hfate : fate = .shifted ∨ fate = .accepted) : Retries table sem limit token value p r.commit
  | full {r : Parser σ τ π ν α}
      (hoffer : p.offer table sem token value limit = .ok (r, .overflowed)) :
      Retries table sem limit token value p r.rollback
  | gaveUp {r : Parser σ τ π ν α} {error : ParseError}
      (hoffer : p.offer table sem token value limit = .ok (r, .rejected))
      (htoken : token = table.endToken) (herror : r.rollback.rejection table token = .ok error) :
      Retries table sem limit token value p
        { r.rollback.record (.givingUp error) with
          lastError := some error, status := .errored error }
  | discarded {r : Parser σ τ π ν α}
      (hoffer : p.offer table sem token value limit = .ok (r, .rejected))
      (htoken : token ≠ table.endToken) :
      Retries table sem limit token value p
        { r.rollback.record (.discarding token) with
          stats := { r.stats with discarded := r.stats.discarded + 1 } }

/-- The first offer of the token is rejected with the error, and the second parser reports it. -/
def Rejects (table : Table σ τ π) (sem : Semantics π ν α) (limit : Nat) (token : τ) (value : ν)
    (p : Parser σ τ π ν α) (error : ParseError) (q : Parser σ τ π ν α) : Prop :=
  ∃ r, (p.opened token).offer table sem token value limit = .ok (r, .rejected) ∧
    r.rollback.rejection table token = .ok error ∧ q = r.reported sem error

/-- What becomes of a parser that has reported the rejection of a token. -/
inductive Resumes (table : Table σ τ π) (sem : Semantics π ν α) (limit : Nat) (token : τ)
    (value : ν) (error : ParseError) (p : Parser σ τ π ν α) : Parser σ τ π ν α → Prop
  | unprovided (hnone : table.errorToken = none) :
      Resumes table sem limit token value error p (p.failed error)
  | unrecovered {errorToken : τ} {r : Parser σ τ π ν α}
      (herrorToken : table.errorToken = some errorToken)
      (hrecovers : Recovers table sem limit errorToken p r false) :
      Resumes table sem limit token value error p (r.failed error)
  /-- The error token has been accepted, and the rejected one is not offered again. -/
  | recovered {errorToken : τ} {r : Parser σ τ π ν α}
      (herrorToken : table.errorToken = some errorToken)
      (hrecovers : Recovers table sem limit errorToken p r true) (hdone : r.isDone = true) :
      Resumes table sem limit token value error p r
  | retried {errorToken : τ} {r s : Parser σ τ π ν α}
      (herrorToken : table.errorToken = some errorToken)
      (hrecovers : Recovers table sem limit errorToken p r true) (hrunning : r.isDone = false)
      (hretries : Retries table sem limit token value r s) :
      Resumes table sem limit token value error p s

/-- What a post makes of a running parser. -/
inductive Posts (table : Table σ τ π) (sem : Semantics π ν α) (limit : Nat) (token : τ) (value : ν)
    (p : Parser σ τ π ν α) : Parser σ τ π ν α → Prop
  | taken {r : Parser σ τ π ν α} {fate : Fate}
      (hoffer : (p.opened token).offer table sem token value limit = .ok (r, fate))
      (hfate : fate = .shifted ∨ fate = .accepted) : Posts table sem limit token value p r.commit
  | full {r : Parser σ τ π ν α}
      (hoffer : (p.opened token).offer table sem token value limit = .ok (r, .overflowed)) :
      Posts table sem limit token value p r.rollback
  | rejected {error : ParseError} {r s : Parser σ τ π ν α}
      (hrejects : Rejects table sem limit token value p error r)
      (hresumes : Resumes table sem limit token value error r s) :
      Posts table sem limit token value p s

/-! ## A post leaves the stack settled -/

@[simp] theorem failed_stack (p : Parser σ τ π ν α) (error : ParseError) :
    (p.failed error).stack = p.stack := by
  unfold failed
  split <;> rfl

theorem eq_failed {error : ParseError}
    (h : (if p.isDone then pure p else pure { p with status := .errored error } :
      Except (Halted σ τ π ν) (Parser σ τ π ν α)) = .ok q) : q = p.failed error := by
  unfold failed
  split at h
  next hdone => rw [if_pos hdone]; exact (Except.ok.inj h).symm
  next hdone => rw [if_neg hdone]; exact (Except.ok.inj h).symm

theorem Rejects.settled {error : ParseError} (hp : p.Settled)
    (h : Rejects table sem limit token value p error q) : q.Settled := by
  obtain ⟨r, hoffer, -, rfl⟩ := h
  obtain ⟨frames, free, hstack⟩ := hp
  obtain ⟨l', hl'⟩ := offer_stack (opened_stack hstack token) hoffer
  exact settled_rollback hl'

theorem Rejects.isDone_eq {error : ParseError} (hp : p.Settled) (hrunning : p.isDone = false)
    (h : Rejects table sem limit token value p error q) : q.isDone = false := by
  obtain ⟨r, hoffer, -, rfl⟩ := h
  obtain ⟨frames, free, hstack⟩ := hp
  have hstatus : r.status = (p.opened token).status :=
    offer_status (opened_stack hstack token) hoffer
  exact (isDone_congr hstatus).trans hrunning

theorem Retries.settled (hp : p.Settled) (h : Retries table sem limit token value p q) :
    q.Settled := by
  obtain ⟨frames, free, hstack⟩ := hp
  cases h with
  | taken hoffer =>
    obtain ⟨l', hl'⟩ := offer_stack hstack hoffer
    exact settled_commit hl'
  | full hoffer | gaveUp hoffer | discarded hoffer =>
    obtain ⟨l', hl'⟩ := offer_stack hstack hoffer
    exact settled_rollback hl'

theorem Resumes.settled {error : ParseError} (hp : p.Settled)
    (h : Resumes table sem limit token value error p q) : q.Settled := by
  cases h with
  | unprovided =>
    unfold Settled
    rwa [failed_stack]
  | unrecovered _ hrecovers =>
    unfold Settled
    rw [failed_stack]
    exact hrecovers.settled hp
  | recovered _ hrecovers => exact hrecovers.settled hp
  | retried _ hrecovers _ hretries => exact hretries.settled (hrecovers.settled hp)

theorem Posts.settled (hp : p.Settled) (h : Posts table sem limit token value p q) :
    q.Settled := by
  cases h with
  | taken hoffer =>
    obtain ⟨frames, free, hstack⟩ := hp
    obtain ⟨l', hl'⟩ := offer_stack (opened_stack hstack token) hoffer
    exact settled_commit hl'
  | full hoffer =>
    obtain ⟨frames, free, hstack⟩ := hp
    obtain ⟨l', hl'⟩ := offer_stack (opened_stack hstack token) hoffer
    exact settled_rollback hl'
  | rejected hrejects hresumes => exact hresumes.settled (hrejects.settled hp)

/-! ## What a post counts -/

@[simp] theorem failed_tally (p : Parser σ τ π ν α) (error : ParseError) :
    (p.failed error).tally = p.tally := by
  unfold failed
  split <;> rfl

theorem Rejects.tally_eq {error : ParseError} (hp : p.Settled)
    (h : Rejects table sem limit token value p error q) :
    q.tally = { p.tally with
      tokens := p.stats.tokens + 1
      syntaxErrors := p.stats.syntaxErrors + 1 } := by
  obtain ⟨r, hoffer, -, rfl⟩ := h
  obtain ⟨frames, free, hstack⟩ := hp
  have hopened : (p.opened token).tally = { p.tally with tokens := p.stats.tokens + 1 } := rfl
  have hreported : (r.reported sem error).tally =
      { r.tally with syntaxErrors := r.tally.syntaxErrors + 1 } := rfl
  rw [hreported, offer_tally (opened_stack hstack token) hoffer, hopened]
  rfl

theorem Recovers.tally_eq {errorToken : τ} {taken : Bool} (hp : p.Settled)
    (h : Recovers table sem limit errorToken p q taken) :
    q.tally = { p.tally with recoveries := p.stats.recoveries + taken.toNat } := by
  obtain ⟨frames, free, hstack⟩ := hp
  have hunwound (count : Nat) (frame : Frame σ ν) : (p.unwound count frame).tally = p.tally := rfl
  cases h with
  | noFrame => rfl
  | @taken frame r _ _ hoffer =>
    have hr := offer_tally (unwound_stack hstack _ frame) hoffer
    have hcommit : ({ r.commit with
        stats := { r.stats with recoveries := r.stats.recoveries + 1 } } :
          Parser σ τ π ν α).tally = { r.tally with recoveries := r.tally.recoveries + 1 } := rfl
    rw [hcommit, hr, hunwound]
    rfl
  | @refused frame r _ _ hoffer =>
    have hr := offer_tally (unwound_stack hstack _ frame) hoffer
    rw [hunwound] at hr
    exact hr

theorem Retries.tally_eq (hp : p.Settled) (h : Retries table sem limit token value p q) :
    q.tally = p.tally ∨ q.tally = { p.tally with discarded := p.stats.discarded + 1 } := by
  obtain ⟨frames, free, hstack⟩ := hp
  cases h with
  | taken hoffer | full hoffer | gaveUp hoffer =>
    have hr := offer_tally hstack hoffer
    exact .inl hr
  | @discarded r hoffer =>
    have hdropped : ({ r.rollback.record (.discarding token) with
        stats := { r.stats with discarded := r.stats.discarded + 1 } } :
          Parser σ τ π ν α).tally = { r.tally with discarded := r.tally.discarded + 1 } := rfl
    rw [hdropped, offer_tally hstack hoffer]
    exact .inr rfl

theorem Resumes.syntaxErrors_eq {error : ParseError} (hp : p.Settled)
    (h : Resumes table sem limit token value error p q) :
    q.stats.syntaxErrors = p.stats.syntaxErrors := by
  change q.tally.syntaxErrors = p.tally.syntaxErrors
  cases h with
  | unprovided => rw [failed_tally]
  | unrecovered _ hrecovers => rw [failed_tally, hrecovers.tally_eq hp]
  | recovered _ hrecovers => rw [hrecovers.tally_eq hp]
  | @retried _ r _ _ hrecovers _ hretries =>
    have hr : r.tally.syntaxErrors = p.tally.syntaxErrors := by rw [hrecovers.tally_eq hp]
    rcases hretries.tally_eq (hrecovers.settled hp) with heq | heq <;> rw [heq, ← hr]

theorem Posts.syntaxErrors_le (hp : p.Settled) (h : Posts table sem limit token value p q) :
    p.stats.syntaxErrors ≤ q.stats.syntaxErrors := by
  change p.tally.syntaxErrors ≤ q.tally.syntaxErrors
  cases h with
  | @taken r _ hoffer =>
    obtain ⟨frames, free, hstack⟩ := hp
    have hr := congrArg Stats.syntaxErrors (offer_tally (opened_stack hstack token) hoffer)
    exact Nat.le_of_eq hr.symm
  | @full r hoffer =>
    obtain ⟨frames, free, hstack⟩ := hp
    have hr := congrArg Stats.syntaxErrors (offer_tally (opened_stack hstack token) hoffer)
    exact Nat.le_of_eq hr.symm
  | @rejected _ r _ hrejects hresumes =>
    have hr : r.tally.syntaxErrors = p.tally.syntaxErrors + 1 := by rw [hrejects.tally_eq hp]; rfl
    have hq : q.tally.syntaxErrors = r.tally.syntaxErrors :=
      hresumes.syntaxErrors_eq (hrejects.settled hp)
    omega

/-! ## Posts as sequences of offers -/

variable [DecidableEq τ]

theorem post_of_done (h : p.isDone = true) :
    p.post table sem limit token value = .ok (p.record (.ignored token)) := by
  unfold post
  rw [if_pos h]
  rfl

theorem post_of_running (h : p.isDone = false) :
    p.post table sem limit token value =
      (p.opened token).offer table sem token value limit >>= fun (q, fate) =>
        match fate with
        | .shifted | .accepted => pure q.commit
        | .overflowed => pure q.rollback
        | .rejected => q.reject table sem limit token value := by
  unfold post
  rw [if_neg (by simp [h])]
  rfl

theorem reject_eq :
    p.reject table sem limit token value =
      p.rollback.rejection table token >>= fun error =>
        (match table.errorToken with
          | some errorToken => (p.reported sem error).recover table sem limit errorToken
          | none => pure (p.reported sem error, false)) >>= fun (q, recovered) =>
          if q.isDone then pure q
          else if recovered then q.retry table sem limit token value
          else pure { q with status := .errored error } := by
  rw [reject]
  congr 1
  funext error
  cases table.errorToken <;> rfl

theorem retry_cases (h : p.retry table sem limit token value = .ok q) :
    Retries table sem limit token value p q := by
  obtain ⟨⟨r, fate⟩, hoffer, hrest⟩ := bind_eq_ok.mp h
  cases fate with
  | shifted => cases hrest; exact .taken hoffer (.inl rfl)
  | accepted => cases hrest; exact .taken hoffer (.inr rfl)
  | overflowed => cases hrest; exact .full hoffer
  | rejected =>
    simp only at hrest
    split at hrest
    next htoken =>
      obtain ⟨error, herror, hq⟩ := bind_eq_ok.mp hrest
      cases hq
      exact .gaveUp hoffer htoken herror
    next htoken =>
      cases hrest
      exact .discarded hoffer htoken

theorem reject_cases (h : p.reject table sem limit token value = .ok q) :
    ∃ error, p.rollback.rejection table token = .ok error ∧
      Resumes table sem limit token value error (p.reported sem error) q := by
  rw [reject_eq] at h
  obtain ⟨error, herror, h⟩ := bind_eq_ok.mp h
  refine ⟨error, herror, ?_⟩
  obtain ⟨⟨r, recovered⟩, hrecover, h⟩ := bind_eq_ok.mp h
  cases herrorToken : table.errorToken with
  | none =>
    rw [herrorToken] at hrecover
    cases hrecover
    simp only [Bool.false_eq_true, if_false] at h
    obtain rfl := eq_failed h
    exact .unprovided herrorToken
  | some errorToken =>
    rw [herrorToken] at hrecover
    have hrecovers := recover_cases hrecover
    cases recovered with
    | false =>
      simp only [Bool.false_eq_true, if_false] at h
      obtain rfl := eq_failed h
      exact .unrecovered herrorToken hrecovers
    | true =>
      simp only at h
      split at h
      next hdone => cases h; exact .recovered herrorToken hrecovers hdone
      next hdone =>
        exact .retried herrorToken hrecovers (by simpa using hdone) (retry_cases h)

theorem post_cases (hrunning : p.isDone = false)
    (h : p.post table sem limit token value = .ok q) : Posts table sem limit token value p q := by
  rw [post_of_running hrunning] at h
  obtain ⟨⟨r, fate⟩, hoffer, h⟩ := bind_eq_ok.mp h
  cases fate with
  | shifted => cases h; exact .taken hoffer (.inl rfl)
  | accepted => cases h; exact .taken hoffer (.inr rfl)
  | overflowed => cases h; exact .full hoffer
  | rejected =>
    obtain ⟨error, herror, hresumes⟩ := reject_cases h
    exact .rejected ⟨r, hoffer, herror, rfl⟩ hresumes

theorem Settled.post (hp : p.Settled) (h : p.post table sem limit token value = .ok q) :
    q.Settled := by
  cases hdone : p.isDone with
  | true =>
    rw [post_of_done hdone] at h
    cases h
    exact hp
  | false => exact (post_cases hdone h).settled hp

theorem post_syntaxErrors_le (hp : p.Settled) (h : p.post table sem limit token value = .ok q) :
    p.stats.syntaxErrors ≤ q.stats.syntaxErrors := by
  cases hdone : p.isDone with
  | true =>
    rw [post_of_done hdone] at h
    cases h
    exact Nat.le_refl _
  | false => exact (post_cases hdone h).syntaxErrors_le hp

/-- A post to a running parser that neither reports a syntax error nor ends in error keeps what one
offer has done. -/
theorem post_of_no_error (hp : p.Settled) (hrunning : p.isDone = false)
    (h : p.post table sem limit token value = .ok q)
    (hcount : q.stats.syntaxErrors = p.stats.syntaxErrors) (hlive : q.isErrored = false) :
    ∃ p₁ fate, (p.opened token).offer table sem token value limit = .ok (p₁, fate) ∧
      (fate = .shifted ∨ fate = .accepted) ∧ q = p₁.commit := by
  cases post_cases hrunning h with
  | @taken r fate hoffer hfate => exact ⟨r, fate, hoffer, hfate, rfl⟩
  | @full r hoffer =>
    obtain ⟨frames, free, hstack⟩ := hp
    have herrored : r.isErrored = true := offer_status (opened_stack hstack token) hoffer
    exact absurd (hlive.symm.trans herrored) (by decide)
  | @rejected _ r _ hrejects hresumes =>
    have hr : r.tally.syntaxErrors = p.tally.syntaxErrors + 1 := by rw [hrejects.tally_eq hp]; rfl
    have hq := hresumes.syntaxErrors_eq (hrejects.settled hp)
    change r.stats.syntaxErrors = p.stats.syntaxErrors + 1 at hr
    omega

end Parser

end ShiftReduce
