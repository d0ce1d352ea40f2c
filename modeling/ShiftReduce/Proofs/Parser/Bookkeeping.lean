import ShiftReduce.Proofs.Parser.Capacity
import ShiftReduce.Proofs.Parser.Path

/-!
# Status, last error and hooks

An error is recorded where a frame finds the stack full, where a token is rejected, where a recovery
fails and where the end of the input is given up on, and one of these can happen within another.
They never contradict each other, and the hooks have been called as often as the counts and the
status say.
-/

namespace ShiftReduce

variable {σ τ π ν α : Type}

/-! ## Watched actions -/

inductive Hook
  | syntaxError
  | overflow
  deriving DecidableEq

/-- Actions with a record of the hooks that have been called, the latest first. -/
structure Watched (α : Type) where
  actions : α
  calls : List Hook := []

/-- The same meaning, with a record of the hooks. -/
def Semantics.watched (sem : Semantics π ν α) : Semantics π ν (Watched α) where
  blank := sem.blank
  fresh := ⟨sem.fresh, []⟩
  reduce production args state := do
    let result ← sem.reduce production args state.actions
    pure ⟨result.value, ⟨result.actions, state.calls⟩, result.notes⟩
  onSyntaxError state := ⟨sem.onSyntaxError state.actions, .syntaxError :: state.calls⟩
  onOverflow state := ⟨sem.onOverflow state.actions, .overflow :: state.calls⟩
  describe := sem.describe

theorem Semantics.blank_watched (sem : Semantics π ν α) : sem.blank = id sem.watched.blank := rfl

theorem Semantics.exists_of_watched {sem : Semantics π ν α} {production : π} {args : Args ν}
    {state : Watched α} {result : Reduced ν (Watched α)}
    (h : sem.watched.reduce production args state = .ok result) :
    ∃ notes, sem.reduce production args state.actions =
        .ok ⟨result.value, result.actions.actions, notes⟩ ∧
      result.actions.calls = state.calls := by
  obtain ⟨result', hresult, heq⟩ := bind_eq_ok.mp h
  cases heq
  exact ⟨_, hresult, rfl⟩

theorem Semantics.reduce_unwatched {sem : Semantics π ν α} {production : π} {args : Args ν}
    {state : Watched α} {result : Reduced ν (Watched α)}
    (h : sem.watched.reduce production args state = .ok result) :
    ∃ notes, sem.reduce production (args.map id) state.actions =
      .ok ⟨id result.value, result.actions.actions, notes⟩ := by
  obtain ⟨notes, hresult, -⟩ := exists_of_watched h
  rw [Args.map_id]
  exact ⟨notes, hresult⟩

/-- Nobody is watching. -/
def Semantics.unwatched (sem : Semantics π ν α) : sem.watched.Morphism sem where
  value := id
  actions := Watched.actions
  blank_eq := sem.blank_watched
  reduce_ok h := reduce_unwatched h
  onSyntaxError_eq _ := rfl
  onOverflow_eq _ := rfl

theorem Semantics.faithful_unwatched (sem : Semantics π ν α) : sem.unwatched.Faithful := by
  intro production args state breach h
  change sem.reduce production (args.map id) state.actions = _
  rw [Args.map_id]
  rcases bind_eq_error.mp h with h | ⟨result, -, hpure⟩
  · exact h
  · cases hpure

namespace Parser

/-- The parser with its actions watched from now on. -/
def watch (p : Parser σ τ π ν α) : Parser σ τ π ν (Watched α) where
  actions := ⟨p.actions, []⟩
  stack := p.stack
  status := p.status
  lastError := p.lastError
  stats := p.stats
  journal := p.journal

/-! ## Consistent parsers -/

/-- Status, last error, counts and frames agree with one another. -/
structure Consistent (p : Parser σ τ π ν α) : Prop where
  errored : ∀ error, p.status = .errored error → p.lastError = some error
  overflowed : ∀ capacity, p.status = .errored (.overflow capacity) → capacity = p.capacity
  lastError_eq_none_iff : p.isErrored = false → (p.lastError = none ↔ p.stats.syntaxErrors = 0)
  unexpected : p.isErrored = false → ∀ error, p.lastError = some error →
    ∃ token state, error = .unexpected token state
  accepted : ∀ value, p.status = .accepted value →
    p.frames.getLast?.map Frame.value = some value

/-- The hooks have been called once for each syntax error, and once if the stack was full. -/
structure Tallied (p : Parser σ τ π ν (Watched α)) : Prop where
  syntaxErrors : p.actions.calls.count .syntaxError = p.stats.syntaxErrors
  overflows : p.actions.calls.count .overflow = if p.isOverflowed then 1 else 0

variable {table : Table σ τ π} {sem : Semantics π ν α} {offered : τ → ν → Prop} {token : τ}
  {value : ν} {limit : Nat} {p q : Parser σ τ π ν α} {l : Layout (Frame σ ν)} {error : ParseError}

theorem exists_unexpected (h : p.rejection table token = .ok error) :
    ∃ token state, error = .unexpected token state := by
  obtain ⟨state, -, heq⟩ := bind_eq_ok.mp h
  cases heq
  exact ⟨_, _, rfl⟩

theorem isOverflowed_of_running (h : p.isDone = false) : p.isOverflowed = false := by
  rw [isOverflowed, status_of_running h]

namespace Consistent

theorem congr (h : Consistent p) (hstatus : q.status = p.status)
    (hlast : q.lastError = p.lastError)
    (hcount : q.stats.syntaxErrors = p.stats.syntaxErrors) (hcapacity : q.capacity = p.capacity)
    (hframes : p.isAccepted = true → q.frames = p.frames) : Consistent q where
  errored error herror := by
    rw [hlast]
    exact h.errored error (hstatus.symm.trans herror)
  overflowed capacity hfull := by
    rw [hcapacity]
    exact h.overflowed capacity (hstatus.symm.trans hfull)
  lastError_eq_none_iff hlive := by
    rw [hlast, hcount]
    exact h.lastError_eq_none_iff ((isErrored_congr hstatus).symm.trans hlive)
  unexpected hlive := by
    rw [hlast]
    exact h.unexpected ((isErrored_congr hstatus).symm.trans hlive)
  accepted value hvalue := by
    rw [hstatus] at hvalue
    rw [hframes (by rw [isAccepted, hvalue])]
    exact h.accepted value hvalue

theorem of_errored (hstatus : p.status = .errored error) (hlast : p.lastError = some error)
    (hcapacity : ∀ capacity, error = .overflow capacity → capacity = p.capacity) :
    Consistent p := by
  have herrored : p.isErrored = true := by rw [isErrored, hstatus]
  constructor
  · intro error' herror
    obtain rfl : error = error' := Status.errored.inj (hstatus.symm.trans herror)
    exact hlast
  · intro capacity hfull
    exact hcapacity capacity (Status.errored.inj (hstatus.symm.trans hfull))
  · intro hlive
    exact absurd (hlive.symm.trans herrored) (by decide)
  · intro hlive
    exact absurd (hlive.symm.trans herrored) (by decide)
  · intro value hvalue
    cases hstatus.symm.trans hvalue

theorem of_running (hrunning : p.isDone = false)
    (hcount : p.lastError = none ↔ p.stats.syntaxErrors = 0)
    (hunexpected : ∀ error, p.lastError = some error →
      ∃ token state, error = .unexpected token state) : Consistent p := by
  have hstatus := status_of_running hrunning
  constructor
  · intro error herror
    cases hstatus.symm.trans herror
  · intro capacity hfull
    cases hstatus.symm.trans hfull
  · exact fun _ => hcount
  · exact fun _ => hunexpected
  · intro value hvalue
    cases hstatus.symm.trans hvalue

theorem of_unexpected (hstatus : p.status = .errored error) (hlast : p.lastError = some error)
    (herror : ∃ token state, error = .unexpected token state) : Consistent p := by
  obtain ⟨token, state, rfl⟩ := herror
  refine of_errored hstatus hlast ?_
  rintro capacity ⟨⟩

theorem overflow (p : Parser σ τ π ν α) : Consistent (p.overflowed sem) := by
  refine of_errored rfl rfl ?_
  rintro capacity ⟨⟩
  rfl

theorem unexpected_of_running (h : Consistent p) (hrunning : p.isDone = false)
    (hlast : p.lastError = some error) : ∃ token state, error = .unexpected token state :=
  h.unexpected (isErrored_of_running hrunning) error hlast

theorem effect {l' : Layout (Frame σ ν)} {fate : Option Fate} (h : Consistent p)
    (hrunning : p.isDone = false) (hp : p.stack = l.stack) (hq : q.stack = l'.stack)
    (heffect : Effect table sem token value l p l' q fate) : Consistent q := by
  have hopen : ¬ p.isAccepted = true := by simp [isAccepted_of_running hrunning]
  have hcapacity : q.capacity = p.capacity := by
    rw [capacity_eq hp, capacity_eq hq, heffect.committed_eq.2]
  cases heffect with
  | shift | reduce | reject =>
    exact h.congr rfl rfl rfl hcapacity fun haccepted => absurd haccepted hopen
  | shiftFull | reduceFull => exact overflow _
  | @accept top htop =>
    have hlive := isErrored_of_running hrunning
    constructor
    · rintro error ⟨⟩
    · rintro capacity ⟨⟩
    · exact fun _ => h.lastError_eq_none_iff hlive
    · exact fun _ => h.unexpected hlive
    · rintro value ⟨⟩
      rw [frames_eq hq, htop]
      rfl

theorem move (h : Consistent p) (hp : p.stack = l.stack) (hmove : Move table sem offered p q) :
    Consistent q := by
  -- A rollback may take the topmost frame away, whose value an accepting parser answers with.
  have hrolled (hopen : p.isAccepted = false) : Consistent p.rollback := by
    refine h.congr rfl rfl rfl ?_ fun haccepted => absurd (haccepted.symm.trans hopen) (by decide)
    rw [capacity_eq hp, capacity_eq (rollback_stack hp), Layout.capacity_rollback]
  cases hmove with
  | opens hrunning =>
    exact (hrolled (isAccepted_of_running hrunning)).congr rfl rfl rfl rfl fun _ => rfl
  | steps hrunning hp₁ hq _ heffect => exact h.effect hrunning hp₁ hq heffect
  | commits =>
    refine h.congr rfl rfl rfl ?_ ?_
    · rw [capacity_eq hp, capacity_eq (commit_stack hp), Layout.capacity_commit]
    · intro _
      rw [frames_eq hp, frames_eq (commit_stack hp), Layout.frames_commit]
  | rollsBack hopen => exact hrolled hopen
  | @reports token error hrunning herror =>
    refine of_running hrunning ⟨?_, ?_⟩ ?_
    · rintro ⟨⟩
    · rintro ⟨⟩
    · rintro _ ⟨⟩
      exact exists_unexpected herror
  | @unwinds count frame hrunning htop =>
    refine h.congr rfl rfl rfl ?_ ?_
    · rw [capacity_eq hp, capacity_eq (unwound_stack hp count frame), Layout.capacity_drop]
    · intro haccepted
      exact absurd (haccepted.symm.trans (isAccepted_of_running hrunning)) (by decide)
  | records | recovers | discards => exact h.congr rfl rfl rfl rfl fun _ => rfl
  | fails hrunning hlast => exact of_unexpected rfl hlast (h.unexpected_of_running hrunning hlast)
  | givesUp hrunning herror => exact of_unexpected rfl rfl (exists_unexpected herror)

theorem reset (hp : p.stack = l.stack) : Consistent (p.reset table sem) := by
  by_cases hroom : 0 < l.capacity
  · rw [reset_of_room hp hroom]
    refine of_running rfl ⟨fun _ => rfl, fun _ => rfl⟩ ?_
    rintro error ⟨⟩
  · rw [reset_of_no_room hp (by omega)]
    exact overflow _

end Consistent

/-! ## Tallied hooks -/

namespace Tallied

variable {p q : Parser σ τ π ν (Watched α)}

theorem congr (h : Tallied p) (hcalls : q.actions.calls = p.actions.calls)
    (hcount : q.stats.syntaxErrors = p.stats.syntaxErrors)
    (hoverflowed : q.isOverflowed = p.isOverflowed) : Tallied q where
  syntaxErrors := by rw [hcalls, hcount]; exact h.syntaxErrors
  overflows := by rw [hcalls, hoverflowed]; exact h.overflows

theorem overflow (h : Tallied p) (hrunning : p.isDone = false) :
    Tallied (p.overflowed sem.watched) where
  syntaxErrors := by
    have hcalls : (p.overflowed sem.watched).actions.calls = .overflow :: p.actions.calls := rfl
    rw [hcalls, List.count_cons_of_ne (by decide)]
    exact h.syntaxErrors
  overflows := by
    have hcalls : (p.overflowed sem.watched).actions.calls = .overflow :: p.actions.calls := rfl
    have hnone := h.overflows
    rw [isOverflowed_of_running hrunning] at hnone
    rw [hcalls, List.count_cons_self, hnone]
    rfl

theorem of_unexpected (h : Tallied p) (hrunning : p.isDone = false)
    (hcalls : q.actions.calls = p.actions.calls)
    (hcount : q.stats.syntaxErrors = p.stats.syntaxErrors) (hstatus : q.status = .errored error)
    (herror : ∃ token state, error = .unexpected token state) : Tallied q := by
  obtain ⟨token, state, rfl⟩ := herror
  refine h.congr hcalls hcount ?_
  rw [isOverflowed_of_running hrunning, isOverflowed, hstatus]

theorem effect {l' : Layout (Frame σ ν)} {fate : Option Fate} (h : Tallied p)
    (hrunning : p.isDone = false)
    (heffect : Effect table sem.watched token value l p l' q fate) : Tallied q := by
  have hreduced {production : π} {result : Reduced ν (Watched α)} {next : σ}
      (hreduces : Reduces table sem.watched l p.actions production result next)
      (stack : Stack (Frame σ ν)) : Tallied (p.reduced production result next stack) := by
    obtain ⟨-, -, hcalls⟩ := Semantics.exists_of_watched hreduces.acts
    exact h.congr hcalls rfl rfl
  cases heffect with
  | shift | reject => exact h.congr rfl rfl rfl
  | shiftFull => exact overflow (h.congr rfl rfl rfl) hrunning
  | reduce _ _ hreduces => exact hreduced hreduces _
  | reduceFull _ _ hreduces => exact overflow (hreduced hreduces _) hrunning
  | accept => exact h.congr rfl rfl (isOverflowed_of_running hrunning).symm

theorem move (h : Tallied p) (hp : Consistent p)
    (hmove : Move table sem.watched offered p q) : Tallied q := by
  cases hmove with
  | opens | commits | rollsBack | unwinds | records | recovers | discards =>
    exact h.congr rfl rfl rfl
  | steps hrunning _ _ _ heffect => exact h.effect hrunning heffect
  | @reports token error hrunning herror =>
    have hcalls : (p.reported sem.watched error).actions.calls =
        .syntaxError :: p.actions.calls := rfl
    have hcount : (p.reported sem.watched error).stats.syntaxErrors =
        p.stats.syntaxErrors + 1 := rfl
    have hoverflowed : (p.reported sem.watched error).isOverflowed = p.isOverflowed := rfl
    constructor
    · rw [hcalls, hcount, List.count_cons_self, h.syntaxErrors]
    · rw [hcalls, hoverflowed, List.count_cons_of_ne (by decide)]
      exact h.overflows
  -- The errors that these two record come from a rejection, so no call of the hook goes with them.
  | fails hrunning hlast =>
    exact h.of_unexpected hrunning rfl rfl rfl (hp.unexpected_of_running hrunning hlast)
  | givesUp hrunning herror =>
    exact h.of_unexpected hrunning rfl rfl rfl (exists_unexpected herror)

end Tallied

/-! ## Watched runs -/

theorem kept_consistent (table : Table σ τ π) (sem : Semantics π ν α) (capacity : Nat) :
    Kept table sem (fun _ _ => True) fun p =>
      Shaped (Path table sem.blank) (fun _ => True) capacity p ∧ Consistent p where
  blank _ _ := trivial
  move hmove h := by
    obtain ⟨l, hp⟩ := h.1.layout
    exact ⟨(shape_path table sem).move hmove h.1, h.2.move hp hmove⟩

theorem kept_tallied (table : Table σ τ π) (sem : Semantics π ν α) (capacity : Nat) :
    Kept table sem.watched (fun _ _ => True) fun p =>
      (Shaped (Path table sem.blank) (fun _ => True) capacity p ∧ Consistent p) ∧ Tallied p where
  blank _ _ := trivial
  move hmove h :=
    ⟨(kept_consistent table sem.watched capacity).move hmove h.1, h.2.move h.1.2 hmove⟩

theorem tallied_reset (hp : p.stack = l.stack) : Tallied (p.watch.reset table sem.watched) := by
  have hwatch : p.watch.stack = l.stack := hp
  by_cases hroom : 0 < l.capacity
  · rw [reset_of_room hwatch hroom]
    exact ⟨rfl, rfl⟩
  · rw [reset_of_no_room hwatch (by omega)]
    exact Tallied.overflow ⟨rfl, rfl⟩ rfl

theorem mirrors_watch (hp : p.stack = l.stack) : Mirrors sem.unwatched 0 p.watch p where
  stack_eq := by
    refine ⟨l, hp, ?_⟩
    have hframe : sem.unwatched.frame = (id : Frame σ ν → Frame σ ν) := rfl
    rw [hp, hframe]
    simp [Layout.image]
  actions_eq := rfl
  status_eq := (Status.map_id p.status).symm
  lastError_eq := rfl
  stats_eq := rfl

def Observation.unwatched (o : Observation σ ν (Watched α)) : Observation σ ν α :=
  ⟨o.done, o.status, o.lastError, o.stats, o.frames, o.actions.actions⟩

theorem Mirrors.unwatched_observe {w : Parser σ τ π ν (Watched α)}
    (h : Mirrors sem.unwatched 0 w p) : w.observe.unwatched = p.observe := by
  have hframe : sem.unwatched.frame = (id : Frame σ ν → Frame σ ν) := rfl
  have hframes := h.frames_eq
  rw [hframe, List.map_id] at hframes
  have hstatus : p.status = w.status := h.status_eq.trans (Status.map_id w.status)
  have hactions : p.actions = w.actions.actions := h.actions_eq
  unfold observe Observation.unwatched
  rw [h.isDone_eq, hstatus, h.lastError_eq, h.stats_eq, hframes, hactions]

variable [DecidableEq τ]

theorem Mirrors.exists_postAll {w : Parser σ τ π ν (Watched α)} {posts : List (τ × ν)}
    (h : Mirrors sem.unwatched 0 w p) (hrun : p.postAll table sem limit posts = .ok q) :
    ∃ w', w.postAll table sem.watched limit posts = .ok w' ∧ Mirrors sem.unwatched 0 w' q := by
  induction posts using List.reverseRecOn generalizing q with
  | nil =>
    cases hrun
    exact ⟨w, rfl, h⟩
  | append_singleton posts post ih =>
    rw [postAll_concat, bind_eq_ok] at hrun
    obtain ⟨r, hrun, hpost⟩ := hrun
    obtain ⟨w₁, hw₁, hmirrors⟩ := ih hrun
    have hmirrored : Mirrored (Strict sem.unwatched limit limit) (Outgrown 0)
        (Mirrors sem.unwatched 0) (w₁.post table sem.watched limit post.1 post.2)
        (r.post table sem limit post.1 post.2) :=
      hmirrors.post (Nat.le_refl limit)
    rw [hpost] at hmirrored
    generalize hw₂ : w₁.post table sem.watched limit post.1 post.2 = x at hmirrored
    cases hmirrored with
    | @ok w₂ _ hmirrors' =>
      refine ⟨w₂, ?_, hmirrors'⟩
      rw [postAll_concat, hw₁]
      exact hw₂
    | excused houtgrown => cases houtgrown.1
    | halted hhalted =>
      obtain ⟨_, ⟨⟩, -⟩ := hhalted ⟨sem.faithful_unwatched, rfl⟩

/-- A parser before a reset: one that has never been in use, or one that has. -/
inductive Startable (table : Table σ τ π) (sem : Semantics π ν α) : Parser σ τ π ν α → Prop
  | unused (actions : α) (capacity : Nat) :
      Startable table sem { actions, stack := .ofCapacity capacity }
  | used {p₁} (h : Reachable table sem p₁) : Startable table sem p₁

theorem Startable.exists_layout (h : Startable table sem p) :
    ∃ l : Layout (Frame σ ν), p.stack = l.stack := by
  cases h with
  | unused actions capacity => exact ⟨_, (Layout.stack_settled_nil capacity).symm⟩
  | used h =>
    obtain ⟨frames, free, hstack⟩ := h.settled
    exact ⟨_, hstack⟩

/-- From a reset on, status, last error and counts agree after every post, and the same run with its
hooks watched shows one call for each syntax error and one for a full stack. Once the run has ended,
posts change nothing that can be seen. -/
theorem postAll_consistent {posts : List (τ × ν)} (hp : Startable table sem p)
    (hrun : (p.reset table sem).postAll table sem limit posts = .ok q) :
    Consistent q ∧
      (∃ w, (p.watch.reset table sem.watched).postAll table sem.watched limit posts = .ok w ∧
        w.observe.unwatched = q.observe ∧
        w.actions.calls.count .syntaxError = q.stats.syntaxErrors ∧
        w.actions.calls.count .overflow = if q.isOverflowed then 1 else 0) ∧
      (q.isDone = true → ∀ limit' token value, ∃ r,
        q.post table sem limit' token value = .ok r ∧ r.isDone = true ∧ r.observe = q.observe) := by
  obtain ⟨l, hstack⟩ := hp.exists_layout
  have hwatch : p.watch.stack = l.stack := hstack
  refine ⟨?_, ?_, ?_⟩
  · have hstart : Shaped (Path table sem.blank) (fun _ => True) l.capacity (p.reset table sem) :=
      (shape_path table sem).reset_of_layout hstack
    exact ((kept_consistent table sem l.capacity).postAll (settled_reset hstack)
      ⟨hstart, .reset hstack⟩ (fun _ _ => trivial) hrun).2
  · have hmirrors : Mirrors sem.unwatched 0 (p.watch.reset table sem.watched) (p.reset table sem) :=
      ((mirrors_watch hstack).reset table).resolve_right (fun houtgrown => by cases houtgrown.1)
    obtain ⟨w, hw, hmirrors'⟩ := hmirrors.exists_postAll hrun
    have hstart : Shaped (Path table sem.blank) (fun _ => True) l.capacity
        (p.watch.reset table sem.watched) :=
      (shape_path table sem.watched).reset_of_layout hwatch
    have htallied := ((kept_tallied table sem l.capacity).postAll (settled_reset hwatch)
      ⟨⟨hstart, .reset hwatch⟩, tallied_reset hstack⟩ (fun _ _ => trivial) hw).2
    have hstatus : q.status = w.status := hmirrors'.status_eq.trans (Status.map_id w.status)
    refine ⟨w, hw, hmirrors'.unwatched_observe, ?_, ?_⟩
    · rw [htallied.syntaxErrors, hmirrors'.stats_eq]
    · rw [htallied.overflows, isOverflowed, isOverflowed, hstatus]
  · intro hdone limit' token value
    exact ⟨_, post_of_done hdone, hdone, rfl⟩

section

open NumberList

/-- A parser with room for two frames, and a list whose recovery needs a third one. -/
def brief : Parser (Fin 10) Token Production Value Builder where
  actions := {}
  stack := .ofCapacity 2

def starList : List (Token × Value) := [(.leftParen, .none), (.star, .none)]

/-- The recovery from a syntax error overflows, and the overflow is the error of the run. -/
theorem postAll_consistent_starList :
    ∃ q w, (brief.reset grammar.toTable Builder.semantics).postAll grammar.toTable
        Builder.semantics 4 starList = .ok q ∧
      q.status = .errored (.overflow 2) ∧ q.lastError = some (.overflow 2) ∧ q.capacity = 2 ∧
      (brief.watch.reset grammar.toTable Builder.semantics.watched).postAll grammar.toTable
        Builder.semantics.watched 4 starList = .ok w ∧
      w.actions.calls.count .syntaxError = 1 ∧ w.actions.calls.count .overflow = 1 ∧
      ∃ r, q.post grammar.toTable Builder.semantics 4 .finish .none = .ok r ∧
        r.observe = q.observe := by
  have hruns : (do
      let q ← (brief.reset grammar.toTable Builder.semantics).postAll grammar.toTable
        Builder.semantics 4 starList
      pure (q.status, q.stats.syntaxErrors)).toOption = some (.errored (.overflow 2), 1) := by
    decide +kernel
  obtain ⟨q, hq, hruns⟩ := toOption_bind_eq_some.mp hruns
  obtain ⟨hstatus, hcount⟩ := Prod.mk.inj (Option.some.inj hruns)
  have hstart : Startable grammar.toTable Builder.semantics brief := .unused _ 2
  obtain ⟨hconsistent, ⟨w, hw, -, hsyntaxErrors, hoverflows⟩, hstays⟩ :=
    postAll_consistent hstart hq
  have hdone : q.isDone = true := by rw [isDone, hstatus]
  obtain ⟨r, hr, -, hobserve⟩ := hstays hdone 4 .finish .none
  refine ⟨q, w, hq, hstatus, hconsistent.errored _ hstatus,
    (hconsistent.overflowed 2 hstatus).symm, hw, hsyntaxErrors.trans hcount, ?_, r, hr, hobserve⟩
  rw [hoverflows, isOverflowed, hstatus]
  rfl

end

end Parser

end ShiftReduce
