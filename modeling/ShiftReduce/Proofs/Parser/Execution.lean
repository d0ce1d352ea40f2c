import ShiftReduce.Proofs.Parser.Reachable

/-!
# Running a known grammar

For a given table what becomes of a token is best said on the list of frames. `Offers` does this, with
a count of the slots that are left, and the posts of a parser follow it.
-/

namespace ShiftReduce.Parser

variable {σ τ π ν α : Type}

/-! ## Offers on a list of frames -/

/-- A token offered to a stack with these frames, of which the topmost `pending` ones are pending, and
`free` empty slots: after so many reductions it has met its fate. There is room all the way. -/
inductive Offers (table : Table σ τ π) (sem : Semantics π ν α) (token : τ) (value : ν) :
    Nat → List (Frame σ ν) → Nat → Nat → α → List (Frame σ ν) → α → Fate → Prop
  | shift {frames pending free actions top next} (htop : frames.getLast? = some top)
      (hentry : table.entry top.state token = .shift next) (hroom : 0 < free) :
      Offers table sem token value 0 frames pending free actions
        (frames ++ [⟨next, value⟩]) actions .shifted
  | accept {frames pending free actions top} (htop : frames.getLast? = some top)
      (hentry : table.entry top.state token = .accept) :
      Offers table sem token value 0 frames pending free actions frames actions .accepted
  | reject {frames pending free actions top} (htop : frames.getLast? = some top)
      (hentry : table.entry top.state token = .error) :
      Offers table sem token value 0 frames pending free actions frames actions .rejected
  | reduce {n base rhs pending free actions top under production result next frames' actions' fate}
      (htop : (base ++ rhs).getLast? = some top)
      (hentry : table.entry top.state token = .reduce production)
      (harity : table.arity production = rhs.length)
      (hacts : sem.reduce production
        ⟨rhs.length, (base ++ rhs).length, rhs.map Frame.value⟩ actions = .ok result)
      (hunder : base.getLast? = some under)
      (hgoto : table.entry under.state (table.lhs production) = .goto next)
      (hroom : 0 < free + min rhs.length pending)
      (hrest : Offers table sem token value n (base ++ [⟨next, result.value⟩])
        (pending - rhs.length + 1) (free + min rhs.length pending - 1) result.actions
        frames' actions' fate) :
      Offers table sem token value (n + 1) (base ++ rhs) pending free actions
        frames' actions' fate

variable {table : Table σ τ π} {sem : Semantics π ν α} {token : τ} {value : ν} {limit n : Nat}
  {p q : Parser σ τ π ν α} {l : Layout (Frame σ ν)} {frames frames' : List (Frame σ ν)}
  {actions actions' : α} {fate : Fate}

/-- What an offer leaves: the frames are as listed, and the last commit can still be restored. -/
structure Offered (p : Parser σ τ π ν α) (l : Layout (Frame σ ν)) (frames' : List (Frame σ ν))
    (actions' : α) (fate : Fate) (q : Parser σ τ π ν α) : Prop where
  stack_eq : ∃ l' : Layout (Frame σ ν), q.stack = l'.stack ∧ l'.frames = frames' ∧
    l'.committed = l.committed ∧ l'.capacity = l.capacity
  actions_eq : q.actions = actions'
  status_eq : fate ≠ .accepted → q.status = p.status
  accepted_eq : fate = .accepted →
    ∃ top, frames'.getLast? = some top ∧ q.status = .accepted top.value

theorem frames_drop_of_append {base rhs : List (Frame σ ν)} (hframes : l.frames = base ++ rhs) :
    (l.drop rhs.length).frames = base := by
  rw [Layout.frames_drop, hframes, List.length_append, Nat.add_sub_cancel, List.take_left]

theorem drop_frames_of_append {base rhs : List (Frame σ ν)} (hframes : l.frames = base ++ rhs) :
    l.frames.drop (l.frames.length - rhs.length) = rhs := by
  rw [hframes, List.length_append, Nat.add_sub_cancel, List.drop_left]

theorem reduces_of_append {base rhs : List (Frame σ ν)} {under : Frame σ ν} {production : π}
    {result : Reduced ν α} {next : σ} (hframes : l.frames = base ++ rhs)
    (harity : table.arity production = rhs.length)
    (hacts : sem.reduce production
      ⟨rhs.length, (base ++ rhs).length, rhs.map Frame.value⟩ actions = .ok result)
    (hunder : base.getLast? = some under)
    (hgoto : table.entry under.state (table.lhs production) = .goto next) :
    Reduces table sem l actions production result next := by
  have hlength : l.frames.length = base.length + rhs.length := by
    rw [hframes, List.length_append]
  refine ⟨by omega, ?_, under, ?_, hgoto⟩
  · rw [harity, drop_frames_of_append hframes, hframes]
    exact hacts
  · rw [harity, frames_drop_of_append hframes, hunder]

theorem Offers.offered {pending free : Nat}
    (h : Offers table sem token value n frames pending free actions frames' actions' fate)
    (hp : p.stack = l.stack) (hframes : l.frames = frames) (hpending : l.pending.length = pending)
    (hfree : l.free = free) (hactions : p.actions = actions) (hlimit : n < limit) :
    ∃ q, p.offer table sem token value limit = .ok (q, fate) ∧
      Offered p l frames' actions' fate q := by
  obtain ⟨limit, rfl⟩ : ∃ k, limit = k + 1 := ⟨limit - 1, by omega⟩
  -- Each reduction takes the layout to the one that the rest of the offer starts from.
  induction h generalizing p l limit with
  | @shift frames pending free actions top next htop hentry hroom =>
    have heffect : Effect table sem token value l p _ _ (some .shifted) :=
      .shift (hframes ▸ htop) hentry (hfree ▸ hroom)
    refine ⟨_, offer_of_fate hp heffect, ⟨_, rfl, ?_, ?_, ?_⟩, hactions, fun _ => rfl, nofun⟩
    · rw [Layout.frames_push, hframes]
    · rw [Layout.committed_push]
    · rw [Layout.capacity_push (hfree ▸ hroom)]
  | @accept frames pending free actions top htop hentry =>
    have heffect : Effect table sem token value l p _ _ (some .accepted) :=
      .accept (hframes ▸ htop) hentry
    exact ⟨_, offer_of_fate hp heffect, ⟨l, hp, hframes, rfl, rfl⟩, hactions,
      fun h => absurd rfl h, fun _ => ⟨top, htop, rfl⟩⟩
  | @reject frames pending free actions top htop hentry =>
    have heffect : Effect table sem token value l p _ _ (some .rejected) :=
      .reject (hframes ▸ htop) hentry
    exact ⟨_, offer_of_fate hp heffect, ⟨l, hp, hframes, rfl, rfl⟩, hactions, fun _ => rfl, nofun⟩
  | @reduce n base rhs pending free actions top under production result next frames' actions' fate
      htop hentry harity hacts hunder hgoto hroom hrest ih =>
    have hbase : (l.drop (table.arity production)).frames = base := by
      rw [harity, frames_drop_of_append hframes]
    have hfree' : (l.drop (table.arity production)).free = free + min rhs.length pending := by
      rw [harity, ← hfree, ← hpending]
      rfl
    have hpending' : (l.drop (table.arity production)).pending.length = pending - rhs.length := by
      rw [harity, ← hpending, Layout.drop, List.length_take]
      omega
    have hreduces : Reduces table sem l p.actions production result next := by
      rw [hactions]
      exact reduces_of_append hframes harity hacts hunder hgoto
    have heffect : Effect table sem token value l p _ _ none :=
      .reduce (hframes ▸ htop) hentry hreduces (hfree' ▸ hroom)
    obtain ⟨limit, rfl⟩ : ∃ k, limit = k + 1 := ⟨limit - 1, by omega⟩
    obtain ⟨q, hoffer, ⟨l', hq, hframes', hcommitted, hcapacity⟩, hq_actions, hstatus, haccepted⟩ :=
      ih (p := p.reduced production result next _)
        (l := (l.drop (table.arity production)).push ⟨next, result.value⟩) rfl
        (by rw [Layout.frames_push, hbase])
        (by simp only [Layout.push, List.length_append, hpending', List.length_singleton])
        (by simp only [Layout.push, hfree']) rfl limit (by omega)
    refine ⟨q, (offer_of_reduction hp heffect).trans hoffer, ⟨l', hq, hframes', ?_, ?_⟩,
      hq_actions, hstatus, haccepted⟩
    · rw [hcommitted, Layout.committed_push, Layout.committed_drop]
    · rw [hcapacity, Layout.capacity_push (hfree' ▸ hroom), Layout.capacity_drop]

theorem offers_of_offer (hp : p.stack = l.stack)
    (h : p.offer table sem token value limit = .ok (q, fate)) (hfate : fate ≠ .overflowed) :
    ∃ n, n < limit ∧ Offers table sem token value n l.frames l.pending.length l.free p.actions
      q.frames q.actions fate := by
  induction limit generalizing p l with
  | zero => cases h
  | succ limit ih =>
    unfold offer at h
    obtain ⟨⟨p₁, fate?⟩, hstep, hrest⟩ := bind_eq_ok.mp h
    obtain ⟨l₁, hp₁, heffect⟩ := step_effect hp hstep
    have hframes₁ : p₁.frames = l₁.frames := frames_eq hp₁
    cases heffect with
    | shift htop hentry hroom =>
      cases hrest
      rw [hframes₁, Layout.frames_push]
      exact ⟨0, by omega, .shift htop hentry hroom⟩
    | shiftFull | reduceFull => cases hrest; exact absurd rfl hfate
    | accept htop hentry =>
      cases hrest
      rw [hframes₁]
      exact ⟨0, by omega, .accept htop hentry⟩
    | reject htop hentry =>
      cases hrest
      rw [hframes₁]
      exact ⟨0, by omega, .reject htop hentry⟩
    | @reduce top production result next htop hentry hreduces hroom =>
      obtain ⟨n, hn, hrest⟩ := ih hp₁ hrest
      obtain ⟨base, rhs, hsplit, hlength⟩ : ∃ base rhs : List (Frame σ ν),
          l.frames = base ++ rhs ∧ rhs.length = table.arity production := by
        refine ⟨_, _, (List.take_append_drop (l.frames.length - table.arity production) _).symm, ?_⟩
        rw [List.length_drop]
        have := hreduces.arity_le
        omega
      have hbase : (l.drop rhs.length).frames = base := frames_drop_of_append hsplit
      have hacts := hreduces.acts
      obtain ⟨under, hunder, hgoto⟩ := hreduces.goes
      rw [← hlength, hsplit, List.length_append, Nat.add_sub_cancel, List.drop_left,
        ← List.length_append] at hacts
      rw [← hlength, hbase] at hunder
      rw [← hlength] at hroom
      rw [← hlength, Layout.frames_push, hbase, Layout.push, List.length_append,
        List.length_singleton, Layout.drop, List.length_take] at hrest
      have hpending : min (l.pending.length - rhs.length) l.pending.length =
          l.pending.length - rhs.length := by omega
      rw [hpending] at hrest
      rw [hsplit] at htop ⊢
      exact ⟨n + 1, by omega,
        .reduce htop hentry hlength.symm hacts hunder hgoto hroom hrest⟩

/-! ## Parsers at rest -/

/-- The parser runs, no transaction is open, and the frames are as listed. -/
structure Rests (p : Parser σ τ π ν α) (frames : List (Frame σ ν)) (capacity : Nat)
    (actions : α) : Prop where
  fits : frames.length ≤ capacity
  stack_eq : p.stack = (Layout.settled frames (capacity - frames.length)).stack
  status_eq : p.status = .running
  actions_eq : p.actions = actions

variable {capacity : Nat}

theorem rests_create (hroom : 0 < capacity) :
    (create table sem actions capacity).Rests [⟨table.start, sem.blank⟩] capacity actions := by
  unfold create
  rw [reset_of_room (l := .settled [] capacity) (Layout.stack_settled_nil capacity).symm
    (by simpa using hroom)]
  exact ⟨hroom, by simp, rfl, rfl⟩

theorem Rests.isDone_eq (hp : p.Rests frames capacity actions) : p.isDone = false := by
  unfold isDone
  rw [hp.status_eq]

theorem Rests.capacity_eq (hp : p.Rests frames capacity actions) :
    (Layout.settled frames (capacity - frames.length)).capacity = capacity := by
  rw [Layout.capacity_settled]
  have := hp.fits
  omega

theorem Rests.opened (hp : p.Rests frames capacity actions) (token : τ) :
    (p.opened token).Rests frames capacity actions :=
  ⟨hp.fits, opened_stack hp.stack_eq token, hp.status_eq, hp.actions_eq⟩

theorem Rests.offered (hp : p.Rests frames capacity actions)
    (h : Offers table sem token value n frames 0 (capacity - frames.length) actions
      frames' actions' fate) (hlimit : n < limit) :
    ∃ q, p.offer table sem token value limit = .ok (q, fate) ∧
      Offered p (.settled frames (capacity - frames.length)) frames' actions' fate q :=
  h.offered hp.stack_eq (Layout.frames_settled _ _) rfl rfl hp.actions_eq hlimit

theorem Offered.rests_commit (h : Offered p l frames' actions' fate q)
    (hfate : fate ≠ .accepted) (hrunning : p.status = .running) :
    q.commit.Rests frames' l.capacity actions' := by
  obtain ⟨l', hq, hframes', -, hcapacity⟩ := h.stack_eq
  refine ⟨?_, ?_, (h.status_eq hfate).trans hrunning, h.actions_eq⟩
  · rw [← hframes', ← hcapacity, Layout.frames, List.length_append, Layout.capacity]
    omega
  · rw [commit_stack hq, Layout.commit_eq, hframes', hcapacity]

theorem Offered.rests_rollback (h : Offered p l frames' actions' fate q)
    (hfate : fate ≠ .accepted) (hrunning : p.status = .running) :
    q.rollback.Rests l.committed l.capacity actions' := by
  obtain ⟨l', hq, -, hcommitted, hcapacity⟩ := h.stack_eq
  refine ⟨?_, ?_, (h.status_eq hfate).trans hrunning, h.actions_eq⟩
  · rw [Layout.committed, List.length_append, Layout.capacity]
    omega
  · rw [rollback_stack hq, Layout.rollback_eq, hcommitted, hcapacity]

theorem Rests.offer_shifts (hp : p.Rests frames capacity actions)
    (h : Offers table sem token value n frames 0 (capacity - frames.length) actions
      frames' actions' .shifted) (hlimit : n < limit) :
    ∃ q, p.offer table sem token value limit = .ok (q, .shifted) ∧
      q.commit.Rests frames' capacity actions' := by
  obtain ⟨q, hoffer, hq⟩ := hp.offered h hlimit
  have hrests := hq.rests_commit (by decide) hp.status_eq
  rw [hp.capacity_eq] at hrests
  exact ⟨q, hoffer, hrests⟩

theorem Rests.offer_rejects (hp : p.Rests frames capacity actions)
    (h : Offers table sem token value n frames 0 (capacity - frames.length) actions
      frames' actions' .rejected) (hlimit : n < limit) :
    ∃ q, p.offer table sem token value limit = .ok (q, .rejected) ∧
      q.rollback.Rests frames capacity actions' := by
  obtain ⟨q, hoffer, hq⟩ := hp.offered h hlimit
  have hrests := hq.rests_rollback (by decide) hp.status_eq
  rw [hp.capacity_eq, Layout.committed_settled] at hrests
  exact ⟨q, hoffer, hrests⟩

theorem Rests.topState_eq (hp : p.Rests frames capacity actions) {top : Frame σ ν}
    (htop : frames.getLast? = some top) : p.topState = .ok top.state :=
  Parser.topState_eq hp.stack_eq (by rw [Layout.frames_settled, htop])

theorem Rests.frames_eq (hp : p.Rests frames capacity actions) : p.frames = frames := by
  unfold Parser.frames
  rw [hp.stack_eq, Layout.toList_stack, Layout.frames_settled]

theorem Rests.rejection_eq (hp : p.Rests frames capacity actions) {top : Frame σ ν}
    (htop : frames.getLast? = some top) (token : τ) :
    p.rejection table token =
      .ok (.unexpected (table.tokenLabel token) (table.stateIndex top.state)) := by
  unfold rejection
  rw [hp.topState_eq htop]
  rfl

theorem Rests.reported (hp : p.rollback.Rests frames capacity actions) (error : ParseError) :
    (p.reported sem error).Rests frames capacity (sem.onSyntaxError actions) :=
  ⟨hp.fits, hp.stack_eq, hp.status_eq, congrArg sem.onSyntaxError hp.actions_eq⟩

/-! ## Recovery -/

variable {errorToken : τ} {base gone : List (Frame σ ν)} {under top : Frame σ ν} {m : Nat}

theorem unwindDepth_of_append (hframes : p.frames = base ++ gone)
    (hunder : ∀ f, base.getLast? = some f → (table.entry f.state errorToken).isError = false)
    (hgone : ∀ f ∈ gone, (table.entry f.state errorToken).isError = true) :
    p.unwindDepth table errorToken = gone.length := by
  have hbase : base.reverse.takeWhile
      (fun f => (table.entry f.state errorToken).isError) = [] := by
    cases hlast : base.getLast? with
    | none =>
      rw [List.getLast?_eq_none_iff.mp hlast]
      rfl
    | some f =>
      obtain ⟨rest, rfl⟩ := List.getLast?_eq_some_iff.mp hlast
      rw [List.reverse_append, List.reverse_singleton, List.singleton_append, List.takeWhile_cons,
        if_neg (by simp [hunder f hlast])]
  unfold unwindDepth
  rw [hframes, List.reverse_append, List.takeWhile_append_of_pos, hbase,
    List.append_nil, List.length_reverse]
  intro f hf
  exact hgone f (List.mem_reverse.mp hf)

theorem Rests.recover_taken (hp : p.Rests (base ++ gone) capacity actions)
    (hunder : base.getLast? = some under)
    (hstop : (table.entry under.state errorToken).isError = false)
    (hgone : ∀ f ∈ gone, (table.entry f.state errorToken).isError = true)
    (h : Offers table sem errorToken sem.blank n base 0 (capacity - (base ++ gone).length) actions
      frames' actions' .shifted) (hlimit : n < limit) :
    ∃ q, p.recover table sem limit errorToken = .ok (q, true) ∧
      q.Rests frames' capacity actions' := by
  have hdepth : p.unwindDepth table errorToken = gone.length := by
    refine unwindDepth_of_append hp.frames_eq ?_ hgone
    intro f hf
    rw [hunder] at hf
    cases hf
    exact hstop
  -- The popped frames are only hidden, so the error token finds no more room than before.
  obtain ⟨l, hl⟩ : ∃ l, (Layout.settled (base ++ gone) (capacity - (base ++ gone).length)).drop
      gone.length = l := ⟨_, rfl⟩
  have hframes : l.frames = base := by rw [← hl, frames_drop_of_append (Layout.frames_settled _ _)]
  have hpending : l.pending.length = 0 := by simp [← hl, Layout.drop, Layout.settled]
  have hfree : l.free = capacity - (base ++ gone).length := by
    simp [← hl, Layout.drop, Layout.settled]
  have hcapacity : l.capacity = capacity := by
    rw [← hl, Layout.capacity_drop, hp.capacity_eq]
  have hunwound : (p.unwound gone.length under).stack = l.stack := by
    rw [unwound_stack hp.stack_eq, hl]
  obtain ⟨q, hoffer, hq⟩ := h.offered hunwound hframes hpending hfree hp.actions_eq hlimit
  have hrests := hq.rests_commit (by decide) hp.status_eq
  rw [hcapacity] at hrests
  refine ⟨{ q.commit with stats := { q.stats with recoveries := q.stats.recoveries + 1 } }, ?_,
    hrests.fits, hrests.stack_eq, hrests.status_eq, hrests.actions_eq⟩
  have htop : (p.stack.drop (p.unwindDepth table errorToken)).1.top? = some under := by
    rw [hp.stack_eq, hdepth, Layout.drop_stack, hl, Layout.top?_stack, hframes, hunder]
  rw [recover_of_some htop, hdepth, hoffer]
  rfl

theorem Rests.recover_untaken (hp : p.Rests frames capacity actions)
    (hgone : ∀ f ∈ frames, (table.entry f.state errorToken).isError = true) :
    p.recover table sem limit errorToken = .ok (p.record (.unrecoverable errorToken), false) := by
  have hall : p.frames = [] ++ frames := hp.frames_eq
  have hdepth : p.unwindDepth table errorToken = frames.length :=
    unwindDepth_of_append hall nofun hgone
  have hframes : ((Layout.settled frames (capacity - frames.length)).drop frames.length).frames =
      [] := by
    rw [Layout.frames_drop, Layout.frames_settled, Nat.sub_self, List.take_zero]
  apply recover_of_none
  rw [hp.stack_eq, hdepth, Layout.drop_stack, Layout.top?_stack, hframes]
  rfl

theorem isDone_record (p : Parser σ τ π ν α) (event : Event σ τ π ν) :
    (p.record event).isDone = p.isDone := rfl

/-! ## Posts -/

variable [DecidableEq τ]

theorem Rests.post_shifts (hp : p.Rests frames capacity actions)
    (h : Offers table sem token value n frames 0 (capacity - frames.length) actions
      frames' actions' .shifted) (hlimit : n < limit) :
    ∃ q, p.post table sem limit token value = .ok q ∧ q.Rests frames' capacity actions' := by
  obtain ⟨q, hoffer, hrests⟩ := (hp.opened token).offer_shifts h hlimit
  refine ⟨q.commit, ?_, hrests⟩
  rw [post_of_running hp.isDone_eq, hoffer]
  rfl

theorem Rests.post_accepts (hp : p.Rests frames capacity actions)
    (h : Offers table sem token value n frames 0 (capacity - frames.length) actions
      frames' actions' .accepted) (hlimit : n < limit) :
    ∃ q top, p.post table sem limit token value = .ok q ∧ frames'.getLast? = some top ∧
      q.status = .accepted top.value ∧ q.actions = actions' := by
  obtain ⟨q, hoffer, hq⟩ := (hp.opened token).offered h hlimit
  obtain ⟨top, htop, hstatus⟩ := hq.accepted_eq rfl
  refine ⟨q.commit, top, ?_, htop, hstatus, hq.actions_eq⟩
  rw [post_of_running hp.isDone_eq, hoffer]
  rfl

theorem Rests.post_reports (hp : p.Rests frames capacity actions)
    (h : Offers table sem token value n frames 0 (capacity - frames.length) actions
      frames' actions' .rejected) (hlimit : n < limit) (htop : frames.getLast? = some top) :
    ∃ q : Parser σ τ π ν α,
      p.post table sem limit token value = q.reject table sem limit token value ∧
      q.rollback.rejection table token =
        .ok (.unexpected (table.tokenLabel token) (table.stateIndex top.state)) ∧
      ∀ error, (q.reported sem error).Rests frames capacity (sem.onSyntaxError actions') := by
  obtain ⟨q, hoffer, hrests⟩ := (hp.opened token).offer_rejects h hlimit
  refine ⟨q, ?_, hrests.rejection_eq htop token, hrests.reported⟩
  rw [post_of_running hp.isDone_eq, hoffer]
  rfl

theorem Rests.post_rejects (hp : p.Rests frames capacity actions)
    (herror : table.errorToken = none)
    (h : Offers table sem token value n frames 0 (capacity - frames.length) actions
      frames' actions' .rejected) (hlimit : n < limit) (htop : frames.getLast? = some top) :
    ∃ q, p.post table sem limit token value = .ok q ∧
      q.status = .errored (.unexpected (table.tokenLabel token) (table.stateIndex top.state)) := by
  obtain ⟨q, hpost, hrejection, hreported⟩ := hp.post_reports h hlimit htop
  generalize ParseError.unexpected _ _ = error at hrejection ⊢
  refine ⟨{ q.reported sem error with status := .errored error }, ?_, rfl⟩
  rw [hpost, reject_eq, hrejection, herror]
  simp only [bind, Except.bind, pure, Except.pure, (hreported error).isDone_eq]
  rfl

/-- A rejection with recovery: the error token is taken in place of the frames above the nearest one
with an action for it, and the rejected token is offered again. -/
theorem Rests.post_recovers {frames'' : List (Frame σ ν)} {actions'' : α}
    (hp : p.Rests (base ++ gone) capacity actions) (herror : table.errorToken = some errorToken)
    (hreject : Offers table sem token value n (base ++ gone) 0 (capacity - (base ++ gone).length)
      actions frames' actions' .rejected) (hn : n < limit)
    (htop : (base ++ gone).getLast? = some top) (hunder : base.getLast? = some under)
    (hstop : (table.entry under.state errorToken).isError = false)
    (hgone : ∀ f ∈ gone, (table.entry f.state errorToken).isError = true)
    (htaken : Offers table sem errorToken sem.blank m base 0 (capacity - (base ++ gone).length)
      (sem.onSyntaxError actions') frames'' actions'' .shifted) (hm : m < limit) :
    ∃ q : Parser σ τ π ν α,
      p.post table sem limit token value = q.retry table sem limit token value ∧
        q.Rests frames'' capacity actions'' := by
  obtain ⟨p₁, hpost, hrejection, hreported⟩ := hp.post_reports hreject hn htop
  generalize ParseError.unexpected _ _ = error at hrejection
  obtain ⟨q, hrecover, hq⟩ := (hreported error).recover_taken hunder hstop hgone htaken hm
  refine ⟨q, ?_, hq⟩
  rw [hpost, reject_eq, hrejection, herror]
  simp only [bind, Except.bind, hrecover]
  rw [if_neg (by simp [hq.isDone_eq])]
  rfl

theorem Rests.post_unrecoverable (hp : p.Rests frames capacity actions)
    (herror : table.errorToken = some errorToken)
    (hreject : Offers table sem token value n frames 0 (capacity - frames.length)
      actions frames' actions' .rejected) (hn : n < limit) (htop : frames.getLast? = some top)
    (hgone : ∀ f ∈ frames, (table.entry f.state errorToken).isError = true) :
    ∃ q, p.post table sem limit token value = .ok q ∧
      q.status = .errored (.unexpected (table.tokenLabel token) (table.stateIndex top.state)) := by
  obtain ⟨q, hpost, hrejection, hreported⟩ := hp.post_reports hreject hn htop
  generalize ParseError.unexpected _ _ = error at hrejection ⊢
  refine ⟨{ (q.reported sem error).record (.unrecoverable errorToken) with
    status := .errored error }, ?_, rfl⟩
  rw [hpost, reject_eq, hrejection, herror]
  simp only [bind, Except.bind, (hreported error).recover_untaken hgone]
  rw [if_neg (by simp [isDone_record, (hreported error).isDone_eq])]
  rfl

/-! ## Offering again -/

theorem Rests.retry_shifts (hp : p.Rests frames capacity actions)
    (h : Offers table sem token value n frames 0 (capacity - frames.length) actions
      frames' actions' .shifted) (hlimit : n < limit) :
    ∃ q, p.retry table sem limit token value = .ok q ∧ q.Rests frames' capacity actions' := by
  obtain ⟨q, hoffer, hrests⟩ := hp.offer_shifts h hlimit
  refine ⟨q.commit, ?_, hrests⟩
  unfold retry
  rw [hoffer]
  rfl

theorem Rests.retry_discards (hp : p.Rests frames capacity actions)
    (h : Offers table sem token value n frames 0 (capacity - frames.length) actions
      frames' actions' .rejected) (hlimit : n < limit) (htoken : token ≠ table.endToken) :
    ∃ q, p.retry table sem limit token value = .ok q ∧ q.Rests frames capacity actions' := by
  obtain ⟨q, hoffer, hrests⟩ := hp.offer_rejects h hlimit
  refine ⟨{ q.rollback.record (.discarding token) with
      stats := { q.stats with discarded := q.stats.discarded + 1 } }, ?_,
    hrests.fits, hrests.stack_eq, hrests.status_eq, hrests.actions_eq⟩
  unfold retry
  rw [hoffer]
  simp only [bind, Except.bind, if_neg htoken]
  rfl

theorem Rests.retry_fails (hp : p.Rests frames capacity actions)
    (h : Offers table sem table.endToken value n frames 0 (capacity - frames.length) actions
      frames' actions' .rejected) (hlimit : n < limit) (htop : frames.getLast? = some top) :
    ∃ q, p.retry table sem limit table.endToken value = .ok q ∧
      q.status = .errored (.unexpected (table.tokenLabel table.endToken)
        (table.stateIndex top.state)) := by
  obtain ⟨q, hoffer, hrests⟩ := hp.offer_rejects h hlimit
  have hrejection : q.rollback.rejection table table.endToken = _ := hrests.rejection_eq htop _
  generalize ParseError.unexpected _ _ = error at hrejection ⊢
  refine ⟨{ q.rollback.record (.givingUp error) with
      lastError := some error, status := .errored error }, ?_, rfl⟩
  unfold retry
  rw [hoffer]
  simp only [bind, Except.bind, if_pos, hrejection]
  rfl

end ShiftReduce.Parser
