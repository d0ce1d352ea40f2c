import ShiftReduce.NumberList.Builder
import ShiftReduce.Proofs.Parser.Reachable

/-!
# Posts that fail leave the stack alone

An offer hides frames and pushes others, but the frames of the last commit stay in their slots until
the next one. So an offer that is undone has changed nothing, however many reductions it has made,
and a post that fails ends with the stack that it began with, or with the one that its recovery
committed.
-/

namespace ShiftReduce.Parser

variable {σ τ π ν α : Type} {table : Table σ τ π} {sem : Semantics π ν α} {token : τ} {value : ν}
  {limit : Nat} {p q r : Parser σ τ π ν α} {l : Layout (Frame σ ν)} {fate : Fate}

/-! ## Offers that are undone -/

theorem Effect.committed_eq {l' : Layout (Frame σ ν)} {fate? : Option Fate}
    (h : Effect table sem token value l p l' q fate?) :
    l'.committed = l.committed ∧ l'.capacity = l.capacity := by
  cases h with
  | shift _ _ hroom => exact ⟨Layout.committed_push l _, Layout.capacity_push hroom _⟩
  | shiftFull | accept | reject => exact ⟨rfl, rfl⟩
  | reduce _ _ _ hroom =>
    rw [Layout.committed_push, Layout.capacity_push hroom]
    exact ⟨Layout.committed_drop l _, Layout.capacity_drop l _⟩
  | reduceFull => exact ⟨Layout.committed_drop l _, Layout.capacity_drop l _⟩

theorem rollback_offer (hp : p.stack = l.stack)
    (h : p.offer table sem token value limit = .ok (q, fate)) :
    q.rollback.stack = l.rollback.stack := by
  obtain ⟨l₁, p₁, l', ⟨hcommitted, hcapacity⟩, hq, heffect⟩ := offer_effect
    (I := fun l' _ => l'.committed = l.committed ∧ l'.capacity = l.capacity)
    (fun _ _ _ _ hI he => ⟨he.committed_eq.1.trans hI.1, he.committed_eq.2.trans hI.2⟩)
    hp ⟨rfl, rfl⟩ h
  have hl' : l'.rollback = l.rollback := by
    rw [Layout.rollback_eq, Layout.rollback_eq, heffect.committed_eq.1, heffect.committed_eq.2,
      hcommitted, hcapacity]
  rw [rollback_stack hq, hl']

theorem rollback_offer_settled {frames : List (Frame σ ν)} {free : Nat}
    (hp : p.stack = (Layout.settled frames free).stack)
    (h : p.offer table sem token value limit = .ok (q, fate)) : q.rollback.stack = p.stack := by
  rw [rollback_offer hp h, Layout.rollback_settled, hp]

theorem rollback_offer_unwound {frames : List (Frame σ ν)} {free count : Nat} {frame : Frame σ ν}
    (hp : p.stack = (Layout.settled frames free).stack)
    (h : (p.unwound count frame).offer table sem token value limit = .ok (q, fate)) :
    q.rollback.stack = p.stack := by
  have hunhide : ((Layout.settled frames free).drop count).rollback =
      Layout.settled frames free := by
    rw [Layout.rollback_eq, Layout.committed_drop, Layout.capacity_drop, ← Layout.rollback_eq,
      Layout.rollback_settled]
  rw [rollback_offer (unwound_stack hp count frame) h, hunhide, hp]

/-! ## Posts that fail -/

theorem Rejects.stack_eq {error : ParseError} (hp : p.Settled)
    (h : Rejects table sem limit token value p error q) : q.stack = p.stack := by
  obtain ⟨r, hoffer, -, rfl⟩ := h
  obtain ⟨frames, free, hstack⟩ := hp
  have hopened := opened_stack hstack token
  change r.rollback.stack = p.stack
  rw [rollback_offer_settled hopened hoffer, hopened, hstack]

theorem Recovers.stack_eq {errorToken : τ} (hp : p.Settled)
    (h : Recovers table sem limit errorToken p q false) : q.stack = p.stack := by
  obtain ⟨frames, free, hstack⟩ := hp
  cases h with
  | noFrame => rfl
  | refused _ hoffer => exact rollback_offer_unwound hstack hoffer

theorem isErrored_of_taken (hp : p.stack = l.stack) (hrunning : p.isDone = false)
    (h : p.offer table sem token value limit = .ok (q, fate))
    (hfate : fate = .shifted ∨ fate = .accepted) : q.isErrored = false := by
  have hstatus := offer_status hp h
  rcases hfate with rfl | rfl
  · change q.status = p.status at hstatus
    apply isErrored_of_running
    unfold isDone at hrunning ⊢
    rwa [hstatus]
  · exact isErrored_of_accepted hstatus

theorem Retries.stack_eq (hp : p.Settled) (hrunning : p.isDone = false)
    (h : Retries table sem limit token value p q)
    (hfail : q.isErrored = true ∨ q.stats.discarded ≠ p.stats.discarded) : q.stack = p.stack := by
  obtain ⟨frames, free, hstack⟩ := hp
  cases h with
  | @taken r fate hoffer hfate =>
    have hlive : r.isErrored = false := isErrored_of_taken hstack hrunning hoffer hfate
    have hcount : r.tally.discarded = p.tally.discarded := by rw [offer_tally hstack hoffer]
    rcases hfail with herrored | hdiscarded
    · exact absurd (hlive.symm.trans herrored) (by decide)
    · exact absurd hcount hdiscarded
  | full hoffer | gaveUp hoffer | discarded hoffer => exact rollback_offer_settled hstack hoffer

/-- The post has its token rejected, and the recovery that follows commits the parser `r`. -/
def RecoversTo (table : Table σ τ π) (sem : Semantics π ν α) (limit : Nat) (token : τ) (value : ν)
    (p r : Parser σ τ π ν α) : Prop :=
  ∃ error q errorToken, Rejects table sem limit token value p error q ∧
    table.errorToken = some errorToken ∧ Recovers table sem limit errorToken q r true

theorem RecoversTo.settled (hp : p.Settled) (h : RecoversTo table sem limit token value p r) :
    r.Settled := by
  obtain ⟨error, q, errorToken, hrejects, -, hrecovers⟩ := h
  exact hrecovers.settled (hrejects.settled hp)

theorem RecoversTo.counts_eq (hp : p.Settled) (h : RecoversTo table sem limit token value p r) :
    r.stats.recoveries = p.stats.recoveries + 1 ∧ r.stats.discarded = p.stats.discarded := by
  obtain ⟨error, q, errorToken, hrejects, -, hrecovers⟩ := h
  have hq := hrejects.tally_eq hp
  have hr := hrecovers.tally_eq (hrejects.settled hp)
  simp only [tally, Stats.mk.injEq] at hq hr
  simp [hq, hr]

/-- A post either keeps the count of recoveries, and the stack if it ends in error, or it recovers
once and goes on from there. -/
theorem Posts.recovery_cases (hp : p.Settled) (hrunning : p.isDone = false)
    (h : Posts table sem limit token value p q) :
    (q.stats.recoveries = p.stats.recoveries ∧ (q.isErrored = true → q.stack = p.stack)) ∨
    ∃ r, RecoversTo table sem limit token value p r ∧
      q.stats.recoveries = p.stats.recoveries + 1 ∧
      (q.isErrored = true ∨ q.stats.discarded ≠ p.stats.discarded → q.stack = r.stack) := by
  cases h with
  | @taken r fate hoffer hfate =>
    obtain ⟨frames, free, hstack⟩ := hp
    have hopened := opened_stack hstack token
    have hcount := congrArg Stats.recoveries (offer_tally hopened hoffer)
    have hlive : r.isErrored = false := isErrored_of_taken hopened hrunning hoffer hfate
    refine .inl ⟨hcount, ?_⟩
    intro herrored
    exact absurd (hlive.symm.trans herrored) (by decide)
  | @full r hoffer =>
    obtain ⟨frames, free, hstack⟩ := hp
    have hopened := opened_stack hstack token
    have hcount := congrArg Stats.recoveries (offer_tally hopened hoffer)
    refine .inl ⟨hcount, ?_⟩
    intro _
    rw [rollback_offer_settled hopened hoffer, hopened, hstack]
  | @rejected error r _ hrejects hresumes =>
    have hr : r.Settled := hrejects.settled hp
    have hrstack : r.stack = p.stack := hrejects.stack_eq hp
    have hrcount : r.stats.recoveries = p.stats.recoveries := by
      have htally := hrejects.tally_eq hp
      simp only [tally, Stats.mk.injEq] at htally
      simp [htally]
    cases hresumes with
    | unprovided =>
      have hcount := congrArg Stats.recoveries (failed_tally r error)
      refine .inl ⟨hcount.trans hrcount, ?_⟩
      intro _
      rw [failed_stack, hrstack]
    | @unrecovered errorToken s _ hrecovers =>
      have hscount := congrArg Stats.recoveries (hrecovers.tally_eq hr)
      have hcount := congrArg Stats.recoveries (failed_tally s error)
      refine .inl ⟨hcount.trans (hscount.trans hrcount), ?_⟩
      intro _
      rw [failed_stack, hrecovers.stack_eq hr, hrstack]
    | @recovered errorToken s herrorToken hrecovers =>
      have hto : RecoversTo table sem limit token value p q :=
        ⟨error, r, errorToken, hrejects, herrorToken, hrecovers⟩
      refine .inr ⟨q, hto, (hto.counts_eq hp).1, ?_⟩
      intro _
      rfl
    | @retried errorToken s _ herrorToken hrecovers hsrunning hretries =>
      have hto : RecoversTo table sem limit token value p s :=
        ⟨error, r, errorToken, hrejects, herrorToken, hrecovers⟩
      obtain ⟨hrecoveries, hdiscarded⟩ := hto.counts_eq hp
      have hcount : q.stats.recoveries = s.stats.recoveries := by
        rcases hretries.tally_eq (hto.settled hp) with htally | htally
        all_goals
          have hkept := congrArg Stats.recoveries htally
          exact hkept
      refine .inr ⟨s, hto, hcount.trans hrecoveries, ?_⟩
      rw [← hdiscarded]
      exact hretries.stack_eq (hto.settled hp) hsrunning

variable [DecidableEq τ]

/-- A post that ends in error without a recovery leaves every frame as it was. After a recovery, a
token that is dropped, or that ends the run in error, leaves the frames that the recovery
committed. -/
theorem post_fails_atomically (hp : Reachable table sem p) (hrunning : p.isDone = false)
    (hpost : p.post table sem limit token value = .ok q) :
    (q.isErrored = true → q.stats.recoveries = p.stats.recoveries → q.frames = p.frames) ∧
    (q.stats.recoveries ≠ p.stats.recoveries →
      ∃ r, RecoversTo table sem limit token value p r ∧ r.Settled ∧
        q.stats.recoveries = p.stats.recoveries + 1 ∧
        (q.isErrored = true ∨ q.stats.discarded ≠ p.stats.discarded → q.frames = r.frames)) := by
  rcases (post_cases hrunning hpost).recovery_cases hp.settled hrunning with
    ⟨hcount, hsame⟩ | ⟨r, hto, hcount, hsame⟩
  · constructor
    · intro herrored _
      exact congrArg Stack.toList (hsame herrored)
    · intro hne
      exact absurd hcount hne
  · constructor
    · intro _ heq
      omega
    · intro _
      refine ⟨r, hto, hto.settled hp.settled, hcount, ?_⟩
      intro hfail
      exact congrArg Stack.toList (hsame hfail)

section

open NumberList

/-- `(1,2` -/
def openList : List (Token × Value) :=
  [(.leftParen, .none), (.number, .number 1), (.comma, .none), (.number, .number 2)]

/-- A parser with room for six frames. -/
def tight : Parser (Fin 10) Token Production Value Builder :=
  create grammar.toTable Builder.semantics {} 6

/-- At the end of the list the stack is full after two reductions; another parenthesis is dropped
after a recovery. -/
theorem post_fails_atomically_openList :
    ∃ p q₁ q₂, tight.postAll grammar.toTable Builder.semantics 4 openList = .ok p ∧
      p.isDone = false ∧
      p.post grammar.toTable Builder.semantics 4 .rightParen .none = .ok q₁ ∧
      (q₁.isErrored, q₁.stats.recoveries, q₁.stats.reductions) =
        (true, p.stats.recoveries, p.stats.reductions + 2) ∧
      q₁.frames = p.frames ∧
      p.post grammar.toTable Builder.semantics 4 .leftParen .none = .ok q₂ ∧
      (q₂.isErrored, q₂.stats.recoveries, q₂.stats.discarded) = (false, 1, 1) ∧
      ∃ r, RecoversTo grammar.toTable Builder.semantics 4 .leftParen .none p r ∧
        q₂.frames = r.frames := by
  have hruns : (do
      let p ← tight.postAll grammar.toTable Builder.semantics 4 openList
      let q₁ ← p.post grammar.toTable Builder.semantics 4 .rightParen .none
      let q₂ ← p.post grammar.toTable Builder.semantics 4 .leftParen .none
      pure ((p.isDone, p.stats.recoveries, p.stats.discarded),
        decide ((q₁.isErrored, q₁.stats.recoveries, q₁.stats.reductions) =
          (true, p.stats.recoveries, p.stats.reductions + 2)),
        (q₂.isErrored, q₂.stats.recoveries, q₂.stats.discarded))).toOption =
      some ((false, 0, 0), true, (false, 1, 1)) := by
    decide +kernel
  obtain ⟨p, hp, hruns⟩ := toOption_bind_eq_some.mp hruns
  obtain ⟨q₁, h₁, hruns⟩ := toOption_bind_eq_some.mp hruns
  obtain ⟨q₂, h₂, hruns⟩ := toOption_bind_eq_some.mp hruns
  simp only [pure, Except.pure, Except.toOption, Option.some.injEq, Prod.mk.injEq,
    decide_eq_true_eq] at hruns
  obtain ⟨⟨hrunning, hrecoveries, hdiscarded⟩, hfull, hjunk⟩ := hruns
  have hreachable : Reachable grammar.toTable Builder.semantics p :=
    (Reachable.create {} 6).postAll hp
  obtain ⟨hsame, -⟩ := post_fails_atomically hreachable hrunning h₁
  obtain ⟨-, hrecovered⟩ := post_fails_atomically hreachable hrunning h₂
  obtain ⟨r, hto, -, -, hframes⟩ := hrecovered (by omega)
  refine ⟨p, q₁, q₂, hp, hrunning, h₁, ?_, hsame hfull.1 hfull.2.1, h₂, ?_, r, hto,
    hframes (.inr (by omega))⟩
  · simp [hfull]
  · simp [hjunk]

end

end ShiftReduce.Parser
