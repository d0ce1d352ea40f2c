import ShiftReduce.NumberList.Builder
import ShiftReduce.Proofs.Parser.Reachable

/-!
# What becomes of every token

The counts of a run balance. Each token that is posted, and each error token that a recovery puts in,
is shifted, is dropped after a recovery, or ends the run, and none of them is counted twice.
-/

namespace ShiftReduce.Parser

variable {σ τ π ν α : Type} {table : Table σ τ π} {sem : Semantics π ν α} {token : τ} {value : ν}
  {limit : Nat} {p q : Parser σ τ π ν α} {l : Layout (Frame σ ν)} {fate : Fate}
  {error : ParseError}

/-! ## Tokens that find a place -/

/-- How many tokens have been shifted or have ended the run. -/
def placed (p : Parser σ τ π ν α) : Nat := p.stats.shifts + if p.isDone then 1 else 0

theorem placed_of_running (h : p.isDone = false) : p.placed = p.stats.shifts := by
  unfold placed
  rw [h]
  rfl

theorem placed_of_done (h : p.isDone = true) : p.placed = p.stats.shifts + 1 := by
  unfold placed
  rw [if_pos h]

theorem Effect.shifts_eq {l' : Layout (Frame σ ν)} {fate? : Option Fate}
    (h : Effect table sem token value l p l' q fate?) :
    q.stats.shifts = p.stats.shifts + if fate? = some .shifted then 1 else 0 := by
  cases h <;> rfl

theorem offer_shifts (hp : p.stack = l.stack)
    (h : p.offer table sem token value limit = .ok (q, fate)) :
    q.stats.shifts = p.stats.shifts + if fate = .shifted then 1 else 0 := by
  obtain ⟨_, p₁, _, hp₁, -, heffect⟩ := offer_effect
    (I := fun _ p' => p'.stats.shifts = p.stats.shifts)
    (fun _ _ _ _ hI he => he.shifts_eq.trans hI) hp rfl h
  rw [heffect.shifts_eq, hp₁]
  simp

theorem offer_placed (hp : p.stack = l.stack) (hrunning : p.isDone = false)
    (h : p.offer table sem token value limit = .ok (q, fate)) :
    q.placed = p.placed + if fate = .rejected then 0 else 1 := by
  have hshifts := offer_shifts hp h
  have hstatus := offer_status hp h
  rw [placed_of_running hrunning]
  cases fate with
  | shifted => rw [placed_of_running ((isDone_congr hstatus).trans hrunning), hshifts]; rfl
  | rejected => rw [placed_of_running ((isDone_congr hstatus).trans hrunning), hshifts]; rfl
  | accepted => rw [placed_of_done (isDone_of_accepted hstatus), hshifts]; rfl
  | overflowed => rw [placed_of_done (isDone_of_errored hstatus), hshifts]; rfl

theorem offer_placed_of_taken (hp : p.stack = l.stack) (hrunning : p.isDone = false)
    (h : p.offer table sem token value limit = .ok (q, fate))
    (hfate : fate = .shifted ∨ fate = .accepted) : q.placed = p.placed + 1 := by
  rw [offer_placed hp hrunning h]
  rcases hfate with rfl | rfl <;> rfl

theorem placed_failed (p : Parser σ τ π ν α) (error : ParseError) :
    (p.failed error).placed = p.stats.shifts + 1 := by
  unfold failed
  split
  next hdone => exact placed_of_done hdone
  next => rfl

/-! ## The parts of a post -/

theorem Rejects.placed_eq (hp : p.Settled) (hrunning : p.isDone = false)
    (h : Rejects table sem limit token value p error q) : q.placed = p.placed := by
  obtain ⟨r, hoffer, -, rfl⟩ := h
  obtain ⟨frames, free, hstack⟩ := hp
  exact offer_placed (opened_stack hstack token) hrunning hoffer

theorem Recovers.placed_eq {errorToken : τ} (hp : p.Settled) (hrunning : p.isDone = false)
    (h : Recovers table sem limit errorToken p q true) : q.placed = p.placed + 1 := by
  obtain ⟨frames, free, hstack⟩ := hp
  cases h with
  | @taken frame r fate hframe hoffer hfate =>
    have hunwound := unwound_stack hstack (p.unwindDepth table errorToken) frame
    have hr : r.placed = (p.unwound (p.unwindDepth table errorToken) frame).placed + 1 :=
      offer_placed_of_taken hunwound hrunning hoffer hfate
    exact hr

theorem Recovers.shifts_eq {errorToken : τ} (hp : p.Settled)
    (h : Recovers table sem limit errorToken p q false) : q.stats.shifts = p.stats.shifts := by
  obtain ⟨frames, free, hstack⟩ := hp
  cases h with
  | noFrame => rfl
  | @refused frame r fate hframe hoffer hfate =>
    have hunwound := unwound_stack hstack (p.unwindDepth table errorToken) frame
    have hr := offer_shifts hunwound hoffer
    rw [if_neg (by rintro rfl; simp at hfate)] at hr
    exact hr

theorem Recovers.isDone_eq {errorToken : τ} (hp : p.Settled) (hrunning : p.isDone = false)
    (haccept : ∀ s, table.entry s errorToken ≠ .accept)
    (h : Recovers table sem limit errorToken p q true) : q.isDone = false := by
  obtain ⟨frames, free, hstack⟩ := hp
  cases h with
  | @taken frame r fate hframe hoffer hfate =>
    have hunwound := unwound_stack hstack (p.unwindDepth table errorToken) frame
    rcases hfate with rfl | rfl
    · exact (isDone_congr (offer_status hunwound hoffer)).trans hrunning
    · obtain ⟨_, _, _, -, heffect⟩ := exists_effect_of_offer hunwound hoffer
      cases heffect with
      | @accept top htop hentry => exact absurd hentry (haccept top.state)

theorem Retries.placed_cases (hp : p.Settled) (hrunning : p.isDone = false)
    (h : Retries table sem limit token value p q) :
    (q.placed = p.placed + 1 ∧ q.tally = p.tally) ∨
      (q.placed = p.placed ∧ q.tally = { p.tally with discarded := p.stats.discarded + 1 }) := by
  obtain ⟨frames, free, hstack⟩ := hp
  cases h with
  | @taken r fate hoffer hfate =>
    have hr : r.placed = p.placed + 1 := offer_placed_of_taken hstack hrunning hoffer hfate
    have htally := offer_tally hstack hoffer
    exact .inl ⟨hr, htally⟩
  | @full r hoffer =>
    have hr : r.placed = p.placed + 1 := offer_placed hstack hrunning hoffer
    have htally := offer_tally hstack hoffer
    exact .inl ⟨hr, htally⟩
  | @gaveUp r error hoffer =>
    have hshifts : r.stats.shifts = p.stats.shifts := offer_shifts hstack hoffer
    have htally := offer_tally hstack hoffer
    refine .inl ⟨?_, htally⟩
    rw [placed_of_done rfl, placed_of_running hrunning, ← hshifts]
    rfl
  | @discarded r hoffer =>
    have hr : r.placed = p.placed := offer_placed hstack hrunning hoffer
    have hdropped : ({ r.rollback.record (.discarding token) with
        stats := { r.stats with discarded := r.stats.discarded + 1 } } :
          Parser σ τ π ν α).tally = { r.tally with discarded := r.tally.discarded + 1 } := rfl
    rw [hdropped, offer_tally hstack hoffer]
    exact .inr ⟨hr, rfl⟩

/-! ## One post -/

/-- What a post adds to the counts, if it reports `rejected` tokens, puts in `recovered` error tokens
and drops `dropped` tokens. -/
structure Adds (p q : Parser σ τ π ν α) (rejected recovered dropped : Nat) : Prop where
  tally_eq : q.tally = { p.tally with
    tokens := p.stats.tokens + 1
    syntaxErrors := p.stats.syntaxErrors + rejected
    recoveries := p.stats.recoveries + recovered
    discarded := p.stats.discarded + dropped }
  placed_eq : q.placed + dropped = p.placed + 1 + recovered

theorem Rejects.adds_of_stopped (hp : p.Settled) (hrunning : p.isDone = false)
    {r s : Parser σ τ π ν α} (hrejects : Rejects table sem limit token value p error r)
    (htally : s.tally = r.tally) (hshifts : s.stats.shifts = r.stats.shifts) :
    Adds p (s.failed error) 1 0 0 := by
  have hr := hrejects.placed_eq hp hrunning
  have hlive := hrejects.isDone_eq hp hrunning
  refine ⟨?_, ?_⟩
  · rw [failed_tally, htally, hrejects.tally_eq hp]
    rfl
  · rw [placed_failed, hshifts, ← placed_of_running hlive, hr]

theorem Rejects.adds (hp : p.Settled) (hrunning : p.isDone = false)
    (haccept : ∀ e, table.errorToken = some e → ∀ s, table.entry s e ≠ .accept)
    {r : Parser σ τ π ν α} (hrejects : Rejects table sem limit token value p error r)
    (hresumes : Resumes table sem limit token value error r q) :
    ∃ recovered dropped, dropped ≤ recovered ∧ recovered ≤ 1 ∧ Adds p q 1 recovered dropped := by
  have hr := hrejects.placed_eq hp hrunning
  have hlive := hrejects.isDone_eq hp hrunning
  have hsettled := hrejects.settled hp
  cases hresumes with
  | unprovided =>
    exact ⟨0, 0, Nat.le_refl _, by omega, hrejects.adds_of_stopped hp hrunning rfl rfl⟩
  | @unrecovered errorToken s herrorToken hrecovers =>
    have htally : s.tally = r.tally := hrecovers.tally_eq hsettled
    have hshifts := hrecovers.shifts_eq hsettled
    exact ⟨0, 0, Nat.le_refl _, by omega, hrejects.adds_of_stopped hp hrunning htally hshifts⟩
  | @recovered errorToken _ herrorToken hrecovers hdone =>
    have hgoesOn := hrecovers.isDone_eq hsettled hlive (haccept errorToken herrorToken)
    exact absurd (hdone.symm.trans hgoesOn) (by decide)
  | @retried errorToken s _ herrorToken hrecovers hgoesOn hretries =>
    have hs := hrecovers.placed_eq hsettled hlive
    have hrtally := hrejects.tally_eq hp
    have hrrecoveries : r.tally.recoveries = p.tally.recoveries := by rw [hrtally]
    have hstally := hrecovers.tally_eq hsettled
    have hsdiscarded : s.tally.discarded = p.tally.discarded := by rw [hstally, hrtally]
    change r.stats.recoveries = p.stats.recoveries at hrrecoveries
    change s.stats.discarded = p.stats.discarded at hsdiscarded
    rw [hrrecoveries, hrtally] at hstally
    rcases hretries.placed_cases (hrecovers.settled hsettled) hgoesOn with
      ⟨hplaced, htally⟩ | ⟨hplaced, htally⟩
    · refine ⟨1, 0, by omega, Nat.le_refl _, ?_, by omega⟩
      rw [htally, hstally]
      rfl
    · refine ⟨1, 1, Nat.le_refl _, Nat.le_refl _, ?_, by omega⟩
      rw [htally, hstally, hsdiscarded]
      rfl

/-- One token is posted, and it has one fate; so has the error token if one is put in for it. -/
theorem Posts.adds (hp : p.Settled) (hrunning : p.isDone = false)
    (haccept : ∀ e, table.errorToken = some e → ∀ s, table.entry s e ≠ .accept)
    (h : Posts table sem limit token value p q) :
    ∃ rejected recovered dropped, dropped ≤ recovered ∧ recovered ≤ rejected ∧ rejected ≤ 1 ∧
      Adds p q rejected recovered dropped := by
  have hopened (r : Parser σ τ π ν α) {frames : List (Frame σ ν)} {free : Nat} {fate : Fate}
      (hstack : p.stack = (Layout.settled frames free).stack) (hfate : fate ≠ .rejected)
      (hoffer : (p.opened token).offer table sem token value limit = .ok (r, fate)) :
      Adds p r 0 0 0 := by
    have hr := offer_placed (opened_stack hstack token) hrunning hoffer
    rw [if_neg hfate] at hr
    exact ⟨offer_tally (opened_stack hstack token) hoffer, hr⟩
  cases h with
  | @taken r fate hoffer hfate =>
    obtain ⟨frames, free, hstack⟩ := hp
    have hr := hopened r hstack (by rintro rfl; simp at hfate) hoffer
    exact ⟨0, 0, 0, Nat.le_refl _, Nat.le_refl _, by omega, hr.tally_eq, hr.placed_eq⟩
  | @full r hoffer =>
    obtain ⟨frames, free, hstack⟩ := hp
    have hr := hopened r hstack (by decide) hoffer
    exact ⟨0, 0, 0, Nat.le_refl _, Nat.le_refl _, by omega, hr.tally_eq, hr.placed_eq⟩
  | rejected hrejects hresumes =>
    obtain ⟨recovered, dropped, hdropped, hrecovered, hadds⟩ :=
      hrejects.adds hp hrunning haccept hresumes
    exact ⟨1, recovered, dropped, hdropped, hrecovered, Nat.le_refl _, hadds⟩

/-! ## The account -/

/-- Every token posted and every error token put in has been shifted or dropped, or has ended the
run. -/
structure Accounted (p : Parser σ τ π ν α) : Prop where
  balance : p.stats.tokens + p.stats.recoveries =
    p.stats.shifts + p.stats.discarded + if p.isDone then 1 else 0
  discarded_le : p.stats.discarded ≤ p.stats.recoveries
  recoveries_le : p.stats.recoveries ≤ p.stats.syntaxErrors
  syntaxErrors_le : p.stats.syntaxErrors ≤ p.stats.tokens

theorem Accounted.of_adds {rejected recovered dropped : Nat} (hp : Accounted p)
    (hrunning : p.isDone = false) (hadds : Adds p q rejected recovered dropped)
    (hdropped : dropped ≤ recovered) (hrecovered : recovered ≤ rejected) (hrejected : rejected ≤ 1) :
    Accounted q ∧ q.stats.tokens = p.stats.tokens + 1 := by
  obtain ⟨htally, hplaced⟩ := hadds
  have htokens : q.stats.tokens = p.stats.tokens + 1 := congrArg Stats.tokens htally
  have herrors : q.stats.syntaxErrors = p.stats.syntaxErrors + rejected :=
    congrArg Stats.syntaxErrors htally
  have hrecoveries : q.stats.recoveries = p.stats.recoveries + recovered :=
    congrArg Stats.recoveries htally
  have hdiscarded : q.stats.discarded = p.stats.discarded + dropped :=
    congrArg Stats.discarded htally
  rw [placed_of_running hrunning] at hplaced
  have hbalance := hp.balance
  rw [hrunning] at hbalance
  have hdiscardedLe := hp.discarded_le
  have hrecoveriesLe := hp.recoveries_le
  have herrorsLe := hp.syntaxErrors_le
  unfold placed at hplaced
  simp only [Bool.false_eq_true, if_false] at hbalance
  refine ⟨⟨?_, ?_, ?_, ?_⟩, htokens⟩ <;> omega

variable [DecidableEq τ]

theorem Accounted.post (hp : p.Settled)
    (haccept : ∀ e, table.errorToken = some e → ∀ s, table.entry s e ≠ .accept)
    (haccount : Accounted p) (h : p.post table sem limit token value = .ok q) :
    Accounted q ∧ q.stats.tokens = p.stats.tokens + if p.isDone then 0 else 1 := by
  cases hdone : p.isDone with
  | true =>
    rw [post_of_done hdone] at h
    cases h
    exact ⟨⟨haccount.balance, haccount.discarded_le, haccount.recoveries_le,
      haccount.syntaxErrors_le⟩, rfl⟩
  | false =>
    obtain ⟨rejected, recovered, dropped, hdropped, hrecovered, hrejected, hadds⟩ :=
      (post_cases hdone h).adds hp hdone haccept
    exact haccount.of_adds hdone hadds hdropped hrecovered hrejected

theorem Accounted.trace (hp : p.Settled)
    (haccept : ∀ e, table.errorToken = some e → ∀ s, table.entry s e ≠ .accept)
    (haccount : Accounted p) (posts : List (τ × ν)) (n : Nat)
    (hq : (p.trace table sem limit (posts.map fun post => .post post.1 post.2)).1[n]? = some q) :
    Accounted q ∧ q.stats.tokens = p.stats.tokens +
      ((p.trace table sem limit (posts.map fun post => .post post.1 post.2)).1.take n).countP
        fun r => !r.isDone := by
  induction posts generalizing p n with
  | nil =>
    cases n with
    | zero => cases hq; exact ⟨haccount, rfl⟩
    | succ n => cases hq
  | cons post posts ih =>
    rw [List.map_cons] at hq ⊢
    cases hpost : p.perform table sem limit (.post post.1 post.2) with
    | error halted =>
      rw [trace_of_error hpost] at hq ⊢
      cases n with
      | zero => cases hq; exact ⟨haccount, rfl⟩
      | succ n => cases hq
    | ok p₁ =>
      rw [trace_of_ok hpost] at hq ⊢
      cases n with
      | zero => cases hq; exact ⟨haccount, rfl⟩
      | succ n =>
        obtain ⟨haccount₁, htokens₁⟩ := haccount.post hp haccept hpost
        obtain ⟨haccountq, htokensq⟩ := ih (hp.post hpost) haccount₁ n hq
        refine ⟨haccountq, ?_⟩
        rw [List.take_succ_cons, List.countP_cons, htokensq, htokens₁]
        cases p.isDone
        · simp only [Bool.false_eq_true, if_false, Bool.not_false, if_true]
          omega
        · simp only [if_true, Bool.not_true, Bool.false_eq_true, if_false]
          omega

theorem Fresh.accounted (h : Fresh table sem p) (hcapacity : 0 < p.capacity) :
    Accounted p ∧ p.stats.tokens = 0 := by
  obtain ⟨p₀, l, hp₀, rfl⟩ := h.exists_reset
  by_cases hroom : 0 < l.capacity
  · rw [reset_of_room hp₀ hroom]
    exact ⟨⟨rfl, Nat.le_refl _, Nat.le_refl _, Nat.le_refl _⟩, rfl⟩
  · rw [reset_of_no_room hp₀ (by omega)] at hcapacity
    cases hcapacity

/-- Where no state accepts the error token, the counts of a run with room for a frame balance after
every post, and the tokens counted are those that were posted while the run went on. -/
theorem trace_accounted (haccept : ∀ e, table.errorToken = some e → ∀ s, table.entry s e ≠ .accept)
    (hp : Fresh table sem p) (hcapacity : 0 < p.capacity) (posts : List (τ × ν)) :
    let run := (p.trace table sem limit (posts.map fun post => .post post.1 post.2)).1
    ∀ n q, run[n]? = some q →
      Accounted q ∧ q.stats.tokens = (run.take n).countP fun r => !r.isDone := by
  intro run n q hq
  obtain ⟨haccount, htokens⟩ := hp.accounted hcapacity
  have hrun := haccount.trace hp.settled haccept posts n hq
  rwa [htokens, Nat.zero_add] at hrun

section

open NumberList

/-- `( * * , 1 )`, the end, and one token too many. -/
def overlong : List (Token × Value) :=
  [(.leftParen, .none), (.star, .none), (.star, .none), (.comma, .none), (.number, .number 1),
    (.rightParen, .none), (.finish, .none), (.finish, .none)]

/-- A star makes way for an error token, a second one in the same place is dropped, and the token
behind the end is not counted. -/
theorem trace_accounted_overlong :
    ∃ q, ((create grammar.toTable Builder.semantics {} 7).trace grammar.toTable Builder.semantics 8
        (overlong.map fun post => .post post.1 post.2)).1[8]? = some q ∧
      Accounted q ∧ q.isDone = true ∧ q.stats.tokens = 7 ∧ q.stats.shifts = 6 ∧
      q.stats.recoveries = 2 ∧ q.stats.discarded = 2 := by
  have hlast : ((create grammar.toTable Builder.semantics {} 7).trace grammar.toTable
      Builder.semantics 8 (overlong.map fun post => .post post.1 post.2)).1[8]?.map
        (fun q => (q.isDone, q.stats)) =
      some (true, ⟨7, 6, 5, 2, 2, 2⟩) := by
    decide +kernel
  obtain ⟨q, hq, hseen⟩ := Option.map_eq_some_iff.mp hlast
  obtain ⟨hdone, hstats⟩ := Prod.mk.inj hseen
  have haccept : ∀ e, grammar.toTable.errorToken = some e →
      ∀ s, grammar.toTable.entry s e ≠ .accept := by
    rintro e ⟨⟩
    decide
  obtain ⟨haccount, -⟩ := trace_accounted haccept (.create _ 7) (by decide +kernel) overlong 8 q hq
  exact ⟨q, hq, haccount, hdone, by rw [hstats], by rw [hstats], by rw [hstats], by rw [hstats]⟩

end

end ShiftReduce.Parser
