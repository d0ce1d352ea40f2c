import Mathlib.Logic.Relation
import ShiftReduce.Proofs.Parser.Reachable

/-!
# Posts as sequences of moves

Offering, recovering and giving up are made of a few small moves. What every move and every reset
keeps, every run keeps; and a run that halts does so in an offer, or for want of a frame, at a parser
that moves have led to.
-/

namespace ShiftReduce

variable {σ τ π ν α : Type}

theorem bind_eq_error {ε β γ : Type} {x : Except ε β} {f : β → Except ε γ} {e : ε} :
    x >>= f = .error e ↔ x = .error e ∨ ∃ b, x = .ok b ∧ f b = .error e := by
  cases x with
  | error e' => simp [bind, Except.bind]
  | ok b => simp [bind, Except.bind]

namespace Parser

/-- One transition within a post. Tokens come with values that `offered` allows. -/
inductive Move (table : Table σ τ π) (sem : Semantics π ν α) (offered : τ → ν → Prop) :
    Parser σ τ π ν α → Parser σ τ π ν α → Prop
  | opens {p token} (hrunning : p.isDone = false) : Move table sem offered p (p.opened token)
  | steps {p q token value fate} {l l' : Layout (Frame σ ν)} (hrunning : p.isDone = false)
      (hp : p.stack = l.stack) (hq : q.stack = l'.stack) (hoffered : offered token value)
      (heffect : Effect table sem token value l p l' q fate) : Move table sem offered p q
  | commits {p} : Move table sem offered p p.commit
  | rollsBack {p} (hopen : p.isAccepted = false) : Move table sem offered p p.rollback
  | reports {p token error} (hrunning : p.isDone = false)
      (herror : p.rollback.rejection table token = .ok error) :
      Move table sem offered p (p.reported sem error)
  | unwinds {p count frame} (hrunning : p.isDone = false)
      (htop : (p.stack.drop count).1.top? = some frame) :
      Move table sem offered p (p.unwound count frame)
  | records {p} (event : Event σ τ π ν) : Move table sem offered p (p.record event)
  | recovers {p} : Move table sem offered p
      { p with stats := { p.stats with recoveries := p.stats.recoveries + 1 } }
  | discards {p} : Move table sem offered p
      { p with stats := { p.stats with discarded := p.stats.discarded + 1 } }
  | fails {p error} (hrunning : p.isDone = false) (hlast : p.lastError = some error) :
      Move table sem offered p { p with status := .errored error }
  | givesUp {p token error} (hrunning : p.isDone = false)
      (herror : p.rejection table token = .ok error) :
      Move table sem offered p { p with lastError := some error, status := .errored error }

/-- A parser that moves lead to. -/
def Leads (table : Table σ τ π) (sem : Semantics π ν α) (offered : τ → ν → Prop) :
    Parser σ τ π ν α → Parser σ τ π ν α → Prop :=
  Relation.ReflTransGen (Move table sem offered)

variable {table : Table σ τ π} {sem : Semantics π ν α} {offered : τ → ν → Prop} {token : τ}
  {value : ν} {limit : Nat} {p q : Parser σ τ π ν α} {l : Layout (Frame σ ν)} {fate : Fate}
  {error : ParseError}

/-! ## Offers -/

theorem leads_offer (hp : p.stack = l.stack) (hrunning : p.isDone = false)
    (hoffered : offered token value) (h : p.offer table sem token value limit = .ok (q, fate)) :
    Leads table sem offered p q := by
  obtain ⟨l₁, p₁, l', ⟨hp₁, hrunning₁, hleads⟩, hq, heffect⟩ := offer_effect
    (I := fun l' p' => p'.stack = l'.stack ∧ p'.isDone = false ∧ Leads table sem offered p p')
    (by
      rintro l₁ p₁ l₂ p₂ ⟨hp₁, hrunning₁, hleads⟩ heffect
      have hp₂ : p₂.stack = l₂.stack := by cases heffect; rfl
      have hrunning₂ : p₂.isDone = false := by cases heffect; exact hrunning₁
      exact ⟨hp₂, hrunning₂, hleads.tail (.steps hrunning₁ hp₁ hp₂ hoffered heffect)⟩)
    hp ⟨hp, hrunning, .refl⟩ h
  exact hleads.tail (.steps hrunning₁ hp₁ hq hoffered heffect)

theorem isDone_of_rejected (hp : p.stack = l.stack) (hrunning : p.isDone = false)
    (h : p.offer table sem token value limit = .ok (q, .rejected)) : q.isDone = false :=
  (isDone_congr (offer_status hp h)).trans hrunning

theorem leads_offer_rollback (hp : p.stack = l.stack) (hrunning : p.isDone = false)
    (hoffered : offered token value) (h : p.offer table sem token value limit = .ok (q, fate))
    (hfate : fate = .rejected ∨ fate = .overflowed) : Leads table sem offered p q.rollback := by
  have hopen : q.isAccepted = false := by
    rcases hfate with rfl | rfl
    · exact isAccepted_of_running (isDone_of_rejected hp hrunning h)
    · exact isAccepted_of_errored (offer_status hp h)
  exact (leads_offer hp hrunning hoffered h).tail (.rollsBack hopen)

theorem lastError_of_rejected (hp : p.stack = l.stack)
    (h : p.offer table sem token value limit = .ok (q, .rejected)) : q.lastError = p.lastError := by
  obtain ⟨_, p₁, _, hp₁, -, heffect⟩ := offer_effect (I := fun _ p' => p'.lastError = p.lastError)
    (fun _ _ _ _ hI he => by cases he; exact hI) hp rfl h
  cases heffect
  exact hp₁

/-! ## Recovery -/

theorem Recovers.leads {errorToken : τ} {taken : Bool} (hp : p.Settled)
    (hrunning : p.isDone = false) (hoffered : offered errorToken sem.blank)
    (h : Recovers table sem limit errorToken p q taken) : Leads table sem offered p q := by
  obtain ⟨frames, free, hstack⟩ := hp
  cases h with
  | noFrame => exact .single (.records _)
  | @taken frame r fate hframe hoffer =>
    have hunwound : Leads table sem offered p (p.unwound _ frame) :=
      .single (.unwinds hrunning hframe)
    have hoffer' := leads_offer (unwound_stack hstack _ frame) hrunning hoffered hoffer
    exact ((hunwound.trans hoffer').tail .commits).tail .recovers
  | @refused frame r fate hframe hoffer hfate =>
    have hunwound : Leads table sem offered p (p.unwound _ frame) :=
      .single (.unwinds hrunning hframe)
    have hoffer' :=
      leads_offer_rollback (unwound_stack hstack _ frame) hrunning hoffered hoffer hfate
    exact hunwound.trans hoffer'

theorem Recovers.lastError_eq {errorToken : τ} (hp : p.Settled)
    (h : Recovers table sem limit errorToken p q false) (hrunning : q.isDone = false) :
    q.lastError = p.lastError := by
  obtain ⟨frames, free, hstack⟩ := hp
  cases h with
  | noFrame => rfl
  | @refused frame r fate hframe hoffer hfate =>
    rcases hfate with rfl | rfl
    · have hkept : r.lastError = (p.unwound _ frame).lastError :=
        lastError_of_rejected (unwound_stack hstack _ frame) hoffer
      exact hkept
    · have herrored : r.isErrored = true := offer_status (unwound_stack hstack _ frame) hoffer
      have hlive : r.rollback.isErrored = false := isErrored_of_running hrunning
      exact absurd (hlive.symm.trans herrored) (by decide)

theorem leads_failed (hlast : p.isDone = false → p.lastError = some error) :
    Leads table sem offered p (p.failed error) := by
  unfold failed
  split
  next => exact .refl
  next hdone => exact .single (.fails (by simpa using hdone) (hlast (by simpa using hdone)))

/-! ## Posts -/

theorem Retries.leads (hp : p.Settled) (hrunning : p.isDone = false)
    (hoffered : offered token value) (h : Retries table sem limit token value p q) :
    Leads table sem offered p q := by
  obtain ⟨frames, free, hstack⟩ := hp
  cases h with
  | taken hoffer => exact (leads_offer hstack hrunning hoffered hoffer).tail .commits
  | full hoffer => exact leads_offer_rollback hstack hrunning hoffered hoffer (.inr rfl)
  | @gaveUp r error hoffer _ herror =>
    have hrollback : Leads table sem offered p r.rollback :=
      leads_offer_rollback hstack hrunning hoffered hoffer (.inl rfl)
    have hrunning' : r.isDone = false := isDone_of_rejected hstack hrunning hoffer
    exact (hrollback.tail (.givesUp hrunning' herror)).tail (.records (.givingUp error))
  | @discarded r hoffer =>
    have hrollback : Leads table sem offered p r.rollback :=
      leads_offer_rollback hstack hrunning hoffered hoffer (.inl rfl)
    exact (hrollback.tail (.records (.discarding token))).tail .discards

theorem Rejects.leads (hp : p.Settled) (hrunning : p.isDone = false)
    (hoffered : offered token value) (h : Rejects table sem limit token value p error q) :
    Leads table sem offered p q ∧ q.isDone = false ∧ q.lastError = some error := by
  obtain ⟨r, hoffer, herror, rfl⟩ := h
  obtain ⟨frames, free, hstack⟩ := hp
  have hopened := opened_stack hstack token
  have hleads : Leads table sem offered p r :=
    .head (.opens hrunning) (leads_offer hopened hrunning hoffered hoffer)
  have hrunning' : r.isDone = false := isDone_of_rejected hopened hrunning hoffer
  exact ⟨hleads.tail (.reports hrunning' herror), hrunning', rfl⟩

theorem Resumes.leads (hp : p.Settled) (hrunning : p.isDone = false)
    (hlast : p.lastError = some error) (hoffered : offered token value)
    (hblank : ∀ e, table.errorToken = some e → offered e sem.blank)
    (h : Resumes table sem limit token value error p q) : Leads table sem offered p q := by
  cases h with
  | unprovided => exact leads_failed fun _ => hlast
  | @unrecovered errorToken r herrorToken hrecovers =>
    refine (hrecovers.leads hp hrunning (hblank _ herrorToken)).trans (leads_failed ?_)
    intro hrunning'
    rw [hrecovers.lastError_eq hp hrunning', hlast]
  | recovered herrorToken hrecovers => exact hrecovers.leads hp hrunning (hblank _ herrorToken)
  | retried herrorToken hrecovers hrunning' hretries =>
    have hrecovered := hrecovers.leads hp hrunning (hblank _ herrorToken)
    exact hrecovered.trans (hretries.leads (hrecovers.settled hp) hrunning' hoffered)

theorem Posts.leads (hp : p.Settled) (hrunning : p.isDone = false)
    (hoffered : offered token value)
    (hblank : ∀ e, table.errorToken = some e → offered e sem.blank)
    (h : Posts table sem limit token value p q) : Leads table sem offered p q := by
  cases h with
  | taken hoffer =>
    obtain ⟨frames, free, hstack⟩ := hp
    have hleads := leads_offer (opened_stack hstack token) hrunning hoffered hoffer
    exact (hleads.head (.opens hrunning)).tail .commits
  | full hoffer =>
    obtain ⟨frames, free, hstack⟩ := hp
    have hleads := leads_offer_rollback (opened_stack hstack token) hrunning hoffered hoffer
      (.inr rfl)
    exact hleads.head (.opens hrunning)
  | rejected hrejects hresumes =>
    obtain ⟨hleads, hrunning', hlast⟩ := hrejects.leads hp hrunning hoffered
    exact hleads.trans (hresumes.leads (hrejects.settled hp) hrunning' hlast hoffered hblank)

/-! ## Invariants -/

/-- A property that moves keep. -/
structure Kept (table : Table σ τ π) (sem : Semantics π ν α) (offered : τ → ν → Prop)
    (I : Parser σ τ π ν α → Prop) : Prop where
  blank : ∀ e, table.errorToken = some e → offered e sem.blank
  move : ∀ {p q}, Move table sem offered p q → I p → I q

/-- A property that moves and resets keep. -/
structure Invariant (table : Table σ τ π) (sem : Semantics π ν α) (offered : τ → ν → Prop)
    (I : Parser σ τ π ν α → Prop) : Prop extends Kept table sem offered I where
  reset : ∀ {p}, I p → I (p.reset table sem)

theorem Kept.leads {I : Parser σ τ π ν α → Prop} (hI : Kept table sem offered I)
    (h : Leads table sem offered p q) (hp : I p) : I q := by
  induction h with
  | refl => exact hp
  | tail _ hmove ih => exact hI.move hmove ih

/-- The command offers a token with a value that goes with it, if it offers one. -/
def Command.Offers (offered : τ → ν → Prop) : Command τ ν → Prop
  | .post token value => offered token value
  | .reset => True

theorem Command.Offers.mono {offered' : τ → ν → Prop}
    (h : ∀ {token value}, offered token value → offered' token value) {command : Command τ ν}
    (hoffers : command.Offers offered) : command.Offers offered' := by
  cases command with
  | post token value => exact h hoffers
  | reset => trivial

/-! ## Posts that halt -/

variable {halted : Halted σ τ π ν}

/-- Moves lead to a running parser that halts: a token that it is offered meets no fate, or there is
no frame to take a state from. -/
def Halts (table : Table σ τ π) (sem : Semantics π ν α) (offered : τ → ν → Prop) (limit : Nat)
    (p : Parser σ τ π ν α) (halted : Halted σ τ π ν) : Prop :=
  ∃ q, Leads table sem offered p q ∧ q.isDone = false ∧
    ((∃ token value, offered token value ∧ q.offer table sem token value limit = .error halted) ∨
      q.stack.top? = none)

theorem Leads.halts (h : Leads table sem offered p q)
    (hq : Halts table sem offered limit q halted) : Halts table sem offered limit p halted := by
  obtain ⟨r, hr, hhalts⟩ := hq
  exact ⟨r, h.trans hr, hhalts⟩

theorem halts_of_offer (hrunning : p.isDone = false) (hoffered : offered token value)
    (h : p.offer table sem token value limit = .error halted) :
    Halts table sem offered limit p halted :=
  ⟨p, .refl, hrunning, .inl ⟨token, value, hoffered, h⟩⟩

theorem halts_of_rejection (hrunning : p.isDone = false)
    (h : p.rejection table token = .error halted) : Halts table sem offered limit p halted := by
  refine ⟨p, .refl, hrunning, .inr ?_⟩
  unfold rejection topState at h
  split at h
  next => cases h
  next htop => exact htop

theorem halts_of_recover {errorToken : τ} (hrunning : p.isDone = false)
    (hoffered : offered errorToken sem.blank)
    (h : p.recover table sem limit errorToken = .error halted) :
    Halts table sem offered limit p halted := by
  cases htop : (p.stack.drop (p.unwindDepth table errorToken)).1.top? with
  | none =>
    rw [recover_of_none htop] at h
    cases h
  | some frame =>
    rw [recover_of_some htop, bind_eq_error] at h
    have hunwound : Leads table sem offered p (p.unwound _ frame) :=
      .single (.unwinds hrunning htop)
    rcases h with hoffer | ⟨⟨r, fate⟩, -, hrest⟩
    · exact hunwound.halts (halts_of_offer hrunning hoffered hoffer)
    · cases fate <;> cases hrest

variable [DecidableEq τ]

theorem halts_of_retry (hp : p.Settled) (hrunning : p.isDone = false)
    (hoffered : offered token value)
    (h : p.retry table sem limit token value = .error halted) :
    Halts table sem offered limit p halted := by
  obtain ⟨frames, free, hstack⟩ := hp
  rcases bind_eq_error.mp h with hoffer | ⟨⟨r, fate⟩, hoffer, hrest⟩
  · exact halts_of_offer hrunning hoffered hoffer
  · cases fate with
    | shifted | accepted | overflowed => cases hrest
    | rejected =>
      have hrollback : Leads table sem offered p r.rollback :=
        leads_offer_rollback hstack hrunning hoffered hoffer (.inl rfl)
      have hrunning' : r.isDone = false := isDone_of_rejected hstack hrunning hoffer
      simp only at hrest
      split at hrest
      next =>
        rcases bind_eq_error.mp hrest with herror | ⟨error, -, hpure⟩
        · exact hrollback.halts (halts_of_rejection hrunning' herror)
        · cases hpure
      next => cases hrest

theorem halts_of_reject {r : Parser σ τ π ν α} (hp : p.Settled) (hrunning : p.isDone = false)
    (hoffered : offered token value)
    (hblank : ∀ e, table.errorToken = some e → offered e sem.blank)
    (hoffer : (p.opened token).offer table sem token value limit = .ok (r, .rejected))
    (h : r.reject table sem limit token value = .error halted) :
    Halts table sem offered limit p halted := by
  rw [reject_eq] at h
  rcases bind_eq_error.mp h with herror | ⟨error, herror, hrest⟩
  · obtain ⟨frames, free, hstack⟩ := hp
    have hopened := opened_stack hstack token
    have hrollback : Leads table sem offered p r.rollback :=
      (leads_offer_rollback hopened hrunning hoffered hoffer (.inl rfl)).head (.opens hrunning)
    have hrunning' : r.isDone = false := isDone_of_rejected hopened hrunning hoffer
    exact hrollback.halts (halts_of_rejection hrunning' herror)
  · have hrejects : Rejects table sem limit token value p error (r.reported sem error) :=
      ⟨r, hoffer, herror, rfl⟩
    obtain ⟨hleads, hrunning', -⟩ := hrejects.leads hp hrunning hoffered
    cases herrorToken : table.errorToken with
    | none =>
      rw [herrorToken] at hrest
      rcases bind_eq_error.mp hrest with hpure | ⟨⟨s, taken⟩, hpure, hrest⟩
      · cases hpure
      · cases hpure
        simp only [Bool.false_eq_true, if_false] at hrest
        split at hrest <;> cases hrest
    | some errorToken =>
      rw [herrorToken] at hrest
      have hblank' := hblank errorToken herrorToken
      rcases bind_eq_error.mp hrest with hrecover | ⟨⟨s, taken⟩, hrecover, hrest⟩
      · exact hleads.halts (halts_of_recover hrunning' hblank' hrecover)
      · have hrecovers := recover_cases hrecover
        simp only at hrest
        split at hrest
        next => cases hrest
        next hdone =>
          cases taken with
          | false => cases hrest
          | true =>
            have hsettled := hrejects.settled hp
            have hrecovered : Leads table sem offered p s :=
              hleads.trans (hrecovers.leads hsettled hrunning' hblank')
            exact hrecovered.halts
              (halts_of_retry (hrecovers.settled hsettled) (by simpa using hdone) hoffered hrest)

theorem halts_of_post (hp : p.Settled) (hoffered : offered token value)
    (hblank : ∀ e, table.errorToken = some e → offered e sem.blank)
    (h : p.post table sem limit token value = .error halted) :
    Halts table sem offered limit p halted := by
  cases hdone : p.isDone with
  | true =>
    rw [post_of_done hdone] at h
    cases h
  | false =>
    rw [post_of_running hdone] at h
    rcases bind_eq_error.mp h with hoffer | ⟨⟨r, fate⟩, hoffer, hrest⟩
    · have hopens : Leads table sem offered p (p.opened token) := .single (.opens hdone)
      exact hopens.halts (halts_of_offer hdone hoffered hoffer)
    · cases fate with
      | shifted | accepted | overflowed => cases hrest
      | rejected => exact halts_of_reject hp hdone hoffered hblank hoffer hrest

/-! ## Runs -/

theorem Kept.post {I : Parser σ τ π ν α → Prop} (hI : Kept table sem offered I) (hp : p.Settled)
    (h : I p) (hoffered : offered token value)
    (hpost : p.post table sem limit token value = .ok q) : I q := by
  cases hdone : p.isDone with
  | true =>
    rw [post_of_done hdone] at hpost
    cases hpost
    exact hI.move (.records _) h
  | false => exact hI.leads ((post_cases hdone hpost).leads hp hdone hoffered hI.blank) h

theorem Kept.postAll {I : Parser σ τ π ν α → Prop} {posts : List (τ × ν)}
    (hI : Kept table sem offered I) (hp : p.Settled) (h : I p)
    (hoffered : ∀ post ∈ posts, offered post.1 post.2)
    (hrun : p.postAll table sem limit posts = .ok q) : I q := by
  induction posts using List.reverseRecOn generalizing q with
  | nil =>
    cases hrun
    exact h
  | append_singleton posts post ih =>
    rw [postAll_concat, bind_eq_ok] at hrun
    obtain ⟨r, hrun, hpost⟩ := hrun
    have hr : I r := ih (fun post hmem => hoffered post (List.mem_append_left _ hmem)) hrun
    exact hI.post (hp.postAll hrun) hr (hoffered post (by simp)) hpost

namespace Invariant

variable {I : Parser σ τ π ν α → Prop} (hI : Invariant table sem offered I)

include hI

theorem perform {command : Command τ ν} (hp : p.Settled) (h : I p)
    (hoffers : command.Offers offered) (hq : p.perform table sem limit command = .ok q) :
    q.Settled ∧ I q := by
  cases command with
  | post token value => exact ⟨hp.post hq, hI.post hp h hoffers hq⟩
  | reset =>
    cases hq
    obtain ⟨frames, free, hstack⟩ := hp
    exact ⟨settled_reset hstack, hI.reset h⟩

/-- What holds at first holds all along. -/
theorem trace {commands : List (Command τ ν)} (hp : p.Settled) (h : I p)
    (hoffers : ∀ command ∈ commands, command.Offers offered) :
    ∀ q ∈ (p.trace table sem limit commands).1, q.Settled ∧ I q := by
  refine forall_mem_trace ?_ ⟨hp, h⟩
  rintro r s command hcommand ⟨hr, hIr⟩ hs
  exact hI.perform hr hIr (hoffers command hcommand) hs

theorem trace_halt {commands : List (Command τ ν)} {cause : Halt} (hp : p.Settled) (h : I p)
    (hoffers : ∀ command ∈ commands, command.Offers offered)
    (hcause : (p.trace table sem limit commands).2 = some cause) :
    ∃ q halted, I q ∧ Halts table sem offered limit q halted ∧ halted.cause = cause := by
  induction commands generalizing p with
  | nil => cases hcause
  | cons command rest ih =>
    have hoffers' := hoffers command List.mem_cons_self
    unfold Parser.trace at hcause
    split at hcause
    next q hq =>
      obtain ⟨hq, hIq⟩ := hI.perform hp h hoffers' hq
      exact ih hq hIq (fun c hc => hoffers c (List.mem_cons_of_mem command hc)) hcause
    next halted hhalted =>
      cases command with
      | post token value =>
        exact ⟨p, halted, h, halts_of_post hp hoffers' hI.blank hhalted, Option.some.inj hcause⟩
      | reset => cases hhalted

end Invariant

end Parser

end ShiftReduce
