import ShiftReduce.Proofs.Parser.Bookkeeping
import ShiftReduce.Proofs.Parser.Resynchronisation
import ShiftReduce.Proofs.Parser.Typing

/-!
# No reduction is in vain

The action of a production cannot be undone, so a token should not be rejected behind a reduction
that was made on it. Whether this can happen is seen from the table: wherever a token calls for a
reduction, every state that can come next has to have an action for the same token. Then a rejection
leaves no trace of the offer, and the error that is reported names a state without an action.
-/

namespace ShiftReduce.Parser

variable {σ τ π ν α : Type}

/-! ## Thrifty tables -/

/-- The property holds of every state that can be uncovered by popping so many frames, the first of
them of the given state. -/
def Uncovers (table : Table σ τ π) (after : σ → Prop) : Nat → σ → Prop
  | 0, s => after s
  | n + 1, s => ∀ under, Links table under s → Uncovers table after n under

/-- Behind a reduction that a token calls for, the next state has an action for the token. -/
def Thrifty (table : Table σ τ π) : Prop :=
  ∀ s token production, table.entry s token = .reduce production →
    Uncovers table (fun under => ∀ next,
      table.entry under (table.lhs production) = .goto next → table.entry next token ≠ .error)
      (table.arity production) s

section

variable [DecidableEq σ] [DecidableEq π] [Fintype σ] [Fintype τ]

instance Uncovers.decidable (table : Table σ τ π) (after : σ → Prop) [DecidablePred after] :
    (n : Nat) → (s : σ) → Decidable (Uncovers table after n s)
  | 0, s => inferInstanceAs (Decidable (after s))
  | n + 1, _ =>
    have (under : σ) := Uncovers.decidable table after n under
    inferInstanceAs (Decidable (∀ _, _))

instance [Fintype π] (table : Table σ τ π) : Decidable (Thrifty table) :=
  inferInstanceAs (Decidable (∀ _ _ _, _ → _))

end

variable {table : Table σ τ π} {sem : Semantics π ν α} {token t : τ} {value v blank : ν}
  {limit capacity : Nat} {p q r s : Parser σ τ π ν α} {l : Layout (Frame σ ν)} {fate : Fate}
  {error : ParseError} {frames : List (Frame σ ν)} {top under : Frame σ ν}
  {ok : ParseError → Prop}

theorem Path.uncovers {after : σ → Prop} {n : Nat} (h : Path table blank frames)
    (htop : frames.getLast? = some top) (huncovers : Uncovers table after n top.state)
    (hunder : (frames.take (frames.length - n)).getLast? = some under) : after under.state := by
  -- Each frame that is popped goes down one link, on the stack as in the table.
  induction n generalizing frames top with
  | zero =>
    rw [Nat.sub_zero, List.take_length, htop] at hunder
    cases hunder
    exact huncovers
  | succ n ih =>
    obtain ⟨init, rfl⟩ := List.getLast?_eq_some_iff.mp htop
    have hlength : (init ++ [top]).length - (n + 1) = init.length - n := by
      rw [List.length_append, List.length_singleton]
      omega
    rw [hlength, List.take_append_of_le_length (Nat.sub_le _ _)] at hunder
    have hinit : init ≠ [] := by
      rintro rfl
      rw [List.take_nil] at hunder
      cases hunder
    obtain ⟨next, hnext, hlink⟩ := h.exists_under hinit
    have hbelow : Path table blank init := by
      have htake := h.take (List.length_pos_of_ne_nil hinit)
      rwa [List.take_left] at htake
    exact ih hbelow hnext (huncovers next.state hlink) hunder

theorem Thrifty.effect (hT : Thrifty table) (hpath : Path table blank l.frames)
    {l' : Layout (Frame σ ν)} (h : Effect table sem token value l p l' q none) :
    ∃ top, l'.frames.getLast? = some top ∧ table.entry top.state token ≠ .error := by
  cases h with
  | @reduce top production result next htop hentry hreduces =>
    obtain ⟨under, hunder, hgoto⟩ := hreduces.goes
    rw [Layout.frames_drop] at hunder
    refine ⟨⟨next, result.value⟩, ?_, ?_⟩
    · rw [Layout.frames_push, List.getLast?_concat]
    · exact hpath.uncovers htop (hT _ _ _ hentry) hunder next hgoto

/-- A rejected offer has changed nothing: the token was rejected by the state on top before it. -/
theorem Thrifty.offer_rejected (hT : Thrifty table) (hp : p.stack = l.stack)
    (hpath : Path table sem.blank l.frames)
    (h : p.offer table sem token value limit = .ok (q, .rejected)) :
    q = p ∧ ∃ top, l.frames.getLast? = some top ∧ table.entry top.state token = .error := by
  obtain ⟨l₁, p₁, l', ⟨-, hstands⟩, -, heffect⟩ := offer_effect
    (I := fun l' p' => Path table sem.blank l'.frames ∧
      ((l' = l ∧ p' = p) ∨
        ∃ top, l'.frames.getLast? = some top ∧ table.entry top.state token ≠ .error))
    (fun _ _ _ _ hI he =>
      ⟨(shape_path table sem).effect hI.1 trivial he, .inr (hT.effect hI.1 he)⟩)
    hp ⟨hpath, .inl ⟨rfl, rfl⟩⟩ h
  cases heffect with
  | @reject top htop hentry =>
    rcases hstands with ⟨rfl, rfl⟩ | ⟨top', htop', haction⟩
    · exact ⟨rfl, top, htop, hentry⟩
    · cases htop.symm.trans htop'
      exact absurd hentry haction

/-! ## The offerings of a post -/

/-- In a post to `p` the parser `r` is offered the token `t` with the value `v`: the posted token,
then the error token, and after a recovery the posted token again. -/
inductive Offering (table : Table σ τ π) (sem : Semantics π ν α) (limit : Nat) (token : τ)
    (value : ν) (p : Parser σ τ π ν α) : Parser σ τ π ν α → τ → ν → Prop
  | first : Offering table sem limit token value p (p.opened token) token value
  | errorToken {error : ParseError} {r : Parser σ τ π ν α} {errorToken : τ} {frame : Frame σ ν}
      (hrejects : Rejects table sem limit token value p error r)
      (herrorToken : table.errorToken = some errorToken)
      (hframe : (r.stack.drop (r.unwindDepth table errorToken)).1.top? = some frame) :
      Offering table sem limit token value p (r.unwound (r.unwindDepth table errorToken) frame)
        errorToken sem.blank
  | again {r : Parser σ τ π ν α} (hto : RecoversTo table sem limit token value p r)
      (hrunning : r.isDone = false) :
      Offering table sem limit token value p r token value

/-- Some offering of the post has ended with its token taken, behind reductions of its own. -/
def Earns (table : Table σ τ π) (sem : Semantics π ν α) (limit : Nat) (token : τ) (value : ν)
    (p : Parser σ τ π ν α) : Prop :=
  ∃ r t v s fate, Offering table sem limit token value p r t v ∧
    r.offer table sem t v limit = .ok (s, fate) ∧ (fate = .shifted ∨ fate = .accepted) ∧
    r.stats.reductions < s.stats.reductions

theorem RecoversTo.leads (hp : p.Settled) (hrunning : p.isDone = false)
    (h : RecoversTo table sem limit token value p r) :
    Leads table sem (fun _ _ => True) p r := by
  obtain ⟨error, q, errorToken, hrejects, -, hrecovers⟩ := h
  have hrejected : Leads table sem (fun _ _ => True) p q := (hrejects.leads hp hrunning trivial).1
  have hlive := hrejects.isDone_eq hp hrunning
  exact hrejected.trans (hrecovers.leads (hrejects.settled hp) hlive trivial)

theorem Offering.leads (hp : p.Settled) (hrunning : p.isDone = false)
    (h : Offering table sem limit token value p r t v) :
    Leads table sem (fun _ _ => True) p r ∧ r.isDone = false := by
  cases h with
  | first => exact ⟨.single (.opens hrunning), hrunning⟩
  | @errorToken error u _ _ hrejects _ hframe =>
    have hrejected : Leads table sem (fun _ _ => True) p u := (hrejects.leads hp hrunning trivial).1
    have hlive := hrejects.isDone_eq hp hrunning
    exact ⟨hrejected.tail (.unwinds hlive hframe), hlive⟩
  | again hto hlive => exact ⟨hto.leads hp hrunning, hlive⟩

theorem Offering.path (hp : p.Settled) (hrunning : p.isDone = false)
    (hshaped : Shaped (Path table sem.blank) (fun _ => True) capacity p)
    (h : Offering table sem limit token value p r t v) :
    ∃ l : Layout (Frame σ ν), r.stack = l.stack ∧ Path table sem.blank l.frames := by
  obtain ⟨hleads, hlive⟩ := h.leads hp hrunning
  have hr := ((shape_path table sem).invariant capacity).leads hleads hshaped
  obtain ⟨l, hl⟩ := hr.layout
  have hframes := hr.frames (hr.pos_of_running hlive)
  rw [frames_eq hl] at hframes
  exact ⟨l, hl, hframes⟩

/-! ## What reductions are made for -/

theorem isOverflowed_of_offer (hp : p.stack = l.stack)
    (h : p.offer table sem token value limit = .ok (q, .overflowed)) :
    q.rollback.isOverflowed = true := by
  obtain ⟨capacity, hfull⟩ := offer_overflowed hp h
  have hrolled : q.rollback.status = .errored (.overflow capacity) := hfull
  rw [isOverflowed, hrolled]

theorem failed_of_overflowed (h : p.isOverflowed = true) : p.failed error = p := by
  unfold isOverflowed at h
  split at h
  next hstatus => rw [failed, isDone, hstatus, if_pos rfl]
  next => cases h

theorem reductions_failed (p : Parser σ τ π ν α) (error : ParseError) :
    (p.failed error).stats.reductions = p.stats.reductions := by
  unfold failed
  split <;> rfl

theorem Recovers.earns {errorToken : τ} (hrejects : Rejects table sem limit token value p error q)
    (herrorToken : table.errorToken = some errorToken)
    (h : Recovers table sem limit errorToken q r true)
    (hgrows : q.stats.reductions < r.stats.reductions) : Earns table sem limit token value p := by
  cases h with
  | taken hframe hoffer hfate =>
    exact ⟨_, _, _, _, _, .errorToken hrejects herrorToken hframe, hoffer, hfate, hgrows⟩

section

variable (hT : Thrifty table) (hp : p.Settled) (hrunning : p.isDone = false)
  (hshaped : Shaped (Path table sem.blank) (fun _ => True) capacity p)

include hT hp hrunning hshaped

theorem Thrifty.offering_rejected (h : Offering table sem limit token value p r t v)
    (hoffer : r.offer table sem t v limit = .ok (s, .rejected)) : s = r := by
  obtain ⟨l, hl, hpath⟩ := h.path hp hrunning hshaped
  exact (hT.offer_rejected hl hpath hoffer).1

theorem Thrifty.reductions_rejects (h : Rejects table sem limit token value p error r) :
    r.stats.reductions = p.stats.reductions := by
  obtain ⟨s, hoffer, -, rfl⟩ := h
  rw [hT.offering_rejected hp hrunning hshaped .first hoffer]
  rfl

theorem Thrifty.recovers_untaken {errorToken : τ}
    (hrejects : Rejects table sem limit token value p error q)
    (herrorToken : table.errorToken = some errorToken)
    (h : Recovers table sem limit errorToken q r false) :
    r.isOverflowed = true ∨ r.stats.reductions = q.stats.reductions := by
  obtain ⟨frames, free, hstack⟩ := hrejects.settled hp
  cases h with
  | noFrame => exact .inr rfl
  | @refused frame s fate hframe hoffer hfate =>
    rcases hfate with rfl | rfl
    · have hsame := hT.offering_rejected hp hrunning hshaped
        (.errorToken hrejects herrorToken hframe) hoffer
      rw [hsame]
      exact .inr rfl
    · exact .inl (isOverflowed_of_offer (unwound_stack hstack _ frame) hoffer)

theorem Thrifty.earns (h : Posts table sem limit token value p q) (hlive : q.isOverflowed = false)
    (hgrows : p.stats.reductions < q.stats.reductions) : Earns table sem limit token value p := by
  have hdead {r : Parser σ τ π ν α} (hr : r.isOverflowed = true) (heq : q = r) : False := by
    rw [← heq, hlive] at hr
    cases hr
  obtain ⟨frames, free, hstack⟩ := id hp
  cases h with
  | taken hoffer hfate => exact ⟨_, _, _, _, _, .first, hoffer, hfate, hgrows⟩
  | @full r hoffer =>
    exact (hdead (isOverflowed_of_offer (opened_stack hstack token) hoffer) rfl).elim
  | @rejected error u _ hrejects hresumes =>
    have hu := hT.reductions_rejects hp hrunning hshaped hrejects
    cases hresumes with
    | unprovided =>
      rw [reductions_failed] at hgrows
      omega
    | @unrecovered errorToken r herrorToken hrecovers =>
      rcases hT.recovers_untaken hp hrunning hshaped hrejects herrorToken hrecovers with hr | hr
      · exact (hdead hr (failed_of_overflowed hr)).elim
      · rw [reductions_failed] at hgrows
        omega
    | recovered herrorToken hrecovers =>
      exact hrecovers.earns hrejects herrorToken (by omega)
    | @retried errorToken r _ herrorToken hrecovers hrecovered hretries =>
      by_cases hmade : u.stats.reductions < r.stats.reductions
      · exact hrecovers.earns hrejects herrorToken hmade
      have hto : RecoversTo table sem limit token value p r :=
        ⟨error, u, errorToken, hrejects, herrorToken, hrecovers⟩
      have hagain : Offering table sem limit token value p r token value := .again hto hrecovered
      obtain ⟨l, hl, -⟩ := hagain.path hp hrunning hshaped
      cases hretries with
      | @taken s fate hoffer hfate =>
        have hs : r.stats.reductions < s.stats.reductions := by
          change p.stats.reductions < s.stats.reductions at hgrows
          omega
        exact ⟨_, _, _, _, _, hagain, hoffer, hfate, hs⟩
      | @full s hoffer =>
        exact (hdead (isOverflowed_of_offer hl hoffer) rfl).elim
      | @gaveUp s _ hoffer =>
        obtain rfl := hT.offering_rejected hp hrunning hshaped hagain hoffer
        change p.stats.reductions < s.stats.reductions at hgrows
        omega
      | @discarded s hoffer =>
        obtain rfl := hT.offering_rejected hp hrunning hshaped hagain hoffer
        change p.stats.reductions < s.stats.reductions at hgrows
        omega

end

/-! ## What is reported -/

/-- The error that an event reports. -/
def complaint? : Event σ τ π ν → Option ParseError
  | .failed error | .givingUp error => some error
  | _ => none

/-- The error has been reported: as the last one, as the end of the run or in the journal. -/
def Reports (p : Parser σ τ π ν α) (error : ParseError) : Prop :=
  p.lastError = some error ∨ p.status = .errored error ∨
    ∃ event ∈ p.journal, complaint? event = some error

/-- Every error that has been reported is of the given sort. -/
def Vouched (ok : ParseError → Prop) (p : Parser σ τ π ν α) : Prop :=
  ∀ error, p.Reports error → ok error

theorem Vouched.update (h : Vouched ok p) (events : List (Event σ τ π ν))
    (hlast : ∀ error, q.lastError = some error → p.lastError = some error ∨ ok error)
    (hstatus : ∀ error, q.status = .errored error → p.status = .errored error ∨ ok error)
    (hjournal : q.journal = events ++ p.journal)
    (hevents : ∀ event ∈ events, ∀ error, complaint? event = some error → ok error) :
    Vouched ok q := by
  rintro error (hreported | hreported | ⟨event, hevent, hreported⟩)
  · rcases hlast error hreported with hold | hok
    · exact h error (.inl hold)
    · exact hok
  · rcases hstatus error hreported with hold | hok
    · exact h error (.inr (.inl hold))
    · exact hok
  · rw [hjournal] at hevent
    rcases List.mem_append.mp hevent with hnew | hold
    · exact hevents event hnew error hreported
    · exact h error (.inr (.inr ⟨event, hold, hreported⟩))

theorem Vouched.record (h : Vouched ok p) {event : Event σ τ π ν}
    (hsilent : complaint? event = none) : Vouched ok (p.record event) :=
  h.update [event] (fun _ => .inl) (fun _ => .inl) rfl (by simp [hsilent])

theorem Vouched.overflowed (h : Vouched ok p) (hfull : ∀ capacity, ok (.overflow capacity)) :
    Vouched ok (p.overflowed sem) := by
  refine h.update [.overflow p.capacity] ?_ ?_ rfl (by simp [complaint?])
  · rintro error ⟨⟩
    exact .inr (hfull _)
  · rintro error ⟨⟩
    exact .inr (hfull _)

theorem Vouched.reduced (h : Vouched ok p) (production : π) (result : Reduced ν α) (next : σ)
    (stack : Stack (Frame σ ν)) : Vouched ok (p.reduced production result next stack) := by
  refine h.update (.goto next :: ((result.notes.map Event.note).reverse ++ [.reduce production]))
    (fun _ => .inl) (fun _ => .inl) (by simp [Parser.reduced]) ?_
  intro event hevent error hreported
  have hkind : event = .goto next ∨ (∃ text ∈ result.notes, .note text = event) ∨
      event = .reduce production := by simpa using hevent
  rcases hkind with rfl | ⟨text, -, rfl⟩ | rfl <;> cases hreported

theorem Vouched.effect (h : Vouched ok p) (hfull : ∀ capacity, ok (.overflow capacity))
    {l' : Layout (Frame σ ν)} {fate? : Option Fate}
    (heffect : Effect table sem token value l p l' q fate?) : Vouched ok q := by
  cases heffect with
  | @shift top next =>
    have hrecord : Vouched ok (p.record (.shift token next)) := h.record rfl
    exact hrecord
  | @shiftFull top next =>
    have hrecord : Vouched ok (p.record (.shift token next)) := h.record rfl
    exact hrecord.overflowed hfull
  | reduce => exact h.reduced _ _ _ _
  | reduceFull => exact (h.reduced _ _ _ _).overflowed hfull
  | accept => exact h.update [.accept] (fun _ => .inl) nofun rfl (by simp [complaint?])
  | reject => exact h

theorem Vouched.offer (h : Vouched ok p) (hfull : ∀ capacity, ok (.overflow capacity))
    (hp : p.stack = l.stack) (hoffer : p.offer table sem token value limit = .ok (q, fate)) :
    Vouched ok q := by
  obtain ⟨_, _, _, hbefore, -, heffect⟩ := offer_effect (I := fun _ p' => Vouched ok p')
    (fun _ _ _ _ hI he => hI.effect hfull he) hp h hoffer
  exact hbefore.effect hfull heffect

theorem Vouched.failed (h : Vouched ok p) (herror : ok error) : Vouched ok (p.failed error) := by
  unfold Parser.failed
  split
  next => exact h
  next =>
    refine h.update [] (fun _ => .inl) ?_ rfl nofun
    rintro error' ⟨⟩
    exact .inr herror

theorem Vouched.opened (h : Vouched ok p) (token : τ) : Vouched ok (p.opened token) := by
  have hrecord : Vouched ok (p.record (.stack p.rollback.frames token)) := h.record rfl
  exact hrecord

theorem Vouched.reported (h : Vouched ok p) (herror : ok error) :
    Vouched ok (p.reported sem error) := by
  refine h.update [.failed error] ?_ (fun _ => .inl) rfl (by simpa [complaint?] using herror)
  rintro error' ⟨⟩
  exact .inr herror

theorem Vouched.gaveUp (h : Vouched ok p) (herror : ok error) :
    Vouched ok { p.record (.givingUp error) with
      lastError := some error, status := .errored error } := by
  refine h.update [.givingUp error] ?_ ?_ rfl (by simpa [complaint?] using herror)
  · rintro error' ⟨⟩
    exact .inr herror
  · rintro error' ⟨⟩
    exact .inr herror

theorem Vouched.recovers (h : Vouched ok p) (hfull : ∀ capacity, ok (.overflow capacity))
    (hp : p.Settled) {errorToken : τ} {taken : Bool}
    (hrecovers : Recovers table sem limit errorToken p q taken) : Vouched ok q := by
  obtain ⟨frames, free, hstack⟩ := hp
  have hunwound (count : Nat) (frame : Frame σ ν) : Vouched ok (p.unwound count frame) := by
    have hrecord : Vouched ok (p.record (.recovering frame.state)) := h.record rfl
    exact hrecord
  cases hrecovers with
  | noFrame => exact h.record rfl
  | @taken frame r fate _ hoffer =>
    have hr : Vouched ok r :=
      (hunwound _ frame).offer hfull (unwound_stack hstack _ frame) hoffer
    exact hr
  | @refused frame r fate _ hoffer =>
    have hr : Vouched ok r :=
      (hunwound _ frame).offer hfull (unwound_stack hstack _ frame) hoffer
    exact hr

theorem Thrifty.rejection (hT : Thrifty table) (hsettled : p.Settled) (hp : p.stack = l.stack)
    (hpath : Path table sem.blank l.frames)
    (hoffer : p.offer table sem token value limit = .ok (q, .rejected))
    (herror : q.rollback.rejection table token = .ok error) :
    ∃ s, table.entry s token = .error ∧
      error = .unexpected (table.tokenLabel token) (table.stateIndex s) := by
  obtain ⟨frames, free, hstack⟩ := hsettled
  have hback : q.rollback.stack = p.stack := rollback_offer_settled hstack hoffer
  obtain ⟨top, htop, rfl⟩ := rejection_eq_ok (hback.trans hp) herror
  obtain ⟨-, top', htop', hentry⟩ := hT.offer_rejected hp hpath hoffer
  cases htop.symm.trans htop'
  exact ⟨top.state, hentry, rfl⟩

theorem Thrifty.vouched (hT : Thrifty table) (hp : p.Settled) (hrunning : p.isDone = false)
    (hshaped : Shaped (Path table sem.blank) (fun _ => True) capacity p)
    (hfull : ∀ capacity, ok (.overflow capacity))
    (hnamed : ∀ s, table.entry s token = .error →
      ok (.unexpected (table.tokenLabel token) (table.stateIndex s)))
    (h : Vouched ok p) (hposts : Posts table sem limit token value p q) : Vouched ok q := by
  obtain ⟨frames, free, hstack⟩ := id hp
  have hopened := opened_stack hstack token
  cases hposts with
  | taken hoffer =>
    have hr := (h.opened token).offer hfull hopened hoffer
    exact hr
  | full hoffer =>
    have hr := (h.opened token).offer hfull hopened hoffer
    exact hr
  | @rejected error u _ hrejects hresumes =>
    obtain ⟨r, hoffer, herror, rfl⟩ := id hrejects
    have hok : ok error := by
      obtain ⟨l, hl, hpath⟩ :=
        (Offering.first : Offering table sem limit token value p _ _ _).path hp hrunning hshaped
      obtain ⟨s, hentry, rfl⟩ := hT.rejection ⟨_, _, hopened⟩ hl hpath hoffer herror
      exact hnamed s hentry
    have hu : Vouched ok (r.reported sem error) :=
      ((h.opened token).offer hfull hopened hoffer).reported hok
    have hsettled := hrejects.settled hp
    cases hresumes with
    | unprovided => exact hu.failed hok
    | unrecovered _ hrecovers => exact (hu.recovers hfull hsettled hrecovers).failed hok
    | recovered _ hrecovers => exact hu.recovers hfull hsettled hrecovers
    | @retried errorToken s _ herrorToken hrecovers hrecovered hretries =>
      have hs := hu.recovers hfull hsettled hrecovers
      have hto : RecoversTo table sem limit token value p s :=
        ⟨error, _, errorToken, hrejects, herrorToken, hrecovers⟩
      have hagain : Offering table sem limit token value p s token value := .again hto hrecovered
      obtain ⟨l, hl, hpath⟩ := hagain.path hp hrunning hshaped
      cases hretries with
      | taken hoffer | full hoffer =>
        have ht := hs.offer hfull hl hoffer
        exact ht
      | @gaveUp t error' hoffer _ herror' =>
        obtain ⟨state, hentry, rfl⟩ := hT.rejection (hto.settled hp) hl hpath hoffer herror'
        have ht := (hs.offer hfull hl hoffer).gaveUp (hnamed state hentry)
        exact ht
      | @discarded t hoffer =>
        have ht : Vouched ok (t.record (.discarding token)) :=
          (hs.offer hfull hl hoffer).record rfl
        exact ht

/-! ## Runs -/

theorem Vouched.reset (h : Vouched ok p) (hfull : ∀ capacity, ok (.overflow capacity))
    (hp : p.stack = l.stack) : Vouched ok (p.reset table sem) := by
  have hcleared (stack : Stack (Frame σ ν)) : Vouched ok
      { p with status := .running, lastError := none, stats := {}, stack } :=
    h.update [] nofun nofun rfl nofun
  by_cases hroom : 0 < l.capacity
  · rw [reset_of_room hp hroom]
    exact hcleared _
  · rw [reset_of_no_room hp (by omega)]
    exact (hcleared _).overflowed hfull

variable [DecidableEq τ]

theorem Reachable.shaped (h : Reachable table sem p) :
    ∃ capacity, Shaped (Path table sem.blank) (fun _ => True) capacity p := by
  have hshape := shape_path table sem
  induction h with
  | create actions capacity => exact ⟨capacity, hshape.create actions capacity⟩
  | post hp hpost ih =>
    obtain ⟨capacity, hshaped⟩ := ih
    exact ⟨capacity, (hshape.invariant capacity).post hp.settled hshaped trivial hpost⟩
  | reset hp ih =>
    obtain ⟨capacity, hshaped⟩ := ih
    exact ⟨capacity, (hshape.invariant capacity).reset hshaped⟩
  | update actions hp ih =>
    obtain ⟨capacity, hshaped⟩ := ih
    exact ⟨capacity, hshaped.congr rfl rfl⟩

theorem Thrifty.vouched_post (hT : Thrifty table) (hp : Reachable table sem p)
    (hfull : ∀ capacity, ok (.overflow capacity))
    (hnamed : ∀ s, table.entry s token = .error →
      ok (.unexpected (table.tokenLabel token) (table.stateIndex s)))
    (h : Vouched ok p) (hpost : p.post table sem limit token value = .ok q) : Vouched ok q := by
  cases hdone : p.isDone with
  | true =>
    rw [post_of_done hdone] at hpost
    cases hpost
    exact h.record rfl
  | false =>
    obtain ⟨capacity, hshaped⟩ := hp.shaped
    exact hT.vouched hp.settled hdone hshaped hfull hnamed h (post_cases hdone hpost)

theorem Thrifty.vouched_reachable (hT : Thrifty table) (hfull : ∀ capacity, ok (.overflow capacity))
    (hnamed : ∀ s token, table.entry s token = .error →
      ok (.unexpected (table.tokenLabel token) (table.stateIndex s)))
    (hp : Reachable table sem p) : Vouched ok p := by
  induction hp with
  | create actions capacity =>
    have hunused : Vouched ok
        ({ actions, stack := .ofCapacity capacity } : Parser σ τ π ν α) := by
      rintro error (hreported | hreported | ⟨event, hevent, -⟩)
      · cases hreported
      · cases hreported
      · cases hevent
    exact hunused.reset hfull (Layout.stack_settled_nil capacity).symm
  | post hp hpost ih => exact hT.vouched_post hp hfull (fun s => hnamed s _) ih hpost
  | reset hp ih =>
    obtain ⟨frames, free, hstack⟩ := hp.settled
    exact ih.reset hfull hstack
  | update actions hp ih => exact ih

/-- The error is that of a full stack, or names the token and a state that has no action for it. -/
def Warranted (table : Table σ τ π) (token : τ) (error : ParseError) : Prop :=
  (∃ capacity, error = .overflow capacity) ∨
    ∃ s, table.entry s token = .error ∧
      error = .unexpected (table.tokenLabel token) (table.stateIndex s)

/-- What a post to `p` makes reductions for, and what it reports. -/
structure Economical (table : Table σ τ π) (sem : Semantics π ν α) (limit : Nat) (token : τ)
    (value : ν) (p : Parser σ τ π ν α) : Prop where
  /-- An offering whose token is rejected has made no reduction, nor changed anything else. -/
  rejected : ∀ r t v s, Offering table sem limit token value p r t v →
    r.offer table sem t v limit = .ok (s, .rejected) → s = r
  reduced : ∀ q, p.post table sem limit token value = .ok q → q.isOverflowed = false →
    p.stats.reductions < q.stats.reductions → Earns table sem limit token value p
  reported : ∀ q error, p.post table sem limit token value = .ok q → q.Reports error →
    p.Reports error ∨ Warranted table token error

/-- Whatever the productions mean, every post of every run is economical, and every error that a run
has reported is warranted by the table. -/
def NothingInVain (table : Table σ τ π) : Prop :=
  ∀ (ν α : Type) (sem : Semantics π ν α) (p : Parser σ τ π ν α), Reachable table sem p →
    (p.isDone = false → ∀ limit token value, p.Economical table sem limit token value) ∧
    ∀ error, p.Reports error → ∃ token, Warranted table token error

theorem Thrifty.economical (hT : Thrifty table) (hp : Reachable table sem p)
    (hrunning : p.isDone = false) : p.Economical table sem limit token value := by
  obtain ⟨capacity, hshaped⟩ := hp.shaped
  constructor
  · intro r t v s hoffering hoffer
    exact hT.offering_rejected hp.settled hrunning hshaped hoffering hoffer
  · intro q hpost hlive hgrows
    exact hT.earns hp.settled hrunning hshaped (post_cases hrunning hpost) hlive hgrows
  · intro q error hpost
    have hbefore : Vouched (fun e => p.Reports e ∨ Warranted table token e) p := fun _ => .inl
    exact hT.vouched_post hp (fun capacity => .inr (.inl ⟨capacity, rfl⟩))
      (fun s hentry => .inr (.inr ⟨s, hentry, rfl⟩)) hbefore hpost error

theorem Thrifty.nothingInVain (hT : Thrifty table) : NothingInVain table := by
  intro ν α sem p hp
  refine ⟨fun hrunning limit token value => hT.economical hp hrunning, ?_⟩
  have hvouched : Vouched (fun e => ∃ token, Warranted table token e) p :=
    hT.vouched_reachable (fun capacity => ⟨table.endToken, .inl ⟨capacity, rfl⟩⟩)
      (fun s token hentry => ⟨token, .inr ⟨s, hentry, rfl⟩⟩) hp
  exact hvouched

end ShiftReduce.Parser
