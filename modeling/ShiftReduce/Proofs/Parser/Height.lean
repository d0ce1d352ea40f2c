import ShiftReduce.Proofs.Parser.Bookkeeping
import ShiftReduce.Proofs.Parser.Resynchronisation

/-!
# How high a stack can get

If the states of a table are ordered in levels, and every entry leads to a higher one, then the stack
has at most one frame for each level. During an offer the frames that are popped keep their slots, but
the productions all pop something, so that at most two more slots are in use. A parser that has as
many to spare never overflows, however long it runs.
-/

namespace ShiftReduce.Parser

variable {σ τ π ν α : Type} {table : Table σ τ π} {sem : Semantics π ν α} {token errorToken : τ}
  {value : ν} {limit capacity height : Nat} {level : σ → Nat} {p q r : Parser σ τ π ν α}
  {l : Layout (Frame σ ν)} {fate : Fate} {error : ParseError}

/-! ## Levels -/

/-- Every entry leads to a higher level, and every production that is reduced by pops a frame. -/
structure Stratified (table : Table σ τ π) (level : σ → Nat) (height : Nat) : Prop where
  climbs : ∀ s next, Links table s next → level s < level next
  below : ∀ s, level s < height
  pops : ∀ s token production, table.entry s token = .reduce production →
    0 < table.arity production

theorem Stratified.lt_of_isChain (h : Stratified table level height) {frame : Frame σ ν}
    {rest : List (Frame σ ν)}
    (hlinks : (frame :: rest).IsChain fun f g => Links table f.state g.state) :
    level frame.state + rest.length < height := by
  induction rest generalizing frame with
  | nil => exact h.below frame.state
  | cons next rest ih =>
    obtain ⟨hlink, hrest⟩ := List.isChain_cons_cons.mp hlinks
    have hclimbs := h.climbs _ _ hlink
    have hbound := ih hrest
    rw [List.length_cons]
    omega

theorem Stratified.length_le (h : Stratified table level height) {blank : ν}
    {frames : List (Frame σ ν)} (hpath : Path table blank frames) : frames.length ≤ height := by
  cases frames with
  | nil => exact Nat.zero_le _
  | cons frame rest =>
    have hbound := h.lt_of_isChain hpath.links
    rw [List.length_cons]
    omega

/-! ## Room to spare -/

/-- Nothing is pending, and at least two slots are free. -/
def Spare (p : Parser σ τ π ν α) : Prop :=
  ∃ l : Layout (Frame σ ν), p.stack = l.stack ∧ l.pending = [] ∧ 2 ≤ l.free

theorem Spare.congr (h : p.Spare) (hstack : q.stack = p.stack) : q.Spare := by
  unfold Spare
  rwa [hstack]

theorem Spare.unwound (h : p.Spare) (count : Nat) (frame : Frame σ ν) :
    (p.unwound count frame).Spare := by
  obtain ⟨l, hp, hpending, hfree⟩ := h
  refine ⟨l.drop count, unwound_stack hp count frame, ?_, ?_⟩
  · simp [Layout.drop, hpending]
  · simpa [Layout.drop, hpending] using hfree

theorem Stratified.fate_ne (hT : Stratified table level height) (hp : p.Spare)
    (h : p.offer table sem token value limit = .ok (q, fate)) : fate ≠ .overflowed := by
  obtain ⟨l, hstack, hpending, hfree⟩ := hp
  -- No reduction leaves more than one frame pending, so there is a slot for the next.
  obtain ⟨l₁, p₁, l', ⟨hone, htwo⟩, -, heffect⟩ := offer_effect
    (I := fun l _ => l.pending.length ≤ 1 ∧ 2 ≤ l.free + l.pending.length)
    (by
      rintro l₁ p₁ l₂ p₂ ⟨hone, htwo⟩ heffect
      cases heffect with
      | reduce _ hentry =>
        have hpops := hT.pops _ _ _ hentry
        simp only [Layout.push, Layout.drop, List.length_append, List.length_take,
          List.length_singleton]
        omega)
    hstack (by simpa [hpending] using hfree) h
  rintro rfl
  cases heffect with
  | shiftFull _ _ hfull => omega
  | reduceFull _ _ _ hfull =>
    simp only [Layout.drop] at hfull
    omega

/-! ## Posts with room to spare -/

theorem isOverflowed_of_not_errored (h : p.isErrored = false) : p.isOverflowed = false := by
  unfold isErrored at h
  unfold isOverflowed
  split at h
  next => cases h
  next hlive =>
    split
    next capacity hfull => exact absurd hfull (hlive _)
    next => rfl

theorem isOverflowed_failed (herror : ∃ label state, error = .unexpected label state)
    (hrunning : p.isDone = false) : (p.failed error).isOverflowed = false := by
  obtain ⟨label, state, rfl⟩ := herror
  unfold failed
  rw [if_neg (by rw [hrunning]; decide)]
  rfl

theorem isOverflowed_reset (hp : p.stack = l.stack) (hroom : 0 < l.capacity) :
    (p.reset table sem).isOverflowed = false := by
  rw [reset_of_room hp hroom]
  rfl

namespace Stratified

variable (hT : Stratified table level height)

include hT

theorem isDone_of_untaken (hp : p.Spare) (hrunning : p.isDone = false)
    (h : Recovers table sem limit errorToken p q false) : q.isDone = false := by
  cases h with
  | noFrame => exact hrunning
  | @refused frame r fate hframe hoffer hfate =>
    have hspare := hp.unwound (p.unwindDepth table errorToken) frame
    obtain ⟨l, hl, -, -⟩ := id hspare
    rcases hfate with rfl | rfl
    · exact (isDone_congr (offer_status hl hoffer)).trans hrunning
    · exact absurd rfl (hT.fate_ne hspare hoffer)

theorem retries (hp : p.Spare) (hrunning : p.isDone = false)
    (h : Retries table sem limit token value p q) : q.isOverflowed = false := by
  obtain ⟨l, hl, -, -⟩ := id hp
  cases h with
  | @taken r fate hoffer hfate =>
    have hr : r.isErrored = false := isErrored_of_taken hl hrunning hoffer hfate
    exact isOverflowed_of_not_errored hr
  | full hoffer => exact absurd rfl (hT.fate_ne hp hoffer)
  | gaveUp _ _ herror =>
    obtain ⟨label, state, rfl⟩ := exists_unexpected herror
    rfl
  | @discarded r hoffer =>
    have hr : r.isDone = false := (isDone_congr (offer_status hl hoffer)).trans hrunning
    exact isOverflowed_of_running hr

theorem posts (hsettled : p.Settled) (hp : p.Spare) (hrunning : p.isDone = false)
    (hrecovered : ∀ r, RecoversTo table sem limit token value p r → r.Spare)
    (h : Posts table sem limit token value p q) : q.isOverflowed = false := by
  obtain ⟨frames, free, hstack⟩ := id hsettled
  have hopened := opened_stack hstack token
  cases h with
  | @taken r fate hoffer hfate =>
    have hr : r.isErrored = false := isErrored_of_taken hopened hrunning hoffer hfate
    exact isOverflowed_of_not_errored hr
  | full hoffer =>
    have hspare : (p.opened token).Spare := hp.congr (hopened.trans hstack.symm)
    exact absurd rfl (hT.fate_ne hspare hoffer)
  | @rejected error u _ hrejects hresumes =>
    have hu : u.Spare := hp.congr (hrejects.stack_eq hsettled)
    have hlive := hrejects.isDone_eq hsettled hrunning
    have herror : ∃ label state, error = .unexpected label state := by
      obtain ⟨_, -, herror, -⟩ := hrejects
      exact exists_unexpected herror
    cases hresumes with
    | unprovided => exact isOverflowed_failed herror hlive
    | unrecovered _ hrecovers =>
      exact isOverflowed_failed herror (hT.isDone_of_untaken hu hlive hrecovers)
    | recovered _ hrecovers =>
      exact isOverflowed_of_not_errored
        (hrecovers.isErrored_eq (hrejects.settled hsettled) hlive)
    | @retried e r _ he hrecovers hgoesOn hretries =>
      exact hT.retries (hrecovered r ⟨error, u, e, hrejects, he, hrecovers⟩) hgoesOn hretries

end Stratified

/-! ## Runs -/

/-- No transaction is open, the stack is a path, and the run has not overflowed. -/
structure Fits (table : Table σ τ π) (blank : ν) (capacity : Nat) (p : Parser σ τ π ν α) : Prop where
  settled : p.Settled
  shaped : Shaped (Path table blank) (fun _ => True) capacity p
  live : p.isOverflowed = false

theorem fits_reset (hp : p.Settled) (hfits : p.capacity = capacity) (hroom : 0 < capacity) :
    Fits table sem.blank capacity (p.reset table sem) := by
  obtain ⟨frames, free, hstack⟩ := hp
  have hcapacity := (Parser.capacity_eq hstack).symm.trans hfits
  have hshaped := (shape_path table sem).reset_of_layout hstack
  rw [hcapacity] at hshaped
  exact ⟨settled_reset hstack, hshaped, isOverflowed_reset hstack (by omega)⟩

theorem fits_create (table : Table σ τ π) (sem : Semantics π ν α) (actions : α)
    (hroom : 0 < capacity) : Fits table sem.blank capacity (create table sem actions capacity) := by
  have hnew : Stack.ofCapacity capacity = (Layout.settled [] capacity : Layout (Frame σ ν)).stack :=
    (Layout.stack_settled_nil capacity).symm
  refine fits_reset ⟨[], capacity, hnew⟩ ?_ hroom
  rw [Parser.capacity_eq hnew, Layout.capacity_settled, List.length_nil, Nat.zero_add]

namespace Stratified

variable (hT : Stratified table level height) (hcapacity : height + 2 ≤ capacity)

include hT hcapacity

theorem spare {blank : ν} (hp : p.Settled)
    (hshaped : Shaped (Path table blank) (fun _ => True) capacity p) : p.Spare := by
  obtain ⟨frames, free, hstack⟩ := hp
  have hpath := hshaped.frames (by omega)
  rw [frames_eq hstack, Layout.frames_settled] at hpath
  have hlength := hT.length_le hpath
  have hroom : frames.length + free = capacity := by
    rw [← Layout.capacity_settled, ← Parser.capacity_eq hstack, hshaped.capacity_eq]
  have hfree : 2 ≤ free := by omega
  exact ⟨_, hstack, rfl, hfree⟩

theorem depth_le {blank : ν} (hp : Fits table blank capacity p) : p.depth ≤ height := by
  have hrest := hp.settled.atRest hp.shaped.capacity_eq (hp.shaped.frames (by omega))
  rw [← hrest.length_eq]
  exact hT.length_le hrest.path

variable [DecidableEq τ]

theorem fits_post (hp : Fits table sem.blank capacity p)
    (hpost : p.post table sem limit token value = .ok q) : Fits table sem.blank capacity q := by
  have hinvariant := (shape_path table sem).invariant capacity
  refine ⟨hp.settled.post hpost, hinvariant.post hp.settled hp.shaped trivial hpost, ?_⟩
  cases hdone : p.isDone with
  | true =>
    rw [post_of_done hdone] at hpost
    cases hpost
    exact hp.live
  | false =>
    have hspare := hT.spare hcapacity hp.settled hp.shaped
    apply hT.posts hp.settled hspare hdone ?_ (post_cases hdone hpost)
    intro r hto
    have hr := hto.settled hp.settled
    obtain ⟨error, u, e, hrejects, -, hrecovers⟩ := hto
    -- Moves lead to the recovered parser, so its stack is a path too.
    have hrejected : Leads table sem (fun _ _ => True) p u :=
      (hrejects.leads hp.settled hdone trivial).1
    have hgoesOn := hrejects.isDone_eq hp.settled hdone
    have hleads := hrejected.trans (hrecovers.leads (hrejects.settled hp.settled) hgoesOn trivial)
    exact hT.spare hcapacity hr (hinvariant.leads hleads hp.shaped)

/-- A run with two slots more than there are levels never overflows. -/
theorem fits_trace (sem : Semantics π ν α) (actions : α) (limit : Nat)
    (commands : List (Command τ ν)) :
    ∀ p ∈ ((create table sem actions capacity).trace table sem limit commands).1,
      Fits table sem.blank capacity p := by
  refine forall_mem_trace ?_ (fits_create table sem actions (by omega))
  intro p q command _ hp hq
  cases command with
  | post token value => exact hT.fits_post hcapacity hp hq
  | reset =>
    cases hq
    exact fits_reset hp.settled hp.shaped.capacity_eq (by omega)

end Stratified

end ShiftReduce.Parser
