import ShiftReduce.Proofs.NumberList.Configuration
import ShiftReduce.Proofs.Parser.Atomicity
import ShiftReduce.Proofs.Parser.Execution
import ShiftReduce.Tabular.Transcript

/-!
# Where a run resynchronises

After a rejection the error token is offered to the nearest frame with an action for it: the frames
above are gone, and those below stay as they were. The rejected token is then offered once more. What
decides is an action of any kind. If it is a reduction, the error token may still be rejected further
down, and then no other frame is tried.
-/

namespace ShiftReduce

theorem Action.isError_iff {σ π : Type} {action : Action σ π} :
    action.isError = true ↔ action = .error := by
  cases action <;> simp [isError]

theorem Action.isError_eq_false_iff {σ π : Type} {action : Action σ π} :
    action.isError = false ↔ action ≠ .error := by
  cases action <;> simp [isError]

namespace Parser

variable {σ τ π ν α : Type} {table : Table σ τ π} {sem : Semantics π ν α} {token errorToken : τ}
  {value : ν} {limit n : Nat} {p q r s : Parser σ τ π ν α} {l : Layout (Frame σ ν)}
  {frames frames' : List (Frame σ ν)} {free k : Nat} {frame : Frame σ ν} {actions actions' : α}
  {fate : Fate} {error : ParseError}

/-! ## The nearest frame -/

/-- The frame at the index is the topmost one with an action for the token. -/
structure Nearest (table : Table σ τ π) (token : τ) (frames : List (Frame σ ν)) (k : Nat)
    (frame : Frame σ ν) : Prop where
  at_index : frames[k]? = some frame
  acts : table.entry frame.state token ≠ .error
  above : ∀ j f, k < j → frames[j]? = some f → table.entry f.state token = .error

namespace Nearest

variable (h : Nearest table token frames k frame)

include h

theorem lt_length : k < frames.length := (List.getElem?_eq_some_iff.mp h.at_index).1

theorem getLast?_take : (frames.take (k + 1)).getLast? = some frame := by
  rw [List.take_add_one, h.at_index, Option.toList_some, List.getLast?_concat]

theorem le_of_shift {j : Nat} {f : Frame σ ν} {next : σ} (hf : frames[j]? = some f)
    (hentry : table.entry f.state token = .shift next) : j ≤ k := by
  by_contra hlt
  rw [h.above j f (by omega) hf] at hentry
  cases hentry

theorem unwindDepth_eq (hframes : p.frames = frames) :
    p.unwindDepth table token = frames.length - (k + 1) := by
  have hsplit : p.frames = frames.take (k + 1) ++ frames.drop (k + 1) := by
    rw [hframes, List.take_append_drop]
  rw [unwindDepth_of_append hsplit, List.length_drop]
  · intro f hf
    rw [h.getLast?_take] at hf
    cases hf
    exact Action.isError_eq_false_iff.mpr h.acts
  · intro f hf
    obtain ⟨j, hj⟩ := List.mem_iff_getElem?.mp hf
    rw [List.getElem?_drop] at hj
    exact Action.isError_iff.mpr (h.above (k + 1 + j) f (by omega) hj)

end Nearest

theorem nearest_cases (table : Table σ τ π) (token : τ) (frames : List (Frame σ ν)) :
    (∀ f ∈ frames, table.entry f.state token = .error) ∨
      ∃ k frame, Nearest table token frames k frame := by
  induction frames using List.reverseRecOn with
  | nil => exact .inl nofun
  | append_singleton frames top ih =>
    by_cases htop : table.entry top.state token = .error
    · rcases ih with hall | ⟨k, frame, hnearest⟩
      · left
        intro f hf
        rcases List.mem_append.mp hf with hf | hf
        · exact hall f hf
        · rw [List.mem_singleton.mp hf]
          exact htop
      · refine .inr ⟨k, frame, ?_, hnearest.acts, ?_⟩
        · rw [List.getElem?_append_left hnearest.lt_length]
          exact hnearest.at_index
        · intro j f hj hf
          by_cases hlt : j < frames.length
          · rw [List.getElem?_append_left hlt] at hf
            exact hnearest.above j f hj hf
          · rw [List.getElem?_append_right (by omega)] at hf
            rw [List.mem_singleton.mp (List.mem_of_getElem? hf)]
            exact htop
    · refine .inr ⟨frames.length, top, List.getElem?_concat_length, htop, ?_⟩
      intro j f hj hf
      rw [List.getElem?_eq_none (by rw [List.length_append, List.length_singleton]; omega)] at hf
      cases hf

/-! ## What recovery is offered -/

theorem Nearest.unwound (h : Nearest table errorToken frames k frame)
    (hp : p.stack = (Layout.settled frames free).stack) (f : Frame σ ν) :
    ∃ l : Layout (Frame σ ν), (p.unwound (p.unwindDepth table errorToken) f).stack = l.stack ∧
      l.frames = frames.take (k + 1) ∧ l.pending = [] ∧ l.free = free := by
  have hframes : p.frames = frames := by rw [frames_eq hp, Layout.frames_settled]
  have hlength := h.lt_length
  refine ⟨_, unwound_stack hp _ f, ?_, ?_, ?_⟩
  · rw [Layout.frames_drop, Layout.frames_settled, h.unwindDepth_eq hframes]
    congr 1
    omega
  · simp [Layout.drop, Layout.settled]
  · simp [Layout.drop, Layout.settled]

theorem Nearest.top_unwound (h : Nearest table errorToken frames k frame)
    (hp : p.stack = (Layout.settled frames free).stack) :
    (p.stack.drop (p.unwindDepth table errorToken)).1.top? = some frame := by
  obtain ⟨l, hl, hframes, -⟩ := h.unwound hp frame
  change (p.unwound (p.unwindDepth table errorToken) frame).stack.top? = some frame
  rw [hl, Layout.top?_stack, hframes, h.getLast?_take]

theorem Recovers.offers (hp : p.stack = (Layout.settled frames free).stack)
    (hrunning : p.isDone = false) (hnearest : Nearest table errorToken frames k frame)
    (h : Recovers table sem limit errorToken p q true) :
    ∃ n fate, (fate = .shifted ∧ q.isDone = false ∨ fate = .accepted ∧ q.isDone = true) ∧
      Offers table sem errorToken sem.blank n (frames.take (k + 1)) 0 free p.actions
        q.frames q.actions fate := by
  cases h with
  | @taken f r fate hf hoffer hfate =>
    obtain ⟨l, hl, hframes, hpending, hfree⟩ := hnearest.unwound hp f
    obtain ⟨n, -, hoffers⟩ := offers_of_offer hl hoffer (by rintro rfl; simp at hfate)
    obtain ⟨l', hl'⟩ := offer_stack hl hoffer
    have hkept : r.commit.frames = r.frames := by
      rw [frames_eq (commit_stack hl'), Layout.frames_commit, frames_eq hl']
    rw [hframes, hpending, hfree, ← hkept] at hoffers
    refine ⟨n, fate, ?_, hoffers⟩
    rcases hfate with rfl | rfl
    · exact .inl ⟨rfl, (isDone_congr (offer_status hl hoffer)).trans hrunning⟩
    · exact .inr ⟨rfl, isDone_of_accepted (offer_status hl hoffer)⟩

theorem Offers.frames_of_shift {pending : Nat} {top : Frame σ ν} {next : σ}
    (h : Offers table sem token value n frames pending free actions frames' actions' fate)
    (htop : frames.getLast? = some top) (hentry : table.entry top.state token = .shift next) :
    frames' = frames ++ [⟨next, value⟩] := by
  cases h with
  | shift htop' hentry' =>
    cases htop.symm.trans htop'
    cases hentry.symm.trans hentry'
    rfl
  | accept htop' hentry' | reject htop' hentry' | reduce htop' hentry' =>
    cases htop.symm.trans htop'
    cases hentry.symm.trans hentry'

theorem Offers.reduces_of_rejected {pending : Nat} {top : Frame σ ν}
    (h : Offers table sem token value n frames pending free actions frames' actions' .rejected)
    (htop : frames.getLast? = some top) (hacts : table.entry top.state token ≠ .error) :
    ∃ production, table.entry top.state token = .reduce production := by
  cases h with
  | reject htop' hentry' =>
    cases htop.symm.trans htop'
    exact absurd hentry' hacts
  | reduce htop' hentry' =>
    cases htop.symm.trans htop'
    exact ⟨_, hentry'⟩

theorem Recovers.eq_of_no_frame {taken : Bool} (hp : p.Settled)
    (hnone : ∀ f ∈ p.frames, table.entry f.state errorToken = .error)
    (h : Recovers table sem limit errorToken p q taken) :
    taken = false ∧ q = p.record (.unrecoverable errorToken) := by
  obtain ⟨frames, free, hstack⟩ := hp
  have hall : p.frames = [] ++ p.frames := rfl
  have hdepth : p.unwindDepth table errorToken = p.frames.length :=
    unwindDepth_of_append hall nofun fun f hf => Action.isError_iff.mpr (hnone f hf)
  have htop : (p.stack.drop (p.unwindDepth table errorToken)).1.top? = none := by
    rw [hdepth, hstack, Layout.drop_stack, Layout.top?_stack, Layout.frames_drop,
      frames_eq hstack, Nat.sub_self, List.take_zero]
    rfl
  cases h with
  | noFrame => exact ⟨rfl, rfl⟩
  | taken hframe | refused hframe => cases htop.symm.trans hframe

/-- Recovery fails where no frame has an action for the error token, where the stack is full, and
where reductions in front of the error token end in its rejection. -/
theorem Recovers.untaken_cases (hp : p.stack = (Layout.settled frames free).stack)
    (h : Recovers table sem limit errorToken p q false) :
    (∀ f ∈ frames, table.entry f.state errorToken = .error) ∨
    (∃ capacity, q.status = .errored (.overflow capacity)) ∨
    ∃ k frame production n frames' actions', Nearest table errorToken frames k frame ∧
      table.entry frame.state errorToken = .reduce production ∧
      Offers table sem errorToken sem.blank n (frames.take (k + 1)) 0 free p.actions
        frames' actions' .rejected := by
  rcases nearest_cases table errorToken frames with hnone | ⟨k, frame, hnearest⟩
  · exact .inl hnone
  · cases h with
    | noFrame htop => cases htop.symm.trans (hnearest.top_unwound hp)
    | @refused f r fate hframe hoffer hfate =>
      obtain ⟨l, hl, hframes, hpending, hfree⟩ := hnearest.unwound hp f
      rcases hfate with rfl | rfl
      · obtain ⟨n, -, hoffers⟩ := offers_of_offer hl hoffer (by decide)
        rw [hframes, hpending, hfree] at hoffers
        obtain ⟨production, hentry⟩ :=
          hoffers.reduces_of_rejected hnearest.getLast?_take hnearest.acts
        exact .inr (.inr ⟨k, frame, production, n, _, _, hnearest, hentry, hoffers⟩)
      · obtain ⟨capacity, hfull⟩ := offer_overflowed hl hoffer
        exact .inr (.inl ⟨capacity, hfull⟩)

/-! ## The rejected token -/

theorem rejection_eq_ok (hp : p.stack = l.stack) (h : p.rejection table token = .ok error) :
    ∃ top, l.frames.getLast? = some top ∧
      error = .unexpected (table.tokenLabel token) (table.stateIndex top.state) := by
  unfold rejection at h
  cases htop : l.frames.getLast? with
  | none =>
    rw [topState_ne_ok hp htop] at h
    cases h
  | some top =>
    rw [topState_eq hp htop] at h
    cases h
    exact ⟨top, rfl, rfl⟩

/-- What the one more offer to the recovered parser `r` leaves, where the token has met the fate with
the parser `t`. -/
def Leaves (table : Table σ τ π) (token : τ) (r t : Parser σ τ π ν α) (fate : Fate)
    (q : Parser σ τ π ν α) : Prop :=
  match fate with
  | .shifted | .accepted => q = t.commit
  | .overflowed => q = t.rollback
  | .rejected => q.frames = r.frames ∧
      (token ≠ table.endToken →
        q.status = .running ∧ q.stats.discarded = r.stats.discarded + 1) ∧
      (token = table.endToken → ∃ top, r.frames.getLast? = some top ∧
        q.status = .errored (.unexpected (table.tokenLabel token) (table.stateIndex top.state)))

theorem Retries.leaves (hr : r.Settled) (hrunning : r.isDone = false)
    (h : Retries table sem limit token value r q) :
    ∃ t fate, r.offer table sem token value limit = .ok (t, fate) ∧
      Leaves table token r t fate q := by
  obtain ⟨frames, free, hstack⟩ := hr
  cases h with
  | @taken t fate hoffer hfate =>
    refine ⟨t, fate, hoffer, ?_⟩
    rcases hfate with rfl | rfl <;> rfl
  | @full t hoffer => exact ⟨t, .overflowed, hoffer, rfl⟩
  | @gaveUp t error hoffer htoken herror =>
    have hback : t.rollback.stack = r.stack := rollback_offer_settled hstack hoffer
    obtain ⟨top, htop, rfl⟩ := rejection_eq_ok (hback.trans hstack) herror
    refine ⟨t, .rejected, hoffer, congrArg Stack.toList hback, fun hne => absurd htoken hne, ?_⟩
    intro _
    exact ⟨top, by rw [frames_eq hstack, htop], rfl⟩
  | @discarded t hoffer htoken =>
    have hback : t.rollback.stack = r.stack := rollback_offer_settled hstack hoffer
    have hstatus : t.status = r.status := offer_status hstack hoffer
    have hcount : t.tally.discarded = r.tally.discarded := by rw [offer_tally hstack hoffer]
    refine ⟨t, .rejected, hoffer, congrArg Stack.toList hback, ?_, fun heq => absurd heq htoken⟩
    intro _
    exact ⟨hstatus.trans (status_of_running hrunning), congrArg (· + 1) hcount⟩

theorem Recovers.isErrored_eq (hp : p.Settled) (hrunning : p.isDone = false)
    (h : Recovers table sem limit errorToken p q true) : q.isErrored = false := by
  obtain ⟨frames, free, hstack⟩ := hp
  cases h with
  | @taken f r fate hf hoffer hfate =>
    have hr : r.isErrored = false :=
      isErrored_of_taken (unwound_stack hstack _ f) hrunning hoffer hfate
    exact hr

theorem Retries.status_ne (hp : p.Settled) (hrunning : p.isDone = false)
    (htoken : token ≠ table.endToken) (h : Retries table sem limit token value p q)
    (label : String) (state : Nat) : q.status ≠ .errored (.unexpected label state) := by
  intro hstatus
  have herrored : q.isErrored = true := by rw [isErrored, hstatus]
  obtain ⟨frames, free, hstack⟩ := hp
  cases h with
  | @taken r fate hoffer hfate =>
    have hr : r.isErrored = false := isErrored_of_taken hstack hrunning hoffer hfate
    exact absurd (hr.symm.trans herrored) (by decide)
  | @full r hoffer =>
    obtain ⟨capacity, hfull⟩ := offer_overflowed hstack hoffer
    cases hfull.symm.trans hstatus
  | gaveUp _ hend => exact htoken hend
  | @discarded r hoffer =>
    have hr : r.status = p.status := offer_status hstack hoffer
    cases (hr.trans (status_of_running hrunning)).symm.trans hstatus

/-! ## Posts -/

/-- The recovery of `p` has committed `r`: the frames up to the nearest one, with what the error token
has made of them. Unless that has ended the run, the rejected token has had one more offer, which has
led to `q`. The first one, rejected, has led to `s`. -/
structure Resynchronised (table : Table σ τ π) (sem : Semantics π ν α) (limit : Nat)
    (errorToken token : τ) (value : ν) (p s : Parser σ τ π ν α) (k : Nat) (frame : Frame σ ν)
    (r q : Parser σ τ π ν α) : Prop where
  settled : r.Settled
  offers : ∃ n fate,
    Offers table sem errorToken sem.blank n (p.frames.take (k + 1)) 0 (p.capacity - p.depth)
      (sem.onSyntaxError s.actions) r.frames r.actions fate ∧
    (fate = .shifted ∧ r.isDone = false ∨ fate = .accepted ∧ r.isDone = true)
  shifts : ∀ next, table.entry frame.state errorToken = .shift next →
    r.frames = p.frames.take (k + 1) ++ [⟨next, sem.blank⟩]
  counts : r.stats.recoveries = p.stats.recoveries + 1 ∧ r.stats.discarded = p.stats.discarded
  ends : r.isDone = true → q = r
  retries : r.isDone = false → ∃ t fate,
    r.offer table sem token value limit = .ok (t, fate) ∧ Leaves table token r t fate q

theorem room_eq (hp : p.stack = (Layout.settled frames free).stack) :
    p.capacity - p.depth = free := by
  unfold capacity depth
  rw [hp, Layout.capacity_stack, Layout.size_stack, Layout.capacity_settled, Layout.frames_settled]
  omega

theorem RecoversTo.resynchronised (herrorToken : table.errorToken = some errorToken)
    (hp : p.Settled) (hrunning : p.isDone = false)
    (hoffer : (p.opened token).offer table sem token value limit = .ok (s, .rejected))
    (hnearest : Nearest table errorToken p.frames k frame)
    (hto : RecoversTo table sem limit token value p r) (hends : r.isDone = true → q = r)
    (hretries : r.isDone = false → Retries table sem limit token value r q) :
    Resynchronised table sem limit errorToken token value p s k frame r q := by
  obtain ⟨error, u, errorToken', hrejects, herrorToken', hrecovers⟩ := id hto
  cases herrorToken.symm.trans herrorToken'
  have hu : u.stack = p.stack := hrejects.stack_eq hp
  have hlive := hrejects.isDone_eq hp hrunning
  obtain ⟨s', hoffer', -, rfl⟩ := hrejects
  cases hoffer.symm.trans hoffer'
  have hsettled := hto.settled hp
  have hcounts := hto.counts_eq hp
  obtain ⟨frames, free, hstack⟩ := hp
  have hframes : p.frames = frames := by rw [frames_eq hstack, Layout.frames_settled]
  rw [hframes] at hnearest
  obtain ⟨n, fate, hfate, hoffers⟩ := hrecovers.offers (hu.trans hstack) hlive hnearest
  refine ⟨hsettled, ⟨n, fate, ?_, hfate⟩, ?_, hcounts, hends, ?_⟩
  · rw [hframes, room_eq hstack]
    exact hoffers
  · intro next hentry
    rw [hframes]
    exact hoffers.frames_of_shift hnearest.getLast?_take hentry
  · intro hgoesOn
    exact (hretries hgoesOn).leaves hsettled hgoesOn

theorem Rejects.ends_of_no_frame (herrorToken : table.errorToken = some errorToken)
    (hp : p.Settled) (hrunning : p.isDone = false)
    (hnone : ∀ f ∈ p.frames, table.entry f.state errorToken = .error)
    (hrejects : Rejects table sem limit token value p error r)
    (hresumes : Resumes table sem limit token value error r q) :
    q.frames = p.frames ∧ q.status = .errored error := by
  have hr : r.stack = p.stack := hrejects.stack_eq hp
  have hlive := hrejects.isDone_eq hp hrunning
  have hnone' : ∀ f ∈ r.frames, table.entry f.state errorToken = .error := by
    unfold frames at hnone ⊢
    rwa [hr]
  have hlost {u : Parser σ τ π ν α} {e : τ} {taken : Bool} (he : table.errorToken = some e)
      (h : Recovers table sem limit e r u taken) :
      taken = false ∧ u = r.record (.unrecoverable errorToken) := by
    cases herrorToken.symm.trans he
    exact h.eq_of_no_frame (hrejects.settled hp) hnone'
  cases hresumes with
  | unprovided hnot => cases hnot.symm.trans herrorToken
  | @unrecovered e u he hrecovers =>
    obtain ⟨-, rfl⟩ := hlost he hrecovers
    refine ⟨?_, ?_⟩
    · unfold frames
      rw [failed_stack]
      exact congrArg Stack.toList hr
    · unfold failed
      rw [if_neg (by rw [isDone_record, hlive]; decide)]
  | recovered he hrecovers | retried he hrecovers => cases (hlost he hrecovers).1

variable [DecidableEq τ]

/-- After a rejection the run either ends where it was, if no frame has an action for the error token,
or it goes on from the nearest such frame if the error token is taken there. -/
theorem post_resynchronises (herrorToken : table.errorToken = some errorToken)
    (hp : Reachable table sem p) (hrunning : p.isDone = false)
    (hoffer : (p.opened token).offer table sem token value limit = .ok (s, .rejected))
    (hpost : p.post table sem limit token value = .ok q) :
    ((∀ f ∈ p.frames, table.entry f.state errorToken = .error) →
      q.frames = p.frames ∧ ∃ top, p.frames.getLast? = some top ∧
        q.status = .errored (.unexpected (table.tokenLabel token) (table.stateIndex top.state))) ∧
    ∀ k frame, Nearest table errorToken p.frames k frame →
      q.stats.recoveries ≠ p.stats.recoveries →
      ∃ r, RecoversTo table sem limit token value p r ∧
        Resynchronised table sem limit errorToken token value p s k frame r q := by
  rw [post_of_running hrunning, hoffer] at hpost
  obtain ⟨error, herror, hresumes⟩ := reject_cases hpost
  have hrejects : Rejects table sem limit token value p error (s.reported sem error) :=
    ⟨s, hoffer, herror, rfl⟩
  have hto {e : τ} {u : Parser σ τ π ν α} (he : table.errorToken = some e)
      (hrecovers : Recovers table sem limit e (s.reported sem error) u true) :
      RecoversTo table sem limit token value p u := ⟨error, _, e, hrejects, he, hrecovers⟩
  constructor
  · intro hnone
    obtain ⟨hframes, hstatus⟩ :=
      hrejects.ends_of_no_frame herrorToken hp.settled hrunning hnone hresumes
    obtain ⟨frames, free, hstack⟩ := hp.settled
    have hback := hrejects.stack_eq hp.settled
    change s.rollback.stack = p.stack at hback
    obtain ⟨top, htop, rfl⟩ := rejection_eq_ok (hback.trans hstack) herror
    exact ⟨hframes, top, by rw [frames_eq hstack, htop], hstatus⟩
  · intro k frame hnearest hcount
    cases hresumes with
    | unprovided hnot => cases hnot.symm.trans herrorToken
    | @unrecovered e u he hrecovers =>
      have hkept : ((u.failed error).tally).recoveries = p.tally.recoveries := by
        rw [failed_tally, hrecovers.tally_eq (hrejects.settled hp.settled)]
        have htally := congrArg Stats.recoveries (hrejects.tally_eq hp.settled)
        exact htally
      exact absurd hkept hcount
    | recovered he hrecovers hdone =>
      refine ⟨q, hto he hrecovers, ?_⟩
      apply (hto he hrecovers).resynchronised herrorToken hp.settled hrunning hoffer hnearest
      · intro _
        rfl
      · intro hgoesOn
        exact absurd (hdone.symm.trans hgoesOn) (by decide)
    | @retried e u _ he hrecovers hgoesOn hretries =>
      refine ⟨u, hto he hrecovers, ?_⟩
      apply (hto he hrecovers).resynchronised herrorToken hp.settled hrunning hoffer hnearest
      · intro hdone
        exact absurd (hdone.symm.trans hgoesOn) (by decide)
      · intro _
        exact hretries

section

open NumberList

/-- `( 1` -/
def halfList : List (Token × Value) := [(.leftParen, .none), (.number, .number 1)]

/-- The frames behind `( 1`. -/
def halfFrames : List (Frame (Fin 10) Value) := Config.frames (.opened .first (.number 1))

/-- The frames behind `(` and an error token. -/
def lostFrames : List (Frame (Fin 10) Value) := Config.frames (.opened .first .lost)

/-- A second number is rejected above the open list: the first one makes way for the error token, and
the second one is dropped. -/
theorem post_resynchronises_halfList :
    ∃ p q r, (create grammar.toTable Builder.semantics {} 7).postAll grammar.toTable
        Builder.semantics 4 halfList = .ok p ∧
      p.post grammar.toTable Builder.semantics 4 .number (.number 2) = .ok q ∧
      Nearest grammar.toTable .error p.frames 1 ⟨2, .none⟩ ∧
      RecoversTo grammar.toTable Builder.semantics 4 .number (.number 2) p r ∧
      r.frames = p.frames.take 2 ++ [⟨6, .none⟩] ∧ q.frames = r.frames ∧ q.isDone = false := by
  have hruns : (do
      let p ← (create grammar.toTable Builder.semantics {} 7).postAll grammar.toTable
        Builder.semantics 4 halfList
      let s ← (p.opened .number).offer grammar.toTable Builder.semantics .number (.number 2) 4
      let q ← p.post grammar.toTable Builder.semantics 4 .number (.number 2)
      pure ((p.isDone, p.stats.recoveries, decide (p.frames = halfFrames)), s.2,
        (q.isDone, q.stats.recoveries, decide (q.frames = lostFrames)))).toOption =
      some ((false, 0, true), .rejected, (false, 1, true)) := by
    decide +kernel
  obtain ⟨p, hp, hruns⟩ := toOption_bind_eq_some.mp hruns
  obtain ⟨⟨s, fate⟩, hoffer, hruns⟩ := toOption_bind_eq_some.mp hruns
  obtain ⟨q, hq, hruns⟩ := toOption_bind_eq_some.mp hruns
  simp only [pure, Except.pure, Except.toOption, Option.some.injEq, Prod.mk.injEq,
    decide_eq_true_eq] at hruns
  obtain ⟨⟨hrunning, hnone, hframes⟩, rfl, hgoesOn, hone, hqframes⟩ := hruns
  have hreachable : Reachable grammar.toTable Builder.semantics p :=
    (Reachable.create {} 7).postAll hp
  have hnearest : Nearest grammar.toTable .error p.frames 1 ⟨2, .none⟩ := by
    rw [hframes]
    refine ⟨rfl, by decide, ?_⟩
    rintro (_ | _ | _ | j) f hj hf
    · omega
    · omega
    · cases hf
      rfl
    · cases hf
  obtain ⟨-, hrecovers⟩ := post_resynchronises rfl hreachable hrunning hoffer hq
  obtain ⟨r, hto, hr⟩ := hrecovers 1 _ hnearest (by omega)
  have hrframes := hr.shifts 6 rfl
  refine ⟨p, q, r, hp, hq, hnearest, hto, hrframes, ?_, hgoesOn⟩
  rw [hrframes, hqframes, hframes]
  rfl

end

/-! ## Rejections that end the run -/

/-- If a token other than the end of the input ends the run with a syntax error, then no frame has an
action for the error token, or the nearest one that has reduces on it and the error token is rejected
after that. In the second case there may be frames further down that shift the error token; they are
not tried. -/
theorem post_errored_cases (herrorToken : table.errorToken = some errorToken)
    (hp : Reachable table sem p) (hrunning : p.isDone = false) (htoken : token ≠ table.endToken)
    (hpost : p.post table sem limit token value = .ok q) {label : String} {state : Nat}
    (hstatus : q.status = .errored (.unexpected label state)) :
    (∀ f ∈ p.frames, table.entry f.state errorToken = .error) ∨
    ∃ s k frame production n frames' actions',
      (p.opened token).offer table sem token value limit = .ok (s, .rejected) ∧
      Nearest table errorToken p.frames k frame ∧
      table.entry frame.state errorToken = .reduce production ∧
      Offers table sem errorToken sem.blank n (p.frames.take (k + 1)) 0 (p.capacity - p.depth)
        (sem.onSyntaxError s.actions) frames' actions' .rejected ∧
      ∀ j f next, p.frames[j]? = some f → table.entry f.state errorToken = .shift next → j < k := by
  have herrored : q.isErrored = true := by rw [isErrored, hstatus]
  obtain ⟨frames, free, hstack⟩ := hp.settled
  have hframes : p.frames = frames := by rw [frames_eq hstack, Layout.frames_settled]
  cases post_cases hrunning hpost with
  | @taken r fate hoffer hfate =>
    have hr : r.isErrored = false :=
      isErrored_of_taken (opened_stack hstack token) hrunning hoffer hfate
    exact absurd (hr.symm.trans herrored) (by decide)
  | @full r hoffer =>
    obtain ⟨capacity, hfull⟩ := offer_overflowed (opened_stack hstack token) hoffer
    cases hfull.symm.trans hstatus
  | @rejected error u _ hrejects hresumes =>
    have hu : u.stack = p.stack := hrejects.stack_eq hp.settled
    have hlive := hrejects.isDone_eq hp.settled hrunning
    have hsettled := hrejects.settled hp.settled
    cases hresumes with
    | unprovided hnot => cases hnot.symm.trans herrorToken
    | recovered _ hrecovers =>
      have hq := hrecovers.isErrored_eq hsettled hlive
      exact absurd (hq.symm.trans herrored) (by decide)
    | retried _ hrecovers hgoesOn hretries =>
      have hne := hretries.status_ne (hrecovers.settled hsettled) hgoesOn htoken label state
      exact absurd hstatus hne
    | @unrecovered e r he hrecovers =>
      cases herrorToken.symm.trans he
      rcases hrecovers.untaken_cases (hu.trans hstack) with
        hnone | ⟨capacity, hfull⟩ | ⟨k, frame, production, n, frames', actions', hnearest, hentry,
          hoffers⟩
      · left
        rwa [hframes]
      · have hdone : r.isDone = true := by rw [isDone, hfull]
        unfold failed at hstatus
        rw [if_pos hdone] at hstatus
        cases hfull.symm.trans hstatus
      · obtain ⟨s, hoffer, -, rfl⟩ := hrejects
        right
        rw [hframes, room_eq hstack]
        refine ⟨s, k, frame, production, n, frames', actions', hoffer, hnearest, hentry, hoffers, ?_⟩
        intro j f next hf hshift
        have hle := hnearest.le_of_shift hf hshift
        have hne : j ≠ k := by
          rintro rfl
          cases hf.symm.trans hnearest.at_index
          cases hshift.symm.trans hentry
        omega

section

open Tabular

/-- The production `X → a`. -/
def single : Production := { label := "x", lhs := "X", arity := 1 }

/-- The start state shifts the error token. The state above it reduces on the error token and so leads
to state 3, which rejects it. -/
def detour : Spec where
  endToken := "end"
  errorToken := some "error"
  rows := #[
    [("a", .shift 1), ("error", .shift 2), ("X", .goto 3)],
    [("error", .reduce single)],
    [("b", .shift 4)],
    [],
    []]

/-- The parser behind `a`, if there is one, and what `b` makes of it. -/
def detourRun : Except (Halted Nat String Production String)
    (Parser Nat String Production String Transcript ×
      Parser Nat String Production String Transcript) := do
  let p ← (create detour.table Transcript.semantics {} 4).post detour.table Transcript.semantics 4
    "a" ""
  let q ← p.post detour.table Transcript.semantics 4 "b" ""
  pure (p, q)

theorem exists_detourRun :
    ∃ p q, Reachable detour.table Transcript.semantics p ∧ p.isDone = false ∧
      p.frames = [⟨0, ""⟩, ⟨1, ""⟩] ∧
      p.post detour.table Transcript.semantics 4 "b" "" = .ok q ∧
      q.status = .errored (.unexpected "b" 1) := by
  have hruns : (do
      let (p, q) ← detourRun
      pure (p.isDone, p.frames, q.status)).toOption =
      some (false, [⟨0, ""⟩, ⟨1, ""⟩], .errored (.unexpected "b" 1)) := by
    decide +kernel
  obtain ⟨⟨p, q⟩, hrun, hruns⟩ := toOption_bind_eq_some.mp hruns
  simp only [pure, Except.pure, Except.toOption, Option.some.injEq, Prod.mk.injEq] at hruns
  obtain ⟨hrunning, hframes, hstatus⟩ := hruns
  obtain ⟨p', hp, hrest⟩ := bind_eq_ok.mp hrun
  obtain ⟨q', hq, hpure⟩ := bind_eq_ok.mp hrest
  cases hpure
  exact ⟨p, q, .post (.create {} 4) hp, hrunning, hframes, hq, hstatus⟩

/-- Behind `a`, the token `b` ends the run with a syntax error: the nearest frame reduces on the error
token, which is then rejected. -/
theorem post_errored_cases_detour :
    ∃ p q, Reachable detour.table Transcript.semantics p ∧
      p.post detour.table Transcript.semantics 4 "b" "" = .ok q ∧
      q.status = .errored (.unexpected "b" 1) ∧
      ∃ k frame production, 0 < k ∧ Nearest detour.table "error" p.frames k frame ∧
        detour.table.entry frame.state "error" = .reduce production := by
  obtain ⟨p, q, hp, hrunning, hframes, hq, hstatus⟩ := exists_detourRun
  refine ⟨p, q, hp, hq, hstatus, ?_⟩
  have hshift : detour.table.entry 0 "error" = .shift 2 := by decide
  rcases post_errored_cases rfl hp hrunning (by decide) hq hstatus with
    hnone | ⟨s, k, frame, production, n, frames', actions', -, hnearest, hentry, -, hbelow⟩
  · cases hshift.symm.trans (hnone ⟨0, ""⟩ (by simp [hframes]))
  · exact ⟨k, frame, production, hbelow 0 ⟨0, ""⟩ 2 (by simp [hframes]) hshift, hnearest, hentry⟩

/-- The frame of the start state shifts the error token, and yet `b` ends the run with a syntax
error. -/
theorem exists_errored_above_shift :
    ∃ p q, Reachable detour.table Transcript.semantics p ∧ p.isDone = false ∧
      detour.table.errorToken = some "error" ∧ "b" ≠ detour.table.endToken ∧
      p.post detour.table Transcript.semantics 4 "b" "" = .ok q ∧
      q.status = .errored (.unexpected "b" 1) ∧
      ∃ f ∈ p.frames, detour.table.entry f.state "error" = .shift 2 := by
  obtain ⟨p, q, hp, hrunning, hframes, hq, hstatus⟩ := exists_detourRun
  refine ⟨p, q, hp, hrunning, rfl, by decide, hq, hstatus, ⟨0, ""⟩, ?_, by decide⟩
  rw [hframes]
  exact List.mem_cons_self

end

end Parser

end ShiftReduce
