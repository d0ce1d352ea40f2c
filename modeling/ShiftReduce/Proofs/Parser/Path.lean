import Mathlib.Data.List.Chain
import ShiftReduce.Proofs.Parser.Atomicity
import ShiftReduce.Proofs.Parser.Moves

/-!
# The stack is a path through the automaton

Whatever the table, the frames start with the start state and each state leads to the next one. It
stays so through reductions, recoveries and failures, because a stack is only ever cut off at the
top or extended along an entry of the table.
-/

namespace ShiftReduce.Parser

variable {σ τ π ν α : Type}

/-! ## Properties of stacks -/

/-- A property of nonempty stacks, and one of accepted values, that hold of every parser with a
frame if tokens are offered with values as in `offered`. -/
structure Shape (table : Table σ τ π) (sem : Semantics π ν α) (offered : τ → ν → Prop)
    (F : List (Frame σ ν) → Prop) (A : ν → Prop) : Prop where
  blank : ∀ e, table.errorToken = some e → offered e sem.blank
  start : F [⟨table.start, sem.blank⟩]
  take : ∀ {frames n}, F frames → 0 < n → F (frames.take n)
  shift : ∀ {frames top token value next}, F frames → frames.getLast? = some top →
    offered token value → table.entry top.state token = .shift next →
    F (frames ++ [⟨next, value⟩])
  reduce : ∀ {l : Layout (Frame σ ν)} {top token value production actions result next},
    F l.frames → l.frames.getLast? = some top → offered token value →
    table.entry top.state token = .reduce production →
    Reduces table sem l actions production result next →
    F ((l.drop (table.arity production)).frames ++ [⟨next, result.value⟩])
  accept : ∀ {frames top token value}, F frames → frames.getLast? = some top →
    offered token value → table.entry top.state token = .accept → A top.value

/-- The frames in view and those of the last commit have the property, unless there is no room for
any. -/
structure Shaped (F : List (Frame σ ν) → Prop) (A : ν → Prop) (capacity : Nat)
    (p : Parser σ τ π ν α) : Prop where
  layout : ∃ l : Layout (Frame σ ν), p.stack = l.stack
  capacity_eq : p.capacity = capacity
  frames : 0 < capacity → F p.frames
  committed : 0 < capacity → F p.rollback.frames
  accepted : ∀ value, p.status = .accepted value → A value
  full : capacity = 0 → p.isErrored = true

variable {table : Table σ τ π} {sem : Semantics π ν α} {offered : τ → ν → Prop}
  {F : List (Frame σ ν) → Prop} {A : ν → Prop} {capacity : Nat} {token : τ} {value : ν}
  {p q : Parser σ τ π ν α} {l : Layout (Frame σ ν)}

theorem rollback_frames (hp : p.stack = l.stack) : p.rollback.frames = l.committed := by
  rw [frames_eq (rollback_stack hp), Layout.frames_rollback]

theorem capacity_eq (hp : p.stack = l.stack) : p.capacity = l.capacity := by
  unfold Parser.capacity
  rw [hp, Layout.capacity_stack]

theorem pos_of_getLast?_drop {n : Nat} {under : Frame σ ν}
    (h : (l.drop n).frames.getLast? = some under) : 0 < l.frames.length - n := by
  rw [Layout.frames_drop] at h
  refine Nat.pos_of_ne_zero ?_
  intro hzero
  rw [hzero, List.take_zero] at h
  cases h

theorem Shaped.congr (h : Shaped F A capacity p) (hstack : q.stack = p.stack)
    (hstatus : q.status = p.status) : Shaped F A capacity q where
  layout := by rw [hstack]; exact h.layout
  capacity_eq := by
    have hcapacity : q.capacity = p.capacity := congrArg Stack.capacity hstack
    rw [hcapacity, h.capacity_eq]
  frames hroom := by
    have hframes : q.frames = p.frames := congrArg Stack.toList hstack
    rw [hframes]
    exact h.frames hroom
  committed hroom := by
    have hframes : q.rollback.frames = p.rollback.frames :=
      congrArg (fun s => s.rollback.1.toList) hstack
    rw [hframes]
    exact h.committed hroom
  accepted value hvalue := h.accepted value (hstatus.symm.trans hvalue)
  full hfull := (isErrored_congr hstatus).trans (h.full hfull)

theorem Shaped.pos_of_running (h : Shaped F A capacity p) (hrunning : p.isDone = false) :
    0 < capacity := by
  refine Nat.pos_of_ne_zero ?_
  intro hzero
  have hlive : p.isErrored = false := isErrored_of_running hrunning
  exact absurd (hlive.symm.trans (h.full hzero)) (by decide)

theorem shaped_of_layout {l : Layout (Frame σ ν)} (hp : p.stack = l.stack)
    (hcapacity : l.capacity = capacity) (hframes : 0 < capacity → F l.frames)
    (hcommitted : 0 < capacity → F l.committed)
    (haccepted : ∀ value, p.status = .accepted value → A value)
    (hfull : capacity = 0 → p.isErrored = true) : Shaped F A capacity p where
  layout := ⟨l, hp⟩
  capacity_eq := by rw [capacity_eq hp, hcapacity]
  frames := by rw [frames_eq hp]; exact hframes
  committed := by rw [rollback_frames hp]; exact hcommitted
  accepted := haccepted
  full := hfull

namespace Shape

variable (hF : Shape table sem offered F A)

include hF

theorem drop {n : Nat} {under : Frame σ ν} (h : F l.frames)
    (hunder : (l.drop n).frames.getLast? = some under) : F (l.drop n).frames := by
  rw [Layout.frames_drop]
  exact hF.take h (pos_of_getLast?_drop hunder)

theorem effect {l' : Layout (Frame σ ν)} {fate : Option Fate} (h : F l.frames)
    (hoffered : offered token value) (heffect : Effect table sem token value l p l' q fate) :
    F l'.frames := by
  cases heffect with
  | shift htop hentry =>
    rw [Layout.frames_push]
    exact hF.shift h htop hoffered hentry
  | shiftFull | accept | reject => exact h
  | reduce htop hentry hreduces =>
    rw [Layout.frames_push]
    exact hF.reduce h htop hoffered hentry hreduces
  | reduceFull _ _ hreduces =>
    obtain ⟨under, hunder, -⟩ := hreduces.goes
    exact hF.drop h hunder

theorem accepted (h : F l.frames) (hoffered : offered token value) {l' : Layout (Frame σ ν)}
    {fate : Option Fate} (heffect : Effect table sem token value l p l' q fate)
    (hp : ∀ v, p.status = .accepted v → A v) : ∀ v, q.status = .accepted v → A v := by
  intro v hv
  cases heffect with
  | shift | reduce | reject => exact hp v hv
  | shiftFull | reduceFull => cases hv
  | accept htop hentry =>
    cases hv
    exact hF.accept h htop hoffered hentry

theorem move (hmove : Move table sem offered p q) (h : Shaped F A capacity p) :
    Shaped F A capacity q := by
  obtain ⟨l, hp⟩ := h.layout
  have hcapacity : l.capacity = capacity := by rw [← Parser.capacity_eq hp, h.capacity_eq]
  have hframes : 0 < capacity → F l.frames := by
    rw [← frames_eq hp]
    exact h.frames
  have hcommitted : 0 < capacity → F l.committed := by
    rw [← rollback_frames hp]
    exact h.committed
  have hrolled : Shaped F A capacity p.rollback :=
    shaped_of_layout (rollback_stack hp) (l.capacity_rollback.trans hcapacity)
      (by rw [Layout.frames_rollback]; exact hcommitted)
      (by rw [Layout.rollback, Layout.committed_settled]; exact hcommitted) h.accepted h.full
  cases hmove with
  | opens | rollsBack | reports => exact hrolled.congr rfl rfl
  | @steps _ _ _ _ l₁ l₂ hrunning hp₁ hq hoffered heffect =>
    have hkept := heffect.committed_eq
    have hframes₁ : F l₁.frames := by
      rw [← frames_eq hp₁]
      exact h.frames (h.pos_of_running hrunning)
    refine shaped_of_layout hq ?_ (fun _ => hF.effect hframes₁ hoffered heffect) ?_
      (hF.accepted hframes₁ hoffered heffect h.accepted) ?_
    · rw [hkept.2, ← Parser.capacity_eq hp₁, h.capacity_eq]
    · rw [hkept.1, ← rollback_frames hp₁]
      exact h.committed
    · intro hzero
      exact absurd (h.pos_of_running hrunning) (by omega)
  | commits =>
    exact shaped_of_layout (commit_stack hp) (l.capacity_commit.trans hcapacity)
      (by rw [Layout.frames_commit]; exact hframes)
      (by rw [Layout.commit, Layout.committed_settled]; exact hframes) h.accepted h.full
  | @unwinds count frame hrunning htop =>
    refine shaped_of_layout (unwound_stack hp count frame) ((l.capacity_drop count).trans hcapacity)
      ?_ (by rw [Layout.committed_drop]; exact hcommitted) h.accepted h.full
    intro hpos
    rw [hp, Layout.drop_stack, Layout.top?_stack] at htop
    exact hF.drop (hframes hpos) htop
  | records | recovers | discards => exact h.congr rfl rfl
  | fails hrunning | givesUp hrunning =>
    refine shaped_of_layout hp hcapacity hframes hcommitted ?_ (fun _ => rfl)
    rintro v ⟨⟩

theorem reset_of_layout (hp : p.stack = l.stack) :
    Shaped F A l.capacity (p.reset table sem) := by
  by_cases hroom : 0 < l.capacity
  · rw [reset_of_room hp hroom]
    refine shaped_of_layout rfl ?_ ?_ ?_ ?_ ?_
    · rw [Layout.capacity_settled, List.length_singleton]
      omega
    · rw [Layout.frames_settled]
      exact fun _ => hF.start
    · rw [Layout.committed_settled]
      exact fun _ => hF.start
    · rintro v ⟨⟩
    · omega
  · have hzero : l.capacity = 0 := by omega
    rw [reset_of_no_room hp hzero, hzero]
    refine shaped_of_layout rfl ?_ ?_ ?_ ?_ (fun _ => rfl)
    · rw [Layout.capacity_settled, List.length_nil]
    · omega
    · omega
    · rintro v ⟨⟩

theorem invariant (capacity : Nat) :
    Invariant table sem offered (Shaped F A capacity) where
  blank := hF.blank
  move := hF.move
  reset h := by
    obtain ⟨l, hp⟩ := h.layout
    rw [← h.capacity_eq, Parser.capacity_eq hp]
    exact hF.reset_of_layout hp

theorem create (actions : α) (capacity : Nat) :
    Shaped F A capacity (create table sem actions capacity) := by
  have hnew : Shaped F A (Layout.settled [] capacity : Layout (Frame σ ν)).capacity
      (Parser.create table sem actions capacity) :=
    hF.reset_of_layout (Layout.stack_settled_nil capacity).symm
  rwa [Layout.capacity_settled, List.length_nil, Nat.zero_add] at hnew

end Shape

/-! ## Paths -/

/-- The table leads from the first state to the second by some token. -/
def Links (table : Table σ τ π) (s next : σ) : Prop :=
  ∃ token, table.entry s token = .shift next ∨ table.entry s token = .goto next

/-- The first frame is that of the start state, and each frame leads to the next one. -/
structure Path (table : Table σ τ π) (blank : ν) (frames : List (Frame σ ν)) : Prop where
  head : frames.head? = some ⟨table.start, blank⟩
  links : frames.IsChain fun f g => Links table f.state g.state

namespace Path

variable {frames : List (Frame σ ν)} {blank : ν}

theorem take {n : Nat} (h : Path table blank frames) (hn : 0 < n) :
    Path table blank (frames.take n) where
  head := by
    rw [List.head?_take, if_neg (by omega)]
    exact h.head
  links := h.links.take n

theorem drop {n : Nat} {under : Frame σ ν} (h : Path table blank l.frames)
    (hunder : (l.drop n).frames.getLast? = some under) : Path table blank (l.drop n).frames := by
  rw [Layout.frames_drop]
  exact h.take (pos_of_getLast?_drop hunder)

theorem extend {top frame : Frame σ ν} (h : Path table blank frames)
    (htop : frames.getLast? = some top) (hlink : Links table top.state frame.state) :
    Path table blank (frames ++ [frame]) where
  head := by
    rw [List.head?_append, h.head]
    rfl
  links := by
    refine List.isChain_append.mpr ⟨h.links, .singleton _, ?_⟩
    rintro f hf g hg
    obtain rfl : top = f := Option.some.inj (htop.symm.trans hf)
    obtain rfl : frame = g := Option.some.inj hg
    exact hlink

theorem exists_under {init : List (Frame σ ν)} {top : Frame σ ν}
    (h : Path table blank (init ++ [top])) (hinit : init ≠ []) :
    ∃ next, init.getLast? = some next ∧ Links table next.state top.state := by
  obtain ⟨next, hnext⟩ := Option.ne_none_iff_exists'.mp (mt List.getLast?_eq_none_iff.mp hinit)
  exact ⟨next, hnext, (List.isChain_append.mp h.links).2.2 next hnext top rfl⟩

theorem ne_nil (h : Path table blank frames) : frames ≠ [] := by
  rintro rfl
  cases h.head

end Path

theorem shape_path (table : Table σ τ π) (sem : Semantics π ν α) :
    Shape table sem (fun _ _ => True) (Path table sem.blank) (fun _ => True) where
  blank _ _ := trivial
  start := ⟨rfl, .singleton _⟩
  take := Path.take
  shift h htop _ hentry := h.extend htop ⟨_, .inl hentry⟩
  reduce h _ _ _ hreduces := by
    obtain ⟨under, hunder, hgoto⟩ := hreduces.goes
    exact (h.drop hunder).extend hunder ⟨_, .inr hgoto⟩
  accept _ _ _ _ := trivial

/-! ## Between calls -/

/-- No transaction is open, and the frames in view are a path within the capacity. -/
structure AtRest (table : Table σ τ π) (blank : ν) (capacity : Nat) (p : Parser σ τ π ν α) :
    Prop where
  capacity_eq : p.capacity = capacity
  pending_eq : p.stack.pending = 0
  committed_eq : p.stack.committed = p.depth
  depth_pos : 1 ≤ p.depth
  depth_le : p.depth ≤ capacity
  length_eq : p.frames.length = p.depth
  path : Path table blank p.frames

theorem Settled.atRest {blank : ν} (hp : p.Settled) (hcapacity : p.capacity = capacity)
    (hpath : Path table blank p.frames) : AtRest table blank capacity p := by
  obtain ⟨frames, free, hstack⟩ := hp
  have hframes : p.frames = frames := by rw [frames_eq hstack, Layout.frames_settled]
  have hdepth : p.depth = frames.length := by
    rw [depth, hstack, Layout.size_stack, Layout.frames_settled]
  have hroom : frames.length + free = capacity := by
    rw [← Layout.capacity_settled, ← Parser.capacity_eq hstack, hcapacity]
  have hcommitted : p.stack.committed = frames.length := by
    rw [hstack, Layout.committed_stack]
    rfl
  have hpending : p.stack.pending = 0 := by rw [hstack]; rfl
  rw [hframes] at hpath
  have hpos : 0 < frames.length := List.length_pos_of_ne_nil hpath.ne_nil
  exact {
    capacity_eq := hcapacity
    pending_eq := hpending
    committed_eq := hcommitted.trans hdepth.symm
    depth_pos := by omega
    depth_le := by omega
    length_eq := by rw [hframes, hdepth]
    path := by rwa [hframes] }

/-- A run of posts and resets leaves the parser at rest after each of them, whatever the table. -/
theorem trace_atRest [DecidableEq τ] {capacity : Nat} (hcapacity : 1 ≤ capacity)
    (table : Table σ τ π) (sem : Semantics π ν α) (actions : α) (limit : Nat)
    (commands : List (Command τ ν)) :
    ∀ p ∈ ((create table sem actions capacity).trace table sem limit commands).1,
      AtRest table sem.blank capacity p := by
  have hshape := shape_path table sem
  have hnew : (create table sem actions capacity).Settled := (Reachable.create _ _).settled
  intro p hp
  obtain ⟨hsettled, hshaped⟩ := (hshape.invariant capacity).trace hnew
    (hshape.create actions capacity) (fun command _ => by cases command <;> trivial) p hp
  exact hsettled.atRest hshaped.capacity_eq (hshaped.frames hcapacity)

section

open NumberList

/-- `(1,*)` and a reset, with room for five frames: none is left to reduce in after the recovery. -/
def starRun : List (Parser (Fin 10) Token Production Value Builder) × Option Halt :=
  (create grammar.toTable Builder.semantics {} 5).trace grammar.toTable Builder.semantics 4
    [.post .leftParen .none, .post .number (.number 1), .post .comma .none, .post .star .none,
      .post .rightParen .none, .reset]

theorem trace_atRest_starRun :
    ∃ p ∈ starRun.1, p.frames.map (fun f => f.state.val) = [0, 2, 3, 8, 6] ∧ p.isErrored = true ∧
      AtRest grammar.toTable Value.none 5 p := by
  have hlost : ([0, 2, 3, 8, 6], true) ∈
      starRun.1.map fun p => (p.frames.map fun f => f.state.val, p.isErrored) := by
    decide +kernel
  obtain ⟨p, hp, hobserved⟩ := List.mem_map.mp hlost
  obtain ⟨hframes, herrored⟩ := Prod.mk.inj hobserved
  exact ⟨p, hp, hframes, herrored,
    trace_atRest (show 1 ≤ 5 by decide) grammar.toTable Builder.semantics {} 4 _ p hp⟩

end

end ShiftReduce.Parser
