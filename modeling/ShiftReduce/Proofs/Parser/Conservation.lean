import Mathlib.Algebra.GroupWithZero.Nat
import ShiftReduce.Proofs.Parser.Thrift

/-!
# What reductions make stays on the stack

Each reduction makes a node over the nodes in its arguments. If the table is thrifty, no node is made
that a rejection takes back, and without an error token no frames are dropped. So unless the stack
overflows, the frames hold every node that was made, as many as the actions have counted.
-/

namespace ShiftReduce

open ShiftReduce.Parser

variable {σ τ π ν α κ : Type}

/-- The number of nodes in the values on the stack. -/
def load (size : ν → Nat) (frames : List (Frame σ ν)) : Nat :=
  (frames.map fun frame => size frame.value).sum

@[simp] theorem load_append (size : ν → Nat) (below above : List (Frame σ ν)) :
    load size (below ++ above) = load size below + load size above := by
  simp [load]

@[simp] theorem load_singleton (size : ν → Nat) (frame : Frame σ ν) :
    load size [frame] = size frame.value := by
  simp [load]

/-- The nodes in the values add up: each production makes one node over those in its arguments, and
counts it. Nothing else has nodes, and whatever is accepted lies directly on the bottom frame. -/
structure Typing.Conserves (ty : Typing σ τ π ν κ) (table : Table σ τ π) (sem : Semantics π ν α)
    (size : ν → Nat) (count : α → Nat) : Prop where
  sound : ty.Sound table sem
  blank : size sem.blank = 0
  offered : ∀ token value, ty.Offered token value → size value = 0
  reduce : ∀ s token production, table.entry s token = .reduce production →
    ∀ values depth actions result, List.Forall₂ ty.Fits (ty.wanted production) values →
    sem.reduce production ⟨values.length, depth, values⟩ actions = .ok result →
    size result.value = (values.map size).sum + 1 ∧ count result.actions = count actions + 1
  onSyntaxError : ∀ actions, count (sem.onSyntaxError actions) = count actions
  bottom : ∀ s, ¬ Links table s table.start
  accept : ∀ s token, table.entry s token = .accept →
    s ≠ table.start ∧ ∀ under, Links table under s → under = table.start

namespace Parser

/-- The actions have counted one node for each reduction, the frames hold them all, and so does the
value that is accepted. -/
structure Conserved (size : ν → Nat) (count : α → Nat) (frames : List (Frame σ ν))
    (p : Parser σ τ π ν α) : Prop where
  counted : count p.actions = p.stats.reductions
  held : load size frames = p.stats.reductions
  accepted : ∀ value, p.status = .accepted value → size value = p.stats.reductions

variable {table : Table σ τ π} {sem : Semantics π ν α} {size : ν → Nat} {count : α → Nat}
  {token : τ} {value blank : ν} {limit capacity : Nat} {p q : Parser σ τ π ν α}
  {l l' : Layout (Frame σ ν)} {frames : List (Frame σ ν)} {top : Frame σ ν} {fate : Fate}
  {actions : α}

theorem Conserved.congr (h : Conserved size count frames p)
    (hcount : count q.actions = count p.actions)
    (hreductions : q.stats.reductions = p.stats.reductions)
    (hstatus : ∀ value, q.status = .accepted value → p.status = .accepted value) :
    Conserved size count frames q where
  counted := by rw [hcount, hreductions, h.counted]
  held := by rw [hreductions, h.held]
  accepted value hvalue := by rw [hreductions, h.accepted value (hstatus value hvalue)]

theorem Path.eq_pair (h : Path table blank frames) (htop : frames.getLast? = some top)
    (hne : top.state ≠ table.start) (hbottom : ∀ s, ¬ Links table s table.start)
    (hunder : ∀ under, Links table under top.state → under = table.start) :
    frames = [⟨table.start, blank⟩, top] := by
  obtain ⟨init, rfl⟩ := List.getLast?_eq_some_iff.mp htop
  have hinit : init ≠ [] := by
    rintro rfl
    have hfirst : top = ⟨table.start, blank⟩ := Option.some.inj h.head
    exact hne (congrArg Frame.state hfirst)
  obtain ⟨next, hnext, hlink⟩ := h.exists_under hinit
  obtain ⟨below, rfl⟩ := List.getLast?_eq_some_iff.mp hnext
  have hbelow : below = [] := by
    by_contra hne'
    have hpath := h.take (n := (below ++ [next]).length) (by simp)
    rw [List.take_left] at hpath
    obtain ⟨s, -, hlink'⟩ := hpath.exists_under hne'
    rw [hunder _ hlink] at hlink'
    exact hbottom _ hlink'
  subst hbelow
  have hfirst : next = ⟨table.start, blank⟩ := Option.some.inj h.head
  rw [hfirst]
  rfl

end Parser

namespace Typing.Conserves

variable {ty : Typing σ τ π ν κ} {table : Table σ τ π} {sem : Semantics π ν α} {size : ν → Nat}
  {count : α → Nat} {token : τ} {value : ν} {limit capacity : Nat} {p q : Parser σ τ π ν α}
  {l l' : Layout (Frame σ ν)} {fate : Fate} {actions : α}
  (h : ty.Conserves table sem size count)

include h

/-! ## One step -/

theorem effect {fate? : Option Fate} (htyped : ty.Typed table sem.blank l.frames)
    (hoffered : ty.Offered token value) (hrunning : p.isDone = false)
    (hp : Conserved size count l.frames p) (heffect : Effect table sem token value l p l' q fate?)
    (hfate : fate? ≠ some .overflowed) : Conserved size count l'.frames q := by
  cases heffect with
  | shift htop hentry hroom =>
    refine ⟨hp.counted, ?_, hp.accepted⟩
    rw [Layout.frames_push, load_append, load_singleton, h.offered token value hoffered]
    exact hp.held
  | shiftFull | reduceFull => exact absurd rfl hfate
  | @reduce top production result next htop hentry hreduces hroom =>
    obtain ⟨base, rhs, under, hframes, harity, -, -, hfits⟩ :=
      h.sound.arguments htyped htop hentry
    have hacts := hreduces.acts
    rw [harity, drop_frames_of_append hframes, ← List.length_map Frame.value] at hacts
    obtain ⟨hsize, hcount⟩ := h.reduce _ _ _ hentry _ _ _ _ hfits hacts
    -- The arguments leave the stack, and what comes in their place holds their nodes and one more.
    have hmade : size result.value = load size rhs + 1 := by
      rw [hsize, List.map_map]
      rfl
    have hheld := hp.held
    rw [hframes, load_append] at hheld
    refine ⟨?_, ?_, ?_⟩
    · change count result.actions = p.stats.reductions + 1
      rw [hcount, hp.counted]
    · change _ = p.stats.reductions + 1
      rw [Layout.frames_push, load_append, load_singleton, harity, frames_drop_of_append hframes,
        hmade, ← hheld, Nat.add_assoc]
    · intro v hv
      change p.status = .accepted v at hv
      rw [status_of_running hrunning] at hv
      cases hv
  | @accept top htop hentry =>
    refine ⟨hp.counted, hp.held, ?_⟩
    rintro v ⟨⟩
    obtain ⟨hne, hunder⟩ := h.accept _ _ hentry
    have hheld := hp.held
    rw [htyped.toPath.eq_pair htop hne h.bottom hunder] at hheld
    simp only [load, List.map_cons, List.map_nil, List.sum_cons, List.sum_nil, h.blank] at hheld
    rw [Nat.zero_add, Nat.add_zero] at hheld
    exact hheld
  | reject => exact hp

/-! ## One offer -/

theorem offer (hp : p.stack = l.stack) (htyped : ty.Typed table sem.blank l.frames)
    (hoffered : ty.Offered token value) (hrunning : p.isDone = false)
    (hconserved : Conserved size count l.frames p)
    (hoffer : p.offer table sem token value limit = .ok (q, fate)) (hfate : fate ≠ .overflowed) :
    Conserved size count q.frames q := by
  obtain ⟨l₁, p₁, l', ⟨htyped₁, hrunning₁, hconserved₁⟩, hq, heffect⟩ := offer_effect
    (I := fun l' p' => ty.Typed table sem.blank l'.frames ∧ p'.isDone = false ∧
      Conserved size count l'.frames p')
    (by
      rintro l₁ p₁ l₂ p₂ ⟨htyped₁, hrunning₁, hconserved₁⟩ heffect
      refine ⟨h.sound.shape.effect htyped₁ hoffered heffect, ?_,
        h.effect htyped₁ hoffered hrunning₁ hconserved₁ heffect nofun⟩
      cases heffect
      exact hrunning₁)
    hp ⟨htyped, hrunning, hconserved⟩ hoffer
  rw [frames_eq hq]
  exact h.effect htyped₁ hoffered hrunning₁ hconserved₁ heffect (by simpa using hfate)

/-! ## One post -/

theorem posts (hT : Thrifty table) (hnone : table.errorToken = none) (hp : p.Settled)
    (hrunning : p.isDone = false) (htyped : ty.Typed table sem.blank p.frames)
    (hoffered : ty.Offered token value) (hconserved : Conserved size count p.frames p)
    (hposts : Posts table sem limit token value p q) (hlive : q.isOverflowed = false) :
    Conserved size count q.frames q := by
  obtain ⟨frames, free, hstack⟩ := hp
  have hopened := opened_stack hstack token
  have hframes : p.frames = (Layout.settled frames free).frames := frames_eq hstack
  rw [hframes] at htyped hconserved
  have hstart : Conserved size count (Layout.settled frames free).frames (p.opened token) :=
    hconserved.congr rfl rfl fun _ => id
  cases hposts with
  | @taken r fate hoffer hfate =>
    obtain ⟨l', hr⟩ := offer_stack hopened hoffer
    have hfate' : fate ≠ .overflowed := by
      rintro rfl
      simp at hfate
    have hconserved' := h.offer hopened htyped hoffered hrunning hstart hoffer hfate'
    have hcommit : r.commit.frames = r.frames := by
      rw [frames_eq (commit_stack hr), Layout.frames_commit, frames_eq hr]
    rw [hcommit]
    exact hconserved'.congr rfl rfl fun _ => id
  | full hoffer =>
    rw [isOverflowed_of_offer hopened hoffer] at hlive
    cases hlive
  | @rejected error r _ hrejects hresumes =>
    cases hresumes with
    | unprovided =>
      obtain ⟨r, hoffer, -, rfl⟩ := hrejects
      -- The offer was in vain, and so it has made nothing that rolling back could lose.
      obtain ⟨rfl, -⟩ := hT.offer_rejected hopened htyped.toPath hoffer
      have hback : ((p.opened token).reported sem error).stack =
          (Layout.settled frames free).stack := by
        have hrolled := rollback_stack hopened
        rwa [Layout.rollback_settled] at hrolled
      have hframes' : (((p.opened token).reported sem error).failed error).frames =
          (Layout.settled frames free).frames := by
        apply frames_eq
        rw [failed_stack, hback]
      rw [hframes']
      have hlive' : ((p.opened token).reported sem error).isDone = false := hrunning
      unfold failed
      rw [if_neg (by rw [hlive']; decide)]
      exact hconserved.congr (h.onSyntaxError p.actions) rfl nofun
    | unrecovered herrorToken | recovered herrorToken | retried herrorToken =>
      rw [hnone] at herrorToken
      cases herrorToken

/-! ## Runs -/

theorem create (hactions : count actions = 0)
    (hlive : (create table sem actions capacity).isOverflowed = false) :
    Conserved size count (create table sem actions capacity).frames
      (create table sem actions capacity) := by
  have hnew : Stack.ofCapacity capacity = (Layout.settled [] capacity : Layout (Frame σ ν)).stack :=
    (Layout.stack_settled_nil capacity).symm
  by_cases hroom : 0 < (Layout.settled [] capacity : Layout (Frame σ ν)).capacity
  · unfold Parser.create at hlive ⊢
    rw [reset_of_room hnew hroom]
    refine ⟨hactions, ?_, nofun⟩
    rw [frames_eq rfl, Layout.frames_settled, load_singleton, h.blank]
  · unfold Parser.create at hlive
    rw [reset_of_no_room hnew (by omega)] at hlive
    cases hlive

variable [DecidableEq τ]

theorem post (hT : Thrifty table) (hnone : table.errorToken = none) (hp : p.Settled)
    (hshaped : Shaped (ty.Typed table sem.blank) (ty.holds ty.result) capacity p)
    (hoffered : ty.Offered token value)
    (hconserved : p.isOverflowed = false → Conserved size count p.frames p)
    (hpost : p.post table sem limit token value = .ok q) (hlive : q.isOverflowed = false) :
    Conserved size count q.frames q := by
  cases hdone : p.isDone with
  | true =>
    rw [post_of_done hdone] at hpost
    cases hpost
    exact (hconserved hlive).congr rfl rfl fun _ => id
  | false =>
    have hfree : p.isOverflowed = false := by
      rw [isOverflowed, status_of_running hdone]
    exact h.posts hT hnone hp hdone (hshaped.frames (hshaped.pos_of_running hdone)) hoffered
      (hconserved hfree) (post_cases hdone hpost) hlive

/-- All along a run of posts that does not overflow, every node made is on the stack. -/
theorem trace (hT : Thrifty table) (hnone : table.errorToken = none) (hactions : count actions = 0)
    {posts : List (τ × ν)} (hoffered : ∀ post ∈ posts, ty.Offered post.1 post.2) :
    ∀ p ∈ ((Parser.create table sem actions capacity).trace table sem limit
        (posts.map fun post => .post post.1 post.2)).1,
      p.isOverflowed = false → Conserved size count p.frames p := by
  have hinvariant := h.sound.shape.invariant capacity
  intro p hp
  -- An overflow ends the run, so the invariant need not say anything of what comes behind one.
  refine (forall_mem_trace (I := fun p => p.Settled ∧
    Shaped (ty.Typed table sem.blank) (ty.holds ty.result) capacity p ∧
    (p.isOverflowed = false → Conserved size count p.frames p)) ?_ ?_ p hp).2.2
  · rintro r s command hcommand ⟨hsettled, hshaped, hconserved⟩ hs
    obtain ⟨post, hpost, rfl⟩ := List.mem_map.mp hcommand
    exact ⟨hsettled.post hs, hinvariant.post hsettled hshaped (hoffered post hpost) hs,
      h.post hT hnone hsettled hshaped (hoffered post hpost) hconserved hs⟩
  · exact ⟨(Reachable.create _ _).settled, h.sound.shape.create actions capacity,
      h.create hactions⟩

end Typing.Conserves

end ShiftReduce
