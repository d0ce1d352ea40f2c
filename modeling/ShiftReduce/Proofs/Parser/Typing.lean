import Mathlib.Data.Fintype.Basic
import Mathlib.Data.List.Forall2
import ShiftReduce.Proofs.Parser.Execution
import ShiftReduce.Proofs.Parser.Path

/-!
# Kinds of values

A semantics may keep values of several kinds on the stack and expect each argument of a production
to be of the right one. A typing says which kind the frames of a state hold. Because the stack is a
path, what lies under a state is one of the states that lead to it, so a typing can be checked on the
table: from the state that calls for a reduction, go down its right-hand side along every entry that
leads there. Then no run breaches a contract, however long it is and wherever it overflows or
recovers.
-/

namespace ShiftReduce

open ShiftReduce.Parser

variable {σ τ π ν α κ : Type}

/-- Kinds of values and where they belong; no kind stands for any value at all. -/
structure Typing (σ τ π ν κ : Type) where
  holds : κ → ν → Prop
  /-- The tokens that may be offered. -/
  terminals : List τ
  /-- The kind of value that a token comes with. -/
  carried : τ → Option κ
  /-- The kind of value in the frames of a state. -/
  kind : σ → Option κ
  /-- The kinds of argument that a production asks for, the leftmost first. -/
  wanted : π → List (Option κ)
  /-- The kind of value that a production makes. -/
  made : π → κ
  /-- The kind of value that is accepted. -/
  result : κ
  /-- Falls with each reduction. -/
  rank : σ → Nat

/-- What is given is of the kind that is wanted. -/
def Covers (wanted given : Option κ) : Prop := wanted = none ∨ wanted = given

instance [DecidableEq κ] (wanted given : Option κ) : Decidable (Covers wanted given) :=
  inferInstanceAs (Decidable (_ ∨ _))

/-- Going down from a state, one frame for each kind that is wanted, the frames are above the bottom
and of that kind, and the state that is uncovered has the property; and this whichever states lie
under the first one. -/
def Unwinds (table : Table σ τ π) (kind : σ → Option κ) (after : σ → Prop) :
    List (Option κ) → σ → Prop
  | [], s => after s
  | wanted :: rest, s => s ≠ table.start ∧ Covers wanted (kind s) ∧
      ∀ under, Links table under s → Unwinds table kind after rest under

/-! On finite tables all of this is decided. -/

section

variable [DecidableEq σ] [DecidableEq π] [Fintype σ] [Fintype τ]

instance (table : Table σ τ π) (s next : σ) : Decidable (Links table s next) :=
  inferInstanceAs (Decidable (∃ _, _ ∨ _))

instance Unwinds.decidable [DecidableEq κ] (table : Table σ τ π) (kind : σ → Option κ)
    (after : σ → Prop) [DecidablePred after] :
    (wanted : List (Option κ)) → (s : σ) → Decidable (Unwinds table kind after wanted s)
  | [], s => inferInstanceAs (Decidable (after s))
  | _ :: rest, _ =>
    have (under : σ) := Unwinds.decidable table kind after rest under
    inferInstanceAs (Decidable (_ ∧ _ ∧ ∀ _, _))

end

namespace Typing

/-- The value is of the kind, if there is one. -/
def Fits (ty : Typing σ τ π ν κ) (kind : Option κ) (value : ν) : Prop :=
  ∀ k ∈ kind, ty.holds k value

/-- A token may come with a value. -/
def Offered (ty : Typing σ τ π ν κ) (token : τ) (value : ν) : Prop :=
  token ∈ ty.terminals ∧ ty.Fits (ty.carried token) value

/-- A reduction by the production can uncover the state: it goes on from there, with a value of the
right kind and fewer reductions to come. -/
def Resumable (ty : Typing σ τ π ν κ) (table : Table σ τ π) (top : σ) (production : π)
    (under : σ) : Prop :=
  ∃ next, table.entry under (table.lhs production) = .goto next ∧
    Covers (ty.kind next) (some (ty.made production)) ∧ ty.rank next < ty.rank top

instance [DecidableEq σ] [DecidableEq π] [DecidableEq κ] [Fintype σ] (ty : Typing σ τ π ν κ)
    (table : Table σ τ π) (top : σ) (production : π) (under : σ) :
    Decidable (ty.Resumable table top production under) :=
  inferInstanceAs (Decidable (∃ _, _ ∧ _ ∧ _))

/-- The table keeps to the typing, and so do the values that the productions make. -/
structure Sound (ty : Typing σ τ π ν κ) (table : Table σ τ π) (sem : Semantics π ν α) : Prop where
  start : ty.kind table.start = none
  errorToken : ∀ e, table.errorToken = some e → e ∈ ty.terminals ∧ ty.carried e = none
  goto : ∀ token ∈ ty.terminals, ∀ s next, table.entry s token ≠ .goto next
  shift : ∀ s token next, table.entry s token = .shift next →
    Covers (ty.kind next) (ty.carried token)
  accept : ∀ s token, table.entry s token = .accept → ty.kind s = some ty.result
  reduce : ∀ s token production, table.entry s token = .reduce production →
    Unwinds table ty.kind (ty.Resumable table s production) (ty.wanted production).reverse s
  arity : ∀ production, (ty.wanted production).length = table.arity production
  acts : ∀ s token production, table.entry s token = .reduce production → ∀ values depth actions,
    List.Forall₂ ty.Fits (ty.wanted production) values →
    ∃ result, sem.reduce production ⟨values.length, depth, values⟩ actions = .ok result ∧
      ty.holds (ty.made production) result.value

/-- The stack is a path, and each frame holds a value of the kind that its state has. -/
structure Typed (ty : Typing σ τ π ν κ) (table : Table σ τ π) (blank : ν)
    (frames : List (Frame σ ν)) : Prop extends Path table blank frames where
  fits : ∀ frame ∈ frames, ty.Fits (ty.kind frame.state) frame.value

variable {ty : Typing σ τ π ν κ} {table : Table σ τ π} {sem : Semantics π ν α} {blank value : ν}
  {token : τ} {frames : List (Frame σ ν)} {top frame : Frame σ ν} {kind wanted given : Option κ}
  {limit capacity : Nat} {p : Parser σ τ π ν α} {l : Layout (Frame σ ν)} {actions : α}

theorem Fits.of_covers (hcovers : Covers wanted given) (h : ty.Fits given value) :
    ty.Fits wanted value := by
  rcases hcovers with rfl | rfl
  · intro k hk
    cases hk
  · exact h

theorem fits_some {k : κ} (h : ty.holds k value) : ty.Fits (some k) value := by
  intro k' hk
  cases hk
  exact h

theorem fits_none (ty : Typing σ τ π ν κ) (value : ν) : ty.Fits none value := by
  intro k hk
  cases hk

theorem exists_of_fits_one {k : Option κ} {values : List ν}
    (h : List.Forall₂ ty.Fits [k] values) : ∃ v, values = [v] ∧ ty.Fits k v := by
  simp only [List.forall₂_cons_left_iff, List.forall₂_nil_left_iff] at h
  obtain ⟨v, _, hv, rfl, rfl⟩ := h
  exact ⟨v, rfl, hv⟩

theorem exists_of_fits_three {k₁ k₂ k₃ : Option κ} {values : List ν}
    (h : List.Forall₂ ty.Fits [k₁, k₂, k₃] values) :
    ∃ v₁ v₂ v₃, values = [v₁, v₂, v₃] ∧ ty.Fits k₁ v₁ ∧ ty.Fits k₂ v₂ ∧ ty.Fits k₃ v₃ := by
  simp only [List.forall₂_cons_left_iff, List.forall₂_nil_left_iff] at h
  obtain ⟨v₁, _, h₁, ⟨v₂, _, h₂, ⟨v₃, _, h₃, rfl, rfl⟩, rfl⟩, rfl⟩ := h
  exact ⟨v₁, v₂, v₃, rfl, h₁, h₂, h₃⟩

namespace Typed

theorem take {n : Nat} (h : ty.Typed table blank frames) (hn : 0 < n) :
    ty.Typed table blank (frames.take n) where
  toPath := h.toPath.take hn
  fits frame hframe := h.fits frame (List.mem_of_mem_take hframe)

theorem drop {n : Nat} {under : Frame σ ν} (h : ty.Typed table blank l.frames)
    (hunder : (l.drop n).frames.getLast? = some under) :
    ty.Typed table blank (l.drop n).frames := by
  rw [Layout.frames_drop]
  exact h.take (pos_of_getLast?_drop hunder)

theorem extend (h : ty.Typed table blank frames) (htop : frames.getLast? = some top)
    (hlink : Links table top.state frame.state)
    (hfits : ty.Fits (ty.kind frame.state) frame.value) :
    ty.Typed table blank (frames ++ [frame]) where
  toPath := h.toPath.extend htop hlink
  fits f hf := by
    rcases List.mem_append.mp hf with hf | hf
    · exact h.fits f hf
    · obtain rfl := List.mem_singleton.mp hf
      exact hfits

theorem unwinds {after : σ → Prop} {wanted : List (Option κ)} (h : ty.Typed table blank frames)
    (htop : frames.getLast? = some top) (hunwinds : Unwinds table ty.kind after wanted top.state) :
    ∃ base rhs under, frames = base ++ rhs ∧ base.getLast? = some under ∧ after under.state ∧
      List.Forall₂ ty.Fits wanted.reverse (rhs.map Frame.value) := by
  -- What lies under the top frame is a typed stack again, and the path says that its state leads to
  -- the one above: the induction goes down both the stack and the table.
  induction wanted generalizing frames top with
  | nil => exact ⟨frames, [], top, (List.append_nil _).symm, htop, hunwinds, .nil⟩
  | cons kind rest ih =>
    obtain ⟨hstart, hcovers, hunder⟩ := hunwinds
    obtain ⟨init, rfl⟩ := List.getLast?_eq_some_iff.mp htop
    have hinit : init ≠ [] := by
      rintro rfl
      have hbottom : top = ⟨table.start, blank⟩ := Option.some.inj h.head
      exact hstart (congrArg Frame.state hbottom)
    obtain ⟨next, hnext, hlink⟩ := h.toPath.exists_under hinit
    have hbelow : ty.Typed table blank init := by
      have htake := h.take (List.length_pos_of_ne_nil hinit)
      rwa [List.take_left] at htake
    obtain ⟨base, rhs, under, rfl, hbase, hafter, hfits⟩ := ih hbelow hnext (hunder _ hlink)
    refine ⟨base, rhs ++ [top], under, List.append_assoc _ _ _, hbase, hafter, ?_⟩
    have hlast : ty.Fits kind top.value := (h.fits top (by simp)).of_covers hcovers
    rw [List.reverse_cons, List.map_append]
    exact List.rel_append hfits (.cons hlast .nil)

end Typed

namespace Sound

variable (h : ty.Sound table sem)

include h

theorem arguments {production : π} (htyped : ty.Typed table blank frames)
    (htop : frames.getLast? = some top) (hentry : table.entry top.state token = .reduce production) :
    ∃ base rhs under, frames = base ++ rhs ∧ table.arity production = rhs.length ∧
      base.getLast? = some under ∧ ty.Resumable table top.state production under.state ∧
      List.Forall₂ ty.Fits (ty.wanted production) (rhs.map Frame.value) := by
  obtain ⟨base, rhs, under, hframes, hunder, hresumable, hfits⟩ :=
    htyped.unwinds htop (h.reduce _ _ _ hentry)
  rw [List.reverse_reverse] at hfits
  have harity : table.arity production = rhs.length := by
    rw [← h.arity, hfits.length_eq, List.length_map]
  exact ⟨base, rhs, under, hframes, harity, hunder, hresumable, hfits⟩

theorem reduces {production : π} (htyped : ty.Typed table blank l.frames)
    (htop : l.frames.getLast? = some top)
    (hentry : table.entry top.state token = .reduce production)
    (actions : α) :
    ∃ result next, Reduces table sem l actions production result next ∧
      ty.Fits (ty.kind next) result.value ∧ ty.rank next < ty.rank top.state := by
  obtain ⟨base, rhs, under, hframes, harity, hunder, ⟨next, hgoto, hcovers, hrank⟩, hfits⟩ :=
    h.arguments htyped htop hentry
  obtain ⟨result, hacts, hmade⟩ := h.acts _ _ _ hentry _ (base ++ rhs).length actions hfits
  rw [List.length_map] at hacts
  exact ⟨result, next, reduces_of_append hframes harity hacts hunder hgoto,
    (fits_some hmade).of_covers hcovers, hrank⟩

end Sound

end Typing

theorem Parser.Reduces.unique {table : Table σ τ π} {sem : Semantics π ν α}
    {l : Layout (Frame σ ν)} {actions : α} {production : π} {result result' : Reduced ν α}
    {next next' : σ} (h : Reduces table sem l actions production result next)
    (h' : Reduces table sem l actions production result' next') :
    result = result' ∧ next = next' := by
  obtain ⟨under, hunder, hgoto⟩ := h.goes
  obtain ⟨under', hunder', hgoto'⟩ := h'.goes
  obtain rfl : under = under' := Option.some.inj (hunder.symm.trans hunder')
  exact ⟨Except.ok.inj (h.acts.symm.trans h'.acts), Action.goto.inj (hgoto.symm.trans hgoto')⟩

namespace Typing.Sound

variable {ty : Typing σ τ π ν κ} {table : Table σ τ π} {sem : Semantics π ν α} {blank value : ν}
  {token : τ} {top : Frame σ ν} {limit capacity : Nat} {p : Parser σ τ π ν α}
  {l : Layout (Frame σ ν)} {actions : α} (h : ty.Sound table sem)

include h

theorem shape : Shape table sem ty.Offered (ty.Typed table sem.blank) (ty.holds ty.result) where
  blank e he := by
    obtain ⟨hterminal, hcarried⟩ := h.errorToken e he
    refine ⟨hterminal, ?_⟩
    rw [hcarried]
    exact ty.fits_none _
  start := by
    refine ⟨⟨rfl, .singleton _⟩, ?_⟩
    intro frame hframe
    obtain rfl := List.mem_singleton.mp hframe
    rw [h.start]
    exact ty.fits_none _
  take := Typed.take
  shift htyped htop hoffered hentry :=
    htyped.extend htop ⟨_, .inl hentry⟩ (hoffered.2.of_covers (h.shift _ _ _ hentry))
  reduce htyped htop _ hentry hreduces := by
    obtain ⟨result, next, hreduces', hfits, -⟩ := h.reduces htyped htop hentry _
    obtain ⟨rfl, rfl⟩ := hreduces.unique hreduces'
    obtain ⟨under, hunder, hgoto⟩ := hreduces.goes
    exact (htyped.drop hunder).extend hunder ⟨_, .inr hgoto⟩ hfits
  accept htyped htop _ hentry := by
    have hfits := htyped.fits _ (List.mem_of_getLast? htop)
    rw [h.accept _ _ hentry] at hfits
    exact hfits _ rfl

theorem step (htyped : ty.Typed table sem.blank l.frames) (htop : l.frames.getLast? = some top)
    (hoffered : ty.Offered token value) (hp : p.stack = l.stack) :
    ∃ l' q fate, Effect table sem token value l p l' q fate ∧ q.stack = l'.stack ∧
      (fate = none → ∃ top', l'.frames.getLast? = some top' ∧
        ty.rank top'.state < ty.rank top.state) := by
  cases hentry : table.entry top.state token with
  | error => exact ⟨_, _, _, .reject htop hentry, hp, fun hnone => by cases hnone⟩
  | accept => exact ⟨_, _, _, .accept htop hentry, hp, fun hnone => by cases hnone⟩
  | goto next => exact absurd hentry (h.goto _ hoffered.1 _ _)
  | shift next =>
    by_cases hroom : 0 < l.free
    · exact ⟨_, _, _, .shift htop hentry hroom, rfl, fun hnone => by cases hnone⟩
    · exact ⟨_, _, _, .shiftFull htop hentry hroom, hp, fun hnone => by cases hnone⟩
  | reduce production =>
    obtain ⟨result, next, hreduces, -, hrank⟩ := h.reduces htyped htop hentry p.actions
    by_cases hroom : 0 < (l.drop (table.arity production)).free
    · refine ⟨_, _, _, .reduce htop hentry hreduces hroom, rfl, ?_⟩
      intro _
      refine ⟨⟨next, result.value⟩, ?_, hrank⟩
      rw [Layout.frames_push, List.getLast?_concat]
    · exact ⟨_, _, _, .reduceFull htop hentry hreduces hroom, rfl, fun hnone => by cases hnone⟩

theorem offer_error {halted : Halted σ τ π ν} (htyped : ty.Typed table sem.blank l.frames)
    (htop : l.frames.getLast? = some top) (hoffered : ty.Offered token value)
    (hp : p.stack = l.stack) (hoffer : p.offer table sem token value limit = .error halted) :
    halted.cause = .exhausted ∧ limit ≤ ty.rank top.state := by
  -- The bound falls with each step, and the rank of the state on top with it.
  induction limit generalizing p l top with
  | zero =>
    cases hoffer
    exact ⟨rfl, Nat.zero_le _⟩
  | succ limit ih =>
    obtain ⟨l', q, fate, heffect, hq, hnext⟩ := h.step htyped htop hoffered hp
    cases fate with
    | some fate =>
      rw [offer_of_fate hp heffect] at hoffer
      cases hoffer
    | none =>
      obtain ⟨top', htop', hrank⟩ := hnext rfl
      rw [offer_of_reduction hp heffect] at hoffer
      obtain ⟨hcause, hlimit⟩ := ih (h.shape.effect htyped hoffered heffect) htop' hq hoffer
      exact ⟨hcause, by omega⟩

/-- A run of posts and resets breaches no contract, runs out of steps only where the bound on them
is too low, and accepts values of the right kind. -/
theorem trace_safe [DecidableEq τ] (actions : α) (capacity limit : Nat)
    {commands : List (Command τ ν)} (hoffers : ∀ command ∈ commands, command.Offers ty.Offered) :
    (∀ cause, ((create table sem actions capacity).trace table sem limit commands).2 = some cause →
      cause = .exhausted ∧ ∃ s, limit ≤ ty.rank s) ∧
    ∀ p ∈ ((create table sem actions capacity).trace table sem limit commands).1,
      ∀ value, p.status = .accepted value → ty.holds ty.result value := by
  have hinvariant := h.shape.invariant capacity
  have hnew : (create table sem actions capacity).Settled := (Reachable.create _ _).settled
  have hshaped := h.shape.create actions capacity
  constructor
  · intro cause hcause
    obtain ⟨p, halted, hp, ⟨q, hleads, hrunning, hhalts⟩, rfl⟩ :=
      hinvariant.trace_halt hnew hshaped hoffers hcause
    have hq := hinvariant.leads hleads hp
    obtain ⟨l, hstack⟩ := hq.layout
    have htyped : ty.Typed table sem.blank l.frames := by
      rw [← frames_eq hstack]
      exact hq.frames (hq.pos_of_running hrunning)
    obtain ⟨top, htop⟩ := Option.ne_none_iff_exists'.mp
      (mt List.getLast?_eq_none_iff.mp htyped.ne_nil)
    rcases hhalts with ⟨token, value, hoffered, hoffer⟩ | hempty
    · obtain ⟨hexhausted, hlimit⟩ := h.offer_error htyped htop hoffered hstack hoffer
      exact ⟨hexhausted, _, hlimit⟩
    · rw [hstack, Layout.top?_stack, htop] at hempty
      cases hempty
  · intro p hp
    exact (hinvariant.trace hnew hshaped hoffers p hp).2.accepted

end Typing.Sound

end ShiftReduce
