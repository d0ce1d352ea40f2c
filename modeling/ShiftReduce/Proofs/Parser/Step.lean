import Mathlib.Data.List.Basic
import ShiftReduce.Parser.Recovery
import ShiftReduce.Proofs.Stack.Layout

/-!
# What one step can do

`Effect` lists all that a step of the automaton can come to, for any table and any meaning, and
`Stuck` all that keeps it from coming to anything. Facts about offers and posts are derived from
these, and where the stack has a layout the step itself is opened here only.
-/

namespace ShiftReduce

variable {σ τ π ν α : Type}

namespace Parser

/-! ## The parsers that a step can lead to -/

def shifted (p : Parser σ τ π ν α) (token : τ) (next : σ) (stack : Stack (Frame σ ν)) :
    Parser σ τ π ν α :=
  { p with
    stack
    stats := { p.stats with shifts := p.stats.shifts + 1 }
    journal := .shift token next :: p.journal }

def reduced (p : Parser σ τ π ν α) (production : π) (result : Reduced ν α) (next : σ)
    (stack : Stack (Frame σ ν)) : Parser σ τ π ν α :=
  { p with
    stack
    actions := result.actions
    stats := { p.stats with reductions := p.stats.reductions + 1 }
    journal := .goto next ::
      ((result.notes.map Event.note).reverse ++ .reduce production :: p.journal) }

def overflowed (sem : Semantics π ν α) (p : Parser σ τ π ν α) : Parser σ τ π ν α :=
  { p with
    actions := sem.onOverflow p.actions
    lastError := some (.overflow p.capacity)
    status := .errored (.overflow p.capacity)
    journal := .overflow p.capacity :: p.journal }

/-! ## Queries and updates of a parser with a known layout -/

section

variable {p : Parser σ τ π ν α} {l : Layout (Frame σ ν)}

theorem topState_eq (hp : p.stack = l.stack) {top : Frame σ ν}
    (htop : l.frames.getLast? = some top) : p.topState = .ok top.state := by
  simp only [topState, hp, l.top?_stack, htop]

theorem topState_ne_ok (hp : p.stack = l.stack) (htop : l.frames.getLast? = none) :
    p.topState = p.halt .emptyStack := by
  simp only [topState, hp, l.top?_stack, htop]

theorem push_eq (hp : p.stack = l.stack) (sem : Semantics π ν α) (state : σ) (value : ν) :
    p.push sem state value =
      if 0 < l.free then ({ p with stack := (l.push ⟨state, value⟩).stack }, true)
      else (p.overflowed sem, false) := by
  unfold push
  rw [hp, l.push?_stack]
  by_cases h : 0 < l.free
  · rw [if_pos h, if_pos h]
  · rw [if_neg h, if_neg h]; rfl

theorem filterMap_getElem?_range {β : Type} (xs : List β) :
    (List.range xs.length).filterMap (fun i => xs[i]?) = xs := by
  induction xs with
  | nil => rfl
  | cons x xs ih =>
    rw [List.length_cons, List.range_succ_eq_map, List.filterMap_cons_some (by rfl),
      List.filterMap_map]
    exact congrArg (x :: ·) ih

/-- The arguments that a production of the given arity finds on these frames. -/
def arguments (frames : List (Frame σ ν)) (arity : Nat) : Args ν :=
  ⟨arity, frames.length,
    if arity ≤ frames.length then (frames.drop (frames.length - arity)).map Frame.value else []⟩

theorem arguments_of_le {frames : List (Frame σ ν)} {arity : Nat} (h : arity ≤ frames.length) :
    arguments frames arity = ⟨arity, frames.length,
      (frames.drop (frames.length - arity)).map Frame.value⟩ := by
  unfold arguments
  rw [if_pos h]

theorem args_eq (hp : p.stack = l.stack) (arity : Nat) :
    p.args arity = arguments l.frames arity := by
  simp only [args, arguments, hp, l.size_stack]
  congr 1
  by_cases h : arity ≤ l.frames.length
  · have hlen : (l.frames.drop (l.frames.length - arity)).length = arity := by
      rw [List.length_drop]
      omega
    rw [if_pos h, if_pos h, ← filterMap_getElem?_range (l.frames.drop (l.frames.length - arity)),
      hlen, List.map_filterMap]
    apply List.filterMap_congr
    intro i hi
    rw [l.arg?_stack, if_pos ⟨List.mem_range.mp hi, h⟩, List.getElem?_drop]
  · rw [if_neg h, if_neg h]
    rfl

theorem pop?_eq (hp : p.stack = l.stack) (arity : Nat) :
    p.stack.pop? arity =
      if arity ≤ l.frames.length then some ((l.drop arity).stack, l.pending.reverse.take arity)
      else none := by
  unfold Stack.pop?
  rw [hp, l.size_stack, l.drop_stack]

end

/-! ## The effects -/

/-- A reduction that finds its arguments and its goto entry. -/
structure Reduces (table : Table σ τ π) (sem : Semantics π ν α) (l : Layout (Frame σ ν))
    (actions : α) (production : π) (result : Reduced ν α) (next : σ) : Prop where
  arity_le : table.arity production ≤ l.frames.length
  acts : sem.reduce production
    ⟨table.arity production, l.frames.length,
      (l.frames.drop (l.frames.length - table.arity production)).map Frame.value⟩
    actions = .ok result
  goes : ∃ under, (l.drop (table.arity production)).frames.getLast? = some under ∧
    table.entry under.state (table.lhs production) = .goto next

/-- What a step makes of a parser whose stack has the first layout: the parser and its layout
afterwards, and the fate of the token if it has met it. -/
inductive Effect (table : Table σ τ π) (sem : Semantics π ν α) (token : τ) (value : ν) :
    Layout (Frame σ ν) → Parser σ τ π ν α → Layout (Frame σ ν) → Parser σ τ π ν α →
      Option Fate → Prop
  | shift {l p top next} (htop : l.frames.getLast? = some top)
      (hentry : table.entry top.state token = .shift next) (hroom : 0 < l.free) :
      Effect table sem token value l p (l.push ⟨next, value⟩)
        (p.shifted token next (l.push ⟨next, value⟩).stack) (some .shifted)
  | shiftFull {l p top next} (htop : l.frames.getLast? = some top)
      (hentry : table.entry top.state token = .shift next) (hfull : ¬ 0 < l.free) :
      Effect table sem token value l p l ((p.record (.shift token next)).overflowed sem)
        (some .overflowed)
  | reduce {l p top production result next} (htop : l.frames.getLast? = some top)
      (hentry : table.entry top.state token = .reduce production)
      (hreduces : Reduces table sem l p.actions production result next)
      (hroom : 0 < (l.drop (table.arity production)).free) :
      Effect table sem token value l p
        ((l.drop (table.arity production)).push ⟨next, result.value⟩)
        (p.reduced production result next
          ((l.drop (table.arity production)).push ⟨next, result.value⟩).stack) none
  | reduceFull {l p top production result next} (htop : l.frames.getLast? = some top)
      (hentry : table.entry top.state token = .reduce production)
      (hreduces : Reduces table sem l p.actions production result next)
      (hfull : ¬ 0 < (l.drop (table.arity production)).free) :
      Effect table sem token value l p (l.drop (table.arity production))
        ((p.reduced production result next (l.drop (table.arity production)).stack).overflowed sem)
        (some .overflowed)
  | accept {l p top} (htop : l.frames.getLast? = some top)
      (hentry : table.entry top.state token = .accept) :
      Effect table sem token value l p l
        { p.record .accept with status := .accepted top.value } (some .accepted)
  | reject {l p top} (htop : l.frames.getLast? = some top)
      (hentry : table.entry top.state token = .error) :
      Effect table sem token value l p l p (some .rejected)

variable {table : Table σ τ π} {sem : Semantics π ν α} {token : τ} {value : ν} {limit : Nat}
  {p : Parser σ τ π ν α} {l : Layout (Frame σ ν)}

theorem Reduces.reduce_eq (hp : p.stack = l.stack) {production : π} {result : Reduced ν α}
    {next : σ} (h : Reduces table sem l p.actions production result next) :
    p.reduce table sem production =
      .ok (if 0 < (l.drop (table.arity production)).free then
          (p.reduced production result next
            ((l.drop (table.arity production)).push ⟨next, result.value⟩).stack, true)
        else ((p.reduced production result next
          (l.drop (table.arity production)).stack).overflowed sem, false)) := by
  obtain ⟨under, hunder, hgoto⟩ := h.goes
  have hargs := args_eq (p := p.record (.reduce production)) (l := l) hp
    (table.arity production)
  rw [arguments_of_le h.arity_le] at hargs
  rw [reduce, hargs]
  simp only [record, h.acts, pop?_eq hp, if_pos h.arity_le]
  rw [topState_eq rfl hunder]
  simp only [bind, Except.bind, hgoto]
  rw [push_eq rfl]
  rfl

theorem Effect.step_eq (hp : p.stack = l.stack) {l' : Layout (Frame σ ν)} {q : Parser σ τ π ν α}
    {fate : Option Fate} (h : Effect table sem token value l p l' q fate) :
    p.step table sem token value = .ok (q, fate) := by
  cases h with
  | shift htop hentry hroom =>
    unfold step
    rw [topState_eq hp htop]
    simp only [bind, Except.bind, hentry]
    rw [push_eq (p := p.record _) hp, if_pos hroom]
    rfl
  | shiftFull htop hentry hfull =>
    unfold step
    rw [topState_eq hp htop]
    simp only [bind, Except.bind, hentry]
    rw [push_eq (p := p.record _) hp, if_neg hfull]
    rfl
  | reduce htop hentry hreduces hroom =>
    unfold step
    rw [topState_eq hp htop]
    simp only [bind, Except.bind, hentry]
    rw [hreduces.reduce_eq hp, if_pos hroom]
    rfl
  | reduceFull htop hentry hreduces hfull =>
    unfold step
    rw [topState_eq hp htop]
    simp only [bind, Except.bind, hentry]
    rw [hreduces.reduce_eq hp, if_neg hfull]
    rfl
  | accept htop hentry =>
    have hpos : 1 ≤ l.frames.length := by
      cases hf : l.frames with
      | nil => simp [hf] at htop
      | cons f fs => simp
    unfold step
    rw [topState_eq hp htop]
    simp only [bind, Except.bind, hentry, record, hp, l.arg?_stack]
    rw [if_pos ⟨Nat.one_pos, hpos⟩, Nat.add_zero, ← List.getLast?_eq_getElem?, htop]
    rfl
  | reject htop hentry =>
    unfold step
    rw [topState_eq hp htop]
    simp only [bind, Except.bind, hentry]
    rfl

/-! ## The breaches -/

/-- Why a step comes to nothing: what is missing from the layout, the table or the actions. -/
inductive Stuck (table : Table σ τ π) (sem : Semantics π ν α) (token : τ) (l : Layout (Frame σ ν))
    (actions : α) : Breach → Prop
  | empty (htop : l.frames.getLast? = none) : Stuck table sem token l actions .emptyStack
  | goto {top next} (htop : l.frames.getLast? = some top)
      (hentry : table.entry top.state token = .goto next) :
      Stuck table sem token l actions
        (.gotoUnderToken (table.tokenLabel token) (table.stateIndex top.state))
  | acts {top production breach} (htop : l.frames.getLast? = some top)
      (hentry : table.entry top.state token = .reduce production)
      (hacts : sem.reduce production (arguments l.frames (table.arity production)) actions =
        .error breach) :
      Stuck table sem token l actions breach
  | pop {top production result} (htop : l.frames.getLast? = some top)
      (hentry : table.entry top.state token = .reduce production)
      (hacts : sem.reduce production (arguments l.frames (table.arity production)) actions =
        .ok result)
      (harity : ¬ table.arity production ≤ l.frames.length) :
      Stuck table sem token l actions (.pop (table.arity production) l.frames.length)
  | uncovered {top production result} (htop : l.frames.getLast? = some top)
      (hentry : table.entry top.state token = .reduce production)
      (hacts : sem.reduce production (arguments l.frames (table.arity production)) actions =
        .ok result)
      (harity : table.arity production ≤ l.frames.length)
      (hunder : (l.drop (table.arity production)).frames.getLast? = none) :
      Stuck table sem token l actions .emptyStack
  | noGoto {top production result under} (htop : l.frames.getLast? = some top)
      (hentry : table.entry top.state token = .reduce production)
      (hacts : sem.reduce production (arguments l.frames (table.arity production)) actions =
        .ok result)
      (harity : table.arity production ≤ l.frames.length)
      (hunder : (l.drop (table.arity production)).frames.getLast? = some under)
      (hgoto : ∀ next, table.entry under.state (table.lhs production) ≠ .goto next) :
      Stuck table sem token l actions
        (.missingGoto (table.tokenLabel (table.lhs production)) (table.stateIndex under.state))

theorem step_of_reduce_error (hp : p.stack = l.stack) {top : Frame σ ν} {production : π}
    {breach : Breach} (htop : l.frames.getLast? = some top)
    (hentry : table.entry top.state token = .reduce production)
    (h : ∃ journal, p.reduce table sem production = .error ⟨.breach breach, journal⟩) :
    ∃ journal, p.step table sem token value = .error ⟨.breach breach, journal⟩ := by
  obtain ⟨journal, h⟩ := h
  refine ⟨journal, ?_⟩
  unfold step
  rw [topState_eq hp htop]
  simp only [bind, Except.bind, hentry, h]

theorem Stuck.step_eq (hp : p.stack = l.stack) {breach : Breach}
    (h : Stuck table sem token l p.actions breach) :
    ∃ journal, p.step table sem token value = .error ⟨.breach breach, journal⟩ := by
  have hargs (production : π) : (p.record (.reduce production)).args (table.arity production) =
      arguments l.frames (table.arity production) := args_eq hp _
  cases h with
  | empty htop =>
    unfold step
    rw [topState_ne_ok hp htop]
    exact ⟨_, rfl⟩
  | goto htop hentry =>
    unfold step
    rw [topState_eq hp htop]
    simp only [bind, Except.bind, hentry]
    exact ⟨_, rfl⟩
  | acts htop hentry hacts =>
    apply step_of_reduce_error hp htop hentry
    rw [reduce, hargs]
    simp only [record, hacts]
    exact ⟨_, rfl⟩
  | pop htop hentry hacts harity =>
    apply step_of_reduce_error hp htop hentry
    rw [reduce, hargs]
    simp only [record, hacts, pop?_eq hp, if_neg harity]
    rw [hp, l.size_stack]
    exact ⟨_, rfl⟩
  | uncovered htop hentry hacts harity hunder =>
    apply step_of_reduce_error hp htop hentry
    rw [reduce, hargs]
    simp only [record, hacts, pop?_eq hp, if_pos harity]
    rw [topState_ne_ok rfl hunder]
    exact ⟨_, rfl⟩
  | noGoto htop hentry hacts harity hunder hgoto =>
    apply step_of_reduce_error hp htop hentry
    rw [reduce, hargs]
    simp only [record, hacts, pop?_eq hp, if_pos harity]
    rw [topState_eq rfl hunder]
    simp only [bind, Except.bind]
    exact ⟨_, rfl⟩

/-! ## Every step -/

theorem step_cases (table : Table σ τ π) (sem : Semantics π ν α) (token : τ) (value : ν)
    (hp : p.stack = l.stack) :
    (∃ l' q fate, Effect table sem token value l p l' q fate ∧ q.stack = l'.stack) ∨
      ∃ breach, Stuck table sem token l p.actions breach := by
  cases htop : l.frames.getLast? with
  | none => exact .inr ⟨_, .empty htop⟩
  | some top =>
    cases hentry : table.entry top.state token with
    | error => exact .inl ⟨_, _, _, .reject htop hentry, hp⟩
    | accept => exact .inl ⟨_, _, _, .accept htop hentry, hp⟩
    | goto next => exact .inr ⟨_, .goto htop hentry⟩
    | shift next =>
      by_cases hroom : 0 < l.free
      · exact .inl ⟨_, _, _, .shift htop hentry hroom, rfl⟩
      · exact .inl ⟨_, _, _, .shiftFull htop hentry hroom, hp⟩
    | reduce production =>
      cases hacts : sem.reduce production (arguments l.frames (table.arity production))
        p.actions with
      | error breach => exact .inr ⟨_, .acts htop hentry hacts⟩
      | ok result =>
        by_cases harity : table.arity production ≤ l.frames.length
        · cases hunder : (l.drop (table.arity production)).frames.getLast? with
          | none => exact .inr ⟨_, .uncovered htop hentry hacts harity hunder⟩
          | some under =>
            by_cases hgoto : ∃ next, table.entry under.state (table.lhs production) = .goto next
            · obtain ⟨next, hgoto⟩ := hgoto
              rw [arguments_of_le harity] at hacts
              have hreduces : Reduces table sem l p.actions production result next :=
                ⟨harity, hacts, under, hunder, hgoto⟩
              by_cases hroom : 0 < (l.drop (table.arity production)).free
              · exact .inl ⟨_, _, _, .reduce htop hentry hreduces hroom, rfl⟩
              · exact .inl ⟨_, _, _, .reduceFull htop hentry hreduces hroom, rfl⟩
            · exact .inr ⟨_, .noGoto htop hentry hacts harity hunder (not_exists.mp hgoto)⟩
        · exact .inr ⟨_, .pop htop hentry hacts harity⟩

/-- Whatever a step comes to, if it is not a breach, is one of the effects. -/
theorem step_effect (hp : p.stack = l.stack) {q : Parser σ τ π ν α} {fate : Option Fate}
    (h : p.step table sem token value = .ok (q, fate)) :
    ∃ l', q.stack = l'.stack ∧ Effect table sem token value l p l' q fate := by
  rcases step_cases table sem token value hp with
    ⟨l', q', fate', heffect, hstack⟩ | ⟨breach, hstuck⟩
  · rw [heffect.step_eq hp] at h
    cases h
    exact ⟨l', hstack, heffect⟩
  · obtain ⟨journal, hstep⟩ : ∃ journal, p.step table sem token value =
        .error ⟨.breach breach, journal⟩ := hstuck.step_eq hp
    rw [hstep] at h
    cases h

end Parser

end ShiftReduce
