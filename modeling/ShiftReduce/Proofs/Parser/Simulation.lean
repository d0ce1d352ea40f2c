import ShiftReduce.Proofs.Parser.Reachable

/-!
# Runs that mirror one another

Nothing that decides the course of a run reads a value, and the number of empty slots is read only
where a frame finds none. So two parsers stay alike, step by step, if their frames have the same
states, a morphism of their semantics relates their values and their actions, and the second one has
some slots to spare: up to the first frame that only the second one has room for.
-/

namespace ShiftReduce

variable {σ τ π ν ν' α α' : Type}

/-! ## Images of layouts -/

namespace Layout

variable {β γ : Type} {f : β → γ} {extra : Nat}

/-- Every frame replaced, and `extra` more slots left empty. -/
def image (f : β → γ) (extra : Nat) (l : Layout β) : Layout γ :=
  ⟨l.kept.map f, l.hidden.map f, l.free + extra, l.pending.map f⟩

@[simp] theorem frames_image (l : Layout β) : (l.image f extra).frames = l.frames.map f := by
  simp [image, frames]

@[simp] theorem capacity_image (l : Layout β) :
    (l.image f extra).capacity = l.capacity + extra := by
  simp only [image, capacity, List.length_map]
  omega

theorem image_settled (frames : List β) (free : Nat) :
    (settled frames free).image f extra = settled (frames.map f) (free + extra) := rfl

theorem image_push {l : Layout β} (h : 0 < l.free) (b : β) :
    (l.push b).image f extra = (l.image f extra).push (f b) := by
  have hfree : l.free - 1 + extra = l.free + extra - 1 := by omega
  simp [image, push, hfree]

theorem image_drop (l : Layout β) (n : Nat) :
    (l.drop n).image f extra = (l.image f extra).drop n := by
  simp [image, drop, List.map_take, List.map_drop]
  omega

theorem image_commit (l : Layout β) : l.commit.image f extra = (l.image f extra).commit := by
  have hfree : l.free + l.hidden.length + extra = l.free + extra + l.hidden.length := by omega
  simp [image, commit, settled, frames, hfree]

theorem image_rollback (l : Layout β) :
    l.rollback.image f extra = (l.image f extra).rollback := by
  have hfree : l.free + l.pending.length + extra = l.free + extra + l.pending.length := by omega
  simp [image, rollback, settled, committed, hfree]

end Layout

/-! ## Morphisms of semantics -/

def Args.map (f : ν → ν') (args : Args ν) : Args ν' :=
  ⟨args.arity, args.depth, args.values.map f⟩

/-- A passage from one meaning of the productions to another that reductions and hooks respect. What
reductions remark may differ. -/
structure Semantics.Morphism (sem : Semantics π ν α) (sem' : Semantics π ν' α') where
  value : ν → ν'
  actions : α → α'
  blank_eq : sem'.blank = value sem.blank
  reduce_ok {production : π} {args : Args ν} {state : α} {result : Reduced ν α} :
    sem.reduce production args state = .ok result →
      ∃ notes, sem'.reduce production (args.map value) (actions state) =
        .ok ⟨value result.value, actions result.actions, notes⟩
  onSyntaxError_eq (state : α) :
    sem'.onSyntaxError (actions state) = actions (sem.onSyntaxError state)
  onOverflow_eq (state : α) : sem'.onOverflow (actions state) = actions (sem.onOverflow state)

namespace Semantics.Morphism

variable {sem : Semantics π ν α} {sem' : Semantics π ν' α'}

def frame (m : sem.Morphism sem') (f : Frame σ ν) : Frame σ ν' := ⟨f.state, m.value f.value⟩

/-- Breaches of the first meaning are breaches of the second, too. -/
def Faithful (m : sem.Morphism sem') : Prop :=
  ∀ production args state breach, sem.reduce production args state = .error breach →
    sem'.reduce production (args.map m.value) (m.actions state) = .error breach

end Semantics.Morphism

def Status.map (f : ν → ν') : Status ν → Status ν'
  | .running => .running
  | .accepted value => .accepted (f value)
  | .errored error => .errored error

/-! ## Results that mirror one another -/

/-- The second result is related to the first one, unless that is excused. Where `strict` holds, a
run that halts is mirrored by one that halts for the same cause. -/
inductive Mirrored {β γ : Type} (strict : Prop) (excused : β → Prop) (related : β → γ → Prop) :
    Except (Halted σ τ π ν) β → Except (Halted σ τ π ν') γ → Prop
  | ok {b : β} {c : γ} (h : related b c) : Mirrored strict excused related (.ok b) (.ok c)
  | excused {b : β} {y : Except (Halted σ τ π ν') γ} (h : excused b) :
      Mirrored strict excused related (.ok b) y
  | halted {halted : Halted σ τ π ν} {y : Except (Halted σ τ π ν') γ}
      (h : strict → ∃ halted', y = .error halted' ∧ halted'.cause = halted.cause) :
      Mirrored strict excused related (.error halted) y

theorem Mirrored.bind {β γ β' γ' : Type} {strict : Prop} {excused : β → Prop}
    {related : β → γ → Prop} {excused' : β' → Prop} {related' : β' → γ' → Prop}
    {x : Except (Halted σ τ π ν) β} {y : Except (Halted σ τ π ν') γ}
    {f : β → Except (Halted σ τ π ν) β'} {g : γ → Except (Halted σ τ π ν') γ'}
    (h : Mirrored strict excused related x y)
    (hrelated : ∀ b c, related b c → Mirrored strict excused' related' (f b) (g c))
    (hexcused : ∀ b, excused b → ∃ b', f b = .ok b' ∧ excused' b') :
    Mirrored strict excused' related' (x >>= f) (y >>= g) := by
  cases h with
  | ok h => exact hrelated _ _ h
  | excused h =>
    obtain ⟨b', hb', h⟩ := hexcused _ h
    change Mirrored strict excused' related' (f _) _
    rw [hb']
    exact .excused h
  | halted h =>
    apply Mirrored.halted
    intro hstrict
    obtain ⟨halted', rfl, hcause⟩ := h hstrict
    exact ⟨halted', rfl, hcause⟩

namespace Parser

def isOverflowed (p : Parser σ τ π ν α) : Bool :=
  match p.status with
  | .errored (.overflow _) => true
  | _ => false

/-- The run has ended for want of a slot, where another had `extra` more of them. -/
def Outgrown (extra : Nat) (p : Parser σ τ π ν α) : Prop := 0 < extra ∧ p.isOverflowed = true

variable {table : Table σ τ π} {sem : Semantics π ν α} {sem' : Semantics π ν' α'}
  {m : sem.Morphism sem'} {extra : Nat} {token : τ} {value : ν} {limit limit' : Nat}
  {p q : Parser σ τ π ν α} {p' q' : Parser σ τ π ν' α'} {l : Layout (Frame σ ν)}

/-- The second parser is the first one with its values replaced and with `extra` more empty slots.
What they have written down may differ. -/
structure Mirrors (m : sem.Morphism sem') (extra : Nat) (p : Parser σ τ π ν α)
    (p' : Parser σ τ π ν' α') : Prop where
  stack_eq : ∃ l : Layout (Frame σ ν), p.stack = l.stack ∧ p'.stack = (l.image m.frame extra).stack
  actions_eq : p'.actions = m.actions p.actions
  status_eq : p'.status = p.status.map m.value
  lastError_eq : p'.lastError = p.lastError
  stats_eq : p'.stats = p.stats

/-! ## Steps -/

theorem getLast?_image {top : Frame σ ν} (h : l.frames.getLast? = some top) :
    (l.image m.frame extra).frames.getLast? = some (m.frame top) := by
  rw [Layout.frames_image, List.getLast?_map, h]
  rfl

theorem getLast?_image_none (h : l.frames.getLast? = none) :
    (l.image m.frame extra).frames.getLast? = none := by
  rw [Layout.frames_image, List.getLast?_map, h]
  rfl

theorem arguments_image (frames : List (Frame σ ν)) (arity : Nat) :
    arguments (frames.map m.frame) arity = (arguments frames arity).map m.value := by
  unfold arguments
  rw [List.length_map, ← List.map_drop]
  by_cases h : arity ≤ frames.length
  · rw [if_pos h, if_pos h]
    simp only [Args.map, List.map_map]
    rfl
  · rw [if_neg h, if_neg h]
    rfl

theorem Reduces.image (m : sem.Morphism sem') (extra : Nat) {actions : α} {production : π}
    {result : Reduced ν α} {next : σ} (h : Reduces table sem l actions production result next) :
    ∃ notes, Reduces table sem' (l.image m.frame extra) (m.actions actions) production
      ⟨m.value result.value, m.actions result.actions, notes⟩ next := by
  obtain ⟨harity, hacts, under, hunder, hgoto⟩ := h
  have harity' : table.arity production ≤ (l.image m.frame extra).frames.length := by
    rwa [Layout.frames_image, List.length_map]
  rw [← arguments_of_le harity] at hacts
  obtain ⟨notes, hacts'⟩ := m.reduce_ok hacts
  refine ⟨notes, harity', ?_, m.frame under, ?_, hgoto⟩
  · rw [← arguments_of_le harity', Layout.frames_image, arguments_image]
    exact hacts'
  · rw [← Layout.image_drop]
    exact getLast?_image hunder

theorem image_push_frame (m : sem.Morphism sem') (extra : Nat) (hroom : 0 < l.free) (next : σ)
    (value : ν) :
    (l.push ⟨next, value⟩).image m.frame extra =
      (l.image m.frame extra).push ⟨next, m.value value⟩ :=
  Layout.image_push hroom _

theorem capacity_eq_of_image (hp : p.stack = l.stack)
    (hp' : p'.stack = (l.image m.frame extra).stack) (hextra : ¬ 0 < extra) :
    p'.capacity = p.capacity := by
  unfold capacity
  rw [hp, hp', Layout.capacity_stack, Layout.capacity_stack, Layout.capacity_image]
  omega

theorem Mirrors.overflowed (h : Mirrors m extra p p') (hextra : ¬ 0 < extra) :
    Mirrors m extra (p.overflowed sem) (p'.overflowed sem') := by
  obtain ⟨l, hp, hp'⟩ := h.stack_eq
  have hcapacity := capacity_eq_of_image hp hp' hextra
  refine ⟨⟨l, hp, hp'⟩, ?_, ?_, ?_, h.stats_eq⟩
  · exact (congrArg sem'.onOverflow h.actions_eq).trans (m.onOverflow_eq p.actions)
  · simp only [Parser.overflowed, hcapacity, Status.map]
  · simp only [Parser.overflowed, hcapacity]

theorem Mirrors.shifted {next : σ} (h : Mirrors m extra p p') :
    Mirrors m extra (p.shifted token next l.stack)
      (p'.shifted token next (l.image m.frame extra).stack) := by
  refine ⟨⟨l, rfl, rfl⟩, h.actions_eq, h.status_eq, h.lastError_eq, ?_⟩
  simp only [Parser.shifted, h.stats_eq]

theorem Mirrors.reduced {production : π} {result : Reduced ν α} {notes : List String} {next : σ}
    (h : Mirrors m extra p p') :
    Mirrors m extra (p.reduced production result next l.stack)
      (p'.reduced production ⟨m.value result.value, m.actions result.actions, notes⟩ next
        (l.image m.frame extra).stack) := by
  refine ⟨⟨l, rfl, rfl⟩, rfl, h.status_eq, h.lastError_eq, ?_⟩
  simp only [Parser.reduced, h.stats_eq]

theorem Mirrors.record (h : Mirrors m extra p p') (event : Event σ τ π ν)
    (event' : Event σ τ π ν') : Mirrors m extra (p.record event) (p'.record event') :=
  ⟨h.stack_eq, h.actions_eq, h.status_eq, h.lastError_eq, h.stats_eq⟩

/-- What a parser does its mirror does, too, unless it finds a slot where the first one does not. -/
theorem Effect.image {l' : Layout (Frame σ ν)} {fate : Option Fate}
    (h : Effect table sem token value l p l' q fate) (hp : p.stack = l.stack)
    (hp' : p'.stack = (l.image m.frame extra).stack) (hm : Mirrors m extra p p') :
    (Outgrown extra q ∧ fate = some .overflowed) ∨
      ∃ q', Effect table sem' token (m.value value) (l.image m.frame extra) p'
        (l'.image m.frame extra) q' fate ∧ Mirrors m extra q q' := by
  -- Where the layout has room its image has, too; where it has none, it matters if there is extra.
  cases h with
  | @shift top next htop hentry hroom =>
    have hroom' : 0 < (l.image m.frame extra).free := Nat.add_pos_left hroom extra
    have hpush := image_push_frame m extra hroom next value
    have heffect : Effect table sem' token (m.value value) (l.image m.frame extra) p' _ _ _ :=
      .shift (getLast?_image htop) hentry hroom'
    rw [← hpush] at heffect
    exact .inr ⟨_, heffect, hm.shifted⟩
  | @shiftFull top next htop hentry hfull =>
    by_cases hextra : 0 < extra
    · exact .inl ⟨⟨hextra, rfl⟩, rfl⟩
    · have hfull' : ¬ 0 < (l.image m.frame extra).free := by
        simp only [Layout.image]
        omega
      exact .inr ⟨_, .shiftFull (getLast?_image htop) hentry hfull',
        (hm.record _ _).overflowed hextra⟩
  | @reduce top production result next htop hentry hreduces hroom =>
    obtain ⟨notes, hreduces'⟩ := hreduces.image m extra
    have hroom' : 0 < ((l.drop (table.arity production)).image m.frame extra).free :=
      Nat.add_pos_left hroom extra
    have hpush := image_push_frame m extra hroom next result.value
    rw [← hm.actions_eq] at hreduces'
    rw [Layout.image_drop] at hroom' hpush
    have heffect : Effect table sem' token (m.value value) (l.image m.frame extra) p' _ _ _ :=
      .reduce (getLast?_image htop) hentry hreduces' hroom'
    rw [← hpush] at heffect
    exact .inr ⟨_, heffect, hm.reduced⟩
  | @reduceFull top production result next htop hentry hreduces hfull =>
    by_cases hextra : 0 < extra
    · exact .inl ⟨⟨hextra, rfl⟩, rfl⟩
    · obtain ⟨notes, hreduces'⟩ := hreduces.image m extra
      have hfull' : ¬ 0 < ((l.drop (table.arity production)).image m.frame extra).free := by
        simp only [Layout.image]
        omega
      rw [← hm.actions_eq] at hreduces'
      rw [Layout.image_drop] at hfull'
      have heffect : Effect table sem' token (m.value value) (l.image m.frame extra) p' _ _ _ :=
        .reduceFull (getLast?_image htop) hentry hreduces' hfull'
      rw [← Layout.image_drop] at heffect
      exact .inr ⟨_, heffect, hm.reduced.overflowed hextra⟩
  | @accept top htop hentry =>
    refine .inr ⟨_, .accept (getLast?_image htop) hentry, ?_⟩
    exact ⟨⟨l, hp, hp'⟩, hm.actions_eq, rfl, hm.lastError_eq, hm.stats_eq⟩
  | @reject top htop hentry => exact .inr ⟨_, .reject (getLast?_image htop) hentry, hm⟩

theorem Stuck.image (hm : m.Faithful) (extra : Nat) {actions : α} {breach : Breach}
    (h : Stuck table sem token l actions breach) :
    Stuck table sem' token (l.image m.frame extra) (m.actions actions) breach := by
  have hlength : (l.image m.frame extra).frames.length = l.frames.length := by
    rw [Layout.frames_image, List.length_map]
  have hargs (production : π) : arguments (l.image m.frame extra).frames (table.arity production) =
      (arguments l.frames (table.arity production)).map m.value := by
    rw [Layout.frames_image, arguments_image]
  cases h with
  | empty htop => exact .empty (getLast?_image_none htop)
  | goto htop hentry => exact .goto (getLast?_image htop) hentry
  | acts htop hentry hacts =>
    refine .acts (getLast?_image htop) hentry ?_
    rw [hargs]
    exact hm _ _ _ _ hacts
  | pop htop hentry hacts harity =>
    obtain ⟨notes, hacts'⟩ := m.reduce_ok hacts
    rw [← hargs] at hacts'
    rw [← hlength] at harity ⊢
    exact .pop (getLast?_image htop) hentry hacts' harity
  | uncovered htop hentry hacts harity hunder =>
    obtain ⟨notes, hacts'⟩ := m.reduce_ok hacts
    rw [← hargs] at hacts'
    rw [← hlength] at harity
    refine .uncovered (getLast?_image htop) hentry hacts' harity ?_
    rw [← Layout.image_drop]
    exact getLast?_image_none hunder
  | @noGoto top production result under htop hentry hacts harity hunder hgoto =>
    obtain ⟨notes, hacts'⟩ := m.reduce_ok hacts
    rw [← hargs] at hacts'
    rw [← hlength] at harity
    have hunder' : ((l.image m.frame extra).drop (table.arity production)).frames.getLast? =
        some (m.frame under) := by
      rw [← Layout.image_drop]
      exact getLast?_image hunder
    have hstuck : Stuck table sem' token (l.image m.frame extra) (m.actions actions)
        (.missingGoto _ (table.stateIndex (m.frame under).state)) :=
      .noGoto (getLast?_image htop) hentry hacts' harity hunder' hgoto
    exact hstuck

theorem Mirrors.step {strict : Prop} (h : Mirrors m extra p p') (hstrict : strict → m.Faithful) :
    Mirrored strict (fun a => Outgrown extra a.1 ∧ a.2 = some .overflowed)
      (fun a a' => Mirrors m extra a.1 a'.1 ∧ a.2 = a'.2)
      (p.step table sem token value) (p'.step table sem' token (m.value value)) := by
  obtain ⟨l, hp, hp'⟩ := h.stack_eq
  rcases step_cases table sem token value hp with ⟨l', q, fate, heffect, -⟩ | ⟨breach, hstuck⟩
  · rw [heffect.step_eq hp]
    rcases heffect.image hp hp' h with hexcused | ⟨q', heffect', hq⟩
    · exact .excused hexcused
    · rw [heffect'.step_eq hp']
      exact .ok ⟨hq, rfl⟩
  · obtain ⟨journal, hstep⟩ : ∃ journal, p.step table sem token value =
        .error ⟨.breach breach, journal⟩ := hstuck.step_eq hp
    rw [hstep]
    apply Mirrored.halted
    intro h₁
    have hstuck' := hstuck.image (hstrict h₁) extra
    rw [← h.actions_eq] at hstuck'
    obtain ⟨journal', hstep'⟩ : ∃ journal', p'.step table sem' token (m.value value) =
        .error ⟨.breach breach, journal'⟩ := hstuck'.step_eq hp'
    exact ⟨_, hstep', rfl⟩

/-! ## Offers -/

/-- Under these conditions the mirror of a run that halts is to halt, too. -/
def Strict (m : sem.Morphism sem') (limit limit' : Nat) : Prop := m.Faithful ∧ limit = limit'

theorem Mirrors.offer {strict : Prop} (h : Mirrors m extra p p') (hlimit : limit ≤ limit')
    (hstrict : strict → Strict m limit limit') :
    Mirrored strict (fun a => Outgrown extra a.1 ∧ a.2 = .overflowed)
      (fun a a' => Mirrors m extra a.1 a'.1 ∧ a.2 = a'.2)
      (p.offer table sem token value limit) (p'.offer table sem' token (m.value value) limit') := by
  induction limit generalizing p p' limit' with
  | zero =>
    apply Mirrored.halted
    intro h₁
    obtain ⟨-, rfl⟩ := hstrict h₁
    exact ⟨_, rfl, rfl⟩
  | succ limit ih =>
    obtain ⟨limit', rfl⟩ : ∃ n, limit' = n + 1 := ⟨limit' - 1, by omega⟩
    have hlimit' : limit ≤ limit' := by omega
    have hstrict' : strict → Strict m limit limit' := by
      intro h₁
      obtain ⟨hfaithful, heq⟩ := hstrict h₁
      exact ⟨hfaithful, by omega⟩
    unfold Parser.offer
    apply (h.step fun h₁ => (hstrict h₁).1).bind
    -- Both offers have used up one step, so the mirror's bound is still the larger one.
    · rintro ⟨q, fate⟩ ⟨q', fate'⟩ ⟨hq, rfl⟩
      cases fate with
      | none => exact ih hq hlimit' hstrict'
      | some fate => exact .ok ⟨hq, rfl⟩
    · rintro ⟨q, fate⟩ ⟨hq, rfl⟩
      exact ⟨_, rfl, hq, rfl⟩

/-! ## Starting over -/

theorem Mirrors.reset (h : Mirrors m extra p p') (table : Table σ τ π) :
    Mirrors m extra (p.reset table sem) (p'.reset table sem') ∨
      Outgrown extra (p.reset table sem) := by
  obtain ⟨l, hp, hp'⟩ := h.stack_eq
  by_cases hroom : 0 < l.capacity
  · have hroom' : 0 < (l.image m.frame extra).capacity := by
      rw [Layout.capacity_image]
      omega
    have hfree : l.capacity + extra - 1 = l.capacity - 1 + extra := by omega
    rw [reset_of_room hp hroom, reset_of_room hp' hroom', m.blank_eq, Layout.capacity_image, hfree]
    exact .inl ⟨⟨_, rfl, rfl⟩, h.actions_eq, rfl, rfl, rfl⟩
  · rw [reset_of_no_room hp (by omega)]
    by_cases hextra : 0 < extra
    · exact .inr ⟨hextra, rfl⟩
    · have hfull' : (l.image m.frame extra).capacity = 0 := by
        rw [Layout.capacity_image]
        omega
      obtain rfl : extra = 0 := by omega
      rw [reset_of_no_room hp' hfull']
      refine .inl (Mirrors.overflowed ?_ hextra)
      exact ⟨⟨.settled [] 0, rfl, rfl⟩, h.actions_eq, rfl, rfl, rfl⟩

theorem Mirrors.create (table : Table σ τ π) (m : sem.Morphism sem') (actions : α)
    (capacity extra : Nat) :
    Mirrors m extra (create table sem actions capacity)
        (create table sem' (m.actions actions) (capacity + extra)) ∨
      Outgrown extra (Parser.create table sem actions capacity) := by
  refine Mirrors.reset ?_ table
  refine ⟨⟨.settled [] capacity, (Layout.stack_settled_nil capacity).symm, ?_⟩, rfl, rfl, rfl, rfl⟩
  rw [Layout.image_settled, List.map_nil, Layout.stack_settled_nil]

/-! ## Posts -/

theorem Mirrors.commit (h : Mirrors m extra p p') : Mirrors m extra p.commit p'.commit := by
  obtain ⟨l, hp, hp'⟩ := h.stack_eq
  refine ⟨⟨l.commit, commit_stack hp, ?_⟩, h.actions_eq, h.status_eq, h.lastError_eq, h.stats_eq⟩
  rw [commit_stack hp', Layout.image_commit]

theorem Mirrors.rollback (h : Mirrors m extra p p') : Mirrors m extra p.rollback p'.rollback := by
  obtain ⟨l, hp, hp'⟩ := h.stack_eq
  refine ⟨⟨l.rollback, rollback_stack hp, ?_⟩, h.actions_eq, h.status_eq, h.lastError_eq,
    h.stats_eq⟩
  rw [rollback_stack hp', Layout.image_rollback]

theorem Mirrors.opened (h : Mirrors m extra p p') (token : τ) :
    Mirrors m extra (p.opened token) (p'.opened token) := by
  refine ⟨h.rollback.stack_eq, h.actions_eq, h.status_eq, h.lastError_eq, ?_⟩
  simp only [Parser.opened, recordStack, Parser.record, h.stats_eq]

theorem Mirrors.reported (h : Mirrors m extra p p') (error : ParseError) :
    Mirrors m extra (p.reported sem error) (p'.reported sem' error) := by
  refine ⟨h.rollback.stack_eq, ?_, h.status_eq, rfl, ?_⟩
  · exact (congrArg sem'.onSyntaxError h.actions_eq).trans (m.onSyntaxError_eq p.actions)
  · simp only [Parser.reported, h.stats_eq]

theorem Mirrors.errored (h : Mirrors m extra p p') (error : ParseError) :
    Mirrors m extra { p with status := .errored error } { p' with status := .errored error } :=
  ⟨h.stack_eq, h.actions_eq, rfl, h.lastError_eq, h.stats_eq⟩

theorem Mirrors.frames_eq (h : Mirrors m extra p p') : p'.frames = p.frames.map m.frame := by
  obtain ⟨l, hp, hp'⟩ := h.stack_eq
  unfold Parser.frames
  rw [hp, hp', Layout.toList_stack, Layout.toList_stack, Layout.frames_image]

theorem Mirrors.isDone_eq (h : Mirrors m extra p p') : p'.isDone = p.isDone := by
  unfold isDone
  rw [h.status_eq]
  cases p.status <;> rfl

theorem Outgrown.isDone_eq (h : Outgrown extra p) : p.isDone = true := by
  have hoverflowed := h.2
  unfold isOverflowed at hoverflowed
  unfold isDone
  split at hoverflowed
  next hstatus => rw [hstatus]
  next => cases hoverflowed

theorem Mirrors.unwindDepth_eq (h : Mirrors m extra p p') (table : Table σ τ π) (errorToken : τ) :
    p'.unwindDepth table errorToken = p.unwindDepth table errorToken := by
  unfold unwindDepth
  rw [h.frames_eq, ← List.map_reverse, List.takeWhile_map, List.length_map]
  rfl

theorem Mirrors.rejection {strict : Prop} (h : Mirrors m extra p p') :
    Mirrored strict (fun _ => False) (fun error error' => error = error')
      (p.rejection table token) (p'.rejection table token) := by
  obtain ⟨l, hp, hp'⟩ := h.stack_eq
  unfold Parser.rejection
  cases htop : l.frames.getLast? with
  | none =>
    rw [topState_ne_ok hp htop, topState_ne_ok hp' (getLast?_image_none htop)]
    apply Mirrored.halted
    intro _
    exact ⟨_, rfl, rfl⟩
  | some top =>
    rw [topState_eq hp htop, topState_eq hp' (getLast?_image htop)]
    exact .ok rfl

theorem Mirrors.unwound (h : Mirrors m extra p p') (count : Nat) (frame : Frame σ ν)
    (frame' : Frame σ ν') : Mirrors m extra (p.unwound count frame) (p'.unwound count frame') := by
  obtain ⟨l, hp, hp'⟩ := h.stack_eq
  refine ⟨⟨l.drop count, unwound_stack hp count frame, ?_⟩, h.actions_eq, h.status_eq,
    h.lastError_eq, h.stats_eq⟩
  rw [unwound_stack hp', Layout.image_drop]

theorem Mirrors.top?_eq (h : Mirrors m extra p p') (count : Nat) :
    (p'.stack.drop count).1.top? = (p.stack.drop count).1.top?.map m.frame := by
  obtain ⟨l, hp, hp'⟩ := h.stack_eq
  rw [hp, hp', Layout.drop_stack, Layout.drop_stack, Layout.top?_stack, Layout.top?_stack,
    ← Layout.image_drop, Layout.frames_image, List.getLast?_map]

theorem Mirrors.recover (h : Mirrors m extra p p') (hlimit : limit ≤ limit') (errorToken : τ) :
    Mirrored (Strict m limit limit') (fun a => Outgrown extra a.1)
      (fun a a' => Mirrors m extra a.1 a'.1 ∧ a.2 = a'.2)
      (p.recover table sem limit errorToken) (p'.recover table sem' limit' errorToken) := by
  have hdepth := h.unwindDepth_eq table errorToken
  have htop' := h.top?_eq (p'.unwindDepth table errorToken)
  rw [hdepth] at htop'
  cases htop : (p.stack.drop (p.unwindDepth table errorToken)).1.top? with
  | none =>
    rw [htop, ← hdepth] at htop'
    rw [recover_of_none htop, recover_of_none htop']
    exact .ok ⟨h.record _ _, rfl⟩
  | some frame =>
    rw [htop, ← hdepth] at htop'
    rw [recover_of_some htop, recover_of_some htop', m.blank_eq, hdepth]
    apply ((h.unwound _ _ _).offer hlimit id).bind
    · rintro ⟨q, fate⟩ ⟨q', fate'⟩ ⟨hq, hfate⟩
      obtain rfl : fate = fate' := hfate
      cases fate with
      | shifted | accepted =>
        refine .ok ⟨⟨hq.commit.stack_eq, hq.actions_eq, hq.status_eq, hq.lastError_eq, ?_⟩, rfl⟩
        exact congrArg (fun s : Stats => { s with recoveries := s.recoveries + 1 }) hq.stats_eq
      | rejected | overflowed => exact .ok ⟨hq.rollback, rfl⟩
    · rintro ⟨q, fate⟩ ⟨hq, rfl⟩
      exact ⟨_, rfl, hq⟩

variable [DecidableEq τ]

theorem Mirrors.retry (h : Mirrors m extra p p') (hlimit : limit ≤ limit') :
    Mirrored (Strict m limit limit') (Outgrown extra) (Mirrors m extra)
      (p.retry table sem limit token value) (p'.retry table sem' limit' token (m.value value)) := by
  unfold Parser.retry
  apply (h.offer hlimit id).bind
  · rintro ⟨q, fate⟩ ⟨q', fate'⟩ ⟨hq, hfate⟩
    obtain rfl : fate = fate' := hfate
    cases fate with
    | shifted | accepted => exact .ok hq.commit
    | overflowed => exact .ok hq.rollback
    | rejected =>
      simp only
      split
      next htoken =>
        apply hq.rollback.rejection.bind
        · rintro error _ rfl
          have hstack := hq.rollback.stack_eq
          exact .ok ⟨hstack, hq.actions_eq, rfl, rfl, hq.stats_eq⟩
        · rintro _ ⟨⟩
      next htoken =>
        refine .ok ⟨hq.rollback.stack_eq, hq.actions_eq, hq.status_eq, hq.lastError_eq, ?_⟩
        exact congrArg (fun s : Stats => { s with discarded := s.discarded + 1 }) hq.stats_eq
  · rintro ⟨q, fate⟩ ⟨hq, rfl⟩
    exact ⟨_, rfl, hq⟩

theorem Mirrors.reject (h : Mirrors m extra p p') (hlimit : limit ≤ limit') :
    Mirrored (Strict m limit limit') (Outgrown extra) (Mirrors m extra)
      (p.reject table sem limit token value)
      (p'.reject table sem' limit' token (m.value value)) := by
  rw [reject_eq, reject_eq]
  apply h.rollback.rejection.bind
  · rintro error _ rfl
    have hreported := h.reported error
    refine Mirrored.bind (?_ : Mirrored (Strict m limit limit') (fun a => Outgrown extra a.1)
      (fun a a' => Mirrors m extra a.1 a'.1 ∧ a.2 = a'.2) _ _) ?_ ?_
    · cases table.errorToken with
      | none => exact .ok ⟨hreported, rfl⟩
      | some errorToken => exact hreported.recover hlimit errorToken
    · rintro ⟨q, recovered⟩ ⟨q', recovered'⟩ ⟨hq, hrecovered⟩
      obtain rfl : recovered = recovered' := hrecovered
      simp only at hq ⊢
      rw [hq.isDone_eq]
      by_cases hdone : q.isDone = true
      · rw [if_pos hdone, if_pos hdone]
        exact .ok hq
      · rw [if_neg hdone, if_neg hdone]
        cases recovered with
        | true => exact hq.retry hlimit
        | false => exact .ok (hq.errored error)
    · rintro ⟨q, recovered⟩ hq
      have hdone : q.isDone = true := Outgrown.isDone_eq hq
      simp only
      rw [if_pos hdone]
      exact ⟨q, rfl, hq⟩
  · rintro _ ⟨⟩

theorem Mirrors.post (h : Mirrors m extra p p') (hlimit : limit ≤ limit') :
    Mirrored (Strict m limit limit') (Outgrown extra) (Mirrors m extra)
      (p.post table sem limit token value) (p'.post table sem' limit' token (m.value value)) := by
  cases hdone : p.isDone with
  | true =>
    rw [post_of_done hdone, post_of_done (h.isDone_eq.trans hdone)]
    exact .ok (h.record _ _)
  | false =>
    rw [post_of_running hdone, post_of_running (h.isDone_eq.trans hdone)]
    apply ((h.opened token).offer hlimit id).bind
    · rintro ⟨q, fate⟩ ⟨q', fate'⟩ ⟨hq, hfate⟩
      obtain rfl : fate = fate' := hfate
      cases fate with
      | shifted | accepted => exact .ok hq.commit
      | overflowed => exact .ok hq.rollback
      | rejected => exact hq.reject hlimit
    · rintro ⟨q, fate⟩ ⟨hq, rfl⟩
      exact ⟨_, rfl, hq⟩

/-! ## Runs -/

variable {commands : List (Command τ ν)}

theorem Mirrors.perform (h : Mirrors m extra p p') (table : Table σ τ π) (hlimit : limit ≤ limit')
    (command : Command τ ν) :
    Mirrored (Strict m limit limit') (Outgrown extra) (Mirrors m extra)
      (p.perform table sem limit command)
      (p'.perform table sem' limit' (command.map m.value)) := by
  cases command with
  | post token value => exact h.post hlimit
  | reset =>
    rcases h.reset table with hq | houtgrown
    · exact .ok hq
    · exact .excused houtgrown

section

variable {V : Type} {view : Parser σ τ π ν α → V} {view' : Parser σ τ π ν' α' → V}
  {live : Parser σ τ π ν α → Bool}

theorem takeWhile_trace_of_not_live (h : ¬ live p = true) :
    (p.trace table sem limit commands).1.takeWhile live = [] := by
  obtain ⟨later, htrace⟩ := exists_trace_eq_cons table sem limit p commands
  rw [htrace, List.takeWhile_cons_of_neg h]

theorem Mirrors.map_trace_isPrefix (h : Mirrors m extra p p') (hlimit : limit ≤ limit')
    (hview : ∀ p p', Mirrors m extra p p' → view' p' = view p)
    (hlive : ∀ p, live p = true → ¬ Outgrown extra p) :
    ((p.trace table sem limit commands).1.takeWhile live).map view <+:
      (p'.trace table sem' limit' (commands.map (Command.map m.value))).1.map view' := by
  induction commands generalizing p p' with
  | nil =>
    by_cases hp : live p = true
    · simp only [trace, List.takeWhile_cons_of_pos hp, List.map_cons, List.map_nil, hview p p' h]
      exact List.prefix_refl _
    · rw [takeWhile_trace_of_not_live hp]
      exact List.nil_prefix
  | cons command rest ih =>
    by_cases hp : live p = true
    · -- All that the first run shows if it halts here, or if the command outgrows it.
      have hfirst : [view p] <+: (p'.trace table sem' limit'
          ((command :: rest).map (Command.map m.value))).1.map view' := by
        obtain ⟨later, htrace⟩ := exists_trace_eq_cons table sem' limit' p'
          ((command :: rest).map (Command.map m.value))
        rw [htrace, List.map_cons, hview p p' h]
        exact ⟨_, rfl⟩
      have hperform := h.perform table hlimit command
      generalize hx : p.perform table sem limit command = x at hperform
      generalize hy : p'.perform table sem' limit' (command.map m.value) = y at hperform
      cases hperform with
      | @ok q q' hq =>
        rw [List.map_cons (f := Command.map m.value), trace_of_ok hx, trace_of_ok hy,
          List.takeWhile_cons_of_pos hp, List.map_cons, List.map_cons, hview p p' h,
          List.cons_prefix_cons]
        exact ⟨rfl, ih hq⟩
      | @excused q _ hq =>
        have hdead : ¬ live q = true := by
          intro hq'
          exact hlive q hq' hq
        rw [trace_of_ok hx, List.takeWhile_cons_of_pos hp, takeWhile_trace_of_not_live hdead]
        exact hfirst
      | halted =>
        rw [trace_of_error hx, List.takeWhile_cons_of_pos hp]
        exact hfirst
    · rw [takeWhile_trace_of_not_live hp]
      exact List.nil_prefix

/-- A run that is not outgrown and its strict mirror show the same all along and end alike. -/
theorem Mirrors.map_trace_eq (h : Mirrors m extra p p') (hstrict : Strict m limit limit')
    (hview : ∀ p p', Mirrors m extra p p' → view' p' = view p)
    (hlive : ∀ q ∈ (p.trace table sem limit commands).1, ¬ Outgrown extra q) :
    (p'.trace table sem' limit' (commands.map (Command.map m.value))).1.map view' =
        (p.trace table sem limit commands).1.map view ∧
      (p'.trace table sem' limit' (commands.map (Command.map m.value))).2 =
        (p.trace table sem limit commands).2 := by
  induction commands generalizing p p' with
  | nil =>
    constructor
    · exact congrArg (fun v => [v]) (hview p p' h)
    · rfl
  | cons command rest ih =>
    have hperform := h.perform table (Nat.le_of_eq hstrict.2) command
    generalize hx : p.perform table sem limit command = x at hperform
    generalize hy : p'.perform table sem' limit' (command.map m.value) = y at hperform
    rw [List.map_cons]
    cases hperform with
    | @ok q q' hq =>
      rw [trace_of_ok hx] at hlive ⊢
      rw [trace_of_ok hy]
      obtain ⟨hmap, hhalt⟩ := ih hq (fun r hr => hlive r (List.mem_cons_of_mem p hr))
      refine ⟨?_, hhalt⟩
      rw [List.map_cons, List.map_cons, hview p p' h, hmap]
    | @excused q _ hq =>
      obtain ⟨later, htrace⟩ := exists_trace_eq_cons table sem limit q rest
      rw [trace_of_ok hx, htrace] at hlive
      exact absurd hq (hlive q (List.mem_cons_of_mem p (List.mem_cons_self ..)))
    | halted hhalted =>
      obtain ⟨halted', rfl, hcause⟩ := hhalted hstrict
      rw [trace_of_error hx, trace_of_error hy, hcause]
      exact ⟨congrArg (fun v => [v]) (hview p p' h), rfl⟩

end

end Parser

end ShiftReduce
