import ShiftReduce.Proofs.Parser.Capacity
import ShiftReduce.Proofs.Parser.Path

/-!
# A reset is a fresh start

However a run has ended, a reset leaves nothing of it but the journal and what the actions remember.
All slots are empty again, so the parser is the one that these actions would be given at first, and
what follows is a run of that parser.
-/

namespace ShiftReduce

theorem Layout.image_id {β : Type} (l : Layout β) : l.image id 0 = l := by
  simp [image]

namespace Parser

variable {σ τ π ν α : Type} {table : Table σ τ π} {sem : Semantics π ν α}
  {p q : Parser σ τ π ν α} {l : Layout (Frame σ ν)}

/-! ## Parsers that differ in their journals -/

theorem withoutJournal_eq_iff :
    q.withoutJournal = p.withoutJournal ↔ q.actions = p.actions ∧ q.stack = p.stack ∧
      q.status = p.status ∧ q.lastError = p.lastError ∧ q.stats = p.stats := by
  simp [withoutJournal]

theorem mirrors_of_withoutJournal_eq (hp : p.stack = l.stack)
    (h : q.withoutJournal = p.withoutJournal) : Mirrors (.refl sem) 0 p q := by
  obtain ⟨hactions, hstack, hstatus, hlast, hstats⟩ := withoutJournal_eq_iff.mp h
  refine ⟨⟨l, hp, ?_⟩, hactions, ?_, hlast, hstats⟩
  · change q.stack = (l.image id 0).stack
    rw [hstack, hp, l.image_id]
  · rw [hstatus]
    exact (Status.map_id p.status).symm

theorem Mirrors.withoutJournal_eq (h : Mirrors (.refl sem) 0 p q) :
    q.withoutJournal = p.withoutJournal := by
  obtain ⟨l, hp, hq⟩ := h.stack_eq
  change q.stack = (l.image id 0).stack at hq
  rw [l.image_id, ← hp] at hq
  have hstatus : q.status = p.status := h.status_eq.trans (Status.map_id p.status)
  exact withoutJournal_eq_iff.mpr ⟨h.actions_eq, hq, hstatus, h.lastError_eq, h.stats_eq⟩

theorem trace_eq_of_withoutJournal_eq [DecidableEq τ] (hp : p.stack = l.stack)
    (h : q.withoutJournal = p.withoutJournal) (limit : Nat) (commands : List (Command τ ν)) :
    (q.trace table sem limit commands).1.map withoutJournal =
        (p.trace table sem limit commands).1.map withoutJournal ∧
      (q.trace table sem limit commands).2 = (p.trace table sem limit commands).2 := by
  have hmirrors : Mirrors (.refl sem) 0 p q := mirrors_of_withoutJournal_eq hp h
  have hrun : q.trace table sem limit (commands.map (Command.map id)) =
      q.trace table sem limit commands := by rw [Command.map_map_id]
  rw [← hrun]
  apply hmirrors.map_trace_eq ⟨Semantics.Morphism.faithful_refl sem, rfl⟩
  · exact fun _ _ => Mirrors.withoutJournal_eq
  · intro r _ houtgrown
    cases houtgrown.1

/-! ## Starting over -/

theorem withoutJournal_reset (table : Table σ τ π) (sem : Semantics π ν α) (hp : p.stack = l.stack) :
    (p.reset table sem).withoutJournal =
      (create table sem p.actions l.capacity).withoutJournal := by
  have hnew : ({ actions := p.actions, stack := .ofCapacity l.capacity } :
      Parser σ τ π ν α).stack = (Layout.settled [] l.capacity).stack :=
    (Layout.stack_settled_nil l.capacity).symm
  have hcapacity : (Layout.settled [] l.capacity : Layout (Frame σ ν)).capacity = l.capacity := by
    rw [Layout.capacity_settled, List.length_nil, Nat.zero_add]
  unfold create
  by_cases hroom : 0 < l.capacity
  · rw [reset_of_room hp hroom, reset_of_room hnew (by rwa [hcapacity]), hcapacity]
    rfl
  · rw [reset_of_no_room hp (by omega), reset_of_no_room hnew (by omega)]
    rfl

variable [DecidableEq τ]

/-- Whatever run of posts and resets has led to a parser, a reset makes it the parser that is created
with its actions, its journal apart. The runs that follow are the same on both, too, and halt alike. -/
theorem reset_renews (table : Table σ τ π) (sem : Semantics π ν α) (actions : α)
    (capacity limit : Nat) (commands : List (Command τ ν)) :
    ∀ p ∈ ((create table sem actions capacity).trace table sem limit commands).1,
      (p.reset table sem).withoutJournal =
          (create table sem p.actions capacity).withoutJournal ∧
        ∀ (limit' : Nat) (later : List (Command τ ν)),
          ((p.reset table sem).trace table sem limit' later).1.map withoutJournal =
              ((create table sem p.actions capacity).trace table sem limit' later).1.map
                withoutJournal ∧
            ((p.reset table sem).trace table sem limit' later).2 =
              ((create table sem p.actions capacity).trace table sem limit' later).2 := by
  have hshape := shape_path table sem
  have hnew : (create table sem actions capacity).Settled := (Reachable.create _ _).settled
  intro p hp
  obtain ⟨⟨frames, free, hstack⟩, hshaped⟩ := (hshape.invariant capacity).trace hnew
    (hshape.create actions capacity) (fun command _ => by cases command <;> trivial) p hp
  have hreset := withoutJournal_reset table sem hstack
  rw [← capacity_eq hstack, hshaped.capacity_eq] at hreset
  refine ⟨hreset, ?_⟩
  intro limit' later
  obtain ⟨_, _, hfresh⟩ : (create table sem p.actions capacity).Settled :=
    (Reachable.create _ _).settled
  exact trace_eq_of_withoutJournal_eq hfresh hreset limit' later

section

open NumberList

/-- `(1,2)` with room for five frames: the last token overflows the stack in the middle of its
reductions. -/
def crampedRun : List (Parser (Fin 10) Token Production Value Builder) × Option Halt :=
  (create grammar.toTable Builder.semantics {} 5).trace grammar.toTable Builder.semantics 4
    [.post .leftParen .none, .post .number (.number 1), .post .comma .none,
      .post .number (.number 2), .post .rightParen .none]

/-- `(3)` -/
def loneNumber : List (Command Token Value) :=
  [.post .leftParen .none, .post .number (.number 3), .post .rightParen .none, .post .finish .none]

theorem reset_renews_cramped :
    ∃ p ∈ crampedRun.1, p.isErrored = true ∧ p.actions = { stackOverflows := 1 } ∧
      (p.reset grammar.toTable Builder.semantics).withoutJournal =
        (create grammar.toTable Builder.semantics { stackOverflows := 1 } 5).withoutJournal ∧
      ((p.reset grammar.toTable Builder.semantics).trace grammar.toTable Builder.semantics 4
          loneNumber).1.map withoutJournal =
        ((create grammar.toTable Builder.semantics { stackOverflows := 1 } 5).trace
          grammar.toTable Builder.semantics 4 loneNumber).1.map withoutJournal := by
  have hlast : (true, ({ stackOverflows := 1 } : Builder)) ∈
      crampedRun.1.map fun p => (p.isErrored, p.actions) := by
    decide +kernel
  obtain ⟨p, hp, hobserved⟩ := List.mem_map.mp hlast
  obtain ⟨herrored, hactions⟩ := Prod.mk.inj hobserved
  obtain ⟨hreset, hlater⟩ := reset_renews grammar.toTable Builder.semantics {} 5 4 _ p hp
  rw [hactions] at hreset hlater
  exact ⟨p, hp, herrored, hactions, hreset, (hlater 4 loneNumber).1⟩

end

end Parser

end ShiftReduce
