import ShiftReduce.NumberList.Builder
import ShiftReduce.Proofs.Parser.Simulation

/-!
# Capacity matters only where it runs out

The slots that frames are pushed to, and popped committed frames that still use theirs, differ from
one capacity to another. Nothing of this can be seen of a run until it overflows.
-/

namespace ShiftReduce

variable {σ τ π ν α : Type}

theorem Args.map_id (args : Args ν) : args.map id = args := by
  unfold Args.map
  rw [List.map_id]

theorem Status.map_id (status : Status ν) : status.map id = status := by
  cases status <;> rfl

/-- A semantics seen as a mirror of itself. -/
def Semantics.Morphism.refl (sem : Semantics π ν α) : sem.Morphism sem where
  value := id
  actions := id
  blank_eq := rfl
  reduce_ok {production args state result} h := by
    refine ⟨result.notes, ?_⟩
    rw [Args.map_id]
    exact h
  onSyntaxError_eq state := rfl
  onOverflow_eq state := rfl

theorem Semantics.Morphism.faithful_refl (sem : Semantics π ν α) :
    (Morphism.refl sem).Faithful := by
  intro production args state breach h
  change sem.reduce production (args.map id) state = _
  rw [Args.map_id, h]

namespace Parser

/-- What can be seen of a parser, its capacity and its journal apart. -/
structure Observation (σ ν α : Type) where
  done : Bool
  status : Status ν
  lastError : Option ParseError
  stats : Stats
  frames : List (Frame σ ν)
  actions : α

def observe (p : Parser σ τ π ν α) : Observation σ ν α :=
  ⟨p.isDone, p.status, p.lastError, p.stats, p.frames, p.actions⟩

variable {table : Table σ τ π} {sem : Semantics π ν α} {extra : Nat} {p p' : Parser σ τ π ν α}

theorem Mirrors.observe_eq (h : Mirrors (.refl sem) extra p p') : p'.observe = p.observe := by
  have hframe : (Semantics.Morphism.refl sem).frame = (id : Frame σ ν → Frame σ ν) := rfl
  have hframes := h.frames_eq
  rw [hframe, List.map_id] at hframes
  have hstatus : p'.status = p.status := h.status_eq.trans (Status.map_id p.status)
  have hactions : p'.actions = p.actions := h.actions_eq
  unfold observe
  rw [h.isDone_eq, hstatus, h.lastError_eq, h.stats_eq, hframes, hactions]

theorem Command.map_id (command : Command τ ν) : command.map id = command := by
  cases command <;> rfl

theorem Command.map_map_id (commands : List (Command τ ν)) :
    commands.map (Command.map id) = commands := by
  rw [List.map_congr_left fun command _ => Command.map_id command, List.map_id']

variable [DecidableEq τ]

/-- A run with less room shows what a run with more room shows, up to the command that overflows it.
If there is none, the two runs also end alike. -/
theorem trace_agrees_until_overflow {capacity capacity' : Nat} (hcapacity : capacity ≤ capacity')
    (table : Table σ τ π) (sem : Semantics π ν α) (actions : α) (limit : Nat)
    (commands : List (Command τ ν)) :
    let narrow := (create table sem actions capacity).trace table sem limit commands
    let wide := (create table sem actions capacity').trace table sem limit commands
    (narrow.1.takeWhile fun p => !p.isOverflowed).map observe <+: wide.1.map observe ∧
      ((∀ p ∈ narrow.1, p.isOverflowed = false) →
        wide.1.map observe = narrow.1.map observe ∧ wide.2 = narrow.2) := by
  intro narrow wide
  obtain ⟨extra, rfl⟩ := Nat.exists_eq_add_of_le hcapacity
  rcases Mirrors.create table (.refl sem) actions capacity extra with hmirrors | houtgrown
  · have hview (p p' : Parser σ τ π ν α) (h : Mirrors (.refl sem) extra p p') :
        p'.observe = p.observe := h.observe_eq
    have hwide : (create table sem actions (capacity + extra)).trace table sem limit
        (commands.map (Command.map id)) = wide := by rw [Command.map_map_id]
    rw [← hwide]
    constructor
    · apply hmirrors.map_trace_isPrefix (Nat.le_refl limit) hview
      intro p hp houtgrown
      rw [houtgrown.2] at hp
      cases hp
    · intro hlive
      apply hmirrors.map_trace_eq ⟨Semantics.Morphism.faithful_refl sem, rfl⟩ hview
      intro p hp houtgrown
      have hroom := hlive p hp
      rw [houtgrown.2] at hroom
      cases hroom
  · -- There is no room even for the frame of the start state.
    have hoverflowed := houtgrown.2
    constructor
    · rw [takeWhile_trace_of_not_live (by simp [hoverflowed])]
      exact List.nil_prefix
    · intro hlive
      obtain ⟨later, htrace⟩ := exists_trace_eq_cons table sem limit
        (create table sem actions capacity) commands
      have hfirst := hlive (create table sem actions capacity) (by simp [narrow, htrace])
      rw [hoverflowed] at hfirst
      cases hfirst

section

open NumberList

/-- `(1,2)` -/
def pairRun (capacity : Nat) :
    List (Parser (Fin 10) Token Production Value Builder) × Option Halt :=
  (create grammar.toTable Builder.semantics {} capacity).trace grammar.toTable Builder.semantics 4
    [.post .leftParen .none, .post .number (.number 1), .post .comma .none,
      .post .number (.number 2), .post .rightParen .none]

theorem trace_agrees_until_overflow_pair :
    ((pairRun 6).1.length, ((pairRun 6).1.takeWhile fun p => !p.isOverflowed).length) = (6, 5) ∧
      ((pairRun 6).1.takeWhile fun p => !p.isOverflowed).map observe <+:
        (pairRun 7).1.map observe ∧
      (pairRun 9).1.map observe = (pairRun 7).1.map observe ∧ (pairRun 9).2 = (pairRun 7).2 := by
  obtain ⟨hinitial, -⟩ := trace_agrees_until_overflow (show 6 ≤ 7 by decide) grammar.toTable
    Builder.semantics {} 4 _
  obtain ⟨-, hequal⟩ := trace_agrees_until_overflow (show 7 ≤ 9 by decide) grammar.toTable
    Builder.semantics {} 4 _
  refine ⟨by decide +kernel, hinitial, hequal ?_⟩
  have hroom : (pairRun 7).1.all (fun p => !p.isOverflowed) = true := by decide +kernel
  intro p hp
  have hp' := List.all_eq_true.mp hroom p hp
  simpa using hp'

end

end Parser

end ShiftReduce
