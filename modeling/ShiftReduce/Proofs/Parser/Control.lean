import Mathlib.Data.List.TakeWhile
import ShiftReduce.Calculator.Builder
import ShiftReduce.Calculator.Evaluator
import ShiftReduce.Proofs.Parser.Simulation

/-!
# The course of a run depends on its tokens only

A run with all values forgotten needs neither values nor actions, and every run over the same table
mirrors it. So two runs that take the same tokens take the same course, whatever they compute.
-/

namespace ShiftReduce

variable {σ τ π ν ν₁ ν₂ α α₁ α₂ : Type}

/-- The meaning of productions in which nothing is computed. -/
def Semantics.skeleton (π : Type) : Semantics π Unit Unit where
  blank := ()
  fresh := ()
  reduce _ _ _ := .ok ⟨(), (), []⟩
  describe _ := ""

def Semantics.erasure (sem : Semantics π ν α) : sem.Morphism (skeleton π) where
  value _ := ()
  actions _ := ()
  blank_eq := rfl
  reduce_ok _ := ⟨[], rfl⟩
  onSyntaxError_eq _ := rfl
  onOverflow_eq _ := rfl

namespace Parser

/-- What can be seen of a parser if its values and its actions are not looked at. -/
structure Control (σ : Type) where
  done : Bool
  status : Status Unit
  lastError : Option ParseError
  stats : Stats
  depth : Nat
  states : List σ
  deriving DecidableEq

def control (p : Parser σ τ π ν α) : Control σ :=
  ⟨p.isDone, p.status.map fun _ => (), p.lastError, p.stats, p.depth, p.frames.map Frame.state⟩

variable {table : Table σ τ π} {sem : Semantics π ν α} {extra limit : Nat}
  {p : Parser σ τ π ν α} {p' : Parser σ τ π Unit Unit}

theorem Mirrors.control_eq (h : Mirrors sem.erasure extra p p') : p'.control = p.control := by
  have hstatus : p'.status.map (fun _ => ()) = p.status.map fun _ => () := by
    rw [h.status_eq]
    cases p.status <;> rfl
  have hstates : p'.frames.map Frame.state = p.frames.map Frame.state := by
    rw [h.frames_eq, List.map_map]
    rfl
  have hdepth : p'.depth = p.depth := by
    obtain ⟨l, hp, hp'⟩ := h.stack_eq
    unfold depth
    rw [hp, hp', Layout.size_stack, Layout.size_stack, Layout.frames_image, List.length_map]
  unfold control
  rw [h.isDone_eq, hstatus, h.lastError_eq, h.stats_eq, hdepth, hstates]

variable [DecidableEq τ]

theorem map_control_trace_isPrefix {limit' : Nat} (hlimit : limit ≤ limit') (table : Table σ τ π)
    (sem : Semantics π ν α) (actions : α) (capacity : Nat) (commands : List (Command τ ν)) :
    ((create table sem actions capacity).trace table sem limit commands).1.map control <+:
      ((create table (.skeleton π) () capacity).trace table (.skeleton π) limit'
        (commands.map (Command.map fun _ => ()))).1.map control := by
  rcases Mirrors.create table sem.erasure actions capacity 0 with hmirrors | houtgrown
  · have hview (p : Parser σ τ π ν α) (p' : Parser σ τ π Unit Unit)
        (h : Mirrors sem.erasure 0 p p') : p'.control = p.control := h.control_eq
    have hlive (p : Parser σ τ π ν α) (_ : true = true) : ¬ Outgrown 0 p := by
      rintro ⟨⟨⟩, -⟩
    have hall : ((create table sem actions capacity).trace table sem limit commands).1.takeWhile
        (fun _ => true) = ((create table sem actions capacity).trace table sem limit commands).1 :=
      List.takeWhile_eq_self_iff.mpr fun _ _ => rfl
    rw [← hall]
    exact hmirrors.map_trace_isPrefix hlimit hview hlive
  · cases houtgrown.1

theorem length_trace {commands : List (Command τ ν)}
    (h : (p.trace table sem limit commands).2 = none) :
    (p.trace table sem limit commands).1.length = commands.length + 1 := by
  induction commands generalizing p with
  | nil => rfl
  | cons command rest ih =>
    cases hq : p.perform table sem limit command with
    | ok q =>
      rw [trace_of_ok hq] at h ⊢
      rw [List.length_cons, ih h, List.length_cons]
    | error halted =>
      rw [trace_of_error hq] at h
      cases h

/-- Two runs over one table that are given the same tokens, and resets between the same ones, show
the same controls until one of them halts: all along if none does. -/
theorem control_depends_on_tokens (table : Table σ τ π) (sem₁ : Semantics π ν₁ α₁)
    (sem₂ : Semantics π ν₂ α₂) (actions₁ : α₁) (actions₂ : α₂) (capacity limit₁ limit₂ : Nat)
    {commands₁ : List (Command τ ν₁)} {commands₂ : List (Command τ ν₂)}
    (hsame : commands₁.map (Command.map fun _ => ()) = commands₂.map (Command.map fun _ => ())) :
    let run₁ := (create table sem₁ actions₁ capacity).trace table sem₁ limit₁ commands₁
    let run₂ := (create table sem₂ actions₂ capacity).trace table sem₂ limit₂ commands₂
    (run₁.1.map control <+: run₂.1.map control ∨ run₂.1.map control <+: run₁.1.map control) ∧
      (run₁.2 = none → run₂.2 = none → run₁.1.map control = run₂.1.map control) := by
  intro run₁ run₂
  have hinitial₁ := map_control_trace_isPrefix (Nat.le_max_left limit₁ limit₂) table sem₁ actions₁
    capacity commands₁
  have hinitial₂ := map_control_trace_isPrefix (Nat.le_max_right limit₁ limit₂) table sem₂ actions₂
    capacity commands₂
  rw [← hsame] at hinitial₂
  have hcomparable := List.prefix_or_prefix_of_prefix hinitial₁ hinitial₂
  refine ⟨hcomparable, ?_⟩
  intro hhalt₁ hhalt₂
  have hcommands : commands₁.length = commands₂.length := by
    have hlength := congrArg List.length hsame
    rwa [List.length_map, List.length_map] at hlength
  have hlength : (run₁.1.map control).length = (run₂.1.map control).length := by
    rw [List.length_map, List.length_map, length_trace hhalt₁, length_trace hhalt₂, hcommands]
  rcases hcomparable with hinitial | hinitial
  · exact hinitial.eq_of_length hlength
  · exact (hinitial.eq_of_length hlength.symm).symm

section

open Calculator

/-- What can be seen of `1 + 2 *` and, after a reset, of `3` while it is evaluated. -/
def evaluation : List (Parser (Fin 12) Token Production Int64 Evaluator) × Option Halt :=
  (create grammar.toTable Evaluator.semantics {} 4).trace grammar.toTable Evaluator.semantics 5
    [.post .number 1, .post .add 0, .post .number 2, .post .mul 0, .reset, .post .number 3,
      .post .finish 0]

/-- The same tokens with other numbers. -/
def construction : List (Parser (Fin 12) Token Production Node Builder) × Option Halt :=
  (create grammar.toTable Builder.semantics {} 4).trace grammar.toTable Builder.semantics 8
    [.post .number (.number 7), .post .add .none, .post .number (.number 0), .post .mul .none,
      .reset, .post .number (.number 9), .post .finish .none]

theorem control_depends_on_tokens_calculator :
    evaluation.1.map control = construction.1.map control ∧
      (evaluation.1.map control).map Control.status =
        [.running, .running, .running, .running, .errored (.overflow 4), .running, .running,
          .accepted ()] := by
  have hequal : evaluation.2 = none → construction.2 = none →
      evaluation.1.map control = construction.1.map control :=
    (control_depends_on_tokens grammar.toTable Evaluator.semantics Builder.semantics {} {}
      4 5 8 rfl).2
  exact ⟨hequal (by decide +kernel) (by decide +kernel), by decide +kernel⟩

end

end Parser

end ShiftReduce
