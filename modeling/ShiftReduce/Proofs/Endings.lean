import ShiftReduce.Proofs.Bounds
import ShiftReduce.Proofs.Economy
import ShiftReduce.Proofs.Parser.Ending
import ShiftReduce.Proofs.Parser.Termination

/-!
# Runs come to an end

The samples that read text never shift the end token, so each of their runs is accepted or fails when
the input ends, and no text is found incomplete. Nor do they reduce without end, because their states
can be ranked. The counted greeting is left out there: its empty words take no frame off.
-/

namespace ShiftReduce

open ShiftReduce.Parser

/-! ## Texts -/

namespace Parser

variable {σ τ π ν α β : Type} {table : Table σ τ π} {sem : Semantics π ν α}
  {token : Lexeme → Except SourceError (τ × ν)} {limit : Nat} {items : List Item}
  {p q : Parser σ τ π ν α} {result : Except SourceError Unit}

theorem verdict_eq_ok_iff : p.verdict = .ok () ↔ p.isAccepted = true := by
  unfold verdict isAccepted
  cases p.status <;> simp

theorem verdict_ne_incomplete (h : p.isDone = true) : p.verdict ≠ .error .incomplete := by
  unfold isDone at h
  unfold verdict
  cases hstatus : p.status with
  | running => rw [hstatus] at h; cases h
  | accepted value => exact nofun
  | errored error => exact nofun

theorem accepted_ne_incomplete (kind : Cast ν β) (h : p.isAccepted = true) :
    p.accepted kind ≠ .error (.source .incomplete) := by
  unfold isAccepted at h
  split at h
  next value hstatus =>
    unfold accepted valueAs?
    rw [hstatus]
    cases hdown : kind.down value <;> simp [hdown]
  next => cases h

variable [DecidableEq τ]

theorem read_eq_ok_iff (hopen : p.isAccepted = false)
    (h : p.read table sem limit token items = .ok (q, result)) :
    result = .ok () ↔ q.isAccepted = true := by
  obtain ⟨posts, r, -, hstops⟩ := exists_stops h
  have hrefused (hr : r = p ∨ r.isDone = false) : r.isAccepted = false := by
    rcases hr with rfl | hr
    · exact hopen
    · exact isAccepted_of_running hr
  cases hstops with
  | done => exact verdict_eq_ok_iff
  | finished => exact verdict_eq_ok_iff
  | @unreadable item error hr =>
    have hq : (r.record (.note error.message)).isAccepted = false := hrefused hr
    rw [hq]
    simp
  | foreign hr => simp [hrefused hr]

theorem read_ne_incomplete (hnever : table.NeverShifts table.endToken) (hp : p.Settled)
    (hitems : ∀ item ∈ items, item.content ≠ .error .incomplete)
    (htoken : ∀ lexeme, token lexeme ≠ .error .incomplete)
    (h : p.read table sem limit token items = .ok (q, result)) : result ≠ .error .incomplete := by
  obtain ⟨posts, r, hposts, hstops⟩ := exists_stops h
  cases hstops with
  | done hdone => exact verdict_ne_incomplete hdone
  | finished hrunning hpost =>
    have hcloses := closes_of_post hnever (hp.postAll hposts) hrunning hpost
    exact verdict_ne_incomplete hcloses.isDone_eq
  | unreadable _ hitem hcontent =>
    intro herror
    exact hitems _ hitem (hcontent.trans (congrArg _ (Except.error.inj herror)))
  | foreign _ htoken' =>
    intro herror
    exact htoken _ (htoken'.trans (congrArg _ (Except.error.inj herror)))

end Parser

theorem scan_ne_incomplete (source : String) :
    ∀ item ∈ scan source, item.content ≠ .error .incomplete := by
  intro item hitem hcontent
  obtain ⟨offset, text, heq⟩ := eq_unreadable_of_mem_scanFrom hitem hcontent
  cases heq

theorem Language.result_ne_incomplete {σ τ π ν α β : Type} [DecidableEq τ]
    (lang : Language σ τ π ν α)
    (hnever : lang.grammar.toTable.NeverShifts lang.grammar.endToken)
    (hforeign : ∀ lexeme error, lang.token lexeme = .error error → ∃ label, error = .foreign label)
    {answer : Parser σ τ π ν α → Except Failure β}
    (hanswer : ∀ p, p.isAccepted = true → answer p ≠ .error (.source .incomplete))
    (source : String) :
    Outcome.result (lang.read source) answer ≠ .error (.source .incomplete) := by
  have htoken (lexeme : Lexeme) : lang.token lexeme ≠ .error .incomplete := by
    intro h
    obtain ⟨label, heq⟩ := hforeign lexeme _ h
    cases heq
  have hfresh : Fresh lang.grammar.toTable lang.semantics lang.parser := .create _ _
  unfold Outcome.result
  intro h
  split at h
  next => cases h
  next p error hread =>
    cases h
    exact read_ne_incomplete hnever hfresh.settled (scan_ne_incomplete source) htoken hread rfl
  next p hread => exact hanswer p ((read_eq_ok_iff hfresh.isAccepted_eq hread).mp rfl) h

/-! ## The end of the input -/

/-- Posted to a running parser, the end token ends the run, accepted or in error, and is not dropped.
This is whatever the productions mean, and however often the run has recovered before. -/
def EndCloses {σ τ π : Type} [DecidableEq τ] (table : Table σ τ π) : Prop :=
  ∀ (ν α : Type) (sem : Semantics π ν α) (p : Parser σ τ π ν α), Reachable table sem p →
    p.isDone = false → ∀ (limit : Nat) (value : ν) (q : Parser σ τ π ν α),
    p.post table sem limit table.endToken value = .ok q →
      (q.isAccepted = true ∨ q.isErrored = true) ∧ q.stats.discarded = p.stats.discarded

/-- By a parser that has not accepted an input before, a text is found in order exactly if the run over
it is accepted. -/
def OrderIsAcceptance {σ τ π : Type} [DecidableEq τ] (table : Table σ τ π) : Prop :=
  ∀ (ν α : Type) (sem : Semantics π ν α) (p : Parser σ τ π ν α), p.isAccepted = false →
    ∀ (limit : Nat) (token : Lexeme → Except SourceError (τ × ν)) (items : List Item)
      (q : Parser σ τ π ν α) (result : Except SourceError Unit),
    p.read table sem limit token items = .ok (q, result) → (result = .ok () ↔ q.isAccepted = true)

/-- Where no state shifts the end token, it closes every run, and so no text of the calculator and no
number list is found incomplete. -/
theorem end_closes_runs :
    (∀ (σ τ π : Type) [DecidableEq τ] (table : Table σ τ π),
      (table.NeverShifts table.endToken → EndCloses table) ∧ OrderIsAcceptance table) ∧
    ∀ source,
      Calculator.evaluate source ≠ .error (.source .incomplete) ∧
      Calculator.tree source ≠ .error (.source .incomplete) ∧
      NumberList.parse source ≠ .error (.source .incomplete) := by
  refine ⟨?_, ?_⟩
  · intro σ τ π _ table
    constructor
    · intro hnever ν α sem p hp hrunning limit value q hpost
      have hcloses := closes_of_post hnever hp.settled hrunning hpost
      exact ⟨isAccepted_or_isErrored hcloses.isDone_eq, hcloses.discarded_eq⟩
    · intro ν α sem p hopen limit token items q result hread
      exact read_eq_ok_iff hopen hread
  · have hcalculator : Calculator.grammar.NeverShifts Calculator.grammar.endToken := by
      decide +kernel
    have hlist : NumberList.grammar.NeverShifts NumberList.grammar.endToken := by decide +kernel
    intro source
    refine ⟨?_, ?_, ?_⟩
    · apply Calculator.Evaluator.language.result_ne_incomplete hcalculator
        Calculator.Evaluator.roomy.foreign
      intro p hp
      split
      · exact nofun
      · exact accepted_ne_incomplete _ hp
    · exact Calculator.Builder.language.result_ne_incomplete hcalculator
        Calculator.Builder.roomy.foreign (fun _ => accepted_ne_incomplete _) source
    · exact NumberList.language.result_ne_incomplete hlist NumberList.roomy.foreign
        (fun _ => accepted_ne_incomplete _) source

section

open NumberList

/-- `(1` -/
def halfText : List Item := [⟨0, 1, .ok .leftParen⟩, ⟨1, 2, .ok (.number 1)⟩]

/-- The input ends behind `(1`. The end token is rejected, the run recovers, the end token is rejected
again, and the run is over. -/
theorem end_closes_runs_halfList :
    ∃ p q r, tight.postAll grammar.toTable Builder.semantics 4 halfList = .ok p ∧
      p.isDone = false ∧
      p.post grammar.toTable Builder.semantics 4 .finish .none = .ok q ∧
      (q.isAccepted = true ∨ q.isErrored = true) ∧ q.stats.discarded = p.stats.discarded ∧
      (q.status, q.stats.recoveries) = (.errored (.unexpected "end" 6), 1) ∧
      tight.read grammar.toTable Builder.semantics 4 token halfText =
        .ok (r, .error (.parse (.unexpected "end" 6))) ∧
      r.isAccepted = false := by
  have hruns : (do
      let p ← tight.postAll grammar.toTable Builder.semantics 4 halfList
      let q ← p.post grammar.toTable Builder.semantics 4 .finish .none
      let answer ← tight.read grammar.toTable Builder.semantics 4 token halfText
      pure (p.isDone, (q.status, q.stats.recoveries), answer.2)).toOption =
      some (false, (.errored (.unexpected "end" 6), 1), .error (.parse (.unexpected "end" 6))) := by
    decide +kernel
  obtain ⟨p, hp, hruns⟩ := toOption_bind_eq_some.mp hruns
  obtain ⟨q, hq, hruns⟩ := toOption_bind_eq_some.mp hruns
  obtain ⟨⟨r, result⟩, hr, hruns⟩ := toOption_bind_eq_some.mp hruns
  obtain ⟨hrunning, hrest⟩ := Prod.mk.inj (Option.some.inj hruns)
  obtain ⟨hended, rfl⟩ := Prod.mk.inj hrest
  have hreachable : Reachable grammar.toTable Builder.semantics p :=
    (Reachable.create {} 6).postAll hp
  obtain ⟨htables, -⟩ := end_closes_runs
  obtain ⟨hcloses, horder⟩ := htables _ _ _ grammar.toTable
  obtain ⟨hdone, hkept⟩ := hcloses (by decide +kernel) _ _ _ p hreachable hrunning 4 .none q hq
  have haccepted := horder _ _ _ tight (by decide +kernel) 4 token halfText r _ hr
  refine ⟨p, q, r, hp, hrunning, hq, hdone, hkept, hended, hr, Bool.eq_false_iff.mpr ?_⟩
  intro h
  cases haccepted.mpr h

end

/-! ## Ranked tables -/

/-- On a ranked table every post to any parser comes to an end, and the tables of the calculator, of
the plain greeting and of number lists are ranked. -/
theorem posts_finish :
    (∀ (σ τ π : Type) [DecidableEq τ] (table : Table σ τ π) (rank : τ → σ → Nat),
      table.Ranked rank →
      ∀ (ν α : Type) (sem : Semantics π ν α) (token : τ) (value : ν) (p : Parser σ τ π ν α),
        Finishes fun limit => p.post table sem limit token value) ∧
    (∃ rank, Calculator.grammar.Ranked rank) ∧
    (∃ rank, Greeting.Plain.grammar.Ranked rank) ∧
    ∃ rank, NumberList.grammar.Ranked rank := by
  refine ⟨?_, ⟨fun _ => Calculator.typing.rank, ?_⟩, ⟨fun _ _ => 0, ?_⟩,
    fun _ => NumberList.typing.rank, ?_⟩
  · intro σ τ π _ table rank hranked ν α sem token value p
    exact hranked.post_finishes sem token value p
  · constructor <;> decide +kernel
  · constructor <;> decide +kernel
  · constructor <;> decide +kernel

section

open NumberList

/-- Behind `(1` a comma calls for two reductions before it is shifted, so two steps are not enough. -/
theorem posts_finish_halfList :
    ∃ p, tight.postAll grammar.toTable Builder.semantics 4 halfList = .ok p ∧
      ¬ Answered (p.post grammar.toTable Builder.semantics 2 .comma .none) ∧
      Finishes fun limit => p.post grammar.toTable Builder.semantics limit .comma .none := by
  have hruns : (do
      let p ← tight.postAll grammar.toTable Builder.semantics 4 halfList
      pure (match p.post grammar.toTable Builder.semantics 2 .comma .none with
        | .error halted => some halted.cause
        | .ok _ => none)).toOption = some (some .exhausted) := by
    decide +kernel
  obtain ⟨p, hp, hruns⟩ := toOption_bind_eq_some.mp hruns
  have hpost := Option.some.inj hruns
  obtain ⟨hposts, -, -, rank, hranked⟩ := posts_finish
  refine ⟨p, hp, ?_, hposts _ _ _ grammar.toTable rank hranked _ _ _ .comma .none p⟩
  split at hpost
  next halted hhalted =>
    rw [hhalted, answered_error_iff]
    exact not_not.mpr (Option.some.inj hpost)
  next => cases hpost

end

end ShiftReduce
