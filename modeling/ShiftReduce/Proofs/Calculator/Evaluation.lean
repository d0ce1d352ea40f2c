import ShiftReduce.Calculator.Evaluator
import ShiftReduce.Proofs.Calculator.Yield

/-!
# The value of a text

Evaluating a text while it is parsed comes to what its tree evaluates to in wrapping arithmetic. The
two readings go from shape to shape together: where the builder has trees the evaluator has their
values, and it remembers a division by zero as soon as the builder has made a tree that contains one.
-/

namespace ShiftReduce.Calculator

open ShiftReduce.Parser

/-! ## Wrapping evaluation of trees -/

namespace Term

/-- The value in arithmetic that wraps around at 64 bits; division truncates. -/
def wrapped : Term → Int64
  | mul left right => left.wrapped * right
  | div left right => left.wrapped / right
  | number value => value

/-- Whether a division by the number zero occurs. -/
def dividesByZero : Term → Bool
  | mul left _ => left.dividesByZero
  | div left right => left.dividesByZero || decide (right = 0)
  | number _ => false

end Term

namespace Expr

def wrapped : Expr → Int64
  | add left right => left.wrapped + right.wrapped
  | sub left right => left.wrapped - right.wrapped
  | term t => t.wrapped

def dividesByZero : Expr → Bool
  | add left right | sub left right => left.dividesByZero || right.dividesByZero
  | term t => t.dividesByZero

/-- The value of the tree, unless it divides by zero. -/
def value (e : Expr) : Except Failure Int64 :=
  if e.dividesByZero then .error (.source .divisionByZero) else .ok e.wrapped

end Expr

/-! ## Checked evaluation is exact -/

theorem eq_ofInt_of_inRange? {i : Int} {v : Int64} (h : Checked.inRange? i = some v) :
    v = Int64.ofInt i := by
  unfold Checked.inRange? at h
  split at h
  · exact (Option.some.inj h).symm
  · cases h

theorem add_of_checked {a b v : Int64} (h : Checked.add? a b = some v) : a + b = v := by
  rw [eq_ofInt_of_inRange? h, Int64.ofInt_add, Int64.ofInt_toInt, Int64.ofInt_toInt]

theorem sub_of_checked {a b v : Int64} (h : Checked.sub? a b = some v) : a - b = v := by
  rw [eq_ofInt_of_inRange? h, Int64.ofInt_sub, Int64.ofInt_toInt, Int64.ofInt_toInt]

theorem mul_of_checked {a b v : Int64} (h : Checked.mul? a b = some v) : a * b = v := by
  rw [eq_ofInt_of_inRange? h, Int64.ofInt_mul, Int64.ofInt_toInt, Int64.ofInt_toInt]

theorem div_of_checked {a b v : Int64} (h : Checked.div? a b = some v) : b ≠ 0 ∧ a / b = v := by
  unfold Checked.div? at h
  split at h
  · cases h
  next hb =>
    refine ⟨hb, ?_⟩
    rw [eq_ofInt_of_inRange? h, Int64.ofInt_tdiv a.minValue_le_toInt a.toInt_le b.minValue_le_toInt
      b.toInt_le, Int64.ofInt_toInt, Int64.ofInt_toInt]

theorem Term.wrapped_of_eval {t : Term} {v : Int64} (h : t.eval = some v) :
    t.dividesByZero = false ∧ t.wrapped = v := by
  induction t generalizing v with
  | mul left right ih =>
    obtain ⟨a, hleft, hmul⟩ := Option.bind_eq_some_iff.mp h
    obtain ⟨hzero, rfl⟩ := ih hleft
    exact ⟨hzero, mul_of_checked hmul⟩
  | div left right ih =>
    obtain ⟨a, hleft, hdiv⟩ := Option.bind_eq_some_iff.mp h
    obtain ⟨hzero, rfl⟩ := ih hleft
    obtain ⟨hright, hvalue⟩ := div_of_checked hdiv
    refine ⟨?_, hvalue⟩
    simp [Term.dividesByZero, hzero, hright]
  | number value => exact ⟨rfl, Option.some.inj h⟩

theorem Expr.wrapped_of_eval {e : Expr} {v : Int64} (h : e.eval = some v) :
    e.dividesByZero = false ∧ e.wrapped = v := by
  induction e generalizing v with
  | add left right ih =>
    obtain ⟨a, hleft, hrest⟩ := Option.bind_eq_some_iff.mp h
    obtain ⟨b, hright, hadd⟩ := Option.bind_eq_some_iff.mp hrest
    obtain ⟨hzero, rfl⟩ := ih hleft
    obtain ⟨hzero', rfl⟩ := Term.wrapped_of_eval hright
    exact ⟨by simp [Expr.dividesByZero, hzero, hzero'], add_of_checked hadd⟩
  | sub left right ih =>
    obtain ⟨a, hleft, hrest⟩ := Option.bind_eq_some_iff.mp h
    obtain ⟨b, hright, hsub⟩ := Option.bind_eq_some_iff.mp hrest
    obtain ⟨hzero, rfl⟩ := ih hleft
    obtain ⟨hzero', rfl⟩ := Term.wrapped_of_eval hright
    exact ⟨by simp [Expr.dividesByZero, hzero, hzero'], sub_of_checked hsub⟩
  | term t => exact Term.wrapped_of_eval h

/-! ## The evaluator's shapes -/

/-- The shape that the evaluator is in where the builder is in the given one. -/
def Front.wrapped : Front Expr → Front Int64
  | empty => .empty
  | after left sign => .after left.wrapped sign

def Ending.wrapped : Ending Term → Ending Int64
  | literal number => .literal number
  | scaled left scale number => .scaled left.wrapped scale number

def Config.wrapped : Config Expr Term → Config Int64 Int64
  | operand front => .operand front.wrapped
  | factor front left scale => .factor front.wrapped left.wrapped scale
  | complete front ending => .complete front.wrapped ending.wrapped

def Front.dividesByZero : Front Expr → Bool
  | empty => false
  | after left _ => left.dividesByZero

/-- Whether a division by zero has been made; the number at the end has divided nothing yet. -/
def Ending.dividesByZero : Ending Term → Bool
  | literal _ => false
  | scaled left _ _ => left.dividesByZero

def Config.dividesByZero : Config Expr Term → Bool
  | operand front => front.dividesByZero
  | factor front left _ => front.dividesByZero || left.dividesByZero
  | complete front ending => front.dividesByZero || ending.dividesByZero

/-- The evaluator's state when it has met a division by zero or not. -/
def Evaluator.met (divisionByZero : Bool) : Evaluator := { divisionByZero }

variable {actions : Builder}

theorem close_ending_wrapped (front : Front Expr) (ending : Ending Term) (actions : Builder) :
    (ending.wrapped.close Evaluator.algebra
        (.met (front.dividesByZero || ending.dividesByZero))).value =
      (ending.close Builder.algebra actions).value.wrapped ∧
    (ending.wrapped.close Evaluator.algebra
        (.met (front.dividesByZero || ending.dividesByZero))).actions =
      .met (front.dividesByZero || (ending.close Builder.algebra actions).value.dividesByZero) := by
  cases ending with
  | literal number => exact ⟨rfl, rfl⟩
  | scaled left scale number =>
    cases scale with
    | times => exact ⟨rfl, rfl⟩
    | per =>
      by_cases hzero : number = 0
      · subst hzero
        constructor
        · simp [Ending.wrapped, Ending.close, Scale.apply, Evaluator.algebra, Builder.algebra,
            Builder.make, Term.wrapped]
        · simp [Ending.wrapped, Ending.close, Scale.apply, Evaluator.algebra, Builder.algebra,
            Builder.make, Term.dividesByZero, Evaluator.met]
      · constructor
        · simp [Ending.wrapped, Ending.close, Scale.apply, Evaluator.algebra, Builder.algebra,
            Builder.make, Term.wrapped, hzero]
        · simp [Ending.wrapped, Ending.close, Scale.apply, Evaluator.algebra, Builder.algebra,
            Builder.make, Term.dividesByZero, Ending.dividesByZero, Evaluator.met, hzero]

theorem close_front_wrapped (front : Front Expr) (term : Term) (actions : Builder) :
    (front.wrapped.close Evaluator.algebra term.wrapped
        (.met (front.dividesByZero || term.dividesByZero))).value =
      (front.close Builder.algebra term actions).value.wrapped ∧
    (front.wrapped.close Evaluator.algebra term.wrapped
        (.met (front.dividesByZero || term.dividesByZero))).actions =
      .met (front.close Builder.algebra term actions).value.dividesByZero := by
  cases front with
  | empty => exact ⟨rfl, rfl⟩
  | after left sign => cases sign <;> exact ⟨rfl, rfl⟩

theorem closed_wrapped (front : Front Expr) (ending : Ending Term) (actions : Builder) :
    (Config.closed Evaluator.algebra front.wrapped ending.wrapped
        (.met (front.dividesByZero || ending.dividesByZero))).value =
      (Config.closed Builder.algebra front ending actions).value.wrapped ∧
    (Config.closed Evaluator.algebra front.wrapped ending.wrapped
        (.met (front.dividesByZero || ending.dividesByZero))).actions =
      .met (Config.closed Builder.algebra front ending actions).value.dividesByZero := by
  obtain ⟨hvalue, hactions⟩ := close_ending_wrapped front ending actions
  unfold Config.closed
  rw [hvalue, hactions]
  exact close_front_wrapped front _ _

/-! ## The readings go together -/

theorem refusal_wrapped (c : Config Expr Term) (lexeme : Lexeme) :
    c.wrapped.refusal Evaluator.algebra 0 lexeme = c.refusal Builder.algebra .none lexeme := by
  have hstate : c.wrapped.state = c.state := by
    cases c with
    | operand front => cases front <;> rfl
    | factor front left scale => rfl
    | complete front ending => cases ending <;> rfl
  unfold Config.refusal
  rw [hstate]
  cases lexeme <;> rfl

theorem next_wrapped (c : Config Expr Term) (lexeme : Lexeme) (actions : Builder) :
    c.wrapped.next Evaluator.algebra 0 (.met c.dividesByZero) lexeme =
      (c.next Builder.algebra .none actions lexeme).map
        fun (c', _) => (c'.wrapped, .met c'.dividesByZero) := by
  have hrefusal := congrArg (Except.error (α := Config Int64 Int64 × Evaluator))
    (refusal_wrapped c lexeme)
  cases c with
  | operand front =>
    cases lexeme with
    | number n =>
      change Except.ok _ = Except.ok _
      simp [Config.wrapped, Ending.wrapped, Config.dividesByZero, Ending.dividesByZero]
    | _ => exact hrefusal
  | factor front left scale =>
    cases lexeme with
    | number n => rfl
    | _ => exact hrefusal
  | complete front ending =>
    obtain ⟨hterm, hmet⟩ := close_ending_wrapped front ending actions
    obtain ⟨hexpr, hmet'⟩ := closed_wrapped front ending actions
    cases lexeme with
    | plus | minus =>
      simp only [Config.wrapped, Config.next, Config.dividesByZero, Except.map, hexpr, hmet']
      rfl
    | star | slash =>
      simp only [Config.wrapped, Config.next, Config.dividesByZero, Except.map, hterm, hmet]
    | _ => exact hrefusal

theorem finish_wrapped (c : Config Expr Term) (actions : Builder) :
    c.wrapped.finish Evaluator.algebra (.met c.dividesByZero) =
      (c.finish Builder.algebra actions).map fun (e, _) => (e.wrapped, .met e.dividesByZero) := by
  cases c with
  | operand front => cases front <;> rfl
  | factor front left scale => rfl
  | complete front ending =>
    obtain ⟨hvalue, hmet⟩ := closed_wrapped front ending actions
    simp only [Config.wrapped, Config.finish, Config.dividesByZero, Except.map, hvalue, hmet]

theorem read_wrapped (c : Config Expr Term) (actions : Builder)
    (contents : List (Except SourceError Lexeme)) :
    (reader Evaluator.algebra 0).read (c.wrapped, .met c.dividesByZero) contents =
      ((reader Builder.algebra .none).read (c, actions) contents).map
        fun (e, _) => (e.wrapped, .met e.dividesByZero) := by
  induction contents generalizing c actions with
  | nil => exact finish_wrapped c actions
  | cons content rest ih =>
    unfold Reader.read
    cases content with
    | error error => rfl
    | ok lexeme =>
      have hnext := next_wrapped c lexeme actions
      simp only [reader, bind, Except.bind, hnext] at ih ⊢
      cases c.next Builder.algebra .none actions lexeme with
      | error error => rfl
      | ok result => exact ih result.1 result.2

/-! ## Texts -/

theorem describes_evaluator : Evaluator.algebra.Describes Evaluator.semantics :=
  ⟨rfl, fun _ => rfl, fun _ => rfl, fun _ => rfl⟩

theorem evaluate_eq (source : String) : evaluate source = tree source >>= Expr.value := by
  have hevaluate : evaluate source = ((reader Evaluator.algebra 0).read (.operand .empty, .met false)
      ((scan source).map Item.content)).mapError .source >>= fun (value, actions) =>
        if actions.divisionByZero then .error (.source .divisionByZero) else .ok value := by
    apply describes_evaluator.result_eq source
    intro p value actions hstatus hactions
    rw [hactions, accepted_eq hstatus rfl]
    rfl
  have hread := read_wrapped (.operand .empty) {} ((scan source).map Item.content)
  simp only [Config.wrapped, Front.wrapped, Config.dividesByZero, Front.dividesByZero] at hread
  rw [hevaluate, hread, tree_eq]
  cases (reader Builder.algebra .none).read (.operand .empty, {}) ((scan source).map Item.content) <;>
    rfl

/-! ## The errors of a tree -/

theorem refusal_ne_divisionByZero (c : Config Expr Term) (lexeme : Lexeme) :
    c.refusal Builder.algebra .none lexeme ≠ .divisionByZero := by
  cases lexeme <;> exact nofun

theorem next_ne_divisionByZero (c : Config Expr Term) (lexeme : Lexeme) (actions : Builder) :
    c.next Builder.algebra .none actions lexeme ≠ .error .divisionByZero := by
  unfold Config.next
  split
  case h_7 =>
    intro h
    exact refusal_ne_divisionByZero c lexeme (Except.error.inj h)
  all_goals exact nofun

theorem read_ne_divisionByZero {contents : List (Except SourceError Lexeme)}
    (h : ∀ content ∈ contents, content ≠ .error .divisionByZero) (c : Config Expr Term)
    (actions : Builder) :
    (reader Builder.algebra .none).read (c, actions) contents ≠ .error .divisionByZero := by
  induction contents generalizing c actions with
  | nil => cases c <;> exact nofun
  | cons content rest ih =>
    rw [List.forall_mem_cons] at h
    unfold Reader.read
    cases content with
    | error error =>
      intro hread
      cases hread
      exact h.1 rfl
    | ok lexeme =>
      have hnext := next_ne_divisionByZero c lexeme actions
      simp only [reader, bind, Except.bind] at ih ⊢
      cases hresult : c.next Builder.algebra .none actions lexeme with
      | error error =>
        intro hread
        cases hread
        exact hnext hresult
      | ok result => exact ih h.2 result.1 result.2

theorem exists_error_of_tree {source : String} {failure : Failure}
    (h : tree source = .error failure) :
    ∃ error, failure = .source error ∧ error ≠ .divisionByZero := by
  have hcontents : ∀ content ∈ (scan source).map Item.content, content ≠ .error .divisionByZero := by
    intro content hcontent
    obtain ⟨item, hitem, rfl⟩ := List.mem_map.mp hcontent
    intro hzero
    obtain ⟨offset, text, heq⟩ := eq_unreadable_of_mem_scanFrom hitem hzero
    cases heq
  have hread := read_ne_divisionByZero hcontents (.operand .empty) {}
  rw [tree_eq] at h
  split at h <;> cases h
  next error hresult =>
    refine ⟨error, rfl, ?_⟩
    rintro rfl
    exact hread hresult

/-! ## Both readings compared -/

/-- A text has no tree exactly if evaluating it fails with an error of the text, and the errors are
the same. A text with a tree has the tree's value in wrapping arithmetic, unless the tree divides by
zero. Where checked evaluation of the tree gives a value, it is this one. -/
theorem evaluate_agrees_with_tree (source : String) :
    (∀ failure, tree source = .error failure ↔
      evaluate source = .error failure ∧
        ∃ error, failure = .source error ∧ error ≠ .divisionByZero) ∧
    (∀ e, tree source = .ok e →
      (evaluate source = .error (.source .divisionByZero) ↔ e.dividesByZero = true) ∧
      (e.dividesByZero = false → evaluate source = .ok e.wrapped)) ∧
    (∀ (e : Expr) (v : Int64), e.eval = some v → e.dividesByZero = false ∧ e.wrapped = v) ∧
    ∀ e v, tree source = .ok e → e.eval = some v → evaluate source = .ok v := by
  have hok {e : Expr} (htree : tree source = .ok e) : evaluate source = e.value := by
    rw [evaluate_eq, htree]
    rfl
  have hvalue {e : Expr} (hzero : e.dividesByZero = false) : e.value = .ok e.wrapped := by
    unfold Expr.value
    rw [hzero]
    rfl
  refine ⟨?_, ?_, fun e v => Expr.wrapped_of_eval, ?_⟩
  · intro failure
    constructor
    · intro htree
      refine ⟨?_, exists_error_of_tree htree⟩
      rw [evaluate_eq, htree]
      rfl
    · rintro ⟨hevaluate, error, rfl, hne⟩
      cases htree : tree source with
      | error failure =>
        rw [evaluate_eq, htree] at hevaluate
        exact congrArg _ (Except.error.inj hevaluate)
      | ok e =>
        rw [hok htree, Expr.value] at hevaluate
        split at hevaluate <;> cases hevaluate
        exact absurd rfl hne
  · intro e htree
    rw [hok htree]
    refine ⟨?_, hvalue⟩
    unfold Expr.value
    cases e.dividesByZero <;> simp
  · intro e v htree heval
    obtain ⟨hzero, rfl⟩ := Expr.wrapped_of_eval heval
    rw [hok htree, hvalue hzero]

/-- The tree of `9223372036854775807 + 7 / 2`. -/
def beyondRange : Expr := .add (.term (.number Int64.maxValue)) (.div (.number 7) 2)

theorem evaluate_agrees_with_tree_beyondRange :
    tree "9223372036854775807 + 7 / 2" = .ok beyondRange ∧ beyondRange.dividesByZero = false ∧
      beyondRange.eval = none ∧
      evaluate "9223372036854775807 + 7 / 2" = .ok (Int64.minValue + 2) := by
  have hlexemes : tokenize "9223372036854775807 + 7 / 2" = .ok beyondRange.yield := by
    decide +kernel
  have htree : tree "9223372036854775807 + 7 / 2" = .ok beyondRange := tree_of_tokenize hlexemes
  have hvalue : beyondRange.wrapped = Int64.minValue + 2 := by decide
  refine ⟨htree, by decide, by decide, ?_⟩
  rw [← hvalue]
  exact ((evaluate_agrees_with_tree _).2.1 beyondRange htree).2 (by decide)

end ShiftReduce.Calculator
