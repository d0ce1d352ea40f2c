import ShiftReduce.Proofs.Calculator.Evaluation

/-!
# The first item out of place

A calculation is an alternation of numbers and operators that begins and ends with a number. Where
the items of a text leave this alternation, the first item out of place decides the error that the
text is answered with, and the items behind it are never looked at.
-/

namespace ShiftReduce.Calculator

/-! ## Items in and out of place -/

/-- An item of a text, or a scan error in place of one. -/
abbrev Content := Except SourceError Lexeme

def contents (source : String) : List Content := (scan source).map Item.content

/-- Positions count from zero: numbers stand at the even ones, operators at the odd ones. -/
def operatorDue (position : Nat) : Bool := position % 2 == 1

/-- Whether an item may stand at a position. The text may end where an operator is due. -/
def fits (position : Nat) : Option Content → Bool
  | some (.ok (.number _)) => !operatorDue position
  | some (.ok .plus) | some (.ok .minus) | some (.ok .star) | some (.ok .slash) =>
    operatorDue position
  | some (.ok .leftParen) | some (.ok .rightParen) | some (.ok .comma) => false
  | some (.error _) => false
  | none => operatorDue position

/-- The first position whose item, or the end of the text, is out of place. -/
structure Offends (items : List Content) (k : Nat) : Prop where
  le_length : k ≤ items.length
  before : ∀ i < k, fits i items[i]? = true
  here : fits k items[k]? = false

/-- The number of the state behind some items; the list has the last of them first. -/
def stateBehind : List Content → Nat
  | [] => 0
  | .ok .plus :: _ => 3
  | .ok .minus :: _ => 5
  | .ok .star :: _ => 8
  | .ok .slash :: _ => 10
  | .ok (.number _) :: .ok .star :: _ => 9
  | .ok (.number _) :: .ok .slash :: _ => 11
  | _ => 7

/-- What the grammar calls a lexeme, if it has a token for it. -/
def tokenLabel? : Lexeme → Option String
  | .plus => some "add"
  | .minus => some "sub"
  | .star => some "mul"
  | .slash => some "div"
  | .number _ => some "number"
  | .leftParen | .rightParen | .comma => none

/-- The error for an item, or the end of the text, that is out of place behind the given state. -/
def complaint (state : Nat) : Option Content → SourceError
  | some (.error error) => error
  | some (.ok lexeme) =>
    match tokenLabel? lexeme with
    | some label => .parse (.unexpected label state)
    | none => .foreign lexeme.label
  | none => .parse (.unexpected "end" state)

def offence (items : List Content) (k : Nat) : SourceError :=
  complaint (stateBehind (items.take k).reverse) items[k]?

/-! ## Shapes and the items behind them -/

theorem operatorDue_succ (n : Nat) : operatorDue (n + 1) = !operatorDue n := by
  unfold operatorDue
  rcases Nat.mod_two_eq_zero_or_one n with h | h <;> simp [Nat.add_mod, h]

def Config.isComplete : Config Expr Term → Bool
  | complete _ _ => true
  | _ => false

/-- The shape that some items, the last of them first, have led to. -/
structure Stands (c : Config Expr Term) (behind : List Content) : Prop where
  state_eq : c.state.val = stateBehind behind
  isComplete_eq : c.isComplete = operatorDue behind.length

variable {c : Config Expr Term} {behind rest items : List Content} {lexeme : Lexeme}
  {blank : Node} {actions : Builder} {source : String} {j k : Nat}

theorem stands_start : Stands (.operand .empty) [] := ⟨rfl, rfl⟩

theorem refusal_eq (c : Config Expr Term) (lexeme : Lexeme) :
    c.refusal Builder.algebra blank lexeme = complaint c.state (some (.ok lexeme)) := by
  cases lexeme <;> rfl

theorem stateBehind_number {n : Int64} (hstar : stateBehind behind ≠ 8)
    (hslash : stateBehind behind ≠ 10) : stateBehind (.ok (.number n) :: behind) = 7 := by
  cases behind with
  | nil => rfl
  | cons content rest =>
    cases content with
    | error error => rfl
    | ok lexeme =>
      cases lexeme with
      | star => exact absurd rfl hstar
      | slash => exact absurd rfl hslash
      | _ => rfl

theorem Front.state_ne (front : Front Expr) : front.state.val ≠ 8 ∧ front.state.val ≠ 10 := by
  cases front with
  | empty => decide
  | after left sign => cases sign <;> exact ⟨nofun, nofun⟩

theorem stateBehind_number_of_scale {scale : Scale} {n : Int64}
    (h : scale.state.val = stateBehind behind) :
    scale.numberState.val = stateBehind (.ok (.number n) :: behind) := by
  unfold stateBehind at h
  split at h <;> cases scale <;> first | rfl | cases h

theorem Stands.next_of_fits (h : Stands c behind) (blank : Node) (actions : Builder)
    (hfits : fits behind.length (some (.ok lexeme)) = true) :
    ∃ c' actions', c.next Builder.algebra blank actions lexeme = .ok (c', actions') ∧
      Stands c' (.ok lexeme :: behind) := by
  have hdue := operatorDue_succ behind.length
  rw [← h.isComplete_eq] at hdue
  cases c with
  | operand front =>
    cases lexeme with
    | number n =>
      obtain ⟨hstar, hslash⟩ := front.state_ne
      have hstate : front.state.val = stateBehind behind := h.state_eq
      rw [hstate] at hstar hslash
      exact ⟨_, _, rfl, (stateBehind_number hstar hslash).symm, hdue.symm⟩
    | _ => simp [fits, ← h.isComplete_eq, Config.isComplete] at hfits
  | factor front left scale =>
    cases lexeme with
    | number n => exact ⟨_, _, rfl, stateBehind_number_of_scale h.state_eq, hdue.symm⟩
    | _ => simp [fits, ← h.isComplete_eq, Config.isComplete] at hfits
  | complete front ending =>
    cases lexeme with
    | plus | minus | star | slash => exact ⟨_, _, rfl, rfl, hdue.symm⟩
    | _ => simp [fits, ← h.isComplete_eq, Config.isComplete] at hfits

theorem Stands.next_of_not_fits (h : Stands c behind)
    (hfits : fits behind.length (some (.ok lexeme)) = false) :
    c.next Builder.algebra blank actions lexeme =
      .error (complaint (stateBehind behind) (some (.ok lexeme))) := by
  have hrefusal : c.refusal Builder.algebra blank lexeme =
      complaint (stateBehind behind) (some (.ok lexeme)) := by
    rw [refusal_eq, h.state_eq]
  rw [← hrefusal]
  cases c with
  | operand front | factor front left scale =>
    cases lexeme with
    | number n => simp [fits, ← h.isComplete_eq, Config.isComplete] at hfits
    | _ => rfl
  | complete front ending =>
    cases lexeme with
    | plus | minus | star | slash => simp [fits, ← h.isComplete_eq, Config.isComplete] at hfits
    | _ => rfl

theorem Stands.finish_of_fits (h : Stands c behind) (hfits : fits behind.length none = true) :
    ∃ result, c.finish Builder.algebra actions = .ok result := by
  rw [fits, ← h.isComplete_eq] at hfits
  cases c with
  | complete front ending => exact ⟨_, rfl⟩
  | operand front | factor front left scale => cases hfits

theorem Stands.finish_of_not_fits (h : Stands c behind)
    (hfits : fits behind.length none = false) :
    c.finish Builder.algebra actions = .error (complaint (stateBehind behind) none) := by
  rw [fits, ← h.isComplete_eq] at hfits
  rw [← h.state_eq]
  cases c with
  | complete front ending => cases hfits
  | operand front | factor front left scale => rfl

/-! ## Reading up to the first offence -/

theorem Offends.unique (h : Offends items k) (h' : Offends items j) : k = j := by
  rcases Nat.lt_trichotomy k j with hlt | heq | hlt
  · exact absurd (h'.before k hlt) (by simp [h.here])
  · exact heq
  · exact absurd (h.before j hlt) (by simp [h'.here])

theorem getElem?_behind (behind rest : List Content) :
    (behind.reverse ++ rest)[behind.length]? = rest.head? := by
  rw [List.getElem?_append_right (Nat.le_of_eq List.length_reverse), List.length_reverse,
    Nat.sub_self, List.head?_eq_getElem?]

theorem offence_behind (behind rest : List Content) :
    offence (behind.reverse ++ rest) behind.length = complaint (stateBehind behind) rest.head? := by
  rw [offence, getElem?_behind, List.take_left' (by rw [List.length_reverse]), List.reverse_reverse]

theorem offends_behind
    (hbehind : ∀ i < behind.length, fits i (behind.reverse ++ rest)[i]? = true)
    (hfits : fits behind.length rest.head? = false) :
    Offends (behind.reverse ++ rest) behind.length := by
  refine ⟨by simp, hbehind, ?_⟩
  rw [getElem?_behind, hfits]

/-- From a shape that items in their places have led to, the rest is read to the end, or up to the
first offence. -/
theorem Stands.read_cases (h : Stands c behind) (blank : Node) (actions : Builder)
    (rest : List Content)
    (hbehind : ∀ i < behind.length, fits i (behind.reverse ++ rest)[i]? = true) :
    (∃ result, (reader Builder.algebra blank).read (c, actions) rest = .ok result) ∧
        (∀ i ≤ (behind.reverse ++ rest).length, fits i (behind.reverse ++ rest)[i]? = true) ∨
      ∃ k, Offends (behind.reverse ++ rest) k ∧
        (reader Builder.algebra blank).read (c, actions) rest =
          .error (offence (behind.reverse ++ rest) k) := by
  -- Each item that is in its place moves from the rest to what lies behind.
  induction rest generalizing c behind actions with
  | nil =>
    cases hfits : fits behind.length none with
    | true =>
      refine .inl ⟨h.finish_of_fits hfits, ?_⟩
      intro i hi
      rw [List.append_nil, List.length_reverse] at hi
      rcases Nat.lt_or_eq_of_le hi with hlt | rfl
      · exact hbehind i hlt
      · rw [getElem?_behind]
        exact hfits
    | false =>
      refine .inr ⟨behind.length, offends_behind hbehind hfits, ?_⟩
      rw [offence_behind]
      exact h.finish_of_not_fits hfits
  | cons content rest ih =>
    cases hfits : fits behind.length (some content) with
    | true =>
      cases content with
      | error error => cases hfits
      | ok lexeme =>
        obtain ⟨c', actions', hnext, hstands⟩ := h.next_of_fits blank actions hfits
        have hread : (reader Builder.algebra blank).read (c, actions) (.ok lexeme :: rest) =
            (reader Builder.algebra blank).read (c', actions') rest := by
          rw [Reader.read]
          simp only [reader, bind, Except.bind, hnext]
        have hsplit : behind.reverse ++ .ok lexeme :: rest =
            ((.ok lexeme : Content) :: behind).reverse ++ rest := by simp
        rw [hread, hsplit]
        refine ih hstands actions' ?_
        intro i hi
        rw [← hsplit]
        rcases Nat.lt_or_eq_of_le (Nat.le_of_lt_succ hi) with hlt | rfl
        · exact hbehind i hlt
        · rw [getElem?_behind]
          exact hfits
    | false =>
      refine .inr ⟨behind.length, offends_behind hbehind hfits, ?_⟩
      rw [offence_behind, Reader.read]
      cases content with
      | error error => rfl
      | ok lexeme =>
        simp only [reader, bind, Except.bind, h.next_of_not_fits hfits]
        rfl

/-! ## Texts -/

theorem tree_cases (source : String) :
    (∃ e, tree source = .ok e) ∧ (∀ k, ¬ Offends (contents source) k) ∨
      ∃ k, Offends (contents source) k ∧
        tree source = .error (.source (offence (contents source) k)) := by
  have hread := stands_start.read_cases .none {} (contents source) nofun
  rw [List.reverse_nil, List.nil_append] at hread
  rw [tree_eq]
  rcases hread with ⟨⟨⟨e, actions⟩, hresult⟩, hfits⟩ | ⟨k, hoffends, hresult⟩
  · refine .inl ⟨⟨e, ?_⟩, ?_⟩
    · rw [contents] at hresult
      rw [hresult]
    · intro k hk
      exact absurd (hfits k hk.le_length) (by simp [hk.here])
  · refine .inr ⟨k, hoffends, ?_⟩
    rw [contents] at hresult ⊢
    rw [hresult]

theorem Offends.congr (h : Offends items k) (htake : rest.take (k + 1) = items.take (k + 1)) :
    Offends rest k ∧ offence rest k = offence items k := by
  have hget {i : Nat} (hi : i ≤ k) : rest[i]? = items[i]? := by
    rw [← List.getElem?_take_of_lt (Nat.lt_succ_of_le hi), htake,
      List.getElem?_take_of_lt (Nat.lt_succ_of_le hi)]
  have hbefore : rest.take k = items.take k := by
    have := congrArg (List.take k) htake
    simpa [List.take_take] using this
  constructor
  · constructor
    · have hlength := congrArg List.length hbefore
      rw [List.length_take, List.length_take, Nat.min_eq_left h.le_length] at hlength
      omega
    · intro i hi
      rw [hget (Nat.le_of_lt hi)]
      exact h.before i hi
    · rw [hget (Nat.le_refl k)]
      exact h.here
  · rw [offence, offence, hbefore, hget (Nat.le_refl k)]

theorem Offends.tree_eq (h : Offends (contents source) k) :
    tree source = .error (.source (offence (contents source) k)) := by
  rcases tree_cases source with ⟨-, hfits⟩ | ⟨j, hj, htree⟩
  · exact absurd h (hfits k)
  · rw [htree, h.unique hj]

theorem Offends.evaluate_eq (h : Offends (contents source) k) :
    evaluate source = .error (.source (offence (contents source) k)) := by
  rw [Calculator.evaluate_eq, h.tree_eq]
  rfl

theorem Offends.ne_divisionByZero (h : Offends (contents source) k) :
    offence (contents source) k ≠ .divisionByZero := by
  obtain ⟨error, hfailure, hne⟩ := exists_error_of_tree h.tree_eq
  cases hfailure
  exact hne

/-- The first offence of a text decides what both of its readings are answered with, and nothing
that stands behind it matters. Only a text without an offence has a tree or divides by zero. -/
theorem first_offence_decides (source : String) :
    (∀ k, Offends (contents source) k →
      evaluate source = .error (.source (offence (contents source) k)) ∧
      tree source = .error (.source (offence (contents source) k)) ∧
      ∀ other, (contents other).take (k + 1) = (contents source).take (k + 1) →
        evaluate other = evaluate source ∧ tree other = tree source) ∧
    ((∃ e, tree source = .ok e) ↔ ∀ k, ¬ Offends (contents source) k) ∧
    (evaluate source = .error (.source .divisionByZero) ∨
        tree source = .error (.source .divisionByZero) →
      ∀ k, ¬ Offends (contents source) k) := by
  refine ⟨?_, ?_, ?_⟩
  · intro k h
    refine ⟨h.evaluate_eq, h.tree_eq, ?_⟩
    intro other htake
    obtain ⟨hother, heq⟩ := h.congr htake
    rw [hother.evaluate_eq, hother.tree_eq, heq, h.evaluate_eq, h.tree_eq]
    exact ⟨rfl, rfl⟩
  · constructor
    · rintro ⟨e, he⟩ k h
      rw [h.tree_eq] at he
      cases he
    · intro hfits
      rcases tree_cases source with ⟨htree, -⟩ | ⟨k, h, -⟩
      · exact htree
      · exact absurd h (hfits k)
  · intro hzero k h
    rw [h.evaluate_eq, h.tree_eq] at hzero
    rcases hzero with heq | heq <;>
    · injection heq with heq
      injection heq with heq
      exact h.ne_divisionByZero heq

theorem first_offence_decides_number :
    Offends (contents "7 * 2 3 ) @") 3 ∧
      evaluate "7 * 2 3 ) @" = .error (.source (.parse (.unexpected "number" 9))) ∧
      evaluate "7*2 3" = evaluate "7 * 2 3 ) @" := by
  have hcontents : contents "7 * 2 3 ) @" = [.ok (.number 7), .ok .star, .ok (.number 2),
      .ok (.number 3), .ok .rightParen, .error (.unreadable 10 "@")] := by decide +kernel
  have hother : contents "7*2 3" = [.ok (.number 7), .ok .star, .ok (.number 2),
      .ok (.number 3)] := by decide +kernel
  have hoffends : Offends (contents "7 * 2 3 ) @") 3 := by
    rw [hcontents]
    exact ⟨by decide, by decide, by decide⟩
  obtain ⟨hevaluate, -, hbehind⟩ := (first_offence_decides "7 * 2 3 ) @").1 3 hoffends
  refine ⟨hoffends, ?_, (hbehind "7*2 3" ?_).1⟩
  · rw [hevaluate, hcontents]
    rfl
  · rw [hcontents, hother]
    rfl

end ShiftReduce.Calculator
