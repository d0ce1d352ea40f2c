import Mathlib.Data.Int.ModEq
import ShiftReduce.Proofs.Calculator.Evaluation
import ShiftReduce.Proofs.Source.Rendering

/-!
# Exact values

A text that divides nowhere evaluates to the exact value of what it spells out, taken modulo 2⁶⁴.
Reducing modulo 2⁶⁴ is compatible with sums, differences and products, so it makes no difference how
often the evaluator wraps around on its way.
-/

namespace ShiftReduce.Calculator

/-! ## Values over the unbounded integers -/

/-- The sum of `total` and the products spelled out by the lexemes, the first of which goes on from
`product`. A sign begins a product of its own, so multiplication binds tighter than the signs do, and
each sign applies to one product only. -/
def sumFrom (total product : Int) : List Lexeme → Int
  | .number n :: rest => sumFrom total (product * n.toInt) rest
  | .star :: rest => sumFrom total product rest
  | .plus :: rest => sumFrom (total + product) 1 rest
  | .minus :: rest => sumFrom (total + product) (-1) rest
  | _ => total + product

/-- The value of a sum of products over the unbounded integers. -/
def sumOfProducts (lexemes : List Lexeme) : Int := sumFrom 0 1 lexemes

def Term.exact : Term → Int
  | mul left right => left.exact * right.toInt
  | div left right => left.exact.tdiv right.toInt
  | number value => value.toInt

def Expr.exact : Expr → Int
  | add left right => left.exact + right.exact
  | sub left right => left.exact - right.exact
  | term t => t.exact

/-! ## Trees without a division -/

variable {t : Term} {e : Expr}

theorem sumFrom_term (h : .slash ∉ t.yield) (total product : Int) (rest : List Lexeme) :
    sumFrom total product (t.yield ++ rest) = sumFrom total (product * t.exact) rest := by
  induction t generalizing rest with
  | mul left right ih =>
    simp only [Term.yield, List.mem_append, not_or] at h
    simp only [Term.yield, Term.exact, List.append_assoc, List.cons_append, List.nil_append]
    rw [ih h.1, sumFrom, sumFrom, mul_assoc]
  | div left right ih => simp [Term.yield] at h
  | number value => rfl

theorem exists_sumFrom_expr (h : .slash ∉ e.yield) :
    ∃ total product, total + product = e.exact ∧
      ∀ rest, sumFrom 0 1 (e.yield ++ rest) = sumFrom total product rest := by
  -- A sign closes the product in front of it, so behind the sign the total is the left operand.
  induction e with
  | add left right ih =>
    simp only [Expr.yield, List.mem_append, List.mem_cons, not_or] at h
    obtain ⟨total, product, hvalue, hleft⟩ := ih h.1
    refine ⟨left.exact, right.exact, rfl, ?_⟩
    intro rest
    rw [Expr.yield, List.append_assoc, hleft, List.cons_append, sumFrom, sumFrom_term h.2.2, hvalue,
      one_mul]
  | sub left right ih =>
    simp only [Expr.yield, List.mem_append, List.mem_cons, not_or] at h
    obtain ⟨total, product, hvalue, hleft⟩ := ih h.1
    refine ⟨left.exact, -right.exact, (sub_eq_add_neg _ _).symm, ?_⟩
    intro rest
    rw [Expr.yield, List.append_assoc, hleft, List.cons_append, sumFrom, sumFrom_term h.2.2, hvalue,
      neg_one_mul]
  | term t =>
    refine ⟨0, t.exact, zero_add _, ?_⟩
    intro rest
    rw [Expr.yield, sumFrom_term h, one_mul]

theorem sumOfProducts_yield (h : .slash ∉ e.yield) : sumOfProducts e.yield = e.exact := by
  obtain ⟨total, product, hvalue, hsum⟩ := exists_sumFrom_expr h
  rw [sumOfProducts, ← List.append_nil e.yield, hsum, ← hvalue]
  rfl

example : sumOfProducts [.number 7, .minus, .number 2, .star, .number 3, .plus, .number 4] = 5 := by
  decide

theorem Term.wrapped_eq_ofInt (h : .slash ∉ t.yield) :
    t.dividesByZero = false ∧ t.wrapped = Int64.ofInt t.exact := by
  induction t with
  | mul left right ih =>
    simp only [Term.yield, List.mem_append, not_or] at h
    obtain ⟨hzero, hleft⟩ := ih h.1
    refine ⟨hzero, ?_⟩
    rw [Term.wrapped, Term.exact, hleft, Int64.ofInt_mul, Int64.ofInt_toInt]
  | div left right ih => simp [Term.yield] at h
  | number value => exact ⟨rfl, value.ofInt_toInt.symm⟩

theorem Expr.wrapped_eq_ofInt (h : .slash ∉ e.yield) :
    e.dividesByZero = false ∧ e.wrapped = Int64.ofInt e.exact := by
  induction e with
  | add left right ih =>
    simp only [Expr.yield, List.mem_append, List.mem_cons, not_or] at h
    obtain ⟨hzero, hleft⟩ := ih h.1
    obtain ⟨hzero', hright⟩ := Term.wrapped_eq_ofInt h.2.2
    constructor
    · simp only [Expr.dividesByZero, hzero, hzero', Bool.or_false]
    · rw [Expr.wrapped, Expr.exact, hleft, hright, Int64.ofInt_add]
  | sub left right ih =>
    simp only [Expr.yield, List.mem_append, List.mem_cons, not_or] at h
    obtain ⟨hzero, hleft⟩ := ih h.1
    obtain ⟨hzero', hright⟩ := Term.wrapped_eq_ofInt h.2.2
    constructor
    · simp only [Expr.dividesByZero, hzero, hzero', Bool.or_false]
    · rw [Expr.wrapped, Expr.exact, hleft, hright, Int64.ofInt_sub]
  | term t => exact Term.wrapped_eq_ofInt h

/-! ## Texts without a slash -/

theorem exists_chars_subset {source : String} {lexemes : List Lexeme} {lexeme : Lexeme}
    (h : tokenize source = .ok lexemes) (hmem : lexeme ∈ lexemes) :
    ∃ zeros, lexeme.chars zeros ⊆ source.toList := by
  obtain ⟨spellings, rest, -, rfl, htext⟩ := exists_legible (tokenize_eq_ok_iff.mp h)
  obtain ⟨s, hs, rfl⟩ := List.mem_map.mp hmem
  refine ⟨s.zeros, ?_⟩
  intro c hc
  rw [htext, render]
  apply List.mem_append_left
  exact List.mem_flatMap.mpr ⟨s, hs, List.mem_append_right _ hc⟩

theorem slash_notMem_yield {source : String} (htree : tree source = .ok e)
    (hslash : '/' ∉ source.toList) : .slash ∉ e.yield := by
  intro hmem
  obtain ⟨zeros, hchars⟩ := exists_chars_subset (tokenize_of_tree htree) hmem
  exact hslash (hchars (List.mem_singleton_self '/'))

/-! ## Residues -/

theorem toInt_modEq_iff {value : Int64} {n : Int} :
    value.toInt ≡ n [ZMOD 2 ^ 64] ↔ value = Int64.ofInt n := by
  constructor
  · intro h
    have hvalue : value.toInt.bmod (2 ^ 64) = value.toInt :=
      (Int64.ofInt_eq_iff_bmod_eq_toInt _ _).mp value.ofInt_toInt
    apply Eq.symm
    rw [Int64.ofInt_eq_iff_bmod_eq_toInt, ← hvalue, ← Int.emod_bmod n, ← Int.emod_bmod value.toInt]
    exact congrArg (Int.bmod · (2 ^ 64)) h.symm
  · rintro rfl
    rw [Int64.toInt_ofInt]
    exact Int.bmod_emod

/-- A text with a tree but without a slash evaluates to the only value of 64 bits that is congruent
modulo 2⁶⁴ to the sum of products that its lexemes spell out over the unbounded integers. -/
theorem evaluate_modEq_sumOfProducts {source : String} {e : Expr} (htree : tree source = .ok e)
    (hslash : '/' ∉ source.toList) :
    ∃ lexemes value, tokenize source = .ok lexemes ∧ sumOfProducts lexemes = e.exact ∧
      evaluate source = .ok value ∧
      ∀ v : Int64, v.toInt ≡ sumOfProducts lexemes [ZMOD 2 ^ 64] ↔ v = value := by
  have hyield := slash_notMem_yield htree hslash
  obtain ⟨hzero, hwrapped⟩ := Expr.wrapped_eq_ofInt hyield
  refine ⟨e.yield, e.wrapped, tokenize_of_tree htree, sumOfProducts_yield hyield, ?_, ?_⟩
  · rw [evaluate_eq, htree]
    change e.value = .ok e.wrapped
    rw [Expr.value, hzero]
    rfl
  · intro v
    rw [sumOfProducts_yield hyield, hwrapped]
    exact toInt_modEq_iff

/-- The tree of `9223372036854775807 * 3 + 9223372036854775807 - 2`. -/
def beyondRangeTwice : Expr :=
  .sub (.add (.term (.mul (.number Int64.maxValue) 3)) (.number Int64.maxValue)) (.number 2)

/-- The product wraps around and so does the sum; the exact value is 2⁶⁵ - 6. -/
theorem evaluate_modEq_sumOfProducts_beyondRangeTwice :
    tree "9223372036854775807 * 3 + 9223372036854775807 - 2" = .ok beyondRangeTwice ∧
      '/' ∉ "9223372036854775807 * 3 + 9223372036854775807 - 2".toList ∧
      evaluate "9223372036854775807 * 3 + 9223372036854775807 - 2" = .ok (-6) := by
  have hlexemes : tokenize "9223372036854775807 * 3 + 9223372036854775807 - 2" =
      .ok beyondRangeTwice.yield := by decide +kernel
  have htree : tree "9223372036854775807 * 3 + 9223372036854775807 - 2" = .ok beyondRangeTwice :=
    tree_of_tokenize hlexemes
  have hslash : '/' ∉ "9223372036854775807 * 3 + 9223372036854775807 - 2".toList := by decide
  obtain ⟨lexemes, value, -, hsum, hevaluate, hvalue⟩ :=
    evaluate_modEq_sumOfProducts htree hslash
  have hexact : beyondRangeTwice.exact = 2 ^ 65 - 6 := by decide
  have hvalue' : -6 = value := (hvalue (-6)).mp (by rw [hsum, hexact]; decide)
  refine ⟨htree, hslash, ?_⟩
  rw [hevaluate, ← hvalue']

end ShiftReduce.Calculator
