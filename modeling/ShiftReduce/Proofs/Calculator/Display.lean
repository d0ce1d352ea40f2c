import ShiftReduce.Proofs.Calculator.Yield
import ShiftReduce.Proofs.Source.Scanning

/-!
# Trees written out

Every operation is written in parentheses, so a text is the display of at most one tree. Without its
parentheses it still says enough: read again, it gives back the tree, because the grammar puts the
parentheses where they were.
-/

namespace ShiftReduce.Calculator

open Decimal

/-! ## The outermost operation -/

/-- An expression from the outside: an operation on an expression and a term, or a number. -/
inductive Anatomy
  | operation (left : Expr) (operator : Char) (right : Term)
  | number (value : Int64)

def Expr.anatomy : Expr → Anatomy
  | add left right => .operation left '+' right
  | sub left right => .operation left '-' right
  | term (.mul left right) => .operation (.term left) '*' (.number right)
  | term (.div left right) => .operation (.term left) '/' (.number right)
  | term (.number value) => .number value

theorem Expr.anatomy_injective : Function.Injective Expr.anatomy := by
  intro e e' h
  rcases e with ⟨_, _⟩ | ⟨_, _⟩ | ⟨_ | _ | _⟩ <;> rcases e' with ⟨_, _⟩ | ⟨_, _⟩ | ⟨_ | _ | _⟩ <;>
    simp_all [Expr.anatomy]

variable {e e' left : Expr} {right : Term} {operator : Char} {value : Int64}

theorem Expr.chars_operation (h : e.anatomy = .operation left operator right) :
    e.chars = '(' :: (left.chars ++ ' ' :: operator :: ' ' :: (right.chars ++ [')'])) := by
  unfold anatomy at h
  split at h <;> cases h <;> simp [chars, Term.chars]

theorem Expr.chars_number (h : e.anatomy = .number value) : e.chars = signed value.toInt := by
  unfold anatomy at h
  split at h <;> cases h
  rfl

theorem Expr.yield_operation (h : e.anatomy = .operation left operator right) :
    ∃ lexeme, Lexeme.ofPunctuation? operator = some lexeme ∧
      e.yield = left.yield ++ lexeme :: right.yield := by
  unfold anatomy at h
  split at h <;> cases h <;> exact ⟨_, rfl, rfl⟩

theorem Expr.anatomy_induction {motive : Expr → Prop}
    (operation : ∀ e left operator right, e.anatomy = .operation left operator right →
      motive left → motive (.term right) → motive e)
    (number : ∀ e value, e.anatomy = .number value → motive e) (e : Expr) : motive e := by
  -- The operands are written inside the parentheses, so their texts are shorter.
  induction hn : e.chars.length using Nat.strong_induction_on generalizing e with
  | _ n ih =>
    cases h : e.anatomy with
    | number value => exact number e value h
    | operation left operator right =>
      have hlength := congrArg List.length (Expr.chars_operation h)
      simp only [List.length_cons, List.length_append] at hlength
      have hright : (Expr.term right).chars.length = right.chars.length := rfl
      exact operation e left operator right h (ih _ (by omega) left rfl)
        (ih _ (by omega) (.term right) rfl)

/-! ## No text is the display of two trees -/

theorem signed_append_ne {i : Int} {rest text : List Char} : signed i ++ rest ≠ '(' :: text := by
  obtain ⟨c, run, hsigned⟩ := exists_signed_eq_cons i
  have hc : c = '-' ∨ c.isDigit = true := by
    apply isDigit_of_mem_signed (i := i)
    rw [hsigned]
    exact List.mem_cons_self
  intro h
  rw [hsigned] at h
  cases h
  revert hc
  decide

/-- The display of an expression and the text behind it can be told apart. -/
theorem Expr.chars_append_inj {rest rest' : List Char} (hrest : Delimits rest)
    (hrest' : Delimits rest') (h : e.chars ++ rest = e'.chars ++ rest') :
    e = e' ∧ rest = rest' := by
  induction e using Expr.anatomy_induction generalizing e' rest rest' with
  | number e value he =>
    rw [chars_number he] at h
    cases he' : e'.anatomy with
    | number value' =>
      rw [chars_number he'] at h
      obtain ⟨hvalue, hrests⟩ := signed_append_inj hrest hrest' h
      obtain rfl := Int64.toInt_inj.mp hvalue
      exact ⟨anatomy_injective (he.trans he'.symm), hrests⟩
    | operation left' operator' right' =>
      rw [chars_operation he'] at h
      exact absurd h signed_append_ne
  | operation e left operator right he ihLeft ihRight =>
    rw [chars_operation he] at h
    cases he' : e'.anatomy with
    | number value' =>
      rw [chars_number he'] at h
      exact absurd h.symm signed_append_ne
    | operation left' operator' right' =>
      rw [chars_operation he'] at h
      simp only [List.cons_append, List.append_assoc, List.cons.injEq, true_and] at h
      obtain ⟨rfl, hinner⟩ := ihLeft (delimits_cons (by decide)) (delimits_cons (by decide)) h
      obtain ⟨rfl, hlast⟩ : operator = operator' ∧
          right.chars ++ ')' :: rest = right'.chars ++ ')' :: rest' := by simpa using hinner
      obtain ⟨hright, hrests⟩ : Expr.term right = .term right' ∧ ')' :: rest = ')' :: rest' :=
        ihRight (delimits_cons (by decide)) (delimits_cons (by decide)) hlast
      cases hright
      exact ⟨anatomy_injective (he.trans he'.symm), (List.cons.inj hrests).2⟩

theorem Expr.chars_injective : Function.Injective Expr.chars := by
  intro e e' h
  have happend : e.chars ++ [] = e'.chars ++ [] := congrArg (· ++ []) h
  exact (chars_append_inj delimits_nil delimits_nil happend).1

/-- Trees that are displayed alike are equal, with literals of either sign. -/
theorem displays_injective :
    Function.Injective Expr.display ∧ Function.Injective Term.display := by
  constructor
  · intro e e' h
    exact Expr.chars_injective (String.ofList_injective h)
  · intro t t' h
    have hchars : (Expr.term t).chars = (Expr.term t').chars := String.ofList_injective h
    exact Expr.term.inj (Expr.chars_injective hchars)

/-! ## The display without its parentheses -/

def bare (text : List Char) : List Char := text.filter fun c => c != '(' && c != ')'

def withoutParens (text : String) : String := String.ofList (bare text.toList)

def Term.literals : Term → List Int64
  | mul left right | div left right => left.literals ++ [right]
  | number value => [value]

def Expr.literals : Expr → List Int64
  | add left right | sub left right => left.literals ++ right.literals
  | term t => t.literals

theorem Expr.literals_operation (h : e.anatomy = .operation left operator right) :
    e.literals = left.literals ++ right.literals := by
  unfold anatomy at h
  split at h <;> cases h <;> rfl

theorem Expr.bare_operation (h : e.anatomy = .operation left operator right) :
    bare e.chars = bare left.chars ++ ' ' :: operator :: ' ' :: bare right.chars := by
  unfold anatomy at h
  split at h <;> cases h <;> simp [bare, chars, Term.chars]

theorem bare_signed (i : Int) : bare (signed i) = signed i := by
  apply List.filter_eq_self.mpr
  intro c hc
  rcases isDigit_of_mem_signed hc with rfl | hdigit
  · decide
  · have hopen : c ≠ '(' := by rintro rfl; exact absurd hdigit (by decide)
    have hclose : c ≠ ')' := by rintro rfl; exact absurd hdigit (by decide)
    simp [hopen, hclose]

theorem scan_operator {lexeme : Lexeme} (h : Lexeme.ofPunctuation? operator = some lexeme)
    (offset : Nat) (rest : List Char) :
    ∃ offset', (scanFrom offset (' ' :: operator :: ' ' :: rest)).map Item.content =
      .ok lexeme :: (scanFrom offset' rest).map Item.content := by
  rw [scanFrom_blank (by decide), scanFrom_punctuation h, scanFrom_blank (by decide), List.map_cons]
  exact ⟨_, rfl⟩

theorem Expr.scan_bare (hliterals : ∀ n ∈ e.literals, 0 ≤ n) (offset : Nat) {rest : List Char}
    (hrest : Delimits rest) :
    ∃ offset', (scanFrom offset (bare e.chars ++ rest)).map Item.content =
      e.yield.map .ok ++ (scanFrom offset' rest).map Item.content := by
  induction e using Expr.anatomy_induction generalizing offset rest with
  | number e value he =>
    obtain rfl : e = .term (.number value) := anatomy_injective he
    rw [chars_number he, bare_signed, scanFrom_number (hliterals value List.mem_cons_self) hrest]
    exact ⟨_, rfl⟩
  | operation e left operator right he ihLeft ihRight =>
    rw [literals_operation he] at hliterals
    obtain ⟨hleft, hright⟩ := List.forall_mem_append.mp hliterals
    obtain ⟨lexeme, hlexeme, hyield⟩ := yield_operation he
    have htail : Delimits (' ' :: operator :: ' ' :: (bare right.chars ++ rest)) :=
      delimits_cons (by decide)
    obtain ⟨offset₁, hscanLeft⟩ := ihLeft hleft offset htail
    obtain ⟨offset₂, hscanOperator⟩ := scan_operator hlexeme offset₁ (bare right.chars ++ rest)
    obtain ⟨offset₃, hscanRight⟩ : ∃ offset₃,
        (scanFrom offset₂ (bare right.chars ++ rest)).map Item.content =
          right.yield.map Except.ok ++ (scanFrom offset₃ rest).map Item.content :=
      ihRight hright offset₂ hrest
    refine ⟨offset₃, ?_⟩
    simp only [bare_operation he, List.append_assoc, List.cons_append]
    rw [hscanLeft, hscanOperator, hscanRight, hyield, List.map_append, List.map_cons,
      List.append_assoc, List.cons_append]

/-- Reading the display of a tree without its parentheses gives back the tree, unless a literal is
negative. -/
theorem tree_withoutParens_display (e : Expr) (hliterals : ∀ n ∈ e.literals, 0 ≤ n) :
    tree (withoutParens e.display) = .ok e := by
  have hscan : (scan (withoutParens e.display)).map Item.content = e.yield.map .ok := by
    obtain ⟨offset', hbare⟩ := Expr.scan_bare hliterals 0 delimits_nil
    rw [List.append_nil, scanFrom, List.map_nil, List.append_nil] at hbare
    rw [scan, withoutParens, Expr.display, String.toList_ofList, String.toList_ofList, hbare]
  exact tree_of_tokenize (tokenize_eq_ok_iff.mpr hscan)

/-- The tree of `8 - 6 / 3 * 2 + 9223372036854775807`. -/
def nested : Expr :=
  .add (.sub (.term (.number 8)) (.mul (.div (.number 6) 3) 2)) (.number Int64.maxValue)

theorem tree_withoutParens_display_nested :
    nested.display = "((8 - ((6 / 3) * 2)) + 9223372036854775807)" ∧
      withoutParens nested.display = "8 - 6 / 3 * 2 + 9223372036854775807" ∧
      (∀ n ∈ nested.literals, 0 ≤ n) ∧
      tree (withoutParens nested.display) = .ok nested := by
  have hliterals : ∀ n ∈ nested.literals, 0 ≤ n := by
    have hall : nested.literals.all (fun n => 0 ≤ n) = true := by decide
    simpa using hall
  have htree := tree_withoutParens_display nested hliterals
  exact ⟨by decide +kernel, by decide +kernel, hliterals, htree⟩

end ShiftReduce.Calculator
