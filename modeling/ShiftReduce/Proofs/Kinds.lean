import Mathlib.Data.Fintype.Pi
import ShiftReduce.Calculator.Builder
import ShiftReduce.NumberList.Builder
import ShiftReduce.Proofs.Parser.Typing

/-!
# The builders never meet a value of the wrong kind

The values of the calculator and of number lists are tagged, and their productions check the tags.
Both tables have a typing, so the checks succeed on every sequence of tokens, also where the values
that come with punctuation are junk.
-/

namespace ShiftReduce

open ShiftReduce.Parser

/-! ## Safe runs -/

/-- A run breaches no contract, halts only if it has fewer than three steps for an offer, and accepts
values of the given kind. -/
structure Safe {σ τ π ν α β : Type} (limit : Nat) (kind : Cast ν β)
    (run : List (Parser σ τ π ν α) × Option Halt) : Prop where
  unbreached : ∀ cause, run.2 ≠ some (.breach cause)
  answered : 3 ≤ limit → run.2 = none
  accepted : ∀ p ∈ run.1, ∀ value, p.status = .accepted value →
    ∃ b, value = kind.up b ∧ p.valueAs? kind = .ok (some b)

theorem Typing.Sound.safe {σ τ π ν α κ β : Type} [DecidableEq τ] {ty : Typing σ τ π ν κ}
    {table : Table σ τ π} {sem : Semantics π ν α} (h : ty.Sound table sem)
    (hrank : ∀ s, ty.rank s < 3) (kind : Cast ν β)
    (hresult : ∀ value, ty.holds ty.result value → ∃ b, value = kind.up b)
    (hdown : ∀ b, kind.down (kind.up b) = .ok b) (actions : α) (capacity limit : Nat)
    {commands : List (Command τ ν)} (hoffers : ∀ command ∈ commands, command.Offers ty.Offered) :
    Safe limit kind ((create table sem actions capacity).trace table sem limit commands) := by
  obtain ⟨hhalt, haccepted⟩ := h.trace_safe actions capacity limit hoffers
  constructor
  · intro cause hcause
    obtain ⟨hexhausted, -⟩ := hhalt _ hcause
    cases hexhausted
  · intro hlimit
    refine Option.eq_none_iff_forall_ne_some.mpr ?_
    intro cause hcause
    obtain ⟨-, s, hs⟩ := hhalt cause hcause
    have hbound := hrank s
    omega
  · intro p hp value hstatus
    obtain ⟨b, rfl⟩ := hresult value (haccepted p hp value hstatus)
    refine ⟨b, rfl, ?_⟩
    rw [valueAs?, hstatus]
    simp only [hdown]
    rfl

/-- A terminal or the error token; numbers come with a number, other tokens with anything. -/
def Grammar.Postable {σ τ π ν : Type} (g : Grammar σ τ π) (number : τ) (numbers : Cast ν Int64)
    (token : τ) (value : ν) : Prop :=
  token ∈ g.terminals ++ [g.reserved] ∧ (token = number → ∃ n, value = numbers.up n)

theorem Grammar.Postable.offered {σ τ π ν κ : Type} {g : Grammar σ τ π} {number token : τ}
    {numbers : Cast ν Int64} {value : ν} {ty : Typing σ τ π ν κ}
    (hterminals : ty.terminals = g.terminals ++ [g.reserved])
    (hnumber : ∀ n, ty.Fits (ty.carried number) (numbers.up n))
    (hother : ∀ t, t ≠ number → ty.carried t = none) (h : g.Postable number numbers token value) :
    ty.Offered token value := by
  refine ⟨hterminals ▸ h.1, ?_⟩
  by_cases htoken : token = number
  · obtain ⟨n, rfl⟩ := h.2 htoken
    rw [htoken]
    exact hnumber n
  · rw [hother token htoken]
    exact ty.fits_none value

/-! ## The calculator -/

namespace Calculator

instance : Fintype Token where
  elems := ⟨grammar.tokens, by decide⟩
  complete := by rintro (_ | _) <;> decide

instance : Fintype Production where
  elems := ⟨grammar.productions, by decide⟩
  complete := by rintro (_ | _) <;> decide

inductive Kind
  | number
  | expr
  | term
  deriving DecidableEq

def Kind.Holds : Kind → Node → Prop
  | .number, value => ∃ n, value = .number n
  | .expr, value => ∃ e, value = .expr e
  | .term, value => ∃ t, value = .term t

def typing : Typing (Fin 12) Token Production Node Kind where
  holds := Kind.Holds
  terminals := grammar.terminals ++ [grammar.reserved]
  carried
    | .number => some .number
    | _ => none
  kind
    | 1 => some .expr
    | 2 | 4 | 6 => some .term
    | 7 | 9 | 11 => some .number
    | _ => none
  wanted
    | .start => [none]
    | .sum | .difference => [some .expr, none, some .term]
    | .single => [some .term]
    | .product | .quotient => [some .term, none, some .number]
    | .literal => [some .number]
  made production := if production.lhs = .expr then .expr else .term
  result := .expr
  rank
    | 7 | 9 | 11 => 2
    | 2 | 4 | 6 => 1
    | _ => 0

theorem acts {s : Fin 12} {token : Token} {production : Production}
    (hentry : grammar.entry s token = .reduce production) (values : List Node) (depth : Nat)
    (actions : Builder) (hfits : List.Forall₂ typing.Fits (typing.wanted production) values) :
    ∃ result, Builder.semantics.reduce production ⟨values.length, depth, values⟩ actions =
        .ok result ∧ typing.holds (typing.made production) result.value := by
  cases production with
  | start =>
    have hnever : ∀ s token, grammar.entry s token ≠ .reduce .start := by decide +kernel
    exact absurd hentry (hnever s token)
  | sum | difference =>
    obtain ⟨left, _, right, rfl, hleft, -, hright⟩ := Typing.exists_of_fits_three hfits
    obtain ⟨e, rfl⟩ := hleft _ rfl
    obtain ⟨t, rfl⟩ := hright _ rfl
    exact ⟨_, rfl, _, rfl⟩
  | single =>
    obtain ⟨value, rfl, hvalue⟩ := Typing.exists_of_fits_one hfits
    obtain ⟨t, rfl⟩ := hvalue _ rfl
    exact ⟨_, rfl, _, rfl⟩
  | product | quotient =>
    obtain ⟨left, _, right, rfl, hleft, -, hright⟩ := Typing.exists_of_fits_three hfits
    obtain ⟨t, rfl⟩ := hleft _ rfl
    obtain ⟨n, rfl⟩ := hright _ rfl
    exact ⟨_, rfl, _, rfl⟩
  | literal =>
    obtain ⟨value, rfl, hvalue⟩ := Typing.exists_of_fits_one hfits
    obtain ⟨n, rfl⟩ := hvalue _ rfl
    exact ⟨_, rfl, _, rfl⟩

theorem sound : typing.Sound grammar.toTable Builder.semantics where
  start := rfl
  errorToken := by rintro e ⟨⟩
  goto := by decide +kernel
  shift := by decide +kernel
  accept := by decide +kernel
  reduce := by decide +kernel
  arity := by decide +kernel
  acts _ _ _ := acts

end Calculator

/-! ## Number lists -/

namespace NumberList

instance : Fintype Token where
  elems := ⟨grammar.tokens, by decide⟩
  complete := by rintro (_ | _) <;> decide

instance : Fintype Production where
  elems := ⟨grammar.productions, by decide⟩
  complete := by rintro (_ | _) <;> decide

inductive Kind
  | number
  | list
  deriving DecidableEq

def Kind.Holds : Kind → Value → Prop
  | .number, value => ∃ n, value = .number n
  | .list, value => ∃ items, value = .list items

/-- The frame of an error token may hold anything: its production looks at no value. -/
def typing : Typing (Fin 10) Token Production Value Kind where
  holds := Kind.Holds
  terminals := grammar.terminals ++ [grammar.reserved]
  carried
    | .number => some .number
    | _ => none
  kind
    | 1 | 3 => some .list
    | 4 | 5 | 9 => some .number
    | _ => none
  wanted
    | .start | .lost => [none]
    | .document => [none, some .list, none]
    | .single | .item => [some .number]
    | .append => [some .list, none, some .number]
  made production := if production.lhs = .item then .number else .list
  result := .list
  rank
    | 5 | 6 => 2
    | 4 | 7 | 9 => 1
    | _ => 0

theorem acts {s : Fin 10} {token : Token} {production : Production}
    (hentry : grammar.entry s token = .reduce production) (values : List Value) (depth : Nat)
    (actions : Builder) (hfits : List.Forall₂ typing.Fits (typing.wanted production) values) :
    ∃ result, Builder.semantics.reduce production ⟨values.length, depth, values⟩ actions =
        .ok result ∧ typing.holds (typing.made production) result.value := by
  cases production with
  | start =>
    have hnever : ∀ s token, grammar.entry s token ≠ .reduce .start := by decide +kernel
    exact absurd hentry (hnever s token)
  | document =>
    obtain ⟨_, items, _, rfl, -, hitems, -⟩ := Typing.exists_of_fits_three hfits
    obtain ⟨ns, rfl⟩ := hitems _ rfl
    exact ⟨_, rfl, _, rfl⟩
  | single | item =>
    obtain ⟨value, rfl, hvalue⟩ := Typing.exists_of_fits_one hfits
    obtain ⟨n, rfl⟩ := hvalue _ rfl
    exact ⟨_, rfl, _, rfl⟩
  | append =>
    obtain ⟨items, _, item, rfl, hitems, -, hitem⟩ := Typing.exists_of_fits_three hfits
    obtain ⟨ns, rfl⟩ := hitems _ rfl
    obtain ⟨n, rfl⟩ := hitem _ rfl
    exact ⟨_, rfl, _, rfl⟩
  | lost => exact ⟨_, rfl, _, rfl⟩

theorem sound : typing.Sound grammar.toTable Builder.semantics where
  start := rfl
  errorToken := by rintro e ⟨⟩; decide
  goto := by decide +kernel
  shift := by decide +kernel
  accept := by decide +kernel
  reduce := by decide +kernel
  arity := by decide +kernel
  acts _ _ _ := acts

end NumberList

/-! ## Both samples -/

/-- Whatever tokens are posted, with a number for each number and any junk for the others, and
wherever the parser is reset, neither builder breaches a contract, and what is accepted is an
expression or a list. -/
theorem builders_safe (capacity limit : Nat) :
    (∀ (actions : Calculator.Builder)
      (commands : List (Command Calculator.Token Calculator.Node)),
      (∀ command ∈ commands, command.Offers
        (Calculator.grammar.Postable .number Calculator.Node.numbers)) →
      Safe limit Calculator.Node.exprs
        ((create Calculator.grammar.toTable Calculator.Builder.semantics actions capacity).trace
          Calculator.grammar.toTable Calculator.Builder.semantics limit commands)) ∧
    ∀ (actions : NumberList.Builder)
      (commands : List (Command NumberList.Token NumberList.Value)),
      (∀ command ∈ commands, command.Offers
        (NumberList.grammar.Postable .number NumberList.Value.numbers)) →
      Safe limit NumberList.Value.lists
        ((create NumberList.grammar.toTable NumberList.Builder.semantics actions capacity).trace
          NumberList.grammar.toTable NumberList.Builder.semantics limit commands) := by
  constructor
  · intro actions commands hoffers
    refine Calculator.sound.safe (by decide) Calculator.Node.exprs (fun _ h => h) (fun _ => rfl)
      actions capacity limit ?_
    intro command hcommand
    refine (hoffers command hcommand).mono (Grammar.Postable.offered rfl ?_ (by decide +kernel))
    exact fun n => Typing.fits_some ⟨n, rfl⟩
  · intro actions commands hoffers
    refine NumberList.sound.safe (by decide) NumberList.Value.lists (fun _ h => h) (fun _ => rfl)
      actions capacity limit ?_
    intro command hcommand
    refine (hoffers command hcommand).mono (Grammar.Postable.offered rfl ?_ (by decide +kernel))
    exact fun n => Typing.fits_some ⟨n, rfl⟩

namespace Calculator

/-- `6*7`, with an expression under the operator and a number at the end. -/
def productRun : List (Parser (Fin 12) Token Production Node Builder) × Option Halt :=
  (create grammar.toTable Builder.semantics {} 5).trace grammar.toTable Builder.semantics 3
    [.post .number (.number 6), .post .mul (.expr (.term (.number 0))), .post .number (.number 7),
      .post .finish (.number 1)]

end Calculator

namespace NumberList

/-- `(*,1)`, with numbers and lists under the punctuation, the star and an error token. -/
def junkRun : List (Parser (Fin 10) Token Production Value Builder) × Option Halt :=
  (create grammar.toTable Builder.semantics {} 7).trace grammar.toTable Builder.semantics 3
    [.post .error (.list []), .reset, .post .leftParen (.number 0), .post .star (.list [1]),
      .post .comma (.number 0), .post .number (.number 1), .post .rightParen (.list []),
      .post .finish (.number 1)]

end NumberList

theorem builders_safe_junk :
    Calculator.productRun.1.getLast?.bind Parser.value? =
        some (.expr (.term (.mul (.number 6) 7))) ∧
      Safe 3 Calculator.Node.exprs Calculator.productRun ∧
      NumberList.junkRun.1.getLast?.bind Parser.value? = some (.list [-1, 1]) ∧
      Safe 3 NumberList.Value.lists NumberList.junkRun := by
  obtain ⟨hcalculator, -⟩ := builders_safe 5 3
  obtain ⟨-, hlist⟩ := builders_safe 7 3
  refine ⟨by decide +kernel, hcalculator {} _ ?_, by decide +kernel, hlist {} _ ?_⟩
  · simp [Command.Offers, Grammar.Postable, Calculator.grammar, Calculator.Node.numbers]
  · simp [Command.Offers, Grammar.Postable, NumberList.grammar, NumberList.Value.numbers]

end ShiftReduce
