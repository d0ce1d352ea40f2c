import ShiftReduce.Calculator.Evaluator
import ShiftReduce.Proofs.Kinds
import ShiftReduce.Proofs.Parser.Height
import ShiftReduce.Proofs.Source.Reading

/-!
# The samples need little room

Both sample grammars recurse on the left, so the states of their tables lie on a few levels. Eight
slots are enough for the calculator and seven for number lists, on texts of any length; with fewer, a
short text overflows.
-/

namespace ShiftReduce

open ShiftReduce.Parser

/-! ## Runs -/

/-- With so many slots no run over the table overflows, and its stack stays within the height. This
is whatever the productions mean, whatever is posted, and wherever the parser is reset. -/
def Enough {σ τ π : Type} [DecidableEq τ] (table : Table σ τ π) (slots height : Nat) : Prop :=
  ∀ (ν α : Type) (sem : Semantics π ν α) (actions : α) (capacity limit : Nat)
    (commands : List (Command τ ν)), slots ≤ capacity →
    ∀ p ∈ ((create table sem actions capacity).trace table sem limit commands).1,
      p.depth ≤ height ∧ p.isOverflowed = false

/-- With so many slots no sequence of terminals overflows the stack. -/
def NeverFull {σ τ π ν α : Type} [DecidableEq τ] (g : Grammar σ τ π) (sem : Semantics π ν α)
    (capacity : Nat) : Prop :=
  ∀ (actions : α) (limit : Nat) (posts : List (τ × ν)),
    (∀ post ∈ posts, post.1 ∈ g.terminals ++ [g.reserved]) →
    ∀ p ∈ ((create g.toTable sem actions capacity).trace g.toTable sem limit
      (posts.map fun post => .post post.1 post.2)).1, p.isOverflowed = false

theorem Parser.Stratified.enough {σ τ π : Type} [DecidableEq τ] {table : Table σ τ π}
    {level : σ → Nat} {height : Nat} (h : Stratified table level height) :
    Enough table (height + 2) height := by
  intro ν α sem actions capacity limit commands hcapacity p hp
  have hfits := h.fits_trace hcapacity sem actions limit commands p hp
  exact ⟨h.depth_le hcapacity hfits, hfits.live⟩

theorem Enough.neverFull_iff {σ τ π ν α : Type} [DecidableEq τ] {g : Grammar σ τ π}
    {slots height : Nat} (h : Enough g.toTable slots height) {sem : Semantics π ν α}
    (posts : List (τ × ν)) (hterminals : ∀ post ∈ posts, post.1 ∈ g.terminals ++ [g.reserved])
    (hfull : ∀ capacity < slots, ((create g.toTable sem sem.fresh capacity).trace g.toTable sem 3
      (posts.map fun post => .post post.1 post.2)).1.any isOverflowed = true) (capacity : Nat) :
    NeverFull g sem capacity ↔ slots ≤ capacity := by
  constructor
  · intro hnever
    by_contra hless
    obtain ⟨p, hp, hoverflowed⟩ := List.any_eq_true.mp (hfull capacity (by omega))
    have hlive := hnever sem.fresh 3 posts hterminals p hp
    exact absurd (hlive.symm.trans hoverflowed) (by decide)
  · intro hslots actions limit posts _ p hp
    exact (h ν α sem actions capacity limit _ hslots p hp).2

/-! ## Texts -/

/-- The language has room for all its runs, and a lexeme without a token is said to be foreign. -/
structure Language.Roomy {σ τ π ν α : Type} (lang : Language σ τ π ν α) (level : σ → Nat)
    (height : Nat) : Prop where
  stratified : Stratified lang.grammar.toTable level height
  height_le : height + 2 ≤ defaultCapacity
  foreign : ∀ lexeme error, lang.token lexeme = .error error → ∃ label, error = .foreign label

theorem Language.Roomy.ne_overflow {σ τ π ν α : Type} [DecidableEq τ] {lang : Language σ τ π ν α}
    {level : σ → Nat} {height : Nat} (h : lang.Roomy level height) {source : String}
    {p : Parser σ τ π ν α} {error : SourceError} (hread : lang.read source = .ok (p, .error error))
    (capacity : Nat) : error ≠ .parse (.overflow capacity) := by
  rintro rfl
  have hstart : Fits lang.grammar.toTable lang.semantics.blank defaultCapacity lang.parser :=
    fits_create _ _ _ (by decide)
  rcases read_cases (fun _ _ _ _ => h.stratified.fits_post h.height_le) hstart hread with
    ⟨hp, hverdict⟩ | ⟨error, herror, ⟨item, hitem, hcontent⟩ | ⟨lexeme, htoken⟩⟩
  · have hlive := hp.live
    unfold verdict at hverdict
    unfold isOverflowed at hlive
    split at hverdict
    next => cases hverdict
    next hstatus =>
      cases hverdict
      rw [hstatus] at hlive
      cases hlive
    next => cases hverdict
  · cases herror
    obtain ⟨offset, text, heq⟩ := eq_unreadable_of_mem_scanFrom hitem hcontent
    cases heq
  · cases herror
    obtain ⟨label, heq⟩ := h.foreign lexeme _ htoken
    cases heq

theorem Language.Roomy.result_ne {σ τ π ν α β : Type} [DecidableEq τ] {lang : Language σ τ π ν α}
    {level : σ → Nat} {height : Nat} (h : lang.Roomy level height)
    {answer : Parser σ τ π ν α → Except Failure β} {capacity : Nat}
    (hanswer : ∀ p, answer p ≠ .error (.source (.parse (.overflow capacity)))) (source : String) :
    Outcome.result (lang.read source) answer ≠ .error (.source (.parse (.overflow capacity))) := by
  unfold Outcome.result
  intro hresult
  split at hresult
  next => cases hresult
  next p error hread =>
    cases hresult
    exact h.ne_overflow hread capacity rfl
  next p hread => exact hanswer p hresult

theorem accepted_ne_parse {σ τ π ν α β : Type} (kind : Cast ν β) (p : Parser σ τ π ν α)
    (error : ParseError) : p.accepted kind ≠ .error (.source (.parse error)) := by
  unfold Parser.accepted
  split <;> exact nofun

/-! ## The calculator -/

namespace Calculator

def level : Fin 12 → Nat
  | 0 => 0
  | 1 | 2 => 1
  | 3 | 5 => 2
  | 4 | 6 | 7 => 3
  | 8 | 10 => 4
  | 9 | 11 => 5

theorem stratified : Stratified grammar.toTable level 6 where
  climbs := by decide +kernel
  below := by decide
  pops := by decide +kernel

theorem Evaluator.roomy : Evaluator.language.Roomy level 6 where
  stratified := stratified
  height_le := by decide
  foreign lexeme error h := by
    cases lexeme <;> cases h <;> exact ⟨_, rfl⟩

theorem Builder.roomy : Builder.language.Roomy level 6 where
  stratified := stratified
  height_le := by decide
  foreign lexeme error h := by
    cases lexeme <;> cases h <;> exact ⟨_, rfl⟩

/-- `1 + 2 * 3 +` -/
def sums {ν : Type} (number : Int64 → ν) (blank : ν) : List (Token × ν) :=
  [(.number, number 1), (.add, blank), (.number, number 2), (.mul, blank), (.number, number 3),
    (.add, blank)]

end Calculator

/-! ## Number lists -/

namespace NumberList

def level : Fin 10 → Nat
  | 0 => 0
  | 1 | 2 => 1
  | 3 | 4 => 2
  | 7 | 8 => 3
  | 5 | 6 | 9 => 4

theorem stratified : Stratified grammar.toTable level 5 where
  climbs := by decide +kernel
  below := by decide
  pops := by decide +kernel

theorem roomy : language.Roomy level 5 where
  stratified := stratified
  height_le := by decide
  foreign lexeme error h := by
    cases lexeme <;> cases h <;> exact ⟨_, rfl⟩

/-- `( 1 , 2 ,` -/
def pair : List (Token × Value) :=
  [(.leftParen, .none), (.number, .number 1), (.comma, .none), (.number, .number 2),
    (.comma, .none)]

end NumberList

/-! ## Both samples -/

/-- Eight slots are enough for the calculator and seven for number lists, whatever is posted and
however often a run recovers. With fewer, some sequence of terminals overflows. No text does. -/
theorem samples_need_little_room :
    Enough Calculator.grammar.toTable 8 6 ∧
    (∀ capacity, NeverFull Calculator.grammar Calculator.Evaluator.semantics capacity ↔
      8 ≤ capacity) ∧
    (∀ capacity, NeverFull Calculator.grammar Calculator.Builder.semantics capacity ↔
      8 ≤ capacity) ∧
    Enough NumberList.grammar.toTable 7 5 ∧
    (∀ capacity, NeverFull NumberList.grammar NumberList.Builder.semantics capacity ↔
      7 ≤ capacity) ∧
    ∀ source capacity,
      Calculator.evaluate source ≠ .error (.source (.parse (.overflow capacity))) ∧
      Calculator.tree source ≠ .error (.source (.parse (.overflow capacity))) ∧
      NumberList.parse source ≠ .error (.source (.parse (.overflow capacity))) := by
  have hcalculator := Calculator.stratified.enough
  have hlist := NumberList.stratified.enough
  refine ⟨hcalculator, ?_, ?_, hlist, ?_, ?_⟩
  · apply hcalculator.neverFull_iff (Calculator.sums id 0)
    · simp [Calculator.sums, Calculator.grammar]
    · decide +kernel
  · apply hcalculator.neverFull_iff (Calculator.sums .number .none)
    · simp [Calculator.sums, Calculator.grammar]
    · decide +kernel
  · apply hlist.neverFull_iff NumberList.pair
    · simp [NumberList.pair, NumberList.grammar]
    · decide +kernel
  · intro source capacity
    refine ⟨Calculator.Evaluator.roomy.result_ne ?_ source,
      Calculator.Builder.roomy.result_ne (fun p => accepted_ne_parse _ p _) source,
      NumberList.roomy.result_ne (fun p => accepted_ne_parse _ p _) source⟩
    intro p
    split
    next =>
      intro hzero
      cases hzero
    next => exact accepted_ne_parse _ p _

/-- `1 + 2 * 3 +` with eight slots. -/
def Calculator.sumsRun :
    List (Parser (Fin 12) Calculator.Token Calculator.Production Int64 Calculator.Evaluator) ×
      Option Halt :=
  (create Calculator.grammar.toTable Calculator.Evaluator.semantics {} 8).trace
    Calculator.grammar.toTable Calculator.Evaluator.semantics 3
    ((Calculator.sums id 0).map fun post => .post post.1 post.2)

/-- `( 1 , 2 ,` with seven slots. -/
def NumberList.pairRun :
    List (Parser (Fin 10) NumberList.Token NumberList.Production NumberList.Value
      NumberList.Builder) × Option Halt :=
  (create NumberList.grammar.toTable NumberList.Builder.semantics {} 7).trace
    NumberList.grammar.toTable NumberList.Builder.semantics 3
    (NumberList.pair.map fun post => .post post.1 post.2)

theorem samples_need_little_room_short :
    (Calculator.sumsRun.1.length = 7 ∧ 6 ∈ Calculator.sumsRun.1.map depth ∧
      ∀ p ∈ Calculator.sumsRun.1, p.depth ≤ 6 ∧ p.isOverflowed = false) ∧
    NumberList.pairRun.1.length = 6 ∧ 5 ∈ NumberList.pairRun.1.map depth ∧
      ∀ p ∈ NumberList.pairRun.1, p.depth ≤ 5 ∧ p.isOverflowed = false := by
  obtain ⟨hcalculator, -, -, hlist, -, -⟩ := samples_need_little_room
  refine ⟨⟨by decide +kernel, by decide +kernel, ?_⟩, by decide +kernel, by decide +kernel, ?_⟩
  · exact hcalculator _ _ Calculator.Evaluator.semantics {} 8 3 _ (Nat.le_refl 8)
  · exact hlist _ _ NumberList.Builder.semantics {} 7 3 _ (Nat.le_refl 7)

end ShiftReduce
