import ShiftReduce.Calculator.Builder
import ShiftReduce.Proofs.Calculator.Configuration

/-!
# The tree of a text

The yield of a tree is its lexemes in order. A text has a tree exactly if its lexemes are the yield of
one, and then it has no other.
-/

namespace ShiftReduce.Calculator

open ShiftReduce.Parser

/-! ## Yields -/

def Term.yield : Term → List Lexeme
  | mul left right => left.yield ++ [.star, .number right]
  | div left right => left.yield ++ [.slash, .number right]
  | number value => [.number value]

def Expr.yield : Expr → List Lexeme
  | add left right => left.yield ++ .plus :: right.yield
  | sub left right => left.yield ++ .minus :: right.yield
  | term t => t.yield

def Sign.lexeme : Sign → Lexeme
  | plus => .plus
  | minus => .minus

def Scale.lexeme : Scale → Lexeme
  | times => .star
  | per => .slash

def Front.yield : Front Expr → List Lexeme
  | empty => []
  | after left sign => left.yield ++ [sign.lexeme]

def Ending.yield : Ending Term → List Lexeme
  | literal number => [.number number]
  | scaled left scale number => left.yield ++ [scale.lexeme, .number number]

/-- The lexemes that have led to a shape. -/
def Config.yield : Config Expr Term → List Lexeme
  | operand front => front.yield
  | factor front left scale => front.yield ++ left.yield ++ [scale.lexeme]
  | complete front ending => front.yield ++ ending.yield

/-! ## Soundness -/

variable {blank : Node} {actions actions' : Builder} {c c' : Config Expr Term} {e : Expr}

theorem yield_ending (ending : Ending Term) (actions : Builder) :
    (ending.close Builder.algebra actions).value.yield = ending.yield := by
  cases ending with
  | literal number => rfl
  | scaled left scale number => cases scale <;> rfl

theorem yield_front (front : Front Expr) (term : Term) (actions : Builder) :
    (front.close Builder.algebra term actions).value.yield = front.yield ++ term.yield := by
  cases front with
  | empty => rfl
  | after left sign =>
    cases sign <;> simp [Front.close, Sign.apply, Builder.algebra, Builder.make, Expr.yield,
      Front.yield, Sign.lexeme]

theorem yield_closed (front : Front Expr) (ending : Ending Term) (actions : Builder) :
    (Config.closed Builder.algebra front ending actions).value.yield =
      front.yield ++ ending.yield := by
  unfold Config.closed
  rw [yield_front, yield_ending]

theorem yield_next {lexeme : Lexeme}
    (h : c.next Builder.algebra blank actions lexeme = .ok (c', actions')) :
    c'.yield = c.yield ++ [lexeme] := by
  unfold Config.next at h
  split at h <;> cases h
  next front n => rfl
  next front left scale n =>
    simp only [Config.yield, Ending.yield, List.append_assoc, List.cons_append, List.nil_append]
  next front ending =>
    rw [Config.yield, Front.yield, yield_closed]
    rfl
  next front ending =>
    rw [Config.yield, Front.yield, yield_closed]
    rfl
  next front ending =>
    rw [Config.yield, yield_ending]
    rfl
  next front ending =>
    rw [Config.yield, yield_ending]
    rfl

theorem yield_finish (h : c.finish Builder.algebra actions = .ok (e, actions')) :
    e.yield = c.yield := by
  unfold Config.finish at h
  split at h <;> cases h
  next front ending => exact yield_closed front ending actions

theorem yield_read {contents : List (Except SourceError Lexeme)}
    (h : (reader Builder.algebra blank).read (c, actions) contents = .ok (e, actions')) :
    ∃ lexemes, contents = lexemes.map .ok ∧ e.yield = c.yield ++ lexemes := by
  -- The yield of the shape grows by each lexeme read, so at the end it is all of them.
  induction contents generalizing c actions with
  | nil => exact ⟨[], rfl, by rw [yield_finish h, List.append_nil]⟩
  | cons content rest ih =>
    unfold Reader.read at h
    obtain ⟨lexeme, rfl, hrest⟩ := bind_eq_ok.mp h
    obtain ⟨⟨c₁, actions₁⟩, hnext, hread⟩ := bind_eq_ok.mp hrest
    obtain ⟨lexemes, rfl, hyield⟩ := ih hread
    refine ⟨lexeme :: lexemes, rfl, ?_⟩
    rw [hyield, yield_next hnext, List.append_assoc]
    rfl

/-! ## Completeness -/

def Term.ending : Term → Ending Term
  | mul left right => .scaled left .times right
  | div left right => .scaled left .per right
  | number value => .literal value

def Expr.front : Expr → Front Expr
  | add left _ => .after left .plus
  | sub left _ => .after left .minus
  | term _ => .empty

def Expr.ending : Expr → Ending Term
  | add _ right => right.ending
  | sub _ right => right.ending
  | term t => t.ending

theorem close_ending (t : Term) (actions : Builder) :
    (t.ending.close Builder.algebra actions).value = t := by
  cases t <;> rfl

theorem closed_expr (e : Expr) (actions : Builder) :
    (Config.closed Builder.algebra e.front e.ending actions).value = e := by
  cases e with
  | add left right =>
    simp only [Config.closed, Expr.front, Expr.ending, close_ending]
    rfl
  | sub left right =>
    simp only [Config.closed, Expr.front, Expr.ending, close_ending]
    rfl
  | term t =>
    simp only [Config.closed, Expr.front, Expr.ending, close_ending]
    rfl

theorem read_scaled (blank : Node) (left : Term) (scale : Scale) (right : Int64)
    (front : Front Expr) (actions : Builder) (rest : List (Except SourceError Lexeme)) :
    (reader Builder.algebra blank).read (.complete front left.ending, actions)
        (.ok scale.lexeme :: .ok (.number right) :: rest) =
      (reader Builder.algebra blank).read (.complete front (.scaled left scale right),
        (left.ending.close Builder.algebra actions).actions) rest := by
  cases scale <;>
  · simp only [Reader.read, reader, Config.next, Scale.lexeme, bind, Except.bind, close_ending]

theorem read_sign (blank : Node) (left : Expr) (sign : Sign) (actions : Builder)
    (rest : List (Except SourceError Lexeme)) :
    (reader Builder.algebra blank).read (.complete left.front left.ending, actions)
        (.ok sign.lexeme :: rest) =
      (reader Builder.algebra blank).read (.operand (.after left sign),
        (Config.closed Builder.algebra left.front left.ending actions).actions) rest := by
  cases sign <;>
  · simp only [Reader.read, reader, Config.next, Sign.lexeme, bind, Except.bind, closed_expr]

theorem read_term (blank : Node) (t : Term) (front : Front Expr) (actions : Builder)
    (rest : List (Except SourceError Lexeme)) :
    ∃ actions', (reader Builder.algebra blank).read (.operand front, actions)
        (t.yield.map .ok ++ rest) =
      (reader Builder.algebra blank).read (.complete front t.ending, actions') rest := by
  induction t generalizing rest with
  | mul left right ih =>
    obtain ⟨actions', hleft⟩ := ih (.ok .star :: .ok (.number right) :: rest)
    rw [Term.yield, List.map_append, List.append_assoc]
    exact ⟨_, hleft.trans (read_scaled blank left .times right front actions' rest)⟩
  | div left right ih =>
    obtain ⟨actions', hleft⟩ := ih (.ok .slash :: .ok (.number right) :: rest)
    rw [Term.yield, List.map_append, List.append_assoc]
    exact ⟨_, hleft.trans (read_scaled blank left .per right front actions' rest)⟩
  | number value => exact ⟨actions, rfl⟩

theorem read_expr (blank : Node) (e : Expr) (actions : Builder)
    (rest : List (Except SourceError Lexeme)) :
    ∃ actions', (reader Builder.algebra blank).read (.operand .empty, actions)
        (e.yield.map .ok ++ rest) =
      (reader Builder.algebra blank).read (.complete e.front e.ending, actions') rest := by
  induction e generalizing rest with
  | add left right ih =>
    obtain ⟨actions₁, hleft⟩ := ih (.ok .plus :: (right.yield.map .ok ++ rest))
    obtain ⟨actions₂, hright⟩ := read_term blank right (.after left .plus) _ rest
    rw [Expr.yield, List.map_append, List.append_assoc]
    exact ⟨actions₂, hleft.trans ((read_sign blank left .plus actions₁ _).trans hright)⟩
  | sub left right ih =>
    obtain ⟨actions₁, hleft⟩ := ih (.ok .minus :: (right.yield.map .ok ++ rest))
    obtain ⟨actions₂, hright⟩ := read_term blank right (.after left .minus) _ rest
    rw [Expr.yield, List.map_append, List.append_assoc]
    exact ⟨actions₂, hleft.trans ((read_sign blank left .minus actions₁ _).trans hright)⟩
  | term t => exact read_term blank t .empty actions rest

/-! ## Texts -/

theorem describes_builder : Builder.algebra.Describes Builder.semantics :=
  ⟨rfl, fun _ => rfl, fun _ => rfl, fun _ => rfl⟩

theorem tree_eq (source : String) :
    tree source = match (reader Builder.algebra .none).read (.operand .empty, {})
        ((scan source).map Item.content) with
      | .ok (e, _) => .ok e
      | .error e => .error (.source e) := by
  have hresult : tree source = ((reader Builder.algebra .none).read (.operand .empty, {})
      ((scan source).map Item.content)).mapError .source >>= fun result => .ok result.1 :=
    describes_builder.result_eq source (fun p => p.accepted Node.exprs)
      (fun _ _ _ hstatus _ => accepted_eq hstatus rfl)
  rw [hresult]
  cases (reader Builder.algebra .none).read (.operand .empty, {})
    ((scan source).map Item.content) <;> rfl

theorem tokenize_of_tree {source : String} (h : tree source = .ok e) :
    tokenize source = .ok e.yield := by
  rw [tree_eq] at h
  split at h <;> cases h
  next actions hread =>
    obtain ⟨lexemes, hlexemes, hyield⟩ := yield_read hread
    rw [tokenize_eq_ok_iff, hlexemes, hyield]
    rfl

theorem tree_of_tokenize {source : String} (h : tokenize source = .ok e.yield) :
    tree source = .ok e := by
  obtain ⟨actions, hread⟩ := read_expr .none e {} []
  have hfinish : (Config.complete e.front e.ending).finish Builder.algebra actions =
      .ok (e, (Config.closed Builder.algebra e.front e.ending actions).actions) := by
    simp only [Config.finish, closed_expr]
  rw [List.append_nil] at hread
  rw [tree_eq, tokenize_eq_ok_iff.mp h, hread, Reader.read]
  simp only [reader, hfinish]

/-- Building the tree of a text undoes its yield, and nothing else has a tree. -/
theorem tree_eq_ok_iff (source : String) (e : Expr) :
    tree source = .ok e ↔ tokenize source = .ok e.yield :=
  ⟨tokenize_of_tree, tree_of_tokenize⟩

end ShiftReduce.Calculator
