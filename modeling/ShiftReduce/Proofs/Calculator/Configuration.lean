import Mathlib.Algebra.GroupWithZero.Nat
import ShiftReduce.Calculator.Algebra
import ShiftReduce.Proofs.Parser.Execution
import ShiftReduce.Proofs.Source.Reading

/-!
# Where a calculator can be

Between two tokens the stack has one of few shapes: a term is due, or a factor, or the last token was
a number. This module names the shapes and says what each lexeme makes of them, for any algebra. The
stack never holds more than six frames.
-/

namespace ShiftReduce.Calculator

open ShiftReduce.Parser

-- One proof for all the literals of states.
local instance neZero_states : NeZero 12 := ⟨by decide⟩

variable {ν α ε θ : Type}

/-! ## Shapes -/

inductive Sign
  | plus
  | minus

inductive Scale
  | times
  | per

/-- What stands in front of the current term. -/
inductive Front (ε : Type)
  | empty
  | after (left : ε) (sign : Sign)

/-- The end of a term, up to a number that is not reduced yet. -/
inductive Ending (θ : Type)
  | literal (number : Int64)
  | scaled (left : θ) (scale : Scale) (number : Int64)

inductive Config (ε θ : Type)
  | operand (front : Front ε)
  | factor (front : Front ε) (left : θ) (scale : Scale)
  | complete (front : Front ε) (ending : Ending θ)

namespace Sign

def token : Sign → Token
  | plus => .add
  | minus => .sub

def state : Sign → Fin 12
  | plus => 3
  | minus => 5

/-- The state behind a term that follows the sign. -/
def termState : Sign → Fin 12
  | plus => 4
  | minus => 6

def production : Sign → Production
  | plus => .sum
  | minus => .difference

def apply (alg : Algebra ν α ε θ) : Sign → ε → θ → α → Reduced ε α
  | plus => alg.sum
  | minus => alg.difference

end Sign

namespace Scale

def token : Scale → Token
  | times => .mul
  | per => .div

def state : Scale → Fin 12
  | times => 8
  | per => 10

/-- The state behind a number that follows the operator. -/
def numberState : Scale → Fin 12
  | times => 9
  | per => 11

def production : Scale → Production
  | times => .product
  | per => .quotient

def apply (alg : Algebra ν α ε θ) : Scale → θ → Int64 → α → Reduced θ α
  | times => alg.product
  | per => alg.quotient

end Scale

namespace Front

def state : Front ε → Fin 12
  | empty => 0
  | after _ sign => sign.state

def termState : Front ε → Fin 12
  | empty => 2
  | after _ sign => sign.termState

def production : Front ε → Production
  | empty => .single
  | after _ sign => sign.production

def symbols (alg : Algebra ν α ε θ) (blank : ν) : Front ε → List (Frame (Fin 12) ν)
  | empty => []
  | after left sign => [⟨1, alg.exprs.up left⟩, ⟨sign.state, blank⟩]

def frames (alg : Algebra ν α ε θ) (blank : ν) (front : Front ε) : List (Frame (Fin 12) ν) :=
  ⟨0, blank⟩ :: front.symbols alg blank

def termFrame (alg : Algebra ν α ε θ) (front : Front ε) (term : θ) : Frame (Fin 12) ν :=
  ⟨front.termState, alg.terms.up term⟩

/-- The expression that ends with the given term. -/
def close (alg : Algebra ν α ε θ) : Front ε → θ → α → Reduced ε α
  | empty => alg.single
  | after left sign => sign.apply alg left

end Front

namespace Ending

def frames (alg : Algebra ν α ε θ) (blank : ν) (front : Front ε) :
    Ending θ → List (Frame (Fin 12) ν)
  | literal number => [⟨7, alg.numbers.up number⟩]
  | scaled left scale number =>
    [front.termFrame alg left, ⟨scale.state, blank⟩, ⟨scale.numberState, alg.numbers.up number⟩]

def state : Ending θ → Fin 12
  | literal _ => 7
  | scaled _ scale _ => scale.numberState

def production : Ending θ → Production
  | literal _ => .literal
  | scaled _ scale _ => scale.production

def close (alg : Algebra ν α ε θ) : Ending θ → α → Reduced θ α
  | literal number => alg.literal number
  | scaled left scale number => scale.apply alg left number

end Ending

namespace Config

def frames (alg : Algebra ν α ε θ) (blank : ν) : Config ε θ → List (Frame (Fin 12) ν)
  | operand front => front.frames alg blank
  | factor front left scale =>
    front.frames alg blank ++ [front.termFrame alg left, ⟨scale.state, blank⟩]
  | complete front ending => front.frames alg blank ++ ending.frames alg blank front

/-- The state on top. -/
def state : Config ε θ → Fin 12
  | operand front => front.state
  | factor _ _ scale => scale.state
  | complete _ ending => ending.state

/-- What a lexeme that does not fit is answered with. -/
def refusal (alg : Algebra ν α ε θ) (blank : ν) (c : Config ε θ) (lexeme : Lexeme) : SourceError :=
  match alg.token blank lexeme with
  | .error e => e
  | .ok (token, _) => .parse (.unexpected token.label c.state)

/-- The expression that a number has completed. -/
def closed (alg : Algebra ν α ε θ) (front : Front ε) (ending : Ending θ) (actions : α) :
    Reduced ε α :=
  front.close alg (ending.close alg actions).value (ending.close alg actions).actions

def next (alg : Algebra ν α ε θ) (blank : ν) (actions : α) :
    Config ε θ → Lexeme → Except SourceError (Config ε θ × α)
  | operand front, .number n => .ok (complete front (.literal n), actions)
  | factor front left scale, .number n => .ok (complete front (.scaled left scale n), actions)
  | complete front ending, .plus =>
    let whole := closed alg front ending actions
    .ok (operand (.after whole.value .plus), whole.actions)
  | complete front ending, .minus =>
    let whole := closed alg front ending actions
    .ok (operand (.after whole.value .minus), whole.actions)
  | complete front ending, .star =>
    .ok (factor front (ending.close alg actions).value .times, (ending.close alg actions).actions)
  | complete front ending, .slash =>
    .ok (factor front (ending.close alg actions).value .per, (ending.close alg actions).actions)
  | c, lexeme => .error (c.refusal alg blank lexeme)

def finish (alg : Algebra ν α ε θ) (actions : α) : Config ε θ → Except SourceError (ε × α)
  | complete front ending =>
    let whole := closed alg front ending actions
    .ok (whole.value, whole.actions)
  | c => .error (.parse (.unexpected Token.finish.label c.state))

end Config

def reader (alg : Algebra ν α ε θ) (blank : ν) : Reader (Config ε θ × α) (ε × α) where
  next := fun (c, actions) lexeme => c.next alg blank actions lexeme
  finish := fun (c, actions) => c.finish alg actions

/-! ## Reductions -/

/-- The semantics is that of the algebra, and a value put on the stack is recognised there. -/
structure Algebra.Describes (alg : Algebra ν α ε θ) (sem : Semantics Production ν α) : Prop where
  reduce_eq : sem.reduce = alg.reduce
  number_down (n : Int64) : alg.numbers.down (alg.numbers.up n) = .ok n
  expr_down (e : ε) : alg.exprs.down (alg.exprs.up e) = .ok e
  term_down (t : θ) : alg.terms.down (alg.terms.up t) = .ok t

variable {alg : Algebra ν α ε θ} {sem : Semantics Production ν α} {blank value : ν} {token : Token}
  {front : Front ε} {ending : Ending θ} {actions actions' : α} {n free : Nat}
  {frames' : List (Frame (Fin 12) ν)} {fate : Fate}

theorem Algebra.Describes.reduce_ending (h : alg.Describes sem) (front : Front ε)
    (ending : Ending θ) (depth : Nat) (actions : α) :
    sem.reduce ending.production ⟨(ending.frames alg blank front).length, depth,
        (ending.frames alg blank front).map Frame.value⟩ actions =
      .ok ((ending.close alg actions).map alg.terms.up) := by
  rw [h.reduce_eq]
  cases ending with
  | literal number =>
    simp [Ending.production, Ending.frames, Algebra.reduce, Args.cast, Args.get, bind, Except.bind,
      h.number_down, pure, Except.pure, Ending.close]
  | scaled left scale number =>
    cases scale <;>
    simp [Ending.production, Scale.production, Ending.frames, Front.termFrame, Algebra.reduce,
      Args.cast, Args.get, bind, Except.bind, h.number_down, h.term_down, pure, Except.pure,
      Ending.close, Scale.apply]

theorem Algebra.Describes.reduce_front (h : alg.Describes sem) (front : Front ε) (term : θ)
    (depth : Nat) (actions : α) :
    sem.reduce front.production ⟨(front.symbols alg blank ++ [front.termFrame alg term]).length,
        depth, (front.symbols alg blank ++ [front.termFrame alg term]).map Frame.value⟩ actions =
      .ok ((front.close alg term actions).map alg.exprs.up) := by
  rw [h.reduce_eq]
  cases front with
  | empty =>
    simp [Front.production, Front.symbols, Front.termFrame, Algebra.reduce, Args.cast, Args.get,
      bind, Except.bind, h.term_down, pure, Except.pure, Front.close]
  | after left sign =>
    cases sign <;>
    simp [Front.production, Sign.production, Front.symbols, Front.termFrame, Algebra.reduce,
      Args.cast, Args.get, bind, Except.bind, h.expr_down, h.term_down, pure, Except.pure,
      Front.close, Sign.apply]

/-- The tokens on which a number is reduced. -/
def afterNumber : List Token := [.finish, .add, .sub, .mul, .div]

/-- The tokens on which a term is reduced. -/
def afterTerm : List Token := [.finish, .add, .sub]

theorem entry_ending (ending : Ending θ) (ht : token ∈ afterNumber) :
    entry ending.state token = .reduce ending.production := by
  simp only [afterNumber, List.mem_cons, List.not_mem_nil, or_false] at ht
  cases ending with
  | literal number => rcases ht with rfl | rfl | rfl | rfl | rfl <;> rfl
  | scaled left scale number => cases scale <;> rcases ht with rfl | rfl | rfl | rfl | rfl <;> rfl

theorem entry_term (front : Front ε) (ht : token ∈ afterTerm) :
    entry front.termState token = .reduce front.production := by
  simp only [afterTerm, List.mem_cons, List.not_mem_nil, or_false] at ht
  cases front with
  | empty => rcases ht with rfl | rfl | rfl <;> rfl
  | after left sign => cases sign <;> rcases ht with rfl | rfl | rfl <;> rfl

theorem goto_term (front : Front ε) (ending : Ending θ) :
    entry front.state ending.production.lhs = .goto front.termState := by
  cases ending with
  | literal number =>
    cases front with
    | empty => rfl
    | after left sign => cases sign <;> rfl
  | scaled left scale number =>
    cases front with
    | empty => cases scale <;> rfl
    | after left sign => cases scale <;> cases sign <;> rfl

theorem goto_expr (front : Front ε) : entry 0 front.production.lhs = .goto 1 := by
  cases front with
  | empty => rfl
  | after left sign => cases sign <;> rfl

theorem exists_getLast?_front (alg : Algebra ν α ε θ) (blank : ν) (front : Front ε) :
    ∃ top : Frame (Fin 12) ν, (front.frames alg blank).getLast? = some top ∧
      top.state = front.state := by
  cases front with
  | empty => exact ⟨_, rfl, rfl⟩
  | after left sign => exact ⟨_, rfl, rfl⟩

theorem exists_getLast?_ending (alg : Algebra ν α ε θ) (blank : ν)
    (base : List (Frame (Fin 12) ν)) (front : Front ε) (ending : Ending θ) :
    ∃ top : Frame (Fin 12) ν, (base ++ ending.frames alg blank front).getLast? = some top ∧
      top.state = ending.state := by
  cases ending with
  | literal number =>
    exact ⟨⟨7, alg.numbers.up number⟩, by simp [Ending.frames], rfl⟩
  | scaled left scale number =>
    exact ⟨⟨scale.numberState, alg.numbers.up number⟩, by simp [Ending.frames], rfl⟩

theorem offers_ending (h : alg.Describes sem) (ht : token ∈ afterNumber) (hroom : 0 < free)
    (hrest : Offers grammar.toTable sem token value n
      (front.frames alg blank ++ [front.termFrame alg (ending.close alg actions).value])
      1 (free - 1) (ending.close alg actions).actions frames' actions' fate) :
    Offers grammar.toTable sem token value (n + 1)
      ((Config.complete front ending).frames alg blank) 0 free actions frames' actions' fate := by
  obtain ⟨top, htop, hstate⟩ :=
    exists_getLast?_ending alg blank (front.frames alg blank) front ending
  obtain ⟨under, hunder, hunderState⟩ := exists_getLast?_front alg blank front
  have hentry : grammar.entry top.state token = .reduce ending.production := by
    rw [hstate]
    exact entry_ending ending ht
  have harity : grammar.arity ending.production = (ending.frames alg blank front).length := by
    cases ending with
    | literal number => rfl
    | scaled left scale number => cases scale <;> rfl
  have hgoto : grammar.entry under.state (grammar.lhs ending.production) =
      .goto front.termState := by
    rw [hunderState]
    exact goto_term front ending
  have hpending : 0 - (ending.frames alg blank front).length + 1 = 1 := by omega
  have hfree : free + min (ending.frames alg blank front).length 0 = free := by omega
  refine .reduce htop hentry harity (h.reduce_ending front ending _ _) hunder hgoto ?_ ?_
  · rw [hfree]
    exact hroom
  · rw [hpending, hfree]
    exact hrest

theorem offers_front (h : alg.Describes sem) (ht : token ∈ afterTerm) {term : θ}
    (hrest : Offers grammar.toTable sem token value n
      [⟨0, blank⟩, ⟨1, alg.exprs.up (front.close alg term actions).value⟩]
      1 free (front.close alg term actions).actions frames' actions' fate) :
    Offers grammar.toTable sem token value (n + 1)
      (front.frames alg blank ++ [front.termFrame alg term]) 1 free actions frames' actions'
      fate := by
  have hentry := entry_term front ht
  have harity : grammar.arity front.production =
      (front.symbols alg blank ++ [front.termFrame alg term]).length := by
    cases front with
    | empty => rfl
    | after left sign => cases sign <;> rfl
  have hlength : 1 ≤ (front.symbols alg blank ++ [front.termFrame alg term]).length := by
    rw [List.length_append, List.length_singleton]
    omega
  have hfree : free + min (front.symbols alg blank ++ [front.termFrame alg term]).length 1 - 1 =
      free := by omega
  have htop : ([(⟨0, blank⟩ : Frame (Fin 12) ν)] ++
      (front.symbols alg blank ++ [front.termFrame alg term])).getLast? =
        some (front.termFrame alg term) := by
    rw [← List.append_assoc, List.getLast?_concat]
  have hpending : 1 - (front.symbols alg blank ++ [front.termFrame alg term]).length + 1 = 1 := by
    omega
  have hsplit : front.frames alg blank ++ [front.termFrame alg term] =
      [⟨0, blank⟩] ++ (front.symbols alg blank ++ [front.termFrame alg term]) := rfl
  rw [hsplit]
  refine .reduce htop hentry harity (h.reduce_front front term _ _) rfl (goto_expr front) ?_ ?_
  · omega
  · rw [hpending, hfree]
    exact hrest

/-! ## Lexemes -/

variable {c c' : Config ε θ} {lexeme : Lexeme} {error : SourceError}

theorem exists_getLast?_config (alg : Algebra ν α ε θ) (blank : ν) (c : Config ε θ) :
    ∃ top : Frame (Fin 12) ν, (c.frames alg blank).getLast? = some top ∧ top.state = c.state := by
  cases c with
  | operand front => exact exists_getLast?_front alg blank front
  | factor front left scale => exact ⟨⟨scale.state, blank⟩, by simp [Config.frames], rfl⟩
  | complete front ending =>
    exact exists_getLast?_ending alg blank (front.frames alg blank) front ending

theorem length_frames_le (alg : Algebra ν α ε θ) (blank : ν) (c : Config ε θ) :
    (c.frames alg blank).length ≤ 6 := by
  have hfront (front : Front ε) : (front.frames alg blank).length ≤ 3 := by
    cases front <;> simp [Front.frames, Front.symbols]
  cases c with
  | operand front =>
    have := hfront front
    simp only [Config.frames]
    omega
  | factor front left scale =>
    have := hfront front
    simp only [Config.frames, List.length_append, List.length_cons, List.length_nil]
    omega
  | complete front ending =>
    have := hfront front
    cases ending <;>
    · simp only [Config.frames, Ending.frames, List.length_append, List.length_cons,
        List.length_nil]
      omega

theorem offers_sign (h : alg.Describes sem) (front : Front ε) (ending : Ending θ) (sign : Sign)
    (hroom : 2 ≤ free) :
    Offers grammar.toTable sem sign.token blank 2
      ((Config.complete front ending).frames alg blank) 0 free actions
      ((Front.after (Config.closed alg front ending actions).value sign).frames alg blank)
      (Config.closed alg front ending actions).actions .shifted := by
  refine offers_ending h ?_ (by omega) (offers_front h ?_ (.shift rfl ?_ (by omega)))
  · cases sign <;> simp [Sign.token, afterNumber]
  · cases sign <;> simp [Sign.token, afterTerm]
  · cases sign <;> rfl

theorem offers_scale (h : alg.Describes sem) (front : Front ε) (ending : Ending θ) (scale : Scale)
    (hroom : 2 ≤ free) :
    Offers grammar.toTable sem scale.token blank 1
      ((Config.complete front ending).frames alg blank) 0 free actions
      ((Config.factor front (ending.close alg actions).value scale).frames alg blank)
      (ending.close alg actions).actions .shifted := by
  have hentry : grammar.entry front.termState scale.token = .shift scale.state := by
    cases front with
    | empty => cases scale <;> rfl
    | after left sign => cases sign <;> cases scale <;> rfl
  have hshift : Offers grammar.toTable sem scale.token blank 0
      (front.frames alg blank ++ [front.termFrame alg (ending.close alg actions).value]) 1 (free - 1)
      (ending.close alg actions).actions _ _ .shifted :=
    .shift List.getLast?_concat hentry (by omega)
  rw [List.append_assoc] at hshift
  refine offers_ending h ?_ (by omega) hshift
  cases scale <;> simp [Scale.token, afterNumber]

theorem offers_next (h : alg.Describes sem) (hroom : 2 ≤ free)
    (hnext : c.next alg blank actions lexeme = .ok (c', actions')) :
    ∃ token value n, alg.token blank lexeme = .ok (token, value) ∧ n < 3 ∧
      Offers grammar.toTable sem token value n (c.frames alg blank) 0 free actions
        (c'.frames alg blank) actions' .shifted := by
  unfold Config.next at hnext
  split at hnext <;> cases hnext
  next front n =>
    obtain ⟨top, htop, hstate⟩ := exists_getLast?_front alg blank front
    have hentry : grammar.entry top.state .number = .shift 7 := by
      rw [hstate]
      cases front with
      | empty => rfl
      | after left sign => cases sign <;> rfl
    exact ⟨_, _, 0, rfl, by omega, .shift htop hentry (by omega)⟩
  next front left scale n =>
    obtain ⟨top, htop, hstate⟩ := exists_getLast?_config alg blank (.factor front left scale)
    have hentry : grammar.entry top.state .number = .shift scale.numberState := by
      rw [hstate]
      cases scale <;> rfl
    have hshift : Offers grammar.toTable sem .number (alg.numbers.up n) 0
        ((Config.factor front left scale).frames alg blank) 0 free actions _ _ .shifted :=
      .shift htop hentry (by omega)
    rw [Config.frames, List.append_assoc] at hshift
    exact ⟨_, _, 0, rfl, by omega, hshift⟩
  next front ending => exact ⟨_, _, 2, rfl, by omega, offers_sign h front ending .plus hroom⟩
  next front ending => exact ⟨_, _, 2, rfl, by omega, offers_sign h front ending .minus hroom⟩
  next front ending => exact ⟨_, _, 1, rfl, by omega, offers_scale h front ending .times hroom⟩
  next front ending => exact ⟨_, _, 1, rfl, by omega, offers_scale h front ending .per hroom⟩

theorem offers_refusal (hnext : c.next alg blank actions lexeme = .error error) :
    alg.token blank lexeme = .error error ∨
      ∃ token value, alg.token blank lexeme = .ok (token, value) ∧
        error = .parse (.unexpected token.label c.state) ∧
        Offers grammar.toTable sem token value 0 (c.frames alg blank) 0 free actions
          (c.frames alg blank) actions .rejected := by
  have herror : error = c.refusal alg blank lexeme := by
    unfold Config.next at hnext
    split at hnext <;> cases hnext
    rfl
  subst herror
  unfold Config.refusal
  cases htoken : alg.token blank lexeme with
  | error e => exact .inl rfl
  | ok result =>
    obtain ⟨token, value⟩ := result
    obtain ⟨top, htop, hstate⟩ := exists_getLast?_config alg blank c
    refine .inr ⟨token, value, rfl, rfl, .reject htop ?_⟩
    rw [hstate]
    -- In each shape the lexemes that do not fit have no action, and the others were not refused.
    cases c with
    | operand front =>
      cases front with
      | empty => cases lexeme <;> cases htoken <;> first | rfl | cases hnext
      | after left sign =>
        cases sign <;> cases lexeme <;> cases htoken <;> first | rfl | cases hnext
    | factor front left scale =>
      cases scale <;> cases lexeme <;> cases htoken <;> first | rfl | cases hnext
    | complete front ending =>
      cases ending with
      | literal n => cases lexeme <;> cases htoken <;> first | rfl | cases hnext
      | scaled left scale n =>
        cases scale <;> cases lexeme <;> cases htoken <;> first | rfl | cases hnext

theorem offers_finish (h : alg.Describes sem) (hroom : 1 ≤ free) {e : ε}
    (hfinish : c.finish alg actions = .ok (e, actions')) :
    Offers grammar.toTable sem .finish value 2 (c.frames alg blank) 0 free actions
      [⟨0, blank⟩, ⟨1, alg.exprs.up e⟩] actions' .accepted := by
  unfold Config.finish at hfinish
  split at hfinish <;> cases hfinish
  refine offers_ending h ?_ hroom (offers_front h ?_ (.accept rfl rfl))
  · simp [afterNumber]
  · simp [afterTerm]

theorem offers_unfinished (hfinish : c.finish alg actions = .error error) :
    error = .parse (.unexpected Token.finish.label c.state) ∧
      Offers grammar.toTable sem .finish value 0 (c.frames alg blank) 0 free actions
        (c.frames alg blank) actions .rejected := by
  obtain ⟨top, htop, hstate⟩ := exists_getLast?_config alg blank c
  have hentry : grammar.entry top.state .finish = .error := by
    rw [hstate]
    cases c with
    | operand front =>
      cases front with
      | empty => rfl
      | after left sign => cases sign <;> rfl
    | factor front left scale => cases scale <;> rfl
    | complete front ending => cases hfinish
  refine ⟨?_, .reject htop hentry⟩
  cases c <;> cases hfinish <;> rfl

/-! ## Whole texts -/

theorem follows_reader (h : alg.Describes sem) {capacity limit : Nat} (hcapacity : 8 ≤ capacity)
    (hlimit : 3 ≤ limit) :
    Follows grammar.toTable sem limit (alg.token sem.blank) (reader alg sem.blank)
      (fun (c, actions) p => p.Rests (c.frames alg sem.blank) capacity actions)
      (fun (e, actions) p => p.status = .accepted (alg.exprs.up e) ∧ p.actions = actions) := by
  have hroom (c : Config ε θ) : 2 ≤ capacity - (c.frames alg sem.blank).length := by
    have := length_frames_le alg sem.blank c
    omega
  constructor
  case running =>
    rintro ⟨c, actions⟩ p hp
    exact hp.isDone_eq
  case next =>
    rintro ⟨c, actions⟩ p lexeme ⟨c', actions'⟩ hp hnext
    obtain ⟨t, value, n, htoken, hn, hoffers⟩ := offers_next h (hroom c) hnext
    obtain ⟨q, hpost, hq⟩ := hp.post_shifts hoffers (show n < limit by omega)
    exact ⟨t, value, q, htoken, hpost, hq⟩
  case refuse =>
    rintro ⟨c, actions⟩ p lexeme error hp hnext
    rcases offers_refusal hnext with htoken | ⟨t, value, htoken, rfl, hoffers⟩
    · exact .inl htoken
    · obtain ⟨top, htop, hstate⟩ := exists_getLast?_config alg sem.blank c
      obtain ⟨q, hpost, hstatus⟩ := hp.post_rejects rfl hoffers (show 0 < limit by omega) htop
      rw [hstate] at hstatus
      exact .inr ⟨t, value, htoken, q, _, hpost, hstatus, rfl⟩
  case finish =>
    rintro ⟨c, actions⟩ p ⟨e, actions'⟩ hp hfinish
    have hoffers : Offers grammar.toTable sem .finish sem.blank 2 (c.frames alg sem.blank) 0
        (capacity - (c.frames alg sem.blank).length) actions _ actions' .accepted :=
      offers_finish h (by have := hroom c; omega) hfinish
    obtain ⟨q, top, hpost, htop, hstatus, hactions⟩ :=
      hp.post_accepts hoffers (show 2 < limit by omega)
    cases htop
    exact ⟨q, _, hpost, hstatus, hstatus, hactions⟩
  case fail =>
    rintro ⟨c, actions⟩ p error hp hfinish
    obtain ⟨rfl, hoffers⟩ := offers_unfinished hfinish
    obtain ⟨top, htop, hstate⟩ := exists_getLast?_config alg sem.blank c
    obtain ⟨q, hpost, hstatus⟩ := hp.post_rejects rfl hoffers (show 0 < limit by omega) htop
    rw [hstate] at hstatus
    exact ⟨q, _, hpost, hstatus, rfl⟩

/-- What a text comes to is what the reader makes of its lexemes. The answer is taken from a parser
that has accepted the expression read. -/
theorem Algebra.Describes.result_eq {β : Type} (h : alg.Describes sem) (source : String)
    (answer : Parser (Fin 12) Token Production ν α → Except Failure β)
    {f : ε × α → Except Failure β}
    (hanswer : ∀ q e actions, q.status = .accepted (alg.exprs.up e) → q.actions = actions →
      answer q = f (e, actions)) :
    ((alg.language sem).read source).result answer =
      ((reader alg sem.blank).read (.operand .empty, sem.fresh)
        ((scan source).map Item.content)).mapError .source >>= f := by
  have hrests : (alg.language sem).parser.Rests
      ((Config.operand .empty).frames alg sem.blank) defaultCapacity sem.fresh :=
    rests_create (by decide)
  have hfollows := follows_reader h (show 8 ≤ defaultCapacity by decide)
    (show 3 ≤ stepLimit by decide)
  obtain ⟨q, hread, haccepted⟩ :=
    hfollows.read_eq (.operand .empty, sem.fresh) hrests (scan source)
  have hrun : (alg.language sem).read source = _ := hread
  rw [hrun]
  cases hresult : (reader alg sem.blank).read (.operand .empty, sem.fresh)
      ((scan source).map Item.content) with
  | error error => rfl
  | ok result =>
    obtain ⟨e, actions⟩ := result
    obtain ⟨hstatus, hactions⟩ := haccepted (e, actions) hresult
    exact hanswer q e actions hstatus hactions

end ShiftReduce.Calculator
