import Mathlib.Algebra.GroupWithZero.Nat
import ShiftReduce.NumberList.Builder
import ShiftReduce.Proofs.Parser.Execution
import ShiftReduce.Proofs.Source.Reading

/-!
# Where a list can be

Between two tokens the stack has one of three shapes: nothing has been read, the list is open, or it
has just been closed. Every token leads from an open or a closed list to another, by way of a recovery
if it has to. The stack never holds more than five frames.
-/

namespace ShiftReduce.NumberList

open ShiftReduce.Parser

-- One proof for all the literals of states.
local instance neZero_states : NeZero 10 := ⟨by decide⟩

/-! ## Shapes -/

/-- The finished items of an open list. -/
inductive Front
  | first
  | after (items : List Int64)

/-- The item that is being read. -/
inductive Cell
  | vacant
  | number (value : Int64)
  /-- Something else than one number. -/
  | lost

inductive Config
  | start
  | opened (front : Front) (cell : Cell)
  | closed (items : List Int64)

namespace Front

def items : Front → List Int64
  | first => []
  | after items => items

def frames : Front → List (Frame (Fin 10) Value)
  | first => [⟨0, .none⟩, ⟨2, .none⟩]
  | after items => [⟨0, .none⟩, ⟨2, .none⟩, ⟨3, .list items⟩, ⟨8, .none⟩]

def state : Front → Fin 10
  | first => 2
  | after _ => 8

def itemState : Front → Fin 10
  | first => 4
  | after _ => 9

def production : Front → Production
  | first => .single
  | after _ => .append

/-- The frames that become the list when an item is added to it. -/
def symbols : Front → List (Frame (Fin 10) Value)
  | first => []
  | after items => [⟨3, .list items⟩, ⟨8, .none⟩]

end Front

namespace Cell

def frames : Cell → List (Frame (Fin 10) Value)
  | vacant => []
  | number value => [⟨5, .number value⟩]
  | lost => [⟨6, .none⟩]

/-- The state on top. -/
def state (front : Front) : Cell → Fin 10
  | vacant => front.state
  | number _ => 5
  | lost => 6

def value : Cell → Int64
  | vacant => lostItem
  | number value => value
  | lost => lostItem

def isVacant : Cell → Bool
  | vacant => true
  | _ => false

def add (value : Int64) : Cell → Cell
  | vacant => number value
  | _ => lost

def actions (a : Builder) : Cell → Builder
  | lost => { a with errorsCaught := a.errorsCaught + 1 }
  | _ => a

end Cell

namespace Config

def frames : Config → List (Frame (Fin 10) Value)
  | start => [⟨0, .none⟩]
  | opened front cell => front.frames ++ cell.frames
  | closed items => [⟨0, .none⟩, ⟨2, .none⟩, ⟨3, .list items⟩, ⟨7, .none⟩]

/-- An open list after one more lexeme. -/
def take (front : Front) (cell : Cell) : Lexeme → Config
  | .comma => opened (.after (front.items ++ [cell.value])) .vacant
  | .rightParen => closed (front.items ++ [cell.value])
  | .number n => opened front (cell.add n)
  | _ => opened front .lost

/-- The shape after one more lexeme. After a list that was closed too early only a lost item is
left. -/
def next (c : Config) (lexeme : Lexeme) : Except SourceError Config := do
  let (t, _) ← token lexeme
  match c with
  | start =>
    if t = .leftParen then .ok (opened .first .vacant)
    else .error (.parse (.unexpected t.label 0))
  | opened front cell => .ok (take front cell lexeme)
  | closed _ => .ok (take .first .lost lexeme)

def finish : Config → Except SourceError (List Int64)
  | start => .error (.parse (.unexpected Token.finish.label 0))
  | opened _ _ => .error (.parse (.unexpected Token.finish.label 6))
  | closed items => .ok items

end Config

def reader : Reader Config (List Int64) := ⟨Config.next, Config.finish⟩

/-! ## Reductions -/

def separators : List Token := [.rightParen, .comma]

variable {t : Token} {value : Value} {front : Front} {cell : Cell} {a a' : Builder}
  {n free : Nat} {frames' : List (Frame (Fin 10) Value)} {fate : Fate} {lexeme : Lexeme}

theorem exists_getLast?_front (front : Front) :
    ∃ under : Frame (Fin 10) Value, front.frames.getLast? = some under ∧
      under.state = front.state := by
  cases front with
  | first => exact ⟨_, rfl, rfl⟩
  | after items => exact ⟨_, rfl, rfl⟩

theorem entry_item (front : Front) (ht : t ∈ separators) :
    entry front.itemState t = .reduce front.production := by
  simp only [separators, List.mem_cons, List.not_mem_nil, or_false] at ht
  cases front with
  | first => rcases ht with rfl | rfl <;> rfl
  | after items => rcases ht with rfl | rfl <;> rfl

theorem offers_cell (ht : t ∈ separators) (hcell : cell.isVacant = false) (hroom : 0 < free)
    (hrest : Offers grammar.toTable Builder.semantics t value n
      (front.frames ++ [⟨front.itemState, .number cell.value⟩]) 1 (free - 1) (cell.actions a)
      frames' a' fate) :
    Offers grammar.toTable Builder.semantics t value (n + 1) (Config.opened front cell).frames 0
      free a frames' a' fate := by
  simp only [separators, List.mem_cons, List.not_mem_nil, or_false] at ht
  obtain ⟨under, hunder, hstate⟩ := exists_getLast?_front front
  have hgoto : grammar.entry under.state Token.item = .goto front.itemState := by
    rw [hstate]
    cases front <;> rfl
  cases cell with
  | vacant => cases hcell
  | number n =>
    have hentry : grammar.entry 5 t = .reduce .item := by rcases ht with rfl | rfl <;> rfl
    exact .reduce List.getLast?_concat hentry rfl rfl hunder hgoto (by simpa using hroom) hrest
  | lost =>
    have hentry : grammar.entry 6 t = .reduce .lost := by rcases ht with rfl | rfl <;> rfl
    exact .reduce List.getLast?_concat hentry rfl rfl hunder hgoto (by simpa using hroom) hrest

theorem offers_item (ht : t ∈ separators) {item : Int64}
    (hrest : Offers grammar.toTable Builder.semantics t value n
      [⟨0, .none⟩, ⟨2, .none⟩, ⟨3, .list (front.items ++ [item])⟩] 1 free a frames' a' fate) :
    Offers grammar.toTable Builder.semantics t value (n + 1)
      (front.frames ++ [⟨front.itemState, .number item⟩]) 1 free a frames' a' fate := by
  have hentry := entry_item front ht
  cases front with
  | first =>
    have hsplit : Front.first.frames ++ [⟨Front.first.itemState, .number item⟩] =
        [⟨0, .none⟩, ⟨2, .none⟩] ++ [⟨4, .number item⟩] := rfl
    rw [hsplit]
    exact .reduce rfl hentry rfl rfl rfl rfl (by simp) hrest
  | after items =>
    have hsplit : (Front.after items).frames ++ [⟨(Front.after items).itemState, .number item⟩] =
        [⟨0, .none⟩, ⟨2, .none⟩] ++ [⟨3, .list items⟩, ⟨8, .none⟩, ⟨9, .number item⟩] := rfl
    rw [hsplit]
    exact .reduce rfl hentry rfl rfl rfl rfl (by simp) hrest

theorem offers_separator (htoken : token lexeme = .ok (t, value)) (ht : t ∈ separators)
    (hcell : cell.isVacant = false) (hroom : 2 ≤ free) :
    Offers grammar.toTable Builder.semantics t value 2 (Config.opened front cell).frames 0 free a
      (Config.take front cell lexeme).frames (cell.actions a) .shifted := by
  refine offers_cell ht hcell (by omega) (offers_item ht ?_)
  cases lexeme with
  | plus | minus | slash => cases htoken
  | star | leftParen | number n =>
    cases htoken
    simp [separators] at ht
  | comma =>
    cases htoken
    have hentry : grammar.entry 3 .comma = .shift 8 := rfl
    exact .shift rfl hentry (by omega)
  | rightParen =>
    cases htoken
    have hentry : grammar.entry 3 .rightParen = .shift 7 := rfl
    exact .shift rfl hentry (by omega)

theorem offers_finish {items : List Int64} (hroom : 0 < free) :
    Offers grammar.toTable Builder.semantics .finish value 1 (Config.closed items).frames 0
      free a [⟨0, .none⟩, ⟨1, .list items⟩] a .accepted := by
  have hentry : grammar.entry 7 .finish = .reduce .document := rfl
  have hsplit : (Config.closed items).frames =
      [⟨0, .none⟩] ++ [⟨2, .none⟩, ⟨3, .list items⟩, ⟨7, .none⟩] := rfl
  rw [hsplit]
  exact .reduce rfl hentry rfl rfl rfl rfl (by omega) (.accept rfl rfl)

/-! ## Posts -/

variable {p : Parser (Fin 10) Token Production Value Builder} {capacity limit : Nat}

/-- The parser has the frames of a shape, whatever its actions have counted. -/
def Stands (capacity : Nat) (c : Config) (p : Parser (Fin 10) Token Production Value Builder) :
    Prop :=
  ∃ a, p.Rests c.frames capacity a

theorem length_frames_le (c : Config) : c.frames.length ≤ 5 := by
  cases c with
  | start => simp [Config.frames]
  | opened front cell =>
    cases front <;> cases cell <;> simp [Config.frames, Front.frames, Cell.frames]
  | closed items => simp [Config.frames]

theorem exists_getLast?_opened (front : Front) (cell : Cell) :
    ∃ top : Frame (Fin 10) Value, (Config.opened front cell).frames.getLast? = some top ∧
      top.state = cell.state front := by
  cases cell with
  | vacant =>
    obtain ⟨under, hunder, hstate⟩ := exists_getLast?_front front
    refine ⟨under, ?_, hstate⟩
    rw [Config.frames, Cell.frames, List.append_nil, hunder]
  | number n => exact ⟨⟨5, .number n⟩, List.getLast?_concat, rfl⟩
  | lost => exact ⟨⟨6, .none⟩, List.getLast?_concat, rfl⟩

theorem post_opened_recovers (hp : Stands capacity (.opened front cell) p) (hcapacity : 7 ≤ capacity)
    (hlimit : 0 < limit) (hentry : entry (cell.state front) t = .error) :
    ∃ q : Parser (Fin 10) Token Production Value Builder,
      p.post grammar.toTable Builder.semantics limit t value =
        q.retry grammar.toTable Builder.semantics limit t value ∧
      Stands capacity (.opened front .lost) q := by
  obtain ⟨a, hp⟩ := hp
  obtain ⟨top, htop, hstate⟩ := exists_getLast?_opened front cell
  obtain ⟨under, hunder, hunderState⟩ := exists_getLast?_front front
  have hreject : grammar.entry top.state t = .error := by
    rw [hstate]
    exact hentry
  have hshift : grammar.entry under.state .error = .shift 6 := by
    rw [hunderState]
    cases front <;> rfl
  have hstop : (grammar.entry under.state .error).isError = false := by
    rw [hshift]
    rfl
  have hgone : ∀ f ∈ cell.frames, (grammar.entry f.state .error).isError = true := by
    cases cell <;> simp [Cell.frames] <;> rfl
  have hroom : 0 < capacity - (front.frames ++ cell.frames).length := by
    have := length_frames_le (.opened front cell)
    simp only [Config.frames] at this
    omega
  obtain ⟨q, hpost, hq⟩ := Rests.post_recovers hp rfl (.reject htop hreject) hlimit htop hunder
    hstop hgone (.shift hunder hshift hroom) hlimit
  exact ⟨q, hpost, _, hq⟩

theorem post_closed_recovers {items : List Int64} (hp : Stands capacity (.closed items) p)
    (hcapacity : 7 ≤ capacity) (hlimit : 0 < limit) (ht : t ≠ .finish) :
    ∃ q : Parser (Fin 10) Token Production Value Builder,
      p.post grammar.toTable Builder.semantics limit t value =
        q.retry grammar.toTable Builder.semantics limit t value ∧
      Stands capacity (.opened .first .lost) q := by
  obtain ⟨a, hp⟩ := hp
  have hreject : grammar.entry 7 t = .error := by
    cases t <;> first | rfl | exact absurd rfl ht
  have hsplit : (Config.closed items).frames =
      Front.first.frames ++ [⟨3, .list items⟩, ⟨7, .none⟩] := rfl
  have hgone : ∀ f ∈ [(⟨3, .list items⟩ : Frame (Fin 10) Value), ⟨7, .none⟩],
      (grammar.entry f.state .error).isError = true := by
    simp only [List.mem_cons, List.not_mem_nil, or_false]
    rintro f (rfl | rfl) <;> rfl
  rw [hsplit] at hp
  obtain ⟨q, hpost, hq⟩ := Rests.post_recovers hp rfl (.reject rfl hreject) hlimit rfl rfl rfl hgone
    (.shift rfl rfl (by simp [Front.frames]; omega)) hlimit
  exact ⟨q, hpost, _, hq⟩

theorem retry_lost (hp : Stands capacity (.opened front .lost) p) (hcapacity : 7 ≤ capacity)
    (hlimit : 3 ≤ limit) (htoken : token lexeme = .ok (t, value)) :
    ∃ q, p.retry grammar.toTable Builder.semantics limit t value = .ok q ∧
      Stands capacity (.take front .lost lexeme) q := by
  obtain ⟨a, hp⟩ := hp
  have hroom : 2 ≤ capacity - (Config.opened front .lost).frames.length := by
    have := length_frames_le (.opened front .lost)
    omega
  -- In state 6 only separators have an action.
  have hdiscard (ht : grammar.entry 6 t = .error) (hne : t ≠ .finish) :
      ∃ q, p.retry grammar.toTable Builder.semantics limit t value = .ok q ∧
        Stands capacity (.opened front .lost) q := by
    obtain ⟨q, hretry, hq⟩ := hp.retry_discards (.reject List.getLast?_concat ht)
      (show 0 < limit by omega) hne
    exact ⟨q, hretry, a, hq⟩
  cases lexeme with
  | plus | minus | slash => cases htoken
  | star | leftParen | number n => cases htoken; exact hdiscard rfl nofun
  | comma | rightParen =>
    have ht : t ∈ separators := by
      cases htoken
      simp [separators]
    obtain ⟨q, hretry, hq⟩ :=
      hp.retry_shifts (offers_separator htoken ht rfl hroom) (show 2 < limit by omega)
    exact ⟨q, hretry, _, hq⟩

theorem post_number {number : Int64} (hp : Stands capacity (.opened front .vacant) p)
    (hcapacity : 7 ≤ capacity) (hlimit : 0 < limit) :
    ∃ q, p.post grammar.toTable Builder.semantics limit .number (.number number) = .ok q ∧
      Stands capacity (.opened front (.number number)) q := by
  obtain ⟨a, hp⟩ := hp
  obtain ⟨under, hunder, hstate⟩ := exists_getLast?_opened front .vacant
  have hshift : grammar.entry under.state .number = .shift 5 := by
    rw [hstate]
    cases front <;> rfl
  have hroom : 0 < capacity - (Config.opened front .vacant).frames.length := by
    have := length_frames_le (.opened front .vacant)
    omega
  have hoffers : Offers grammar.toTable Builder.semantics .number (.number number) 0
      (Config.opened front .vacant).frames 0 _ a _ a .shifted := .shift hunder hshift hroom
  obtain ⟨q, hpost, hq⟩ := hp.post_shifts hoffers hlimit
  rw [Config.frames, Cell.frames, List.append_nil] at hq
  exact ⟨q, hpost, a, hq⟩

theorem post_opened (hp : Stands capacity (.opened front cell) p) (hcapacity : 7 ≤ capacity)
    (hlimit : 3 ≤ limit) (htoken : token lexeme = .ok (t, value)) :
    ∃ q, p.post grammar.toTable Builder.semantics limit t value = .ok q ∧
      Stands capacity (.take front cell lexeme) q := by
  have hroom : 2 ≤ capacity - (Config.opened front cell).frames.length := by
    have := length_frames_le (.opened front cell)
    omega
  -- Where the token is rejected, the cell does not matter any more.
  have hrecover (hentry : entry (cell.state front) t = .error)
      (hlost : Config.take front .lost lexeme = .take front cell lexeme) :
      ∃ q, p.post grammar.toTable Builder.semantics limit t value = .ok q ∧
        Stands capacity (.take front cell lexeme) q := by
    obtain ⟨q, hpost, hq⟩ := post_opened_recovers hp hcapacity (show 0 < limit by omega) hentry
    rw [hpost, ← hlost]
    exact retry_lost hq hcapacity hlimit htoken
  obtain ⟨a, hrests⟩ := hp
  cases lexeme with
  | plus | minus | slash => cases htoken
  | star | leftParen =>
    cases htoken
    refine hrecover ?_ rfl
    cases cell <;> cases front <;> rfl
  | number n =>
    cases htoken
    cases cell with
    | vacant => exact post_number ⟨a, hrests⟩ (by omega) (by omega)
    | number m => exact hrecover rfl rfl
    | lost => exact hrecover rfl rfl
  | comma | rightParen =>
    have ht : t ∈ separators := by
      cases htoken
      simp [separators]
    cases hcell : cell.isVacant with
    | true =>
      cases htoken
      cases cell <;> cases hcell
      refine hrecover ?_ rfl
      cases front <;> rfl
    | false =>
      obtain ⟨q, hpost, hq⟩ :=
        hrests.post_shifts (offers_separator htoken ht hcell hroom) (show 2 < limit by omega)
      exact ⟨q, hpost, _, hq⟩

theorem post_closed {items : List Int64} (hp : Stands capacity (.closed items) p)
    (hcapacity : 7 ≤ capacity) (hlimit : 3 ≤ limit) (htoken : token lexeme = .ok (t, value)) :
    ∃ q, p.post grammar.toTable Builder.semantics limit t value = .ok q ∧
      Stands capacity (.take .first .lost lexeme) q := by
  have ht : t ≠ .finish := by
    rintro rfl
    cases lexeme <;> cases htoken
  obtain ⟨q, hpost, hq⟩ := post_closed_recovers hp hcapacity (show 0 < limit by omega) ht
  rw [hpost]
  exact retry_lost hq hcapacity hlimit htoken

theorem post_start (hp : Stands capacity .start p) (hcapacity : 7 ≤ capacity) (hlimit : 0 < limit) :
    ∃ q, p.post grammar.toTable Builder.semantics limit .leftParen .none = .ok q ∧
      Stands capacity (.opened .first .vacant) q := by
  obtain ⟨a, hp⟩ := hp
  have hroom : 0 < capacity - Config.start.frames.length := by
    have := length_frames_le .start
    omega
  have hshift : grammar.entry 0 .leftParen = .shift 2 := rfl
  obtain ⟨q, hpost, hq⟩ := hp.post_shifts (.shift rfl hshift hroom) hlimit
  exact ⟨q, hpost, a, hq⟩

theorem post_start_fails (hp : Stands capacity .start p) (hlimit : 0 < limit)
    (ht : entry 0 t = .error) :
    p.Fails grammar.toTable Builder.semantics limit t value (.parse (.unexpected t.label 0)) := by
  obtain ⟨a, hp⟩ := hp
  have hgone : ∀ f ∈ Config.start.frames, (grammar.entry f.state .error).isError = true := by
    simp only [Config.frames, List.mem_singleton]
    rintro f rfl
    rfl
  obtain ⟨q, hpost, hstatus⟩ := hp.post_unrecoverable rfl (.reject rfl ht) hlimit rfl hgone
  exact ⟨q, _, hpost, hstatus, rfl⟩

theorem post_opened_fails (hp : Stands capacity (.opened front cell) p) (hcapacity : 7 ≤ capacity)
    (hlimit : 0 < limit) :
    p.Fails grammar.toTable Builder.semantics limit .finish value
      (.parse (.unexpected Token.finish.label 6)) := by
  have hentry : entry (cell.state front) .finish = .error := by
    cases cell <;> cases front <;> rfl
  obtain ⟨q, hpost, a, hq⟩ := post_opened_recovers hp hcapacity hlimit hentry
  have hreject : grammar.entry 6 .finish = .error := rfl
  obtain ⟨r, hretry, hstatus⟩ := hq.retry_fails (.reject List.getLast?_concat hreject) hlimit
    List.getLast?_concat
  exact ⟨r, _, hpost.trans hretry, hstatus, rfl⟩

/-! ## Whole texts -/

theorem follows_reader (hcapacity : 7 ≤ capacity) (hlimit : 3 ≤ limit) :
    Follows grammar.toTable Builder.semantics limit token reader (Stands capacity)
      (fun items p => p.status = .accepted (.list items)) := by
  constructor
  case running =>
    rintro c p ⟨a, hp⟩
    exact hp.isDone_eq
  case next =>
    intro c p lexeme c' hp hnext
    obtain ⟨⟨t, value⟩, htoken, hnext⟩ := bind_eq_ok.mp hnext
    refine ⟨t, value, ?_⟩
    cases c with
    | start =>
      cases lexeme <;> cases htoken <;> cases hnext
      obtain ⟨q, hpost, hq⟩ := post_start hp hcapacity (show 0 < limit by omega)
      exact ⟨q, rfl, hpost, hq⟩
    | opened front cell =>
      cases hnext
      obtain ⟨q, hpost, hq⟩ := post_opened hp hcapacity hlimit htoken
      exact ⟨q, htoken, hpost, hq⟩
    | closed items =>
      cases hnext
      obtain ⟨q, hpost, hq⟩ := post_closed hp hcapacity hlimit htoken
      exact ⟨q, htoken, hpost, hq⟩
  case refuse =>
    intro c p lexeme error hp hnext
    have hstep : c.next lexeme = .error error := hnext
    unfold Config.next at hstep
    cases htoken : token lexeme with
    | error error' =>
      rw [htoken] at hstep
      cases hstep
      exact .inl rfl
    | ok answer =>
      obtain ⟨t, value⟩ := answer
      rw [htoken] at hstep
      cases c with
      | start =>
        refine .inr ⟨t, value, rfl, ?_⟩
        cases lexeme <;> cases htoken <;> cases hstep <;> exact post_start_fails hp (by omega) rfl
      | opened front cell => cases hstep
      | closed items => cases hstep
  case finish =>
    intro c p items hp hfinish
    cases c <;> cases hfinish
    obtain ⟨a, hp⟩ := hp
    have hroom : 0 < capacity - (Config.closed items).frames.length := by
      have := length_frames_le (.closed items)
      omega
    obtain ⟨q, top, hpost, htop, hstatus, -⟩ :=
      hp.post_accepts (offers_finish hroom) (show 1 < limit by omega)
    cases htop
    exact ⟨q, _, hpost, hstatus, hstatus⟩
  case fail =>
    intro c p error hp hfinish
    cases c with
    | start =>
      cases hfinish
      exact post_start_fails hp (by omega) rfl
    | opened front cell =>
      cases hfinish
      exact post_opened_fails hp hcapacity (by omega)
    | closed items => cases hfinish

end ShiftReduce.NumberList
