import ShiftReduce.Proofs.NumberList.Configuration

/-!
# What a list comes to

The answer of a list in one formula: what counts stands between the last two closing parentheses, and
each of its comma-separated segments is an item.
-/

namespace ShiftReduce.NumberList

open ShiftReduce.Parser

/-- The item that a segment between two commas stands for. -/
def item : List Lexeme → Int64
  | [.number n] => n
  | _ => lostItem

/-- The items of a text without parentheses. -/
def items (body : List Lexeme) : List Int64 := (body.splitOn .comma).map item

/-- The lexemes behind the last closing parenthesis. -/
def lastBody (inner : List Lexeme) : List Lexeme :=
  (inner.reverse.takeWhile (· ≠ .rightParen)).reverse

/-- The answer to a text of these lexemes. What stands behind a list that was closed too early loses
its first item. -/
def answer (lexemes : List Lexeme) : Except SourceError (List Int64) :=
  match lexemes with
  | [] => .error (.parse (.unexpected Token.finish.label 0))
  | first :: rest => do
    let (t, _) ← token first
    if first ≠ .leftParen then .error (.parse (.unexpected t.label 0))
    else if lexemes.getLast? ≠ some .rightParen then
      .error (.parse (.unexpected Token.finish.label 6))
    else if .rightParen ∈ rest.dropLast then
      .ok (lostItem :: (items (lastBody rest.dropLast)).tail)
    else .ok (items rest.dropLast)

/-- The grammar has a token for the lexeme. -/
def IsToken (lexeme : Lexeme) : Prop := ∃ t value, token lexeme = .ok (t, value)

/-! ## Segments -/

namespace Cell

def fill : Cell → List Lexeme → Cell
  | cell, [] => cell
  | cell, .number n :: rest => (cell.add n).fill rest
  | _, _ :: rest => lost.fill rest

/-- The items of segments, the first of which goes on with the cell. -/
def fillAll (cell : Cell) : List (List Lexeme) → List Int64
  | [] => []
  | segment :: rest => (cell.fill segment).value :: rest.map item

theorem fill_lost (segment : List Lexeme) : lost.fill segment = lost := by
  induction segment with
  | nil => rfl
  | cons lexeme rest ih => cases lexeme <;> exact ih

theorem value_fill_vacant (segment : List Lexeme) : (vacant.fill segment).value = item segment := by
  rcases segment with _ | ⟨lexeme, _ | ⟨second, rest⟩⟩
  · rfl
  · cases lexeme <;> rfl
  · have hlost : (vacant.fill (lexeme :: second :: rest)) = lost := by
      cases lexeme <;> cases second <;> exact fill_lost rest
    rw [hlost]
    cases lexeme <;> rfl

theorem fillAll_vacant (segments : List (List Lexeme)) :
    vacant.fillAll segments = segments.map item := by
  cases segments with
  | nil => rfl
  | cons segment rest => rw [fillAll, value_fill_vacant, List.map_cons]

theorem fillAll_lost {segments : List (List Lexeme)} (h : segments ≠ []) :
    lost.fillAll segments = lostItem :: (segments.map item).tail := by
  cases segments with
  | nil => exact absurd rfl h
  | cons segment rest =>
    rw [fillAll, fill_lost]
    rfl

end Cell

/-! ## Runs of the reader -/

variable {front : Front} {cell : Cell} {lexeme : Lexeme} {rest : List (Except SourceError Lexeme)}

theorem read_opened (h : IsToken lexeme) :
    reader.read (.opened front cell) (.ok lexeme :: rest) =
      reader.read (.take front cell lexeme) rest := by
  obtain ⟨t, value, htoken⟩ := h
  simp only [Reader.read, reader, Config.next, htoken, bind, Except.bind]

theorem read_closed {earlier : List Int64} (h : IsToken lexeme) :
    reader.read (.closed earlier) (.ok lexeme :: rest) =
      reader.read (.opened .first .lost) (.ok lexeme :: rest) := by
  obtain ⟨t, value, htoken⟩ := h
  simp only [Reader.read, reader, Config.next, htoken, bind, Except.bind]

theorem splitOn_cons_comma (body : List Lexeme) :
    (Lexeme.comma :: body).splitOn .comma = [] :: body.splitOn .comma := by
  rw [List.splitOn_cons_eq_if_modifyHead, if_pos (by decide)]

theorem splitOn_cons_of_ne {body segment : List Lexeme} {segments : List (List Lexeme)}
    (h : lexeme ≠ .comma) (hbody : body.splitOn .comma = segment :: segments) :
    (lexeme :: body).splitOn .comma = (lexeme :: segment) :: segments := by
  rw [List.splitOn_cons_eq_if_modifyHead, if_neg (by simpa using h), hbody]
  rfl

theorem read_body {body : List Lexeme} (htokens : ∀ lexeme ∈ body, IsToken lexeme)
    (hbody : .rightParen ∉ body) :
    reader.read (.opened front cell) ((body ++ [Lexeme.rightParen]).map .ok) =
      .ok (front.items ++ cell.fillAll (body.splitOn .comma)) := by
  -- A comma starts a new item, and any other lexeme goes on with the first segment.
  induction body generalizing front cell with
  | nil => rfl
  | cons lexeme body ih =>
    rw [List.forall_mem_cons] at htokens
    rw [List.mem_cons, not_or] at hbody
    obtain ⟨segment, segments, hsplit⟩ := List.exists_cons_of_ne_nil
      (List.splitOn_ne_nil Lexeme.comma body)
    have hrest {front : Front} {cell : Cell} :
        reader.read (.opened front cell) ((body ++ [Lexeme.rightParen]).map .ok) = _ :=
      ih htokens.2 hbody.2
    rw [List.cons_append, List.map_cons, read_opened htokens.1]
    by_cases hcomma : lexeme = .comma
    · rw [hcomma, Config.take, hrest, Cell.fillAll_vacant, splitOn_cons_comma, Cell.fillAll]
      simp only [Front.items, Cell.fill, List.append_assoc, List.singleton_append]
    · rw [splitOn_cons_of_ne hcomma hsplit]
      rw [hsplit] at hrest
      cases lexeme with
      | comma => exact absurd rfl hcomma
      | rightParen => exact absurd rfl hbody.1
      | plus | minus | slash | star | leftParen | number n => exact hrest

/-! ## Whole lists -/

/-- An open or a closed list after one more lexeme. -/
def Config.advance : Config → Lexeme → Config
  | .start, _ => .start
  | .opened front cell, lexeme => .take front cell lexeme
  | .closed _, lexeme => .take .first .lost lexeme

theorem advance_rightParen {c : Config} (hc : c ≠ .start) :
    ∃ earlier, c.advance .rightParen = .closed earlier := by
  cases c with
  | start => exact absurd rfl hc
  | opened front cell => exact ⟨_, rfl⟩
  | closed items => exact ⟨_, rfl⟩

theorem advance_of_ne {c : Config} (hc : c ≠ .start) (h : lexeme ≠ .rightParen) :
    ∃ front cell, c.advance lexeme = .opened front cell := by
  cases c with
  | start => exact absurd rfl hc
  | opened front cell => cases lexeme <;> first | exact ⟨_, _, rfl⟩ | exact absurd rfl h
  | closed items => cases lexeme <;> first | exact ⟨_, _, rfl⟩ | exact absurd rfl h

theorem advance_ne_start {c : Config} (hc : c ≠ .start) : c.advance lexeme ≠ .start := by
  by_cases h : lexeme = .rightParen
  · obtain ⟨earlier, hclosed⟩ := advance_rightParen hc
    rw [h, hclosed]
    nofun
  · obtain ⟨front, cell, hopened⟩ := advance_of_ne hc h
    rw [hopened]
    nofun

theorem read_advance {c : Config} (hc : c ≠ .start) (h : IsToken lexeme) :
    reader.read c (.ok lexeme :: rest) = reader.read (c.advance lexeme) rest := by
  cases c with
  | start => exact absurd rfl hc
  | opened front cell => exact read_opened h
  | closed earlier => exact (read_closed h).trans (read_opened h)

theorem read_append {lexemes : List Lexeme} (htokens : ∀ lexeme ∈ lexemes, IsToken lexeme)
    {c : Config} (hc : c ≠ .start) :
    ∃ c', c' ≠ .start ∧
      ∀ rest, reader.read c (lexemes.map .ok ++ rest) = reader.read c' rest := by
  -- Where the list stands does not matter, only that it has been opened.
  induction lexemes generalizing c with
  | nil => exact ⟨c, hc, fun rest => rfl⟩
  | cons lexeme lexemes ih =>
    rw [List.forall_mem_cons] at htokens
    have hadvance : c.advance lexeme ≠ .start := advance_ne_start hc
    obtain ⟨c', hc', hread⟩ := ih htokens.2 hadvance
    refine ⟨c', hc', ?_⟩
    intro rest
    rw [List.map_cons, List.cons_append, read_advance hc htokens.1, hread]

theorem exists_lastBody {inner : List Lexeme} (h : .rightParen ∈ inner) :
    ∃ earlier, inner = earlier ++ .rightParen :: lastBody inner ∧ .rightParen ∉ lastBody inner := by
  obtain ⟨behind, front, hsplit, hbehind⟩ :=
    List.eq_append_cons_of_mem (List.mem_reverse.mpr h)
  have htake : inner.reverse.takeWhile (· ≠ Lexeme.rightParen) = behind := by
    rw [hsplit, List.takeWhile_append_of_pos, List.takeWhile_cons_of_neg (by simp),
      List.append_nil]
    intro lexeme hlexeme
    rw [decide_eq_true_iff]
    rintro rfl
    exact hbehind hlexeme
  refine ⟨front.reverse, ?_, ?_⟩
  · rw [lastBody, htake, ← List.reverse_reverse inner, hsplit]
    simp
  · rw [lastBody, htake, List.mem_reverse]
    exact hbehind

theorem read_incomplete {lexemes : List Lexeme} (htokens : ∀ lexeme ∈ lexemes, IsToken lexeme)
    (hlast : lexemes.getLast? ≠ some .rightParen) :
    reader.read (.opened .first .vacant) (lexemes.map .ok) =
      .error (.parse (.unexpected Token.finish.label 6)) := by
  cases lexemes using List.reverseRecOn with
  | nil => rfl
  | append_singleton inner last =>
    rw [List.getLast?_concat] at hlast
    rw [List.forall_mem_append] at htokens
    have hopen : Config.opened .first .vacant ≠ .start := nofun
    obtain ⟨c, hc, hread⟩ := read_append htokens.1 hopen
    have hne : last ≠ .rightParen := by
      rintro rfl
      exact hlast rfl
    obtain ⟨front, cell, hopened⟩ := advance_of_ne hc hne
    have htoken : IsToken last := htokens.2 last (List.mem_singleton_self last)
    rw [List.map_append, List.map_singleton, hread, read_advance hc htoken, hopened]
    rfl

theorem read_closed_body {earlier : List Int64} {body : List Lexeme}
    (htokens : ∀ lexeme ∈ body, IsToken lexeme) (hparen : IsToken .rightParen)
    (hbody : .rightParen ∉ body) :
    reader.read (.closed earlier) ((body ++ [Lexeme.rightParen]).map .ok) =
      .ok (lostItem :: (items body).tail) := by
  have hopen : reader.read (.closed earlier) ((body ++ [Lexeme.rightParen]).map .ok) =
      reader.read (.opened .first .lost) ((body ++ [Lexeme.rightParen]).map .ok) := by
    cases body with
    | nil => exact read_closed hparen
    | cons lexeme body => exact read_closed (htokens lexeme List.mem_cons_self)
  rw [hopen, read_body htokens hbody, Cell.fillAll_lost (List.splitOn_ne_nil Lexeme.comma body)]
  rfl

/-- A complete list is decided by what stands behind its last closing parenthesis but one. -/
theorem read_complete {inner : List Lexeme} (htokens : ∀ lexeme ∈ inner, IsToken lexeme) :
    reader.read (.opened .first .vacant) ((inner ++ [Lexeme.rightParen]).map .ok) =
      .ok (if .rightParen ∈ inner then lostItem :: (items (lastBody inner)).tail
        else items inner) := by
  by_cases h : .rightParen ∈ inner
  · rw [if_pos h]
    -- Whatever came before, the last closing parenthesis but one has closed the list.
    obtain ⟨before, hsplit, hbody⟩ := exists_lastBody h
    generalize lastBody inner = body at hsplit hbody
    rw [hsplit, List.forall_mem_append, List.forall_mem_cons] at htokens
    obtain ⟨hbefore, hparen, htokens⟩ := htokens
    have hopen : Config.opened .first .vacant ≠ .start := nofun
    obtain ⟨c, hc, hread⟩ := read_append hbefore hopen
    obtain ⟨earlier, hclosed⟩ := advance_rightParen hc
    have hshape : before ++ .rightParen :: body ++ [.rightParen] =
        before ++ .rightParen :: (body ++ [.rightParen]) := by
      rw [List.append_assoc, List.cons_append]
    rw [hsplit, hshape, List.map_append, List.map_cons, hread, read_advance hc hparen, hclosed,
      read_closed_body htokens hparen hbody]
  · rw [if_neg h, read_body htokens h, Cell.fillAll_vacant]
    rfl

theorem answer_leftParen (rest : List Lexeme) :
    answer (.leftParen :: rest) =
      if (Lexeme.leftParen :: rest).getLast? ≠ some .rightParen then
        .error (.parse (.unexpected Token.finish.label 6))
      else if .rightParen ∈ rest.dropLast then
        .ok (lostItem :: (items (lastBody rest.dropLast)).tail)
      else .ok (items rest.dropLast) := rfl

theorem answer_of_ne {first : Lexeme} {t : Token} {value : Value} (rest : List Lexeme)
    (htoken : token first = .ok (t, value)) (hfirst : first ≠ .leftParen) :
    answer (first :: rest) = .error (.parse (.unexpected t.label 0)) := by
  rw [answer, htoken]
  exact if_pos hfirst

theorem read_start_of_ne {first : Lexeme} {t : Token} {value : Value}
    (htoken : token first = .ok (t, value)) (hfirst : first ≠ .leftParen) :
    reader.read .start (.ok first :: rest) = .error (.parse (.unexpected t.label 0)) := by
  have ht : t ≠ .leftParen := by
    rintro rfl
    cases first <;> first | exact hfirst rfl | cases htoken
  simp only [Reader.read, reader, Config.next, htoken, bind, Except.bind, if_neg ht]

theorem read_eq_answer {lexemes : List Lexeme} (htokens : ∀ lexeme ∈ lexemes, IsToken lexeme) :
    reader.read .start (lexemes.map .ok) = answer lexemes := by
  cases lexemes with
  | nil => rfl
  | cons first rest =>
    rw [List.forall_mem_cons] at htokens
    obtain ⟨⟨t, value, htoken⟩, htokens⟩ := htokens
    rw [List.map_cons]
    by_cases hfirst : first = .leftParen
    · subst hfirst
      have hstart : reader.read .start (.ok .leftParen :: rest.map .ok) =
          reader.read (.opened .first .vacant) (rest.map .ok) := rfl
      rw [hstart, answer_leftParen]
      cases rest using List.reverseRecOn with
      | nil => rfl
      | append_singleton inner last =>
        rw [← List.cons_append, List.getLast?_concat, List.dropLast_concat]
        by_cases hlast : last = .rightParen
        · rw [List.forall_mem_append] at htokens
          have hcomplete : ¬some last ≠ some .rightParen := not_not.mpr (congrArg some hlast)
          rw [if_neg hcomplete, hlast, read_complete htokens.1]
          by_cases h : .rightParen ∈ inner
          · rw [if_pos h, if_pos h]
          · rw [if_neg h, if_neg h]
        · have hincomplete : (inner ++ [last]).getLast? ≠ some .rightParen := by
            rw [List.getLast?_concat]
            simpa using hlast
          rw [read_incomplete htokens hincomplete, if_pos (by simpa using hlast)]
    · rw [read_start_of_ne htoken hfirst, answer_of_ne rest htoken hfirst]

/-- A text whose lexemes all have a token is answered by the formula. -/
theorem parse_eq_answer {source : String} {lexemes : List Lexeme}
    (hlexemes : tokenize source = .ok lexemes)
    (htokens : ∀ lexeme ∈ lexemes, ∃ t value, token lexeme = .ok (t, value)) :
    parse source = (answer lexemes).mapError .source := by
  have hrests : Stands defaultCapacity .start language.parser :=
    ⟨_, rests_create (by decide)⟩
  have hfollows : Follows grammar.toTable Builder.semantics stepLimit token reader
      (Stands defaultCapacity) _ :=
    follows_reader (by decide) (by decide)
  obtain ⟨q, hread, hanswer⟩ := hfollows.read_eq .start hrests (scan source)
  rw [tokenize_eq_ok_iff.mp hlexemes, read_eq_answer htokens] at hread hanswer
  have hrun : language.read source = _ := hread
  unfold parse
  rw [hrun]
  cases hresult : answer lexemes with
  | error error => rfl
  | ok items => exact accepted_eq (hanswer items hresult) rfl

/-- The lexemes of `(1,*,2),3)`. -/
def closedTooEarly : List Lexeme :=
  [.leftParen, .number 1, .comma, .star, .comma, .number 2, .rightParen, .comma, .number 3,
    .rightParen]

theorem parse_eq_answer_closedTooEarly :
    tokenize "(1,*,2),3)" = .ok closedTooEarly ∧
      (∀ lexeme ∈ closedTooEarly, ∃ t value, token lexeme = .ok (t, value)) ∧
      parse "(1,*,2),3)" = .ok [lostItem, 3] := by
  have hlexemes : tokenize "(1,*,2),3)" = .ok closedTooEarly := by decide +kernel
  have htokens : ∀ lexeme ∈ closedTooEarly, ∃ t value, token lexeme = .ok (t, value) := by
    simp [closedTooEarly, token]
  have hanswer : answer closedTooEarly = .ok [lostItem, 3] := by decide +kernel
  refine ⟨hlexemes, htokens, ?_⟩
  rw [parse_eq_answer hlexemes htokens, hanswer]
  rfl

end ShiftReduce.NumberList
