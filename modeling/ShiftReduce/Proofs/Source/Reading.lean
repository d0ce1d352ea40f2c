import ShiftReduce.Source.Reading
import ShiftReduce.Proofs.Parser.Reachable

/-!
# Reading, item by item

What the loop over the items of a text does, one equation for each way it can go. A parser whose posts
follow a small machine reads a text as the machine does.
-/

namespace ShiftReduce

/-! ## Lexemes of a text -/

theorem mapM_eq_ok_iff {β γ ε : Type} {f : β → Except ε γ} {xs : List β} {ys : List γ} :
    xs.mapM f = .ok ys ↔ xs.map f = ys.map .ok := by
  induction xs generalizing ys with
  | nil =>
    cases ys with
    | nil => exact ⟨fun _ => rfl, fun _ => rfl⟩
    | cons y ys => exact ⟨nofun, nofun⟩
  | cons x xs ih =>
    rw [List.mapM_cons, bind_eq_ok, List.map_cons]
    constructor
    · rintro ⟨y, hy, h⟩
      obtain ⟨rest, hrest, h⟩ := bind_eq_ok.mp h
      cases h
      rw [hy, ih.mp hrest]
      rfl
    · intro h
      cases ys with
      | nil => cases h
      | cons y ys =>
        obtain ⟨hy, hrest⟩ := List.cons.inj h
        refine ⟨y, hy, ?_⟩
        rw [ih.mpr hrest]
        rfl

theorem tokenize_eq_ok_iff {text : String} {lexemes : List Lexeme} :
    tokenize text = .ok lexemes ↔ (scan text).map Item.content = lexemes.map .ok :=
  mapM_eq_ok_iff

theorem eq_unreadable_of_mem_scanFrom {offset : Nat} {text : List Char} {item : Item}
    {error : SourceError} (h : item ∈ scanFrom offset text) (herror : item.content = .error error) :
    ∃ offset text, error = .unreadable offset text := by
  have hof (offset : Nat) (text : List Char) (lexeme? : Option Lexeme)
      (herror : (Item.of offset text lexeme?).content = .error error) :
      ∃ offset text, error = .unreadable offset text := by
    cases lexeme? with
    | some lexeme => cases herror
    | none => cases herror; exact ⟨_, _, rfl⟩
  fun_induction scanFrom offset text with
  | case1 => cases h
  | case2 offset c rest hblank ih => exact ih h
  | case3 offset c rest hblank hdigit run ih =>
    rcases List.mem_cons.mp h with rfl | hrest
    · exact hof _ _ _ herror
    · exact ih hrest
  | case4 offset c rest hblank hdigit ih =>
    rcases List.mem_cons.mp h with rfl | hrest
    · exact hof _ _ _ herror
    · exact ih hrest

/-! ## The loop over the items -/

namespace Parser

variable {σ τ π ν α : Type} {table : Table σ τ π} {sem : Semantics π ν α}
  {token : Lexeme → Except SourceError (τ × ν)} {limit : Nat} {p q : Parser σ τ π ν α}
  {item : Item} {items : List Item} {lexeme : Lexeme} {error : SourceError} {t : τ} {value : ν}

theorem verdict_of_errored {error : ParseError} (h : p.status = .errored error) :
    p.verdict = .error (.parse error) := by
  rw [verdict, h]

theorem verdict_of_accepted (h : p.status = .accepted value) : p.verdict = .ok () := by
  unfold verdict
  rw [h]

theorem accepted_eq {β : Type} {kind : Cast ν β} {b : β} (hstatus : p.status = .accepted value)
    (hdown : kind.down value = .ok b) : p.accepted kind = .ok b := by
  unfold accepted
  rw [valueAs?, hstatus]
  simp only [hdown]
  rfl

variable [DecidableEq τ]

theorem read_nil (hrunning : p.isDone = false)
    (hpost : p.post table sem limit table.endToken sem.blank = .ok q) :
    p.read table sem limit token [] = .ok (q, q.verdict) := by
  unfold read
  rw [finish, if_neg (by simp [hrunning]), hpost]
  rfl

theorem read_cons_unreadable (hcontent : item.content = .error error) :
    p.read table sem limit token (item :: items) =
      .ok (p.record (.note error.message), .error error) := by
  unfold read
  rw [hcontent]
  rfl

theorem read_cons_foreign (hcontent : item.content = .ok lexeme)
    (htoken : token lexeme = .error error) :
    p.read table sem limit token (item :: items) = .ok (p, .error error) := by
  unfold read
  rw [hcontent]
  simp only [htoken]
  rfl

theorem read_cons_done (hcontent : item.content = .ok lexeme) (htoken : token lexeme = .ok (t, value))
    (hpost : p.post table sem limit t value = .ok q) (hdone : q.isDone = true) :
    p.read table sem limit token (item :: items) = .ok (q, q.verdict) := by
  unfold read
  rw [hcontent]
  simp only [htoken, hpost, bind, Except.bind]
  rw [if_pos hdone]
  rfl

theorem read_cons_running (hcontent : item.content = .ok lexeme)
    (htoken : token lexeme = .ok (t, value)) (hpost : p.post table sem limit t value = .ok q)
    (hrunning : q.isDone = false) :
    p.read table sem limit token (item :: items) = q.read table sem limit token items := by
  rw [read, hcontent]
  simp only [htoken, hpost, bind, Except.bind]
  rw [if_neg (by simp [hrunning])]

/-- What reading ends with once its posts have led to the parser `r`: the parser and its verdict, or an
item that is no token. Reading only goes on to an item while the run does. -/
inductive Stops (table : Table σ τ π) (sem : Semantics π ν α) (limit : Nat)
    (token : Lexeme → Except SourceError (τ × ν)) (items : List Item) (p r : Parser σ τ π ν α) :
    Parser σ τ π ν α → Except SourceError Unit → Prop
  | done (hdone : r.isDone = true) : Stops table sem limit token items p r r r.verdict
  | finished {q : Parser σ τ π ν α} (hrunning : r.isDone = false)
      (hpost : r.post table sem limit table.endToken sem.blank = .ok q) :
      Stops table sem limit token items p r q q.verdict
  | unreadable {item : Item} {error : SourceError} (hopen : r = p ∨ r.isDone = false)
      (hitem : item ∈ items) (hcontent : item.content = .error error) :
      Stops table sem limit token items p r (r.record (.note error.message)) (.error error)
  | foreign {lexeme : Lexeme} {error : SourceError} (hopen : r = p ∨ r.isDone = false)
      (htoken : token lexeme = .error error) :
      Stops table sem limit token items p r r (.error error)

theorem Stops.cons {r : Parser σ τ π ν α} {result : Except SourceError Unit} (item : Item)
    (hrunning : p.isDone = false) (h : Stops table sem limit token items p r q result)
    (p' : Parser σ τ π ν α) : Stops table sem limit token (item :: items) p' r q result := by
  have hlive (hopen : r = p ∨ r.isDone = false) : r.isDone = false := by
    rcases hopen with rfl | hopen
    · exact hrunning
    · exact hopen
  cases h with
  | done hdone => exact .done hdone
  | finished hgoesOn hpost => exact .finished hgoesOn hpost
  | unreadable hopen hitem hcontent =>
    exact .unreadable (.inr (hlive hopen)) (List.mem_cons_of_mem item hitem) hcontent
  | foreign hopen htoken => exact .foreign (.inr (hlive hopen)) htoken

theorem exists_stops {result : Except SourceError Unit}
    (h : p.read table sem limit token items = .ok (q, result)) :
    ∃ posts r, p.postAll table sem limit posts = .ok r ∧
      Stops table sem limit token items p r q result := by
  -- A token that does not end the run is the first post, in front of those that its rest stands for.
  induction items generalizing p with
  | nil =>
    refine ⟨[], p, rfl, ?_⟩
    unfold read finish at h
    split at h
    next hdone => cases h; exact .done hdone
    next hdone =>
      obtain ⟨r, hpost, hrest⟩ := bind_eq_ok.mp h
      cases hrest
      exact .finished (by simpa using hdone) hpost
  | cons item items ih =>
    cases hcontent : item.content with
    | error error =>
      rw [read_cons_unreadable hcontent] at h
      cases h
      exact ⟨[], p, rfl, .unreadable (.inl rfl) List.mem_cons_self hcontent⟩
    | ok lexeme =>
      cases htoken : token lexeme with
      | error error =>
        rw [read_cons_foreign hcontent htoken] at h
        cases h
        exact ⟨[], q, rfl, .foreign (.inl rfl) htoken⟩
      | ok posted =>
        obtain ⟨t, value⟩ := posted
        rw [read, hcontent] at h
        simp only [htoken] at h
        obtain ⟨p₁, hpost, hrest⟩ := bind_eq_ok.mp h
        have hrun (posts : List (τ × ν)) : p.postAll table sem limit ((t, value) :: posts) =
            p₁.postAll table sem limit posts := by
          unfold postAll
          rw [List.foldlM_cons]
          simp only [hpost]
          rfl
        cases hdone : p₁.isDone with
        | true =>
          rw [if_pos hdone] at hrest
          cases hrest
          exact ⟨[(t, value)], q, hrun [], .done hdone⟩
        | false =>
          rw [if_neg (by rw [hdone]; decide)] at hrest
          obtain ⟨posts, r, hposts, hstops⟩ := ih hrest
          exact ⟨(t, value) :: posts, r, (hrun posts).trans hposts, hstops.cons item hdone p⟩

/-- Reading ends with a parser that has what every post keeps, and says how that parser stands, unless
an item is no token. -/
theorem read_cases {I : Parser σ τ π ν α → Prop} {result : Except SourceError Unit}
    (hkeep : ∀ p q t value, I p → p.post table sem limit t value = .ok q → I q) (hp : I p)
    (h : p.read table sem limit token items = .ok (q, result)) :
    I q ∧ result = q.verdict ∨
      ∃ error, result = .error error ∧
        ((∃ item ∈ items, item.content = .error error) ∨ ∃ lexeme, token lexeme = .error error) := by
  obtain ⟨posts, r, hposts, hstops⟩ := exists_stops h
  have hr : I r := postAll_keeps hkeep hp hposts
  cases hstops with
  | done => exact .inl ⟨hr, rfl⟩
  | finished _ hpost => exact .inl ⟨hkeep _ _ _ _ hr hpost, rfl⟩
  | unreadable _ hitem hcontent => exact .inr ⟨_, rfl, .inl ⟨_, hitem, hcontent⟩⟩
  | foreign _ htoken => exact .inr ⟨_, rfl, .inr ⟨_, htoken⟩⟩

end Parser

/-! ## Readers -/

/-- A machine that reads lexemes: what each makes of the state, and the answer at the end. -/
structure Reader (κ β : Type) where
  next : κ → Lexeme → Except SourceError κ
  finish : κ → Except SourceError β

def Reader.read {κ β : Type} (r : Reader κ β) (state : κ) :
    List (Except SourceError Lexeme) → Except SourceError β
  | [] => r.finish state
  | content :: rest => do
    let state ← r.next state (← content)
    r.read state rest

namespace Parser

variable {σ τ π ν α κ β : Type} [DecidableEq τ] {table : Table σ τ π} {sem : Semantics π ν α}
  {token : Lexeme → Except SourceError (τ × ν)} {limit : Nat} {p : Parser σ τ π ν α}

/-- A post of the token ends the run in the error that the reader answers with. -/
def Fails (table : Table σ τ π) (sem : Semantics π ν α) (limit : Nat) (t : τ) (value : ν)
    (p : Parser σ τ π ν α) (error : SourceError) : Prop :=
  ∃ q error', p.post table sem limit t value = .ok q ∧ q.status = .errored error' ∧
    error = .parse error'

/-- Parsers that stand for a state of the reader follow it: running parsers through each lexeme, and
at the end of the input to its answer. -/
structure Follows (table : Table σ τ π) (sem : Semantics π ν α) (limit : Nat)
    (token : Lexeme → Except SourceError (τ × ν)) (r : Reader κ β)
    (stands : κ → Parser σ τ π ν α → Prop) (answers : β → Parser σ τ π ν α → Prop) : Prop where
  running {state p} : stands state p → p.isDone = false
  next {state p lexeme state'} : stands state p → r.next state lexeme = .ok state' →
    ∃ t value q, token lexeme = .ok (t, value) ∧ p.post table sem limit t value = .ok q ∧
      stands state' q
  refuse {state p lexeme error} : stands state p → r.next state lexeme = .error error →
    token lexeme = .error error ∨
      ∃ t value, token lexeme = .ok (t, value) ∧ p.Fails table sem limit t value error
  finish {state p answer} : stands state p → r.finish state = .ok answer →
    ∃ q value, p.post table sem limit table.endToken sem.blank = .ok q ∧
      q.status = .accepted value ∧ answers answer q
  fail {state p error} : stands state p → r.finish state = .error error →
    p.Fails table sem limit table.endToken sem.blank error

theorem Follows.read_eq {r : Reader κ β} {stands : κ → Parser σ τ π ν α → Prop}
    {answers : β → Parser σ τ π ν α → Prop}
    (h : Follows table sem limit token r stands answers) (state : κ) (hp : stands state p)
    (items : List Item) :
    ∃ q, p.read table sem limit token items =
        .ok (q, (r.read state (items.map Item.content)).map fun _ => ()) ∧
      ∀ answer, r.read state (items.map Item.content) = .ok answer → answers answer q := by
  induction items generalizing p state with
  | nil =>
    rw [List.map_nil, Reader.read]
    cases hfinish : r.finish state with
    | error error =>
      obtain ⟨q, error', hpost, hstatus, rfl⟩ := h.fail hp hfinish
      refine ⟨q, ?_, ?_⟩
      · rw [read_nil (h.running hp) hpost, verdict_of_errored hstatus]
        rfl
      · rintro answer ⟨⟩
    | ok answer =>
      obtain ⟨q, value, hpost, hstatus, hanswer⟩ := h.finish hp hfinish
      refine ⟨q, ?_, ?_⟩
      · rw [read_nil (h.running hp) hpost, verdict_of_accepted hstatus]
        rfl
      · rintro answer' heq
        cases heq
        exact hanswer
  | cons item items ih =>
    rw [List.map_cons, Reader.read]
    cases hcontent : item.content with
    | error error =>
      refine ⟨_, read_cons_unreadable hcontent, ?_⟩
      rintro answer ⟨⟩
    | ok lexeme =>
      simp only [bind, Except.bind]
      cases hnext : r.next state lexeme with
      | error error =>
        rcases h.refuse hp hnext with htoken | ⟨t, value, htoken, q, error', hpost, hstatus, rfl⟩
        · refine ⟨p, read_cons_foreign hcontent htoken, ?_⟩
          rintro answer ⟨⟩
        · have hdone : q.isDone = true := by rw [isDone, hstatus]
          refine ⟨q, ?_, ?_⟩
          · rw [read_cons_done hcontent htoken hpost hdone, verdict_of_errored hstatus]
            rfl
          · rintro answer ⟨⟩
      | ok state' =>
        obtain ⟨t, value, q, htoken, hpost, hq⟩ := h.next hp hnext
        obtain ⟨q', hread, hanswer⟩ := ih state' hq
        exact ⟨q', (read_cons_running hcontent htoken hpost (h.running hq)).trans hread, hanswer⟩

end Parser

end ShiftReduce
