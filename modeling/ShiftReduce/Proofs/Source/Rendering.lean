import Mathlib.Data.List.Chain
import ShiftReduce.Proofs.Source.Reading
import ShiftReduce.Proofs.Source.Scanning

/-!
# Writing lexemes down

A list of lexemes can be written in many ways: with blanks before, between and after the lexemes, and
with zeros in front of the numbers. Only between two numbers a blank is due. However it is written,
reading gives the list back, and nothing else is read as a list of lexemes.
-/

namespace ShiftReduce

open Decimal

/-! ## Texts of lexemes -/

def Lexeme.isNumber : Lexeme → Bool
  | number _ => true
  | _ => false

/-- The characters of a lexeme; a number has so many zeros in front. -/
def Lexeme.chars (zeros : Nat) : Lexeme → List Char
  | plus => ['+']
  | minus => ['-']
  | star => ['*']
  | slash => ['/']
  | leftParen => ['(']
  | rightParen => [')']
  | comma => [',']
  | number value => List.replicate zeros '0' ++ signed value.toInt

/-- A lexeme with what is free when it is written: the blanks before it and the zeros in front. -/
structure Spelling where
  gap : List Char
  zeros : Nat
  lexeme : Lexeme

def Spelling.chars (s : Spelling) : List Char := s.gap ++ s.lexeme.chars s.zeros

/-- The lexemes as they are spelled, one behind the other, and the rest of the text. -/
def render (spellings : List Spelling) (rest : List Char) : List Char :=
  spellings.flatMap Spelling.chars ++ rest

/-- Gaps consist of blanks, there is one between any two numbers, and no number is negative. -/
structure Legible (spellings : List Spelling) (rest : List Char) : Prop where
  gaps : ∀ s ∈ spellings, ∀ c ∈ s.gap, isBlank c = true
  rest : ∀ c ∈ rest, isBlank c = true
  nonneg : ∀ s ∈ spellings, ∀ n, s.lexeme = .number n → 0 ≤ n
  apart : spellings.IsChain fun s t =>
    s.lexeme.isNumber = true → t.lexeme.isNumber = true → t.gap ≠ []

variable {s : Spelling} {spellings : List Spelling} {rest run text : List Char} {c : Char}
  {lexeme : Lexeme} {lexemes : List Lexeme} {offset : Nat} {n : Int64}

theorem render_cons (s : Spelling) (spellings : List Spelling) (rest : List Char) :
    render (s :: spellings) rest = s.gap ++ (s.lexeme.chars s.zeros ++ render spellings rest) := by
  simp [render, Spelling.chars]

theorem Legible.tail (h : Legible (s :: spellings) rest) : Legible spellings rest where
  gaps := (List.forall_mem_cons.mp h.gaps).2
  rest := h.rest
  nonneg := (List.forall_mem_cons.mp h.nonneg).2
  apart := (List.isChain_cons.mp h.apart).2

theorem delimits_blanks (h : ∀ c ∈ rest, isBlank c = true) : Delimits rest := by
  intro c hc
  apply isDigit_of_isBlank
  exact h c (List.mem_of_mem_head? hc)

/-! ## Reading what is written -/

theorem Lexeme.chars_number (zeros : Nat) (h : 0 ≤ n) :
    (Lexeme.number n).chars zeros =
      List.replicate zeros '0' ++ digits n.toNatClampNeg := by
  have hcast := n.cast_toNatClampNeg h
  have hnat : n.toInt.natAbs = n.toNatClampNeg := by omega
  rw [chars, signed_of_nonneg (Int64.le_iff_toInt_le.mp h), hnat]

theorem Lexeme.ofDigits?_leading_zeros (zeros : Nat) (h : 0 ≤ n) :
    Lexeme.ofDigits? (List.replicate zeros '0' ++ digits n.toNatClampNeg) =
      some (.number n) := by
  simp only [ofDigits?, value_leading_zeros, value_digits]
  rw [if_pos n.toNatClampNeg_lt, n.ofNat_toNatClampNeg h]

theorem Lexeme.chars_number_ne_nil (zeros : Nat) (h : 0 ≤ n) :
    (Lexeme.number n).chars zeros ≠ [] := by
  rw [chars_number zeros h]
  simp [digits_ne_nil]

theorem Lexeme.isDigit_of_mem_chars {zeros : Nat} (h : 0 ≤ n)
    (hc : c ∈ (Lexeme.number n).chars zeros) : c.isDigit = true := by
  rw [chars_number zeros h, List.mem_append] at hc
  rcases hc with hzero | hdigit
  · rw [List.eq_of_mem_replicate hzero]
    decide
  · exact isDigit_of_mem_digits hdigit

theorem scanFrom_lexeme (zeros : Nat) (hnonneg : ∀ n, lexeme = .number n → 0 ≤ n)
    (hrest : lexeme.isNumber = true → Delimits rest) :
    scanFrom offset (lexeme.chars zeros ++ rest) =
      Item.of offset (lexeme.chars zeros) (some lexeme) ::
        scanFrom (offset + byteLength (lexeme.chars zeros)) rest := by
  cases lexeme with
  | number n =>
    have hn := hnonneg n rfl
    have hread := Lexeme.ofDigits?_leading_zeros zeros hn
    rw [← Lexeme.chars_number zeros hn] at hread
    rw [scanFrom_run (Lexeme.chars_number_ne_nil zeros hn)
      (fun _ => Lexeme.isDigit_of_mem_chars hn) (hrest rfl), hread]
  | _ => exact scanFrom_punctuation rfl

theorem Legible.delimits (h : Legible (s :: spellings) rest) (hs : s.lexeme.isNumber = true) :
    Delimits (render spellings rest) := by
  cases spellings with
  | nil => exact delimits_blanks h.rest
  | cons t spellings =>
    obtain ⟨hapart, -⟩ := List.isChain_cons_cons.mp h.apart
    have hgap := h.gaps t (by simp)
    rw [render_cons]
    cases hblanks : t.gap with
    | nil =>
      have hother : t.lexeme.isNumber ≠ true := fun ht => hapart hs ht hblanks
      cases hlexeme : t.lexeme with
      | number n => simp [hlexeme, Lexeme.isNumber] at hother
      | _ => exact delimits_cons (by decide)
    | cons c gap =>
      apply delimits_cons
      apply isDigit_of_isBlank
      exact hgap c (by simp [hblanks])

theorem Legible.scanFrom_render (h : Legible spellings rest) (offset : Nat) :
    (scanFrom offset (render spellings rest)).map Item.content =
      (spellings.map Spelling.lexeme).map .ok := by
  induction spellings generalizing offset with
  | nil =>
    have hscan : scanFrom offset (rest ++ []) = scanFrom (offset + byteLength rest) [] :=
      scanFrom_blanks h.rest
    rw [List.append_nil, scanFrom] at hscan
    rw [render, List.flatMap_nil, List.nil_append, hscan]
    rfl
  | cons s spellings ih =>
    have hnonneg := h.nonneg s List.mem_cons_self
    rw [render_cons, scanFrom_blanks (h.gaps s List.mem_cons_self),
      scanFrom_lexeme s.zeros hnonneg h.delimits, List.map_cons, ih h.tail]
    rfl

/-! ## Writing what is read -/

theorem exists_chars_of_run (hne : run ≠ []) (hrun : ∀ c ∈ run, c.isDigit = true)
    (h : Lexeme.ofDigits? run = some lexeme) :
    ∃ zeros n, lexeme = .number n ∧ 0 ≤ n ∧ run = lexeme.chars zeros := by
  obtain ⟨zeros, hzeros⟩ := exists_leading_zeros hne hrun
  simp only [Lexeme.ofDigits?] at h
  split at h
  next hrange =>
    cases h
    have hclamp : (Int64.ofNat (value run)).toNatClampNeg = value run :=
      Int64.toNatClampNeg_ofNat_of_lt hrange
    have hnonneg : 0 ≤ Int64.ofNat (value run) := by
      rw [Int64.le_iff_toInt_le, Int64.toInt_ofNat_of_lt hrange]
      simp
    refine ⟨zeros, _, rfl, hnonneg, ?_⟩
    rw [Lexeme.chars_number zeros hnonneg, hclamp]
    exact hzeros
  next => cases h

theorem chars_of_ofPunctuation? (h : Lexeme.ofPunctuation? c = some lexeme) :
    lexeme.chars 0 = [c] ∧ lexeme.isNumber = false := by
  unfold Lexeme.ofPunctuation? at h
  split at h
  case h_8 => cases h
  all_goals cases h; exact ⟨rfl, rfl⟩

theorem Legible.blank (hc : isBlank c = true) (h : Legible spellings rest) :
    ∃ spellings' rest', Legible spellings' rest' ∧
      spellings'.map Spelling.lexeme = spellings.map Spelling.lexeme ∧
      render spellings' rest' = c :: render spellings rest := by
  cases spellings with
  | nil =>
    refine ⟨[], c :: rest, ⟨nofun, ?_, nofun, .nil⟩, rfl, rfl⟩
    exact List.forall_mem_cons.mpr ⟨hc, h.rest⟩
  | cons s spellings =>
    obtain ⟨hgap, hgaps⟩ := List.forall_mem_cons.mp h.gaps
    refine ⟨{ s with gap := c :: s.gap } :: spellings, rest, ⟨?_, h.rest, ?_, ?_⟩, rfl, ?_⟩
    · exact List.forall_mem_cons.mpr ⟨List.forall_mem_cons.mpr ⟨hc, hgap⟩, hgaps⟩
    · exact List.forall_mem_cons.mpr (List.forall_mem_cons.mp h.nonneg)
    · exact List.isChain_cons.mpr (List.isChain_cons.mp h.apart)
    · simp [render_cons]

theorem Legible.cons (h : Legible spellings rest) (zeros : Nat)
    (hnonneg : ∀ n, lexeme = .number n → 0 ≤ n)
    (hapart : lexeme.isNumber = true → Delimits (render spellings rest)) :
    Legible (⟨[], zeros, lexeme⟩ :: spellings) rest where
  gaps := List.forall_mem_cons.mpr ⟨nofun, h.gaps⟩
  rest := h.rest
  nonneg := List.forall_mem_cons.mpr ⟨hnonneg, h.nonneg⟩
  apart := by
    refine List.isChain_cons.mpr ⟨?_, h.apart⟩
    intro t ht hnumber htnumber hgap
    obtain ⟨n, hn⟩ : ∃ n, t.lexeme = .number n := by
      unfold Lexeme.isNumber at htnumber
      split at htnumber
      next n hlexeme => exact ⟨n, hlexeme⟩
      next => cases htnumber
    have hpos := h.nonneg t (List.mem_of_mem_head? ht) n hn
    obtain ⟨others, rfl⟩ := List.head?_eq_some_iff.mp ht
    obtain ⟨c, run, hchars⟩ :=
      List.exists_cons_of_ne_nil (Lexeme.chars_number_ne_nil t.zeros hpos)
    have hmem : c ∈ (Lexeme.number n).chars t.zeros := by simp [hchars]
    have hdigit := Lexeme.isDigit_of_mem_chars hpos hmem
    have hother : c.isDigit = false := by
      apply hapart hnumber
      simp [render_cons, hgap, hn, hchars]
    rw [hdigit] at hother
    cases hother

theorem exists_of_map_content {piece : List Char} {lexeme? : Option Lexeme} {items : List Item}
    (h : (Item.of offset piece lexeme? :: items).map Item.content = lexemes.map .ok) :
    ∃ lexeme others, lexeme? = some lexeme ∧ lexemes = lexeme :: others ∧
      items.map Item.content = others.map .ok := by
  cases lexemes with
  | nil => cases h
  | cons lexeme others =>
    obtain ⟨hitem, hitems⟩ := List.cons.inj h
    refine ⟨lexeme, others, ?_, rfl, hitems⟩
    cases lexeme? with
    | none => cases hitem
    | some lexeme' => rw [Except.ok.inj hitem]

theorem exists_legible (h : (scanFrom offset text).map Item.content = lexemes.map .ok) :
    ∃ spellings rest, Legible spellings rest ∧ spellings.map Spelling.lexeme = lexemes ∧
      text = render spellings rest := by
  -- A lexeme is spelled without a gap at first, and the blanks before it are added on the way back.
  fun_induction scanFrom offset text generalizing lexemes with
  | case1 offset =>
    obtain rfl := List.map_eq_nil_iff.mp h.symm
    exact ⟨[], [], ⟨by simp, by simp, by simp, .nil⟩, rfl, rfl⟩
  | case2 offset c text hblank ih =>
    obtain ⟨spellings, rest, hlegible, rfl, rfl⟩ := ih h
    obtain ⟨spellings', rest', hlegible', hlexemes, hrender⟩ := hlegible.blank hblank
    exact ⟨spellings', rest', hlegible', hlexemes, hrender.symm⟩
  | @case3 offset c text hblank hdigit run ih =>
    obtain ⟨lexeme, others, hlexeme, rfl, hothers⟩ := exists_of_map_content h
    obtain ⟨spellings, rest, hlegible, rfl, htext⟩ := ih hothers
    have hrun : ∀ d ∈ c :: text.takeWhile Char.isDigit, d.isDigit = true :=
      List.forall_mem_cons.mpr ⟨hdigit, fun d hd => List.mem_takeWhile_imp hd⟩
    obtain ⟨zeros, n, rfl, hn, hchars⟩ :=
      exists_chars_of_run (List.cons_ne_nil _ _) hrun hlexeme
    have hdelimits : Delimits (render spellings rest) := by
      rw [← htext]
      exact delimits_dropWhile text
    refine ⟨⟨[], zeros, .number n⟩ :: spellings, rest, hlegible.cons zeros ?_ fun _ => hdelimits,
      rfl, ?_⟩
    · rintro m ⟨⟩
      exact hn
    · rw [render_cons, ← hchars, ← htext]
      simp [List.takeWhile_append_dropWhile]
  | case4 offset c text hblank hdigit ih =>
    obtain ⟨lexeme, others, hlexeme, rfl, hothers⟩ := exists_of_map_content h
    obtain ⟨spellings, rest, hlegible, rfl, htext⟩ := ih hothers
    obtain ⟨hchars, hother⟩ := chars_of_ofPunctuation? hlexeme
    refine ⟨⟨[], 0, lexeme⟩ :: spellings, rest, hlegible.cons 0 ?_ ?_, rfl, ?_⟩
    · rintro n rfl
      cases hother
    · intro hnumber
      rw [hother] at hnumber
      cases hnumber
    · rw [render_cons, htext, hchars]
      rfl

/-- A text is read as these lexemes exactly if they have been written so. -/
theorem tokenize_eq_ok_iff_written (text : String) (lexemes : List Lexeme) :
    tokenize text = .ok lexemes ↔
      ∃ spellings rest, Legible spellings rest ∧ spellings.map Spelling.lexeme = lexemes ∧
        text = String.ofList (render spellings rest) := by
  rw [tokenize_eq_ok_iff, scan]
  constructor
  · intro h
    obtain ⟨spellings, rest, hlegible, hlexemes, htext⟩ := exists_legible h
    exact ⟨spellings, rest, hlegible, hlexemes, by rw [← htext, String.ofList_toList]⟩
  · rintro ⟨spellings, rest, hlegible, rfl, rfl⟩
    rw [String.toList_ofList]
    exact hlegible.scanFrom_render 0

end ShiftReduce
