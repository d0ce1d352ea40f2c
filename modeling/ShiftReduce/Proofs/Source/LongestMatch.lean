import Mathlib.Data.List.Basic
import ShiftReduce.Proofs.Source.Scanning

/-!
# The longest match

The rule for reading a text from the front: of all pieces at its head that match a pattern, the
longest is taken; blanks are skipped, and any other piece is an item. Where nothing matches, one
character is an error. The rule leaves no choice, and a scan follows it.
-/

namespace ShiftReduce

open Decimal

/-! ## The rule -/

inductive Pattern
  | blanks
  | punctuation
  | digits

namespace Pattern

def Matches : Pattern → List Char → Prop
  | blanks, piece => piece ≠ [] ∧ ∀ c ∈ piece, isBlank c = true
  | punctuation, piece => ∃ c, piece = [c] ∧ (Lexeme.ofPunctuation? c).isSome = true
  | digits, piece => piece ≠ [] ∧ ∀ c ∈ piece, c.isDigit = true

/-- What becomes of a piece at the byte `offset`. -/
def items (offset : Nat) : Pattern → List Char → List Item
  | blanks, _ => []
  | punctuation, piece => [Item.of offset piece (piece.head?.bind Lexeme.ofPunctuation?)]
  | digits, piece => [Item.of offset piece (Lexeme.ofDigits? piece)]

end Pattern

/-- The piece matches the pattern, and nothing longer at the head of the text matches any. -/
structure Longest (pattern : Pattern) (piece rest : List Char) : Prop where
  fits : pattern.Matches piece
  length_le : ∀ other front back, front ++ back = piece ++ rest → Pattern.Matches other front →
    front.length ≤ piece.length

/-- The items that a text at the byte `offset` is read as. -/
inductive Lexes : Nat → List Char → List Item → Prop
  | done {offset} : Lexes offset [] []
  | matched {offset pattern piece rest items} (hlongest : Longest pattern piece rest)
      (hrest : Lexes (offset + byteLength piece) rest items) :
      Lexes offset (piece ++ rest) (pattern.items offset piece ++ items)
  | unmatched {offset c rest items}
      (hnone : ∀ pattern front back, front ++ back = c :: rest → ¬ Pattern.Matches pattern front)
      (hrest : Lexes (offset + c.utf8Size) rest items) :
      Lexes offset (c :: rest) (Item.of offset [c] none :: items)

/-! ## The first character decides -/

/-- The pattern that a character begins. -/
def Pattern.of? (c : Char) : Option Pattern :=
  if isBlank c = true then some blanks
  else if c.isDigit = true then some digits
  else if (Lexeme.ofPunctuation? c).isSome = true then some punctuation
  else none

variable {offset : Nat} {pattern : Pattern} {c : Char} {front back piece rest tail text : List Char}
  {items : List Item}

theorem Pattern.of?_of_isBlank (h : isBlank c = true) : of? c = some blanks := by
  rw [of?, if_pos h]

theorem Pattern.of?_of_isDigit (h : c.isDigit = true) : of? c = some digits := by
  rw [of?, if_neg (by rw [isBlank_of_isDigit h]; decide), if_pos h]

theorem Pattern.of?_of_punctuation (h : (Lexeme.ofPunctuation? c).isSome = true) :
    of? c = some punctuation := by
  obtain ⟨lexeme, hlexeme⟩ := Option.isSome_iff_exists.mp h
  obtain ⟨hblank, hdigit⟩ := Lexeme.ofPunctuation?_cases hlexeme
  simp [of?, hblank, hdigit, h]

theorem Pattern.of?_eq_none_iff :
    of? c = none ↔ isBlank c = false ∧ c.isDigit = false ∧ Lexeme.ofPunctuation? c = none := by
  unfold of?
  split_ifs with hblank hdigit hsome
  · simp [hblank]
  · simp [hdigit]
  · simp [Option.isSome_iff_ne_none.mp hsome]
  · simpa [hblank, hdigit] using hsome

theorem Pattern.Matches.ne_nil (h : pattern.Matches piece) : piece ≠ [] := by
  cases pattern with
  | punctuation =>
    obtain ⟨c, rfl, -⟩ := h
    exact List.cons_ne_nil _ _
  | blanks | digits => exact h.1

theorem Pattern.Matches.of?_eq (h : pattern.Matches (c :: tail)) : of? c = some pattern := by
  cases pattern with
  | punctuation =>
    obtain ⟨d, hd, hsome⟩ := h
    cases hd
    exact of?_of_punctuation hsome
  | blanks => exact of?_of_isBlank (h.2 c List.mem_cons_self)
  | digits => exact of?_of_isDigit (h.2 c List.mem_cons_self)

theorem Pattern.Matches.unique {other : Pattern} (h : pattern.Matches piece)
    (h' : other.Matches front) (htext : front ++ back = piece ++ rest) : other = pattern := by
  obtain ⟨c, tail, rfl⟩ := List.exists_cons_of_ne_nil h.ne_nil
  obtain ⟨d, tail', rfl⟩ := List.exists_cons_of_ne_nil h'.ne_nil
  obtain rfl : d = c := (List.cons.inj htext).1
  exact Option.some.inj (h'.of?_eq.symm.trans h.of?_eq)

/-! ## The longest piece -/

theorem length_le_of_ends {p : Char → Bool} (hfront : ∀ c ∈ front, p c = true)
    (hrest : ∀ c ∈ rest.head?, p c = false) (htext : front ++ back = piece ++ rest) :
    front.length ≤ piece.length := by
  rcases List.append_eq_append_iff.mp htext with ⟨more, rfl, -⟩ | ⟨more, rfl, hmore⟩
  · simp
  · cases more with
    | nil => simp
    | cons c more =>
      have hstop : p c = false := hrest c (by simp [hmore])
      rw [hfront c (by simp)] at hstop
      cases hstop

theorem longest_run {p : Char → Bool}
    (hpattern : ∀ piece, pattern.Matches piece ↔ piece ≠ [] ∧ ∀ c ∈ piece, p c = true)
    (hfits : pattern.Matches piece) (hrest : ∀ c ∈ rest.head?, p c = false) :
    Longest pattern piece rest where
  fits := hfits
  length_le other front back htext hfront := by
    obtain rfl := hfits.unique hfront htext
    exact length_le_of_ends ((hpattern front).mp hfront).2 hrest htext

theorem longest_punctuation (h : (Lexeme.ofPunctuation? c).isSome = true) :
    Longest .punctuation [c] rest where
  fits := ⟨c, rfl, h⟩
  length_le other front back htext hfront := by
    have hfits : Pattern.Matches .punctuation [c] := ⟨c, rfl, h⟩
    obtain rfl := hfits.unique hfront htext
    obtain ⟨d, rfl, -⟩ := hfront
    simp

theorem Longest.delimits (h : Longest .digits piece rest) : Delimits rest := by
  intro c hc
  obtain ⟨more, rfl⟩ := List.head?_eq_some_iff.mp hc
  by_contra hdigit
  have hlonger : Pattern.Matches .digits (piece ++ [c]) := by
    refine ⟨by simp, ?_⟩
    simpa [or_imp, forall_and] using ⟨h.fits.2, by simpa using hdigit⟩
  have hle := h.length_le _ (piece ++ [c]) more (by simp) hlonger
  rw [List.length_append, List.length_singleton] at hle
  omega

theorem not_matches_of_of?_eq_none (h : Pattern.of? c = none)
    (htext : front ++ back = c :: rest) : ¬ pattern.Matches front := by
  intro hmatches
  obtain ⟨d, tail, rfl⟩ := List.exists_cons_of_ne_nil hmatches.ne_nil
  obtain rfl : d = c := (List.cons.inj htext).1
  rw [hmatches.of?_eq] at h
  cases h

theorem exists_longest_run {p : Char → Bool}
    (hpattern : ∀ piece, pattern.Matches piece ↔ piece ≠ [] ∧ ∀ c ∈ piece, p c = true)
    (hc : p c = true) (text : List Char) :
    ∃ piece rest, c :: text = piece ++ rest ∧ Longest pattern piece rest := by
  have hfits : pattern.Matches ((c :: text).takeWhile p) := by
    rw [hpattern, List.takeWhile_cons_of_pos hc]
    refine ⟨List.cons_ne_nil _ _, ?_⟩
    exact List.forall_mem_cons.mpr ⟨hc, fun d => List.mem_takeWhile_imp⟩
  refine ⟨_, _, List.takeWhile_append_dropWhile.symm, longest_run hpattern hfits ?_⟩
  exact fun d => eq_false_of_mem_head?_dropWhile

theorem exists_longest (h : Pattern.of? c = some pattern) (text : List Char) :
    ∃ piece rest, c :: text = piece ++ rest ∧ Longest pattern piece rest := by
  unfold Pattern.of? at h
  split_ifs at h with hblank hdigit hsome <;> cases h
  · exact exists_longest_run (fun _ => Iff.rfl) hblank text
  · exact exists_longest_run (fun _ => Iff.rfl) hdigit text
  · exact ⟨[c], text, rfl, longest_punctuation hsome⟩

theorem of?_eq_none_of_not_matches
    (h : ∀ pattern front back, front ++ back = c :: rest → ¬ Pattern.Matches pattern front) :
    Pattern.of? c = none := by
  rw [Pattern.of?_eq_none_iff]
  refine ⟨?_, ?_, ?_⟩
  · by_contra hblank
    exact h .blanks [c] rest rfl ⟨by simp, by simpa using hblank⟩
  · by_contra hdigit
    exact h .digits [c] rest rfl ⟨by simp, by simpa using hdigit⟩
  · by_contra hsome
    exact h .punctuation [c] rest rfl ⟨c, rfl, Option.isSome_iff_ne_none.mpr hsome⟩

/-! ## The scan -/

theorem scanFrom_of_longest (h : Longest pattern piece rest) :
    scanFrom offset (piece ++ rest) =
      pattern.items offset piece ++ scanFrom (offset + byteLength piece) rest := by
  cases pattern with
  | blanks => exact scanFrom_blanks h.fits.2
  | digits => exact scanFrom_run h.fits.1 h.fits.2 h.delimits
  | punctuation =>
    obtain ⟨c, rfl, hsome⟩ := h.fits
    obtain ⟨lexeme, hlexeme⟩ := Option.isSome_iff_exists.mp hsome
    have hitem : Pattern.items offset .punctuation [c] = [Item.of offset [c] (some lexeme)] := by
      simp [Pattern.items, hlexeme]
    rw [hitem]
    exact scanFrom_punctuation hlexeme

theorem Lexes.eq_scanFrom (h : Lexes offset text items) : items = scanFrom offset text := by
  induction h with
  | done => rw [scanFrom]
  | matched hlongest _ ih => rw [scanFrom_of_longest hlongest, ih]
  | unmatched hnone _ ih =>
    obtain ⟨hblank, hdigit, hpunctuation⟩ :=
      Pattern.of?_eq_none_iff.mp (of?_eq_none_of_not_matches hnone)
    rw [scanFrom_other hblank hdigit, hpunctuation, ih]

theorem lexes_scanFrom (offset : Nat) (text : List Char) :
    Lexes offset text (scanFrom offset text) := by
  -- A match is not empty, so what is left of the text is shorter.
  induction hlength : text.length using Nat.strongRecOn generalizing offset text with
  | ind length ih =>
    subst hlength
    cases text with
    | nil =>
      rw [scanFrom]
      exact .done
    | cons c text =>
      cases hpattern : Pattern.of? c with
      | none =>
        obtain ⟨hblank, hdigit, hpunctuation⟩ := Pattern.of?_eq_none_iff.mp hpattern
        rw [scanFrom_other hblank hdigit, hpunctuation]
        refine .unmatched (fun _ _ _ => not_matches_of_of?_eq_none hpattern) ?_
        exact ih text.length (by simp) _ text rfl
      | some pattern =>
        obtain ⟨piece, rest, htext, hlongest⟩ := exists_longest hpattern text
        have hpos := List.length_pos_of_ne_nil hlongest.fits.ne_nil
        rw [htext, scanFrom_of_longest hlongest]
        refine .matched hlongest (ih rest.length ?_ _ rest rfl)
        rw [htext, List.length_append]
        omega

theorem lexes_iff : Lexes offset text items ↔ items = scanFrom offset text := by
  constructor
  · exact Lexes.eq_scanFrom
  · rintro rfl
    exact lexes_scanFrom offset text

end ShiftReduce
