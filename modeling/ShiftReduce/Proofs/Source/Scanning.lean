import ShiftReduce.Source.Lexeme
import ShiftReduce.Proofs.Text.Decimal

/-!
# Scanning from the front

A scan takes the text in pieces: it skips a blank, and makes an item of a punctuation character and
of a run of digits up to the next character that is none.
-/

namespace ShiftReduce

open Decimal

variable {offset : Nat} {c : Char} {gap run rest : List Char} {lexeme : Lexeme}

@[simp] theorem byteLength_append (front back : List Char) :
    byteLength (front ++ back) = byteLength front + byteLength back := by
  induction front with
  | nil => simp [byteLength]
  | cons c front ih => simp [byteLength, ih, Nat.add_assoc]

theorem isDigit_of_isBlank (h : isBlank c = true) : c.isDigit = false := by
  simp only [isBlank, List.contains_iff_mem, List.mem_cons, List.not_mem_nil, or_false] at h
  rcases h with rfl | rfl | rfl | rfl | rfl <;> decide

theorem isBlank_of_isDigit (h : c.isDigit = true) : isBlank c = false := by
  by_contra hblank
  rw [isDigit_of_isBlank (by simpa using hblank)] at h
  cases h

theorem Lexeme.ofPunctuation?_cases (h : Lexeme.ofPunctuation? c = some lexeme) :
    isBlank c = false ∧ c.isDigit = false := by
  unfold Lexeme.ofPunctuation? at h
  split at h
  case h_8 => cases h
  all_goals exact ⟨by decide, by decide⟩

theorem scanFrom_blank (h : isBlank c = true) :
    scanFrom offset (c :: rest) = scanFrom (offset + c.utf8Size) rest := by
  rw [scanFrom, if_pos h]

theorem scanFrom_blanks (h : ∀ c ∈ gap, isBlank c = true) :
    scanFrom offset (gap ++ rest) = scanFrom (offset + byteLength gap) rest := by
  induction gap generalizing offset with
  | nil => rfl
  | cons c gap ih =>
    obtain ⟨hc, hgap⟩ := List.forall_mem_cons.mp h
    rw [List.cons_append, scanFrom_blank hc, ih hgap, byteLength, Nat.add_assoc]

theorem scanFrom_other (hblank : isBlank c = false) (hdigit : c.isDigit = false) :
    scanFrom offset (c :: rest) =
      Item.of offset [c] (Lexeme.ofPunctuation? c) :: scanFrom (offset + c.utf8Size) rest := by
  rw [scanFrom, if_neg (by rw [hblank]; decide), if_neg (by rw [hdigit]; decide)]

theorem scanFrom_punctuation (h : Lexeme.ofPunctuation? c = some lexeme) :
    scanFrom offset (c :: rest) =
      Item.of offset [c] (some lexeme) :: scanFrom (offset + c.utf8Size) rest := by
  obtain ⟨hblank, hdigit⟩ := Lexeme.ofPunctuation?_cases h
  rw [scanFrom_other hblank hdigit, h]

theorem scanFrom_run (hne : run ≠ []) (hrun : ∀ c ∈ run, c.isDigit = true)
    (hrest : Delimits rest) :
    scanFrom offset (run ++ rest) =
      Item.of offset run (Lexeme.ofDigits? run) :: scanFrom (offset + byteLength run) rest := by
  obtain ⟨c, run, rfl⟩ := List.exists_cons_of_ne_nil hne
  obtain ⟨hc, hrun⟩ := List.forall_mem_cons.mp hrun
  rw [List.cons_append, scanFrom, if_neg (by rw [isBlank_of_isDigit hc]; decide), if_pos hc]
  simp only [takeWhile_run hrun hrest, dropWhile_run hrun hrest]

theorem Lexeme.ofDigits?_digits {n : Nat} (h : n < 0x8000000000000000) :
    Lexeme.ofDigits? (digits n) = some (.number (Int64.ofNat n)) := by
  simp only [Lexeme.ofDigits?, value_digits]
  rw [if_pos h]

theorem scanFrom_number {n : Int64} (h : 0 ≤ n) (hrest : Delimits rest) :
    scanFrom offset (signed n.toInt ++ rest) = Item.of offset (signed n.toInt) (some (.number n)) ::
      scanFrom (offset + byteLength (signed n.toInt)) rest := by
  have hnat : n.toInt.natAbs = n.toNatClampNeg := by
    have hcast := n.cast_toNatClampNeg h
    omega
  rw [signed_of_nonneg (Int64.le_iff_toInt_le.mp h), hnat,
    scanFrom_run (digits_ne_nil _) (fun _ => isDigit_of_mem_digits) hrest,
    Lexeme.ofDigits?_digits n.toNatClampNeg_lt, n.ofNat_toNatClampNeg h]

end ShiftReduce
