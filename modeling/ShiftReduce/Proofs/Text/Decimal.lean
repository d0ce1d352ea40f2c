import Mathlib.Data.List.Induction
import Mathlib.Data.List.TakeWhile
import ShiftReduce.Text.Decimal

/-!
# Numbers in front of other text

A written number ends where something other than a digit begins. Behind such a boundary the number
and the text that follows are both determined.
-/

namespace ShiftReduce.Decimal

/-- A run of digits in front of the text ends there. -/
def Delimits (text : List Char) : Prop := ∀ c ∈ text.head?, c.isDigit = false

theorem delimits_nil : Delimits [] := nofun

theorem delimits_cons {c : Char} {text : List Char} (h : c.isDigit = false) :
    Delimits (c :: text) := by
  intro c' hc
  cases hc
  exact h

theorem eq_false_of_mem_head?_dropWhile {p : Char → Bool} {c : Char} {text : List Char}
    (h : c ∈ (text.dropWhile p).head?) : p c = false := by
  have hhead := List.head?_dropWhile_not p text
  rw [h] at hhead
  simpa using hhead

theorem delimits_dropWhile (text : List Char) : Delimits (text.dropWhile Char.isDigit) :=
  fun _ => eq_false_of_mem_head?_dropWhile

variable {run rest rest' : List Char}

theorem Delimits.takeWhile_eq (h : Delimits rest) : rest.takeWhile Char.isDigit = [] := by
  cases rest with
  | nil => rfl
  | cons c rest => rw [List.takeWhile_cons_of_neg (by rw [h c rfl]; decide)]

theorem takeWhile_run (hrun : ∀ c ∈ run, c.isDigit = true) (hrest : Delimits rest) :
    (run ++ rest).takeWhile Char.isDigit = run := by
  rw [List.takeWhile_append_of_pos hrun, hrest.takeWhile_eq, List.append_nil]

theorem dropWhile_run (hrun : ∀ c ∈ run, c.isDigit = true) (hrest : Delimits rest) :
    (run ++ rest).dropWhile Char.isDigit = rest := by
  have hsplit := List.takeWhile_append_dropWhile (p := Char.isDigit) (l := run ++ rest)
  rw [takeWhile_run hrun hrest] at hsplit
  exact List.append_cancel_left hsplit

/-! ## Leading zeros -/

theorem value_leading_zeros (zeros : Nat) (run : List Char) :
    value (List.replicate zeros '0' ++ run) = value run := by
  unfold value
  rw [Nat.ofDigitChars_append, Nat.ofDigitChars_replicate_zero, Nat.mul_zero]

theorem value_concat (run : List Char) (c : Char) :
    value (run ++ [c]) = 10 * value run + (c.toNat - '0'.toNat) := by
  unfold value
  rw [Nat.ofDigitChars_append, Nat.ofDigitChars_cons, Nat.ofDigitChars_nil]

theorem exists_digitChar_of_isDigit {c : Char} (h : c.isDigit = true) :
    ∃ d < 10, c.toNat - '0'.toNat = d ∧ c = Nat.digitChar d := by
  obtain ⟨hlow, hhigh⟩ := Char.isDigit_iff_toNat.mp h
  have hzero : '0'.toNat = 48 := rfl
  have hnine : '9'.toNat = 57 := rfl
  have hd : c.toNat - '0'.toNat < 10 := by omega
  refine ⟨c.toNat - '0'.toNat, hd, rfl, ?_⟩
  apply Char.toNat_inj.mp
  rw [Nat.toNat_digitChar_of_lt_ten hd]
  omega

theorem exists_leading_zeros (hne : run ≠ []) (hrun : ∀ c ∈ run, c.isDigit = true) :
    ∃ zeros, run = List.replicate zeros '0' ++ digits (value run) := by
  induction run using List.reverseRecOn with
  | nil => exact absurd rfl hne
  | append_singleton run c ih =>
    obtain ⟨hfront, hc⟩ := List.forall_mem_append.mp hrun
    obtain ⟨d, hd, hdigit, rfl⟩ := exists_digitChar_of_isDigit (hc c List.mem_cons_self)
    have hlast : digits d = [Nat.digitChar d] := Nat.toDigits_of_lt_base hd
    rw [value_concat, hdigit]
    by_cases hfirst : run = []
    · subst hfirst
      exact ⟨0, by simpa [value] using hlast.symm⟩
    obtain ⟨zeros, hzeros⟩ := ih hfirst hfront
    by_cases hzero : value run = 0
    · -- The run in front is all zeros, and the last digit is the whole number.
      have hdigits : digits 0 = ['0'] := Nat.toDigits_zero 10
      refine ⟨zeros + 1, ?_⟩
      rw [hzero, Nat.mul_zero, Nat.zero_add, hlast, List.replicate_succ', ← hdigits, ← hzero,
        ← hzeros]
    · refine ⟨zeros, ?_⟩
      have hdigits : digits (10 * value run + d) = digits (value run) ++ digits d :=
        (Nat.toDigits_append_toDigits (by decide) (Nat.pos_of_ne_zero hzero) hd).symm
      rw [hdigits, hlast, ← List.append_assoc, ← hzeros]

theorem digits_ne_nil (n : Nat) : digits n ≠ [] := Nat.toDigits_ne_nil

theorem exists_digits_eq_cons (n : Nat) :
    ∃ c run, digits n = c :: run ∧ c.isDigit = true := by
  obtain ⟨c, run, hdigits⟩ := List.exists_cons_of_ne_nil (digits_ne_nil n)
  refine ⟨c, run, hdigits, isDigit_of_mem_digits (n := n) ?_⟩
  rw [hdigits]
  exact List.mem_cons_self

theorem digits_append_inj {m n : Nat} (hrest : Delimits rest) (hrest' : Delimits rest')
    (h : digits m ++ rest = digits n ++ rest') : m = n ∧ rest = rest' := by
  have hdigits : digits m = digits n := by
    have htake := congrArg (List.takeWhile Char.isDigit) h
    rwa [takeWhile_run (fun _ => isDigit_of_mem_digits) hrest,
      takeWhile_run (fun _ => isDigit_of_mem_digits) hrest'] at htake
  have hvalue := congrArg value hdigits
  rw [value_digits, value_digits] at hvalue
  rw [hdigits] at h
  exact ⟨hvalue, List.append_cancel_left h⟩

theorem signed_of_nonneg {i : Int} (h : 0 ≤ i) : signed i = digits i.natAbs := by
  rw [signed, if_neg (by omega)]

theorem signed_of_neg {i : Int} (h : i < 0) : signed i = '-' :: digits i.natAbs := by
  rw [signed, if_pos h]

theorem digits_append_ne {m : Nat} {text : List Char} : digits m ++ rest ≠ '-' :: text := by
  obtain ⟨c, run, hdigits, hc⟩ := exists_digits_eq_cons m
  intro h
  rw [hdigits] at h
  cases h
  exact absurd hc (by decide)

theorem signed_append_inj {i j : Int} (hrest : Delimits rest) (hrest' : Delimits rest')
    (h : signed i ++ rest = signed j ++ rest') : i = j ∧ rest = rest' := by
  rcases Int.lt_or_le i 0 with hi | hi <;> rcases Int.lt_or_le j 0 with hj | hj
  · rw [signed_of_neg hi, signed_of_neg hj] at h
    obtain ⟨hab, hrests⟩ := digits_append_inj hrest hrest' (List.cons.inj h).2
    exact ⟨by omega, hrests⟩
  · rw [signed_of_neg hi, signed_of_nonneg hj] at h
    exact absurd h.symm digits_append_ne
  · rw [signed_of_nonneg hi, signed_of_neg hj] at h
    exact absurd h digits_append_ne
  · rw [signed_of_nonneg hi, signed_of_nonneg hj] at h
    obtain ⟨hab, hrests⟩ := digits_append_inj hrest hrest' h
    exact ⟨by omega, hrests⟩

theorem isDigit_of_mem_signed {i : Int} {c : Char} (h : c ∈ signed i) :
    c = '-' ∨ c.isDigit = true := by
  unfold signed at h
  split at h
  · rcases List.mem_cons.mp h with hc | hc
    · exact .inl hc
    · exact .inr (isDigit_of_mem_digits hc)
  · exact .inr (isDigit_of_mem_digits h)

theorem exists_signed_eq_cons (i : Int) : ∃ c text, signed i = c :: text := by
  apply List.exists_cons_of_ne_nil
  unfold signed
  split
  · exact List.cons_ne_nil _ _
  · exact digits_ne_nil _

end ShiftReduce.Decimal
