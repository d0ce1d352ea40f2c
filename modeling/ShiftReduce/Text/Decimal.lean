/-!
# Decimal numbers

Numbers are written without leading zeros, a negative one behind a minus sign. Reading takes any
run of digits, leading zeros included.
-/

namespace ShiftReduce.Decimal

def digits (n : Nat) : List Char := Nat.toDigits 10 n

/-- The value of a run of decimal digits. -/
def value (run : List Char) : Nat := Nat.ofDigitChars 10 run 0

/-- A whole number in decimal, with a minus sign when it is negative. -/
def signed (i : Int) : List Char :=
  if i < 0 then '-' :: digits i.natAbs else digits i.natAbs

def ofNat (n : Nat) : String := String.ofList (digits n)

def ofInt64 (i : Int64) : String := String.ofList (signed i.toInt)

@[simp] theorem value_digits (n : Nat) : value (digits n) = n :=
  Nat.ofDigitChars_toDigits (by decide) (by decide)

theorem isDigit_of_mem_digits {n : Nat} {c : Char} (h : c ∈ digits n) : c.isDigit = true :=
  Nat.isDigit_of_mem_toDigits (by decide) (by decide) h

end ShiftReduce.Decimal
