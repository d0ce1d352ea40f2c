/-!
# Checked arithmetic

64-bit operations that answer only where the exact result is in range.
-/

namespace ShiftReduce.Checked

/-- The integer as a 64-bit one, if it is in range. -/
def inRange? (i : Int) : Option Int64 :=
  if Int64.minValue.toInt ≤ i ∧ i ≤ Int64.maxValue.toInt then some (Int64.ofInt i) else none

def add? (a b : Int64) : Option Int64 := inRange? (a.toInt + b.toInt)

def sub? (a b : Int64) : Option Int64 := inRange? (a.toInt - b.toInt)

def mul? (a b : Int64) : Option Int64 := inRange? (a.toInt * b.toInt)

def div? (a b : Int64) : Option Int64 :=
  if b = 0 then none else inRange? (a.toInt.tdiv b.toInt)

end ShiftReduce.Checked
