/-!
# Machine words

Places in a text are machine words of 64 bits.  A sum or a difference that no
word holds wraps around to the other end of the words, or is an overflow.
Which of the two happens is not settled by a program but by how it is built, so
it is a parameter here.
-/

namespace OData

/-- A word does not hold the result of an operation. -/
inductive Overflow
  | overflow
deriving DecidableEq, Repr

/-- What becomes of a result that no word holds. -/
inductive Arithmetic
  | wrapping
  | checked
deriving DecidableEq, Repr

/-- The result of an operation that no word holds, given where it wraps around
to. -/
def Arithmetic.exceeded : Arithmetic → Nat → Except Overflow Nat
  | wrapping, wrapped => .ok wrapped
  | checked, _ => .error .overflow

namespace Word

/-- The sum of two words. -/
def add (arithmetic : Arithmetic) (left right : Nat) : Except Overflow Nat :=
  if left + right < UInt64.size then
    .ok (left + right)
  else
    arithmetic.exceeded ((left + right) % UInt64.size)

/-- The difference of two words. -/
def sub (arithmetic : Arithmetic) (left right : Nat) : Except Overflow Nat :=
  if right ≤ left then
    .ok (left - right)
  else
    arithmetic.exceeded (UInt64.size + left - right)

variable {arithmetic : Arithmetic} {left right : Nat}

end Word

end OData
