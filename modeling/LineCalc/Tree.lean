/-
Expression trees, and what they are worth: the exact integer value, worked out from the
leaves up, left before right. Where a line is read as a tree first, this is its meaning.
-/
import LineCalc.Operator

namespace LineCalc

/-- An expression as a tree. Each operation keeps the byte offset of its operator. -/
inductive Tree where
  | number (value : Word)
  | node (operator : Operator) (position : Nat) (left right : Tree)
  deriving DecidableEq, Repr

/-- The exact value of an expression, or the first operation that has none, or none in range. -/
def Tree.value : Tree → Except ArithmeticError Int
  | number value => .ok value.toInt
  | node operator position left right => do
    let a ← left.value
    let b ← right.value
    match operator.result? a b with
    | none => throw (.divisionByZero position)
    | some result => if Word.InRange result then return result else throw (.overflow position)

end LineCalc
