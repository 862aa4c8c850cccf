/-
The four operators and what they compute: the exact integer result, if there is one and
a word stands for it, and otherwise an error at the operator.
-/
import LineCalc.Error

namespace LineCalc

/-- A binary operator. -/
inductive Operator where
  | add
  | sub
  | mul
  | div
  deriving DecidableEq, Repr

namespace Operator

/-- The operator that a token stands for, if it is one. -/
def ofToken? : Token → Option Operator
  | .plus => some add
  | .minus => some sub
  | .mul => some mul
  | .div => some div
  | _ => none

/-- The kind of token that an operator is written with. -/
def tokenKind : Operator → Token.Kind
  | add => .plus
  | sub => .minus
  | mul => .mul
  | div => .div

/-- `+` and `-`, which bind loosest. -/
def isAdditive : Operator → Bool
  | add | sub => true
  | mul | div => false

/-- `*` and `/`, which bind tighter. -/
def isMultiplicative : Operator → Bool
  | mul | div => true
  | add | sub => false

/-- The character of an operator. -/
def symbol : Operator → String
  | add => "+"
  | sub => "-"
  | mul => "*"
  | div => "/"

/-- An operator as a constructor. -/
def inspect : Operator → String
  | add => "Add"
  | sub => "Sub"
  | mul => "Mul"
  | div => "Div"

/-- The result in the integers. A quotient is cut off toward zero, and there is none by zero. -/
def result? : Operator → Int → Int → Option Int
  | add, a, b => some (a + b)
  | sub, a, b => some (a - b)
  | mul, a, b => some (a * b)
  | div, a, b => if b = 0 then none else some (a.tdiv b)

/-- The result as a word: an error at the operator's `position` when there is no exact
result, or none that a word stands for. -/
def apply (op : Operator) (left right : Word) (position : Nat) : Except ArithmeticError Word :=
  match op.result? left.toInt right.toInt with
  | none => .error (.divisionByZero position)
  | some result =>
    match Word.ofInt? result with
    | none => .error (.overflow position)
    | some word => .ok word

end Operator

end LineCalc
