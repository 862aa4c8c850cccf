/-
Evaluation in one pass, without a tree. A state holds just what is still owed: at each open
parenthesis, at most one sum and one product that wait for their right operand. The next
token is always known before an operation is carried out: a product is settled as soon as
the token after its right operand has been read, a sum once that token turns out not to
bind tighter.
-/
import LineCalc.Grammar

namespace LineCalc

/-- An operator with its left operand, waiting for the right one. -/
structure Pending where
  left : Word
  operator : Operator
  /-- The byte offset of the operator. -/
  position : Nat
  deriving DecidableEq, Repr

/-- What is owed between one open parenthesis and the next. -/
structure Level where
  /-- A `+` or `-` that waits for its right operand. -/
  sum : Option Pending
  /-- A `*` or `/` that waits for its right operand. -/
  product : Option Pending
  deriving DecidableEq, Repr

/-- A level at which nothing has been read yet. -/
def Level.empty : Level := ⟨none, none⟩

/-- Between two tokens: the levels that are open, the innermost apart, and the operand just
read, if one was. -/
inductive State where
  /-- A number or an opening parenthesis has to come. -/
  | needOperand (level : Level) (outer : List Level)
  /-- A value stands complete; an operator, a closing parenthesis or the end may come. -/
  | haveOperand (value : Word) (level : Level) (outer : List Level)
  deriving DecidableEq, Repr

/-- Carries out a waiting operation, now that its right operand is there. -/
def settle (pending : Option Pending) (right : Word) : Except EvalError Word :=
  match pending with
  | none => .ok right
  | some p => (p.operator.apply p.left right p.position).mapError .arithmetic

namespace State

/-- Before the first token. -/
def initial : State := needOperand .empty []

/-- How many parentheses are open. -/
def depth : State → Nat
  | needOperand _ outer => outer.length
  | haveOperand _ _ outer => outer.length

/-- The error for a token that cannot stand where it was found. -/
def unexpected (expected : Token.Kind) (found : Placed) : EvalError :=
  .grammatical (.unexpectedToken expected found.token found.position)

/-- What has to come to end the expression at this depth. -/
def closer : List Level → Token.Kind
  | [] => .endOfInput
  | _ :: _ => .rparen

/-- Takes in one token before the end of the line. -/
def step : State → Placed → Except EvalError State
  | needOperand level outer, t =>
    match t.token with
    | .integer value => .ok (haveOperand value level outer)
    | .lparen =>
      if outer.length < maxNesting then .ok (needOperand .empty (level :: outer))
      else .error (.grammatical (.nestingTooDeep maxNesting t.position))
    | _ => .error (unexpected .integer t)
  | haveOperand value level outer, t => do
    let value ← settle level.product value
    match Operator.ofToken? t.token with
    | some op =>
      if op.isMultiplicative then
        return needOperand ⟨level.sum, some ⟨value, op, t.position⟩⟩ outer
      else
        let value ← settle level.sum value
        return needOperand ⟨some ⟨value, op, t.position⟩, none⟩ outer
    | none =>
      let value ← settle level.sum value
      match t.token, outer with
      | .rparen, level :: outer => return haveOperand value level outer
      | _, outer => throw (unexpected (closer outer) t)

/-- The value of the line, if it may end here. -/
def finish (state : State) (position : Nat) : Except EvalError Word :=
  let found : Placed := ⟨.endOfInput, position⟩
  match state with
  | needOperand _ _ => .error (unexpected .integer found)
  | haveOperand value level outer => do
    let value ← settle level.product value
    let value ← settle level.sum value
    match outer with
    | [] => return value
    | outer => throw (unexpected (closer outer) found)

/-- The value of the rest of a line. An error of the text is met only when evaluation gets
there, but then before any operation that is still owed. -/
def run (state : State) (scan : Scan) : Except EvalError Word := do
  let state ← scan.tokens.foldlM step state
  let position ← scan.ending.mapError .lexical
  state.finish position

end State

/-- The value of a scanned line. -/
def Scan.evaluate (scan : Scan) : Except EvalError Word := State.initial.run scan

/-- The value of a line, or the first thing that is wrong with it. -/
def evaluate (line : String) : Except EvalError Word := (Scan.ofString line).evaluate

end LineCalc
