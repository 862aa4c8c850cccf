/-
What can be wrong with a line, and where. There are three families: text that is no
token, tokens that are no expression, and an expression that cannot be worked out.
Every error knows the byte offset at which it arose; the wording is in `message` alone.
-/
import LineCalc.Text.Quoted
import LineCalc.Token

namespace LineCalc

/-- Text that is no token. -/
inductive LexError where
  /-- A character that starts no token. -/
  | unknownCharacter (character : Char) (position : Nat)
  /-- A number beyond the range of words, with its digits as written. -/
  | literalTooLarge (literal : String) (position : Nat)
  deriving DecidableEq, Repr

/-- Tokens that are no expression. -/
inductive GrammarError where
  /-- A token of another kind than the one that has to stand here. -/
  | unexpectedToken (expected : Token.Kind) (found : Token) (position : Nat)
  /-- One more opening parenthesis than may be open at once. -/
  | nestingTooDeep (limit position : Nat)
  deriving DecidableEq, Repr

/-- An operation without a result; the position is that of its operator. -/
inductive ArithmeticError where
  | divisionByZero (position : Nat)
  | overflow (position : Nat)
  deriving DecidableEq, Repr

/-- Why a line has no value. -/
inductive EvalError where
  | lexical (error : LexError)
  | grammatical (error : GrammarError)
  | arithmetic (error : ArithmeticError)
  deriving DecidableEq, Repr

/-- A message that says where it belongs. -/
def messageAt (position : Nat) (message : String) : String :=
  "Error at position " ++ Decimal.ofNat position ++ ": " ++ message

namespace LexError

/-- Where in the line the error is, in bytes. -/
def position : LexError → Nat
  | unknownCharacter _ position => position
  | literalTooLarge _ position => position

/-- The error in words. -/
def message : LexError → String
  | unknownCharacter character position =>
    messageAt position ("Unknown character " ++ Quoted.ofChar character ++ ".")
  | literalTooLarge literal position =>
    messageAt position ("Literal " ++ literal ++ " is too large.")

/-- The error as a constructor with its fields. -/
def inspect : LexError → String
  | unknownCharacter character position =>
    Inspect.record "UnknownCharacter"
      [("character", Quoted.ofChar character), ("position", Decimal.ofNat position)]
  | literalTooLarge literal position =>
    Inspect.record "LiteralTooLarge"
      [("literal", Quoted.ofString literal), ("position", Decimal.ofNat position)]

end LexError

namespace GrammarError

/-- Where in the line the error is, in bytes. -/
def position : GrammarError → Nat
  | unexpectedToken _ _ position => position
  | nestingTooDeep _ position => position

/-- The error in words. -/
def message : GrammarError → String
  | unexpectedToken expected found position =>
    messageAt position
      ("Invalid syntax, expected " ++ expected.name ++ " but found " ++ found.kind.name ++ ".")
  | nestingTooDeep limit position =>
    messageAt position ("Parentheses nested deeper than " ++ Decimal.ofNat limit ++ " levels.")

/-- The error as a constructor with its fields. -/
def inspect : GrammarError → String
  | unexpectedToken expected found position =>
    Inspect.record "UnexpectedToken"
      [("expected", expected.inspect), ("found", found.inspect),
        ("position", Decimal.ofNat position)]
  | nestingTooDeep limit position =>
    Inspect.record "NestingTooDeep"
      [("limit", Decimal.ofNat limit), ("position", Decimal.ofNat position)]

end GrammarError

namespace ArithmeticError

/-- Where in the line the operator is, in bytes. -/
def position : ArithmeticError → Nat
  | divisionByZero position => position
  | overflow position => position

/-- The error in words. -/
def message : ArithmeticError → String
  | divisionByZero position => messageAt position "Division by zero."
  | overflow position => messageAt position "Integer overflow while trying to compute result."

/-- The error as a constructor with its fields. -/
def inspect : ArithmeticError → String
  | divisionByZero position =>
    Inspect.record "DivisionByZero" [("position", Decimal.ofNat position)]
  | overflow position => Inspect.record "Overflow" [("position", Decimal.ofNat position)]

end ArithmeticError

namespace EvalError

/-- Where in the line the error is, in bytes. -/
def position : EvalError → Nat
  | lexical error => error.position
  | grammatical error => error.position
  | arithmetic error => error.position

/-- The error in words: those of the error inside. -/
def message : EvalError → String
  | lexical error => error.message
  | grammatical error => error.message
  | arithmetic error => error.message

/-- The error as a constructor around the error inside. -/
def inspect : EvalError → String
  | lexical error => Inspect.applied "Lex" error.inspect
  | grammatical error => Inspect.applied "Syntax" error.inspect
  | arithmetic error => Inspect.applied "Runtime" error.inspect

end EvalError

end LineCalc
