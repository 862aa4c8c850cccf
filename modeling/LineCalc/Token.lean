/-
The tokens of a line. Only a number carries a value; every other token stands for the
one character it is written with, except the end of the line, which has none.
-/
import LineCalc.Text.Decimal
import LineCalc.Text.Inspect
import LineCalc.Word

namespace LineCalc

/-- A smallest meaningful piece of a line. -/
inductive Token where
  | integer (value : Word)
  | plus
  | minus
  | mul
  | div
  | lparen
  | rparen
  /-- The end of the line, found again each time the line is asked for more. -/
  | endOfInput
  deriving DecidableEq, Repr

/-- A token without its value. -/
inductive Token.Kind where
  | integer
  | plus
  | minus
  | mul
  | div
  | lparen
  | rparen
  | endOfInput
  deriving DecidableEq, Repr

namespace Token

/-- The kind of a token. -/
def kind : Token → Kind
  | integer _ => .integer
  | plus => .plus
  | minus => .minus
  | mul => .mul
  | div => .div
  | lparen => .lparen
  | rparen => .rparen
  | endOfInput => .endOfInput

/-- The token that one character stands for, digits and spaces apart. -/
def ofChar? : Char → Option Token
  | '+' => some plus
  | '-' => some minus
  | '*' => some mul
  | '/' => some div
  | '(' => some lparen
  | ')' => some rparen
  | _ => none

/-- The lexeme of a token. A number is in canonical form, whatever zeros it was written
with; the end of the line, which has no lexeme, is called `None`. -/
def symbol : Token → String
  | integer value => Decimal.ofInt value.toInt
  | plus => "+"
  | minus => "-"
  | mul => "*"
  | div => "/"
  | lparen => "("
  | rparen => ")"
  | endOfInput => "None"

/-- The name of a kind in messages and dumps. -/
def Kind.name : Kind → String
  | .integer => "INTEGER"
  | .plus => "PLUS"
  | .minus => "MINUS"
  | .mul => "MUL"
  | .div => "DIV"
  | .lparen => "LPAREN"
  | .rparen => "RPAREN"
  | .endOfInput => "EOF"

/-- The name of a kind as a constructor. -/
def Kind.inspect : Kind → String
  | .integer => "Integer"
  | .plus => "Plus"
  | .minus => "Minus"
  | .mul => "Mul"
  | .div => "Div"
  | .lparen => "LParen"
  | .rparen => "RParen"
  | .endOfInput => "EndOfInput"

/-- A token with its kind and lexeme; a lexeme that is one fixed character is quoted. -/
def display (t : Token) : String :=
  let lexeme := match t with
    | integer _ | endOfInput => t.symbol
    | _ => "'" ++ t.symbol ++ "'"
  "Token(" ++ t.kind.name ++ ", " ++ lexeme ++ ")"

/-- A token as a constructor with its argument. -/
def inspect : Token → String
  | integer value => Inspect.applied "Integer" (Decimal.ofInt value.toInt)
  | t => t.kind.inspect

end Token

end LineCalc
