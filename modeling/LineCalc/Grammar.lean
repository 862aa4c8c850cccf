/-
The grammar of a line, as a relation between tokens and the tree that they spell:

    expr   := term | expr ("+" | "-") term
    term   := factor | term ("*" | "/") factor
    factor := INTEGER | "(" expr ")"

Operators of one tier group to the left, and a parenthesis groups whatever it encloses.
-/
import LineCalc.Scan
import LineCalc.Tree

namespace LineCalc

/-- The most parentheses that a token may stand in. -/
def maxNesting : Nat := 256

/-- The three sorts of phrase. -/
inductive Phrase where
  | expr
  | term
  | factor
  deriving DecidableEq, Repr

/-- `Spells sort depth tokens tree`: the tokens are a phrase of this sort for the tree, and none of
them stands inside more than `depth` parentheses of the phrase. -/
inductive Spells : Phrase → Nat → List Placed → Tree → Prop
  | number {depth position : Nat} {value : Word} :
    Spells .factor depth [⟨.integer value, position⟩] (.number value)
  | group {depth first last : Nat} {tokens : List Placed} {tree : Tree} :
    Spells .expr depth tokens tree →
    Spells .factor (depth + 1) (⟨.lparen, first⟩ :: tokens ++ [⟨.rparen, last⟩]) tree
  | factor {depth : Nat} {tokens : List Placed} {tree : Tree} :
    Spells .factor depth tokens tree → Spells .term depth tokens tree
  | product {depth position : Nat} {left right : List Placed} {a b : Tree} {token : Token}
      {op : Operator} :
    Spells .term depth left a → Operator.ofToken? token = some op → op.isMultiplicative →
    Spells .factor depth right b →
    Spells .term depth (left ++ ⟨token, position⟩ :: right) (.node op position a b)
  | term {depth : Nat} {tokens : List Placed} {tree : Tree} :
    Spells .term depth tokens tree → Spells .expr depth tokens tree
  | sum {depth position : Nat} {left right : List Placed} {a b : Tree} {token : Token}
      {op : Operator} :
    Spells .expr depth left a → Operator.ofToken? token = some op → op.isAdditive →
    Spells .term depth right b →
    Spells .expr depth (left ++ ⟨token, position⟩ :: right) (.node op position a b)

/-- The tokens are an expression for the tree, nested no deeper than a line may be. -/
def IsSentence (tokens : List Placed) (tree : Tree) : Prop := Spells .expr maxNesting tokens tree

end LineCalc
