/-
The scan of a line: what an evaluation can ever see of it, which is the tokens with
their places, up to the end of the line or up to the first error.
-/
import LineCalc.Lexer

namespace LineCalc

/-- A token and the byte offset at which it starts. -/
structure Placed where
  token : Token
  position : Nat
  deriving DecidableEq, Repr

/-- A line as its tokens. -/
structure Scan where
  /-- The tokens before the end, none of them the end-of-line token. -/
  tokens : List Placed
  /-- The byte offset of the end of the line, or the error that hides the rest of it. -/
  ending : Except LexError Nat

namespace Scan

/-- A scan with one more token in front. -/
def cons (token : Placed) (scan : Scan) : Scan := { scan with tokens := token :: scan.tokens }

/-- The scan, unless an error stands at its very start. -/
def start : Scan → Except LexError Scan
  | ⟨[], .error error⟩ => .error error
  | scan => .ok scan

end Scan

/-- All tokens from here on. Earlier errors do not matter to it. -/
def Lexer.scan (l : Lexer) : Scan :=
  match _h : l.nextToken with
  | (.error error, _) => ⟨[], .error error⟩
  | (.ok token, after) =>
    if _ne : token = .endOfInput then ⟨[], .ok after.position⟩
    else after.scan.cons ⟨token, after.position⟩
termination_by l.rest.length
decreasing_by exact length_nextToken_lt _h fun e => _ne (Except.ok.inj e)

theorem Lexer.scan_eq (l : Lexer) :
    l.scan = match l.nextToken with
      | (.error error, _) => ⟨[], .error error⟩
      | (.ok token, after) =>
        if token = .endOfInput then ⟨[], .ok after.position⟩
        else after.scan.cons ⟨token, after.position⟩ := by
  rw [scan]
  split <;> rename_i found <;> rw [found]
  dsimp only
  split <;> rfl

/-- The scan of a whole line. -/
def Scan.ofString (line : String) : Scan := (Lexer.ofString line).scan

end LineCalc
