/-
A lexer walks over one line from left to right and hands out its tokens, one per
request. Spaces are skipped, and nothing else is. A digit run is always taken whole.

There are two ways to ask. `nextToken` goes on after an error, right behind what was
rejected; `next?` and `drain` hand out nothing any more once an error has been met.
`tokenize` asks the second way, and an evaluation the first (`Scan`).

What was rejected can also be found out later, from the line and the place alone (`diagnose?`).
-/
import LineCalc.Error
import LineCalc.Text.Utf8

namespace LineCalc

/-- A line partly read. -/
structure Lexer where
  /-- The text not read yet. -/
  rest : List Char
  /-- The byte offset of `rest` in the line. -/
  cursor : Nat
  /-- The byte offset of the last token or error handed out. -/
  position : Nat
  /-- An error has been met. -/
  failed : Bool
  deriving DecidableEq, Repr

namespace Lexer

/-- A lexer at the start of a line. -/
def ofChars (line : List Char) : Lexer := ⟨line, 0, 0, false⟩

/-- A lexer at the start of a line. -/
def ofString (line : String) : Lexer := ofChars line.toList

/-- A space: the one character that may stand between tokens. -/
def isBlank (c : Char) : Bool := c = ' '

/-- The number that a digit run stands for, if it is in range. -/
def literal? (run : List Char) : Option Word := Word.ofInt? (Decimal.value run)

/-- The lexer behind `size` bytes at `start`, with `rest` still to read. -/
def past (l : Lexer) (start size : Nat) (rest : List Char) : Lexer :=
  { l with rest := rest, cursor := start + size, position := start }

/-- The lexer after an error. -/
def fail (l : Lexer) : Lexer := { l with failed := true }

@[simp] theorem past_rest (l : Lexer) (start size : Nat) (rest : List Char) :
    (l.past start size rest).rest = rest := rfl

@[simp] theorem fail_rest (l : Lexer) : l.fail.rest = l.rest := rfl

/-- The next token, or what is wrong with the text there, and the lexer behind it. At the end
of the line this is the end-of-line token, as often as it is asked for. -/
def nextToken (l : Lexer) : Except LexError Token × Lexer :=
  let start := l.cursor + (l.rest.takeWhile isBlank).length
  match l.rest.dropWhile isBlank with
  | [] => (.ok .endOfInput, l.past start 0 [])
  | c :: cs =>
    if c.isDigit then
      let run := c :: cs.takeWhile Char.isDigit
      let after := l.past start run.length (cs.dropWhile Char.isDigit)
      match literal? run with
      | some value => (.ok (.integer value), after)
      | none => (.error (.literalTooLarge (String.ofList run) start), after.fail)
    else
      let after := l.past start c.utf8Size cs
      match Token.ofChar? c with
      | some token => (.ok token, after)
      | none => (.error (.unknownCharacter c start), after.fail)

/-- The next token before the end of the line, or the first error; nothing after that. -/
def next? (l : Lexer) : Option (Except LexError Token) × Lexer :=
  if l.failed then (none, l)
  else
    match l.nextToken with
    | (.ok .endOfInput, after) => (none, after)
    | (result, after) => (some result, after)

/-! ## Each token leaves less to read -/

/-- Whatever is handed out before the end of the line takes at least one character. -/
theorem length_nextToken_lt {l after : Lexer} {result : Except LexError Token}
    (h : l.nextToken = (result, after)) (ne : result ≠ .ok .endOfInput) :
    after.rest.length < l.rest.length := by
  have skipped := (List.dropWhile_sublist (l := l.rest) isBlank).length_le
  unfold nextToken at h
  dsimp only at h
  split at h
  · cases h; contradiction
  · rename_i c cs found
    rw [found, List.length_cons] at skipped
    have taken := (List.dropWhile_sublist (l := cs) Char.isDigit).length_le
    split at h <;> split at h <;> cases h <;> simp only [fail_rest, past_rest] <;> omega

theorem length_next?_lt {l after : Lexer} {result : Except LexError Token}
    (h : l.next? = (some result, after)) : after.rest.length < l.rest.length := by
  unfold next? at h
  split at h
  · cases h
  · split at h
    · cases h
    · rename_i ne found
      cases h
      exact length_nextToken_lt found ne

/-! ## All there is to read -/

/-- Everything `next?` hands out until it stops, and the lexer left by that. -/
def drain (l : Lexer) : List (Except LexError Token) × Lexer :=
  match _h : l.next? with
  | (none, after) => ([], after)
  | (some result, after) =>
    let (results, last) := after.drain
    (result :: results, last)
termination_by l.rest.length
decreasing_by exact length_next?_lt _h

theorem drain_eq (l : Lexer) :
    l.drain = match l.next? with
      | (none, after) => ([], after)
      | (some result, after) => (result :: after.drain.1, after.drain.2) := by
  rw [drain]
  split <;> rename_i found <;> rw [found]

end Lexer

/-! ## Looking at a line again -/

/-- The first bytes of a text and the rest of it, unless a character stands across that place. -/
def cutBytes? : (size : Nat) → List Char → Option (List Char × List Char)
  | 0, text => some ([], text)
  | _ + 1, [] => none
  | size + 1, c :: text =>
    if c.utf8Size ≤ size + 1 then
      (cutBytes? (size + 1 - c.utf8Size) text).map fun (front, rest) => (c :: front, rest)
    else none

/-- What is wrong with a line at a byte offset. Nothing, if the text cannot be cut there or behind its
digits, or if there is no character. -/
def diagnose? (line : String) (position : Nat) : Option LexError := do
  let (_, rest) ← cutBytes? position line.toList
  let digits := ((Utf8.encode (String.ofList rest)).takeWhile Utf8.isDigitByte).length
  if 0 < digits then
    let (run, _) ← cutBytes? digits rest
    return .literalTooLarge (String.ofList run) position
  else
    let character ← rest.head?
    return .unknownCharacter character position

/-! ## All tokens of a line -/

/-- The tokens of a line, closed by one end-of-line token, or the first error in it. -/
def tokenize (line : String) : Except LexError (List Token) := do
  let tokens ← (Lexer.ofString line).drain.1.mapM id
  return tokens ++ [.endOfInput]

end LineCalc
