/-
Sessions: lines are read, worked out one by one, and answered. Values and token dumps go
to the output, diagnostics to the error stream. No line knows of another.

What one line leads to does not depend on the lines around it. `Session.responds` says all that
comes of a text, and `Session.turn` what becomes of the session with it: it breaks off, ends, or goes
on, and then only the counts are passed on.
-/
import LineCalc.Session.Effect

namespace LineCalc

/-- What a session does after a line that failed. -/
inductive Policy where
  /-- It goes on to the next line. -/
  | proceed
  /-- It ends. -/
  | exit
  deriving DecidableEq, Repr

/-- What a session does with a line. -/
inductive Mode where
  /-- It prints the value. -/
  | evaluate
  /-- It prints the tokens. -/
  | tokens
  deriving DecidableEq, Repr

/-- How a session is run. -/
structure Session where
  /-- What is written before each line is read, if anything. -/
  prompt? : Option String
  onError : Policy
  mode : Mode
  deriving DecidableEq, Repr

/-- What one line leads to. -/
structure Response where
  effects : List Effect
  /-- The line, counted. -/
  summary : Summary
  deriving DecidableEq, Repr

namespace Response

/-- A line that gave a result. -/
def success (effects : List Effect) : Response := ⟨effects, ⟨1, 0⟩⟩

/-- A line that failed: the log is told first, then the error stream. -/
def failure (record : Record) (message : String) : Response :=
  ⟨[.note record, .report ("error: " ++ message ++ "\n")], ⟨0, 1⟩⟩

end Response

/-- What one line does to the session that it is read in. -/
inductive Turn where
  /-- The line is no text. -/
  | broken
  /-- The line was dealt with, and the next one is asked for. -/
  | next (effects : List Effect) (counts : Summary)
  /-- The line was dealt with, and ends the session. -/
  | last (effects : List Effect) (counts : Summary)

/-- A record of what a session does. -/
def Record.debug (message : String) : Record := ⟨.debug, message⟩

/-- One token as a line of a dump. -/
def Token.dumpLine (t : Token) : String :=
  "Type: " ++ t.kind.name ++ " Lexeme: " ++ Quoted.ofString t.symbol ++ "\n"

/-- A line of spaces, or of nothing. -/
def isBlankLine (line : String) : Bool := line.toList.all Lexer.isBlank

namespace Mode

/-- A text that gives a result. -/
def accepts : Mode → String → Bool
  | evaluate, text => (LineCalc.evaluate text).isOk
  | tokens, text => (tokenize text).isOk

/-- The text fails with this error. -/
def Rejects : Mode → String → EvalError → Prop
  | evaluate, text, error => LineCalc.evaluate text = .error error
  | tokens, text, error => ∃ lexical, error = .lexical lexical ∧ tokenize text = .error lexical

end Mode

namespace Session

/-- No prompt, values, and on to the next line after a failure. -/
def initial : Session := ⟨none, .proceed, .evaluate⟩

/-- A session as a constructor with its fields. -/
def inspect (s : Session) : String :=
  Inspect.record "Repl" [
    ("prompt", match s.prompt? with
      | none => "None"
      | some prompt => Inspect.applied "Some" (Quoted.ofString prompt)),
    ("on_error", match s.onError with
      | .proceed => "Continue"
      | .exit => "Exit"),
    ("mode", match s.mode with
      | .evaluate => "Evaluate"
      | .tokens => "Tokens")]

/-- What a session does with one line. -/
def respond (s : Session) (line : String) : Response :=
  let quoted := Quoted.ofString line
  match s.mode with
  | .evaluate =>
    match evaluate line with
    | .ok value =>
      let text := Decimal.ofInt value.toInt
      .success [.note (.debug (quoted ++ " = " ++ text)), .write (text ++ "\n")]
    | .error error => .failure (.debug (quoted ++ " failed: " ++ error.inspect)) error.message
  | .tokens =>
    match tokenize line with
    | .ok tokens => .success (tokens.map fun t => .write t.dumpLine)
    | .error error =>
      .failure (.debug (quoted ++ " failed to lex: " ++ error.inspect)) error.message

/-- All that a session can do with one line: it shows the value of the text, or its tokens, or says
what is wrong with it. -/
inductive Responds (s : Session) (text : String) : Prop where
  | value (result : Word) (record : Record) (mode : s.mode = .evaluate)
    (accepted : s.mode.accepts text = true) (ok : evaluate text = .ok result)
    (respond_eq : s.respond text =
      .success [.note record, .write (Decimal.ofInt result.toInt ++ "\n")])
  | dump (result : List Token) (mode : s.mode = .tokens)
    (accepted : s.mode.accepts text = true) (ok : tokenize text = .ok result)
    (respond_eq : s.respond text = .success (result.map fun t => .write t.dumpLine))
  | failure (error : EvalError) (record : Record) (rejected : s.mode.accepts text = false)
    (rejects : s.mode.Rejects text error)
    (respond_eq : s.respond text = .failure record error.message)

theorem responds (s : Session) (text : String) : s.Responds text := by
  cases hmode : s.mode with
  | evaluate =>
    cases h : evaluate text with
    | ok result =>
      have haccepts : s.mode.accepts text = true := by rw [hmode, Mode.accepts, h]; rfl
      exact .value result _ hmode haccepts h (by simp only [respond, hmode, h]; rfl)
    | error error =>
      have haccepts : s.mode.accepts text = false := by rw [hmode, Mode.accepts, h]; rfl
      exact .failure error _ haccepts (hmode ▸ h) (by simp only [respond, hmode, h]; rfl)
  | tokens =>
    cases h : tokenize text with
    | ok result =>
      have haccepts : s.mode.accepts text = true := by rw [hmode, Mode.accepts, h]; rfl
      exact .dump result hmode haccepts h (by simp only [respond, hmode, h])
    | error error =>
      have haccepts : s.mode.accepts text = false := by rw [hmode, Mode.accepts, h]; rfl
      exact .failure (.lexical error) _ haccepts (hmode ▸ ⟨error, rfl, h⟩)
        (by simp only [respond, hmode, h]; rfl)

/-- Deals with exactly one line, whatever is in it. Nothing is asked for and nothing skipped. -/
def runExpression (s : Session) (line : String) : Script :=
  let response := s.respond line
  ⟨response.effects, .ok response.summary⟩

/-- What is done before a line is read. -/
def ask (s : Session) : List Effect :=
  match s.prompt? with
  | none => []
  | some prompt => [.write prompt, .flush]

theorem ask_eq_nil {s : Session} (h : s.prompt? = none) : s.ask = [] := by
  rw [ask, h]

/-- The end of a session that ran as it should. -/
def close (summary : Summary) : Script :=
  let record := Record.debug <| "session finished: " ++ Decimal.ofNat summary.evaluated ++
    " evaluated, " ++ Decimal.ofNat summary.failed ++ " failed"
  ⟨[.note record], .ok summary⟩

/-- What becomes of a session with one line. -/
def turn (s : Session) (line : Bytes) : Turn :=
  match Utf8.decode? line with
  | none => .broken
  | some text =>
    if isBlankLine text then .next [] .zero
    else
      let response := s.respond text
      if s.onError = .exit ∧ response.summary.failed ≠ 0 then .last response.effects response.summary
      else .next response.effects response.summary

/-- What a line is to any session: no text, a text that is skipped, or one that is answered, and
ends the session if it has failed and should not have. -/
inductive Turns (line : Bytes) : Prop where
  | broken (undecoded : Utf8.decode? line = none) (turn_eq : ∀ s : Session, s.turn line = .broken)
  | skipped (text : String) (decoded : Utf8.decode? line = some text)
    (blank : isBlankLine text = true) (turn_eq : ∀ s : Session, s.turn line = .next [] .zero)
  | answered (text : String) (decoded : Utf8.decode? line = some text)
    (notBlank : isBlankLine text = false)
    (turn_eq : ∀ s : Session, s.turn line =
      if s.onError = .exit ∧ (s.respond text).summary.failed ≠ 0 then
        .last (s.respond text).effects (s.respond text).summary
      else .next (s.respond text).effects (s.respond text).summary)

theorem turns (line : Bytes) : Turns line := by
  cases decoded : Utf8.decode? line with
  | none => exact .broken decoded fun s => by rw [turn, decoded]
  | some text =>
    cases blank : isBlankLine text with
    | true => exact .skipped text decoded blank fun s => by simp [turn, decoded, blank]
    | false => exact .answered text decoded blank fun s => by simp [turn, decoded, blank]

/-- Deals with the lines that are left, given the counts so far and what comes after the last
line: the end, or a fault. -/
def converse (s : Session) (fault? : Option Fault) : List Bytes → Summary → Script
  | [], summary =>
    match fault? with
    | none => (close summary).after s.ask
    | some fault => ⟨s.ask, .error fault⟩
  | line :: lines, summary =>
    match s.turn line with
    | .broken => ⟨s.ask, .error .invalidData⟩
    | .next effects counts =>
      (s.converse fault? lines (summary.add counts)).after (s.ask ++ effects)
    | .last effects counts => (close (summary.add counts)).after (s.ask ++ effects)

theorem converse_cons (s : Session) (fault? : Option Fault) (line : Bytes) (lines : List Bytes)
    (summary : Summary) :
    s.converse fault? (line :: lines) summary =
      match s.turn line with
      | .broken => ⟨s.ask, .error .invalidData⟩
      | .next effects counts =>
        (s.converse fault? lines (summary.add counts)).after (s.ask ++ effects)
      | .last effects counts => (close (summary.add counts)).after (s.ask ++ effects) := rfl

/-- Reads and answers lines until the input ends, a fault is met, or a line fails that should
not have. -/
def run (s : Session) (input : Input) : Script := s.converse input.fault? input.lines .zero

end Session

end LineCalc
