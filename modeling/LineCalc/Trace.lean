/-
The records that a run leaves: each token as it is read from the line, and each token
as the evaluator goes on past it.
-/
import LineCalc.Evaluator

namespace LineCalc

/-- How much a record matters. -/
inductive Record.Level where
  | trace
  | debug
  deriving DecidableEq, Repr

/-- The name of a level in front of a record. -/
def Record.Level.name : Record.Level → String
  | .trace => "TRACE"
  | .debug => "DEBUG"

/-- One entry of a log. -/
structure Record where
  level : Record.Level
  message : String
  deriving DecidableEq, Repr

namespace Record

/-- A record as a line of a log. -/
def display (r : Record) : String := r.level.name ++ " " ++ r.message

/-- A token has been read from the line. The end of the line is not recorded so. -/
def lexed (t : Placed) : Record :=
  ⟨.trace, "lexed " ++ t.token.display ++ " at " ++ Decimal.ofNat t.position⟩

/-- The evaluator has found a token of the kind it asked for, and is past it. -/
def eaten (kind : Token.Kind) (position : Nat) : Record :=
  ⟨.trace, "eat " ++ kind.name ++ " at " ++ Decimal.ofNat position⟩

end Record

/-- The records of reading a line to its end or to its first error. -/
def Scan.readingRecords (scan : Scan) : List Record := scan.tokens.map .lexed

/-- The records of evaluating the rest of a line. A token is read before it is taken in, and
the first that cannot be taken in is the last that is read. -/
def State.records (state : State) : List Placed → Except LexError Nat → List Record
  | [], .error _ => []
  | [], .ok position =>
    match state.finish position with
    | .ok _ => [.eaten .endOfInput position]
    | .error _ => []
  | t :: ts, ending =>
    .lexed t ::
      match state.step t with
      | .ok next => .eaten t.token.kind t.position :: next.records ts ending
      | .error _ => []

/-- The records of evaluating a line. -/
def Scan.evaluationRecords (scan : Scan) : List Record :=
  State.initial.records scan.tokens scan.ending

end LineCalc
