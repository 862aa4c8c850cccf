/-
The whole program as a function: from its arguments, its input and the files it may open
to what it leaves behind.
-/
import LineCalc.CommandLine
import LineCalc.Session

namespace LineCalc

/-- What a run of the program leaves behind. -/
structure Outcome where
  code : UInt8
  stdout : Bytes
  stderr : Bytes
  deriving DecidableEq, Repr

namespace Program

/-- How the program is called. -/
def usage : String := "Usage: intcalc [OPTIONS] [EXPRESSION]\n"

/-- What the program says about itself. -/
def help : String :=
  "A single-pass interpreter for integer arithmetic expressions.\n" ++
  "\n" ++
  usage ++
  "\n" ++
  "Arguments:\n" ++
  "  [EXPRESSION]  A single expression to evaluate\n" ++
  "\n" ++
  "Options:\n" ++
  "  -f, --file <FILE>    Evaluates every line of this file instead of reading standard input\n" ++
  "  -e, --exit-on-error  Stops at the first line that fails instead of moving on\n" ++
  "  -t, --tokens         Prints the tokens of each line instead of evaluating it\n" ++
  "  -h, --help           Print help\n" ++
  "  -V, --version        Print version\n"

/-- The name of the program and its version. -/
def version : String := "intcalc 0.1.0\n"

/-- What is said about arguments that make no sense, at a terminal. -/
def usageText (error : UsageError) : String :=
  "error: " ++ error.message ++ "\n\n" ++ usage ++ "\nFor more information, try '--help'.\n"

/-- What is said about a file that cannot be opened. -/
def missingFileText (path : Bytes) : String :=
  "Failed to read the input file '" ++ Utf8.decodeLossy path ++
    "'. Perhaps this file does not exist?\n"

/-- The session that a request asks for. -/
def session (exitOnError tokens : Bool) : Session :=
  { Session.initial with
    onError := if exitOnError then .exit else .proceed
    mode := if tokens then .tokens else .evaluate }

/-- The outcome of a script on streams that work: success only if no line failed, and no fault
was met. -/
def outcome (script : Script) : Outcome :=
  let o := script.perform .sound
  match o.result with
  | .ok summary => ⟨if summary.failed = 0 then 0 else 1, o.out, o.err⟩
  | .error fault => ⟨1, o.out, o.err ++ Utf8.encode (fault.message ++ "\n")⟩

/-- Carries out a request. -/
def answer (stdin : Input) (open? : Bytes → Option Input) : Request → Outcome
  | .help => ⟨0, Utf8.encode help, []⟩
  | .version => ⟨0, Utf8.encode version, []⟩
  | .session source exitOnError tokens =>
    let session := session exitOnError tokens
    match source with
    | .expression text => outcome (session.runExpression text)
    | .standardInput => outcome (session.run stdin)
    | .file path =>
      match open? path with
      | none => ⟨1, [], Utf8.encode (missingFileText path)⟩
      | some input => outcome (session.run input)

/-- Runs the program where there is no terminal. -/
def run (arguments : List Bytes) (stdin : Input) (open? : Bytes → Option Input) : Outcome :=
  match CommandLine.read arguments with
  | .error error => ⟨2, [], Utf8.encode (Terminal.plain (usageText error))⟩
  | .ok request => answer stdin open? request

end Program

end LineCalc
