/-
The command line: what is asked for, or why the arguments make no sense.

Options and the one expression may be mixed. Short options can share an argument, and a
path may be attached to its option or follow it. An option or expression is looked at more
closely only when the next one begins, or the arguments end, so of two mistakes the one
that is reported need not be the one that stands first.
-/
import LineCalc.Text.Terminal
import LineCalc.Text.Utf8

namespace LineCalc

/-- What an argument can be about. -/
inductive Parameter where
  | file
  | exitOnError
  | tokens
  | help
  | version
  | expression
  deriving DecidableEq, Repr

namespace Parameter

/-- A parameter as messages name it. -/
def label : Parameter → String
  | file => "--file <FILE>"
  | exitOnError => "--exit-on-error"
  | tokens => "--tokens"
  | help => "--help"
  | version => "--version"
  | expression => "[EXPRESSION]"

/-- The option with this long name. Names are never shortened. -/
def ofLong? (name : Bytes) : Option Parameter :=
  match Utf8.decode? name with
  | some "file" => some file
  | some "exit-on-error" => some exitOnError
  | some "tokens" => some tokens
  | some "help" => some help
  | some "version" => some version
  | _ => none

/-- The option with this letter. -/
def ofShort? : Char → Option Parameter
  | 'f' => some file
  | 'e' => some exitOnError
  | 't' => some tokens
  | 'h' => some help
  | 'V' => some version
  | _ => none

end Parameter

/-- What is wrong with the arguments. -/
inductive UsageError where
  | unexpectedArgument (text : String)
  | unexpectedValue (value : String) (parameter : Parameter)
  | missingValue (parameter : Parameter)
  | repeated (parameter : Parameter)
  | conflict (first second : Parameter)
  | notText
  deriving DecidableEq, Repr

/-- A part of a message that is about the arguments, in quotes and painted. -/
def named (text : String) : String := "'" ++ Terminal.painted text ++ "'"

/-- The error in words, for a terminal. -/
def UsageError.message : UsageError → String
  | unexpectedArgument text => "unexpected argument " ++ named text ++ " found"
  | unexpectedValue value parameter =>
    "unexpected value " ++ named value ++ " for " ++ named parameter.label ++
      " found; no more were expected"
  | missingValue parameter =>
    "a value is required for " ++ named parameter.label ++ " but none was supplied"
  | repeated parameter =>
    "the argument " ++ named parameter.label ++ " cannot be used multiple times"
  | conflict first second =>
    "the argument " ++ named first.label ++ " cannot be used with " ++ named second.label
  | notText => "invalid UTF-8 was detected in one or more arguments"

/-- Where the lines come from. -/
inductive Source where
  | expression (text : String)
  | file (path : Bytes)
  | standardInput
  deriving DecidableEq, Repr

/-- The parameter that a source is given by. -/
def Source.parameter? : Source → Option Parameter
  | expression _ => some .expression
  | file _ => some .file
  | standardInput => none

/-- What the arguments ask for. -/
inductive Request where
  | help
  | version
  | session (source : Source) (exitOnError tokens : Bool)
  deriving DecidableEq, Repr

namespace CommandLine

/-- An argument that has been met and not yet looked at closely. -/
inductive Waiting where
  | nothing
  /-- The option for a file, with its path once that has been met too. -/
  | file (path? : Option Bytes)
  | expression (text : Bytes)
  deriving DecidableEq, Repr

/-- Arguments partly read. -/
structure Reading where
  /-- The file and the expression, as far as they were given, in order. -/
  sources : List Source := []
  exitOnError : Bool := false
  tokens : Bool := false
  waiting : Waiting := .nothing
  deriving DecidableEq, Repr

/-- What reading an argument leads to. -/
inductive Progress where
  /-- There are more arguments to read. -/
  | reading (r : Reading)
  /-- Whatever comes next does not matter any more. -/
  | answered (request : Request)
  deriving DecidableEq, Repr

namespace Reading

/-- A source has been given by this parameter. -/
def has (r : Reading) (p : Parameter) : Bool := r.sources.any fun s => s.parameter? = some p

/-- Adds a source behind those given before. -/
def addSource (r : Reading) (s : Source) : Reading := { r with sources := r.sources ++ [s] }

/-- Takes a path for the file. The option cannot be repeated, and the path cannot be empty. -/
def setFile (r : Reading) (path : Bytes) : Except UsageError Reading :=
  if r.has .file then .error (.repeated .file)
  else if path.isEmpty then .error (.missingValue .file)
  else .ok (r.addSource (.file path))

/-- Looks at the argument that waits. -/
def settle (r : Reading) : Except UsageError Reading :=
  let settled := { r with waiting := .nothing }
  match r.waiting with
  | .nothing => .ok settled
  | .file none => .error (.missingValue .file)
  | .file (some path) => settled.setFile path
  | .expression text =>
    match Utf8.decode? text with
    | none => .error .notText
    | some text => .ok (settled.addSource (.expression text))

/-- An expression has been met. -/
def hasExpression (r : Reading) : Bool :=
  match r.waiting with
  | .expression _ => true
  | _ => r.has .expression

/-- Takes an option, with the value attached to it if there is one. -/
def takeOption (r : Reading) (p : Parameter) (value? : Option Bytes) :
    Except UsageError Progress := do
  let r ← r.settle
  match p with
  | .file =>
    match value? with
    | none => return .reading { r with waiting := .file none }
    | some path => return .reading (← r.setFile path)
  | .exitOnError =>
    if r.exitOnError then throw (.repeated p) else return .reading { r with exitOnError := true }
  | .tokens => if r.tokens then throw (.repeated p) else return .reading { r with tokens := true }
  | .help => return .answered .help
  | .version => return .answered .version
  | .expression => return .reading r

/-- Takes a long option, which may have a value attached. -/
def takeLong (r : Reading) (name : Bytes) (value? : Option Bytes) : Except UsageError Progress :=
  match Parameter.ofLong? name, value? with
  | none, _ => .error (.unexpectedArgument ("--" ++ Utf8.decodeLossy name))
  | some .file, _ => r.takeOption .file value?
  | some p, some value => .error (.unexpectedValue (Utf8.decodeLossy value) p)
  | some p, none => r.takeOption p none

/-- What stands behind the letter of an option, as its value: an equals sign in front of it does
not count, and if nothing stands there, there is none. -/
def attached : Bytes → Option Bytes
  | [] => none
  | b :: bytes => if b = 0x3D then some bytes else some (b :: bytes)

/-- Takes short options letter by letter; `bad` is what follows the letters and is no text. -/
def takeShort (r : Reading) (bad : Bytes) : List Char → Except UsageError Progress
  | [] =>
    if bad.isEmpty then .ok (.reading r)
    else .error (.unexpectedArgument ("-" ++ Utf8.decodeLossy bad))
  | c :: letters =>
    match Parameter.ofShort? c with
    | none => .error (.unexpectedArgument (String.ofList ['-', c]))
    | some .file => r.takeOption .file (attached (Utf8.encode (String.ofList letters) ++ bad))
    | some p => do
      match ← r.takeOption p none with
      | .reading r => r.takeShort bad letters
      | .answered request => return .answered request

/-- Takes the expression. There can be only one. -/
def takeExpression (r : Reading) (text : Bytes) : Except UsageError Reading :=
  if r.hasExpression then .error (.unexpectedArgument (Utf8.decodeLossy text))
  else return { ← r.settle with waiting := .expression text }

/-- Takes an argument that does not look like an option: a path that is waited for, or else
the expression. -/
def takePlain (r : Reading) (text : Bytes) : Except UsageError Reading :=
  match r.waiting with
  | .file none => .ok { r with waiting := .file (some text) }
  | _ => r.takeExpression text

end Reading

/-- What an argument looks like. -/
inductive Form where
  /-- Two dashes alone: no options after this. -/
  | endOfOptions
  | long (name : Bytes) (value? : Option Bytes)
  | short (letters : Bytes)
  | plain
  deriving DecidableEq, Repr

/-- What an argument looks like. A dash alone is no option. -/
def Form.ofBytes : Bytes → Form
  | 0x2D :: 0x2D :: text =>
    if text.isEmpty then .endOfOptions
    else
      let name := text.takeWhile (· ≠ 0x3D)
      let value? := match text.dropWhile (· ≠ 0x3D) with
        | [] => none
        | _ :: value => some value
      .long name value?
  | 0x2D :: b :: letters => .short (b :: letters)
  | _ => .plain

/-- What is asked for, when all arguments have been read. There can be only one source. -/
def Reading.finish (r : Reading) : Except UsageError Request := do
  let r ← r.settle
  match r.sources with
  | [] => return .session .standardInput r.exitOnError r.tokens
  | [source] => return .session source r.exitOnError r.tokens
  | .file _ :: _ => throw (.conflict .file .expression)
  | _ => throw (.conflict .expression .file)

/-- Reads the arguments that are left; `plain` tells that none of them can be an option. -/
def readFrom (r : Reading) (plain : Bool) : List Bytes → Except UsageError Request
  | [] => r.finish
  | argument :: arguments => do
    if plain then
      readFrom (← r.takeExpression argument) true arguments
    else
      match Form.ofBytes argument with
      | .endOfOptions => readFrom r true arguments
      | .plain => readFrom (← r.takePlain argument) false arguments
      | .long name value? =>
        match ← r.takeLong name value? with
        | .reading r => readFrom r false arguments
        | .answered request => return request
      | .short letters =>
        let (text, bad) := Utf8.span letters
        match ← r.takeShort bad text.toList with
        | .reading r => readFrom r false arguments
        | .answered request => return request

/-- What the arguments ask for. -/
def read (arguments : List Bytes) : Except UsageError Request := readFrom {} false arguments

end CommandLine

end LineCalc
