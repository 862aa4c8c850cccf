/-
The program on a real machine: what it is given is read, and what it says is written.
At a terminal each line is answered before the next one is read.
-/
import LineCalc.Program

namespace LineCalc.Main

/-- What is written before each line at a terminal. -/
def prompt : String := "calc> "

/-- Bytes as a machine holds them. -/
def toArray (bytes : Bytes) : ByteArray := ⟨bytes.toArray⟩

/-- Opens and reads a file, if it can be opened. A directory can, and fails only when it is read:
then the machine names no file in its error. -/
def readFile? (path : Bytes) : IO (Option Input) := do
  try
    return some (.ofBytes (← IO.FS.readBinFile (Utf8.decodeLossy path)).data.toList)
  catch
    | .inappropriateType none _ _ => return some ⟨[], some .isDirectory⟩
    | _ => return none

/-- Carries out effects at once. -/
def carryOut (stdout stderr : IO.FS.Stream) : List Effect → IO Unit
  | [] => return
  | effect :: effects => do
    match effect with
    | .write text => stdout.putStr text
    | .flush => stdout.flush
    | .report text => stderr.putStr text
    | .note _ => pure ()
    carryOut stdout stderr effects

/-- The bytes up to the next line feed and with it, or up to the end of the input. -/
partial def readPiece (stdin : IO.FS.Stream) : IO Bytes := do
  match (← stdin.read 1).data.toList with
  | [] => return []
  | byte :: _ => if byte = 0x0A then return [byte] else return byte :: (← readPiece stdin)

/-- Answers lines until there are no more or the session breaks off, each before the next one is
read. What becomes of a line is what `Session.converse` makes of it. -/
partial def talk (s : Session) (stdin stdout stderr : IO.FS.Stream) (summary : Summary) :
    IO (Except Fault Summary) := do
  carryOut stdout stderr s.ask
  match (Input.ofBytes (← readPiece stdin)).lines with
  | [] => return .ok summary
  | line :: _ =>
    match s.turn line with
    | .broken => return .error .invalidData
    | .next effects counts =>
      carryOut stdout stderr effects
      talk s stdin stdout stderr (summary.add counts)
    | .last effects counts =>
      carryOut stdout stderr effects
      return .ok (summary.add counts)

/-- Writes what is left to say, and tells the exit code. -/
def finish (stdout stderr : IO.FS.Stream) (outcome : Outcome) : IO UInt32 := do
  stdout.write (toArray outcome.stdout)
  stdout.flush
  stderr.write (toArray outcome.stderr)
  return outcome.code.toUInt32

end LineCalc.Main

open LineCalc in
/-- Runs the program. -/
def main (arguments : List String) : IO UInt32 := do
  let arguments := arguments.map Utf8.encode
  let stdin ← IO.getStdin
  let stdout ← IO.getStdout
  let stderr ← IO.getStderr
  let request := CommandLine.read arguments
  match request with
  | .ok (.session .standardInput exitOnError tokens) =>
    if ← stdin.isTty then
      let session := { Program.session exitOnError tokens with prompt? := some Main.prompt }
      let result ← Main.talk session stdin stdout stderr .zero
      return ← Main.finish stdout stderr (Program.outcome ⟨[], result⟩)
  | .error error =>
    if ← stderr.isTty then
      stderr.putStr (Program.usageText error)
      return 2
  | _ => pure ()
  let input ← match request with
    | .ok (.session .standardInput _ _) => pure (Input.ofBytes (← stdin.readBinToEnd).data.toList)
    | _ => pure (Input.ofBytes [])
  let file? ← match request with
    | .ok (.session (.file path) _ _) => Main.readFile? path
    | _ => pure none
  Main.finish stdout stderr (Program.run arguments input fun _ => file?)
