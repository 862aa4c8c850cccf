/-
What a session reads: bytes, cut into lines, and the way they end. A line ends at a line
feed, and one carriage return right before it belongs to the line end. The last piece,
behind the last line feed, is a line only if there is something in it, and keeps all its
bytes.
-/
import LineCalc.Text.Utf8

namespace LineCalc

/-- What went wrong with a stream. -/
inductive Fault.Kind where
  /-- A writer takes no more bytes. -/
  | writeZero
  /-- Nobody reads what is written. -/
  | brokenPipe
  /-- The other side has gone away. -/
  | connectionReset
  /-- The bytes are no text. -/
  | invalidData
  /-- A directory was read as a file. -/
  | isDirectory
  deriving DecidableEq, Repr

/-- A stream that fails, and what it says about it. -/
structure Fault where
  kind : Fault.Kind
  message : String
  deriving DecidableEq, Repr

namespace Fault

/-- The fault of a writer that has no room for all of a text. -/
def writeZero : Fault := ⟨.writeZero, "failed to write whole buffer"⟩

/-- The fault of a line that is no text. -/
def invalidData : Fault := ⟨.invalidData, "stream did not contain valid UTF-8"⟩

/-- The fault of reading a directory. -/
def isDirectory : Fault := ⟨.isDirectory, "Is a directory (os error 21)"⟩

end Fault

/-- A stream to read from. -/
structure Input where
  bytes : Bytes
  /-- What reading fails with after the last byte; nothing at a plain end. -/
  fault? : Option Fault
  deriving DecidableEq, Repr

namespace Input

/-- An input that ends plainly. -/
def ofBytes (bytes : Bytes) : Input := ⟨bytes, none⟩

/-- The pieces that end in a line feed, without it, and what is left behind the last one. -/
def cut : Bytes → List Bytes × Bytes
  | [] => ([], [])
  | b :: bytes =>
    match cut bytes with
    | (lines, left) =>
      if b = 0x0A then ([] :: lines, left)
      else
        match lines with
        | [] => ([], b :: left)
        | line :: lines => ((b :: line) :: lines, left)

/-- A line without the carriage return at its end, if it has one. -/
def dropReturn (line : Bytes) : Bytes :=
  if line.getLast? = some 0x0D then line.dropLast else line

/-- The lines that can be read. When reading fails, the piece behind the last line feed is lost. -/
def lines (input : Input) : List Bytes :=
  match cut input.bytes with
  | (lines, left) =>
    lines.map dropReturn ++ if input.fault? = none ∧ left ≠ [] then [left] else []

end Input

end LineCalc
