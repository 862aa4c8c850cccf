/-
What a session does to the world, as data: a script of effects, in order, and the result
that stands when they have all been carried out. Carrying them out on streams that may
fail stops at the first effect that does.
-/
import LineCalc.Session.Input
import LineCalc.Trace

namespace LineCalc

/-- One thing done to the world. -/
inductive Effect where
  /-- Writes to the output. -/
  | write (text : String)
  /-- Flushes the output. -/
  | flush
  /-- Writes to the error stream. -/
  | report (text : String)
  /-- Adds to the log. -/
  | note (record : Record)
  deriving DecidableEq, Repr

/-- Counts of the lines that a session has dealt with. -/
structure Summary where
  /-- Lines that gave a result. -/
  evaluated : Nat
  /-- Lines that failed. -/
  failed : Nat
  deriving DecidableEq, Repr

namespace Summary

/-- No lines yet. -/
def zero : Summary := ⟨0, 0⟩

/-- The lines of both. -/
def add (a b : Summary) : Summary := ⟨a.evaluated + b.evaluated, a.failed + b.failed⟩

end Summary

/-- All that a session does as long as its output streams work. -/
structure Script where
  effects : List Effect
  result : Except Fault Summary

/-- A script that does something else first. -/
def Script.after (before : List Effect) (script : Script) : Script :=
  { script with effects := before ++ script.effects }

/-- The streams that a script is carried out on. -/
structure Streams where
  /-- How many more bytes the output takes; nothing means that it takes all. -/
  outRoom : Option Nat
  /-- How many more bytes the error stream takes. -/
  errRoom : Option Nat
  /-- What flushing the output fails with, if it does. -/
  flushFault? : Option Fault
  deriving DecidableEq, Repr

/-- Streams that never fail. -/
def Streams.sound : Streams := ⟨none, none, none⟩

/-- What can be seen of a session once it is over. -/
structure Observed where
  /-- The bytes on the output. -/
  out : Bytes
  /-- The bytes on the error stream. -/
  err : Bytes
  /-- How often the output was flushed; a flush that failed counts. -/
  flushes : Nat
  log : List Record
  result : Except Fault Summary

/-- Takes in as many of the bytes as there is room for, and tells the room that is left, unless
some did not fit. No bytes always fit. -/
def accept (room : Option Nat) (bytes : Bytes) : Bytes × Option (Option Nat) :=
  match room with
  | none => (bytes, some none)
  | some n => (bytes.take n, if bytes.length ≤ n then some (some (n - bytes.length)) else none)

/-- Carries out the effects one by one; the first that fails is the last, and its fault is the
result. -/
def perform (streams : Streams) (result : Except Fault Summary) : List Effect → Observed
  | [] => ⟨[], [], 0, [], result⟩
  | .write text :: effects =>
    match accept streams.outRoom (Utf8.encode text) with
    | (bytes, none) => ⟨bytes, [], 0, [], .error .writeZero⟩
    | (bytes, some room) =>
      let o := perform { streams with outRoom := room } result effects
      { o with out := bytes ++ o.out }
  | .flush :: effects =>
    match streams.flushFault? with
    | some fault => ⟨[], [], 1, [], .error fault⟩
    | none =>
      let o := perform streams result effects
      { o with flushes := o.flushes + 1 }
  | .report text :: effects =>
    match accept streams.errRoom (Utf8.encode text) with
    | (bytes, none) => ⟨[], bytes, 0, [], .error .writeZero⟩
    | (bytes, some room) =>
      let o := perform { streams with errRoom := room } result effects
      { o with err := bytes ++ o.err }
  | .note record :: effects =>
    let o := perform streams result effects
    { o with log := record :: o.log }

/-- Carries out a script. -/
def Script.perform (script : Script) (streams : Streams) : Observed :=
  LineCalc.perform streams script.result script.effects

end LineCalc
