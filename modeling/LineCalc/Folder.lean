/-
A folder of named files, and how a path leads through it: the folder that a program runs
in, as far as the program can tell.
-/
import LineCalc.Session.Input

namespace LineCalc

/-- What a name stands for. -/
inductive Entry where
  | file (bytes : Bytes)
  | directory
  deriving DecidableEq, Repr

/-- The files and directories of a folder, each with the names that lead to it. -/
structure Folder where
  entries : List (List Bytes × Entry)
  deriving DecidableEq, Repr

namespace Folder

/-- A path cut at its slashes. -/
def components : Bytes → List Bytes
  | [] => [[]]
  | b :: path =>
    if b = 0x2F then [] :: components path
    else
      match components path with
      | [] => [[b]]
      | name :: names => (b :: name) :: names

/-- A component that leads nowhere: an empty one, or a dot. -/
def isStay (name : Bytes) : Bool := name.isEmpty || name = [0x2E]

/-- A folder given by the paths of its files, and of its directories, which have no bytes. -/
def ofPaths (paths : List (Bytes × Option Bytes)) : Folder :=
  ⟨paths.map fun (path, bytes?) =>
    ((components path).filter (!isStay ·), (bytes?.map .file).getD .directory)⟩

/-- What these names lead to. Whatever holds something is a directory. -/
def entry? (folder : Folder) (names : List Bytes) : Option Entry :=
  match folder.entries.lookup names with
  | some entry => some entry
  | none =>
    if names.isEmpty || folder.entries.any fun (path, _) => names.isPrefixOf path then
      some .directory
    else none

/-- Where a path has led so far. -/
inductive Place where
  /-- Outside of the folder, in a directory about which nothing else is known. -/
  | outside
  | inside (names : List Bytes)
  deriving DecidableEq, Repr

/-- One component further, if that leads anywhere. Only a directory leads on. -/
def enter (folder : Folder) (place : Place) (name : Bytes) : Option Place :=
  let goesUp := name = [0x2E, 0x2E]
  match place with
  | .outside => if isStay name || goesUp then some .outside else none
  | .inside names =>
    if folder.entry? names ≠ some .directory then none
    else if isStay name then some place
    else if goesUp then some (if names.isEmpty then .outside else .inside names.dropLast)
    else if (folder.entry? (names ++ [name])).isSome then some (.inside (names ++ [name]))
    else none

/-- The bytes of the longest path that can be followed at all. -/
def maxPath : Nat := 4095

/-- Opens what a path leads to, if it leads anywhere. A directory can be opened, but not read. -/
def open? (folder : Folder) (path : Bytes) : Option Input :=
  let start := if path.head? = some 0x2F then .outside else .inside []
  if path.length ≤ maxPath then
    match (components path).foldlM folder.enter start with
    | none => none
    | some .outside => some ⟨[], some .isDirectory⟩
    | some (.inside names) =>
      (folder.entry? names).map fun
        | .file bytes => .ofBytes bytes
        | .directory => ⟨[], some .isDirectory⟩
  else none

end Folder

end LineCalc
