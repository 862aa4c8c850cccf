/-
Text for a terminal, and what is left of it elsewhere. On a terminal a part of a text can be
painted, by sequences that begin with an escape character. A stream that is no terminal gets
the text plain: without such sequences, whoever wrote them, and without control characters,
those that only make space apart.

A sequence that is broken off, or never ends, takes along what follows it up to the next
escape character. Blanks that stand inside one show all the same, and so does what follows
them, up to the next control character; from there on the sequence goes on.
-/
namespace LineCalc.Terminal

/-- `text` so that it stands out on a terminal. -/
def painted (text : String) : String := "\x1b[33m" ++ text ++ "\x1b[0m"

/-- Where in a sequence a text can be. -/
inductive Place where
  /-- In none. -/
  | ground
  /-- Right behind an escape character. -/
  | escape
  /-- In an escape of more than one character. -/
  | escapeShift
  /-- In a control sequence, behind `ESC [`. -/
  | control
  /-- In a system command, behind `ESC ]`. -/
  | system
  /-- At the start of a device control string, behind `ESC P`. -/
  | device
  /-- In the parameters of a device control string. -/
  | deviceParameters
  /-- Behind the parameters of a device control string. -/
  | deviceShift
  /-- In a string that only a terminator ends. -/
  | string
  deriving DecidableEq, Repr

/-- A control character that only makes space. -/
def isLayout (c : Char) : Bool := c = '\t' || c = '\n' || c = '\x0c' || c = '\r'

/-- A control character. -/
def isControl (c : Char) : Bool := c < ' ' || c = '\x7f'

/-- The byte 9C ends a string, also when it is part of a character. -/
def holdsTerminator (c : Char) : Bool := (String.utf8EncodeChar c).contains 0x9C

/-- Where a character leads that belongs to a sequence. The ranges are those of the standard
forms: intermediate characters from the space to `/`, parameters from `0` to `?`, and final
characters from `@` to `~`. -/
def Place.next : Place → Char → Place
  | ground, _ => ground
  | escape, '[' => control
  | escape, ']' => system
  | escape, 'P' => device
  | escape, 'X' | escape, '^' | escape, '_' => string
  | escape, c =>
    if ' ' ≤ c ∧ c ≤ '/' then escapeShift else if '0' ≤ c ∧ c ≤ '~' then ground else escape
  | escapeShift, c => if '0' ≤ c ∧ c ≤ '~' then ground else escapeShift
  | control, c => if '@' ≤ c ∧ c ≤ '~' then ground else control
  | system, c => if c = '\x07' then ground else system
  | device, c =>
    if ' ' ≤ c ∧ c ≤ '/' then deviceShift
    else if '0' ≤ c ∧ c ≤ '?' then deviceParameters
    else if '@' ≤ c ∧ c ≤ '~' then string
    else device
  | deviceParameters, c =>
    if ' ' ≤ c ∧ c ≤ '/' then deviceShift
    else if '<' ≤ c ∧ c ≤ '~' then string
    else deviceParameters
  | deviceShift, c => if '0' ≤ c ∧ c ≤ '~' then string else deviceShift
  | string, c => if holdsTerminator c then ground else string

/-- A blank shows at this place. -/
def Place.showsLayout : Place → Bool
  | ground | escape | escapeShift | control => true
  | system | device | deviceParameters | deviceShift | string => false

/-- What is left of a text that goes on from such a place; `showing` tells that the character
before it showed. -/
def plainFrom (place : Place) (showing : Bool) : List Char → List Char
  | [] => []
  | c :: cs =>
    if c = '\x1b' then plainFrom .escape false cs
    else if c = '\x18' ∨ c = '\x1a' then plainFrom .ground false cs
    else if showing ∨ place = .ground then
      if '\x7f' < c then c :: plainFrom .ground true cs
      else if isLayout c ∨ ¬ isControl c then c :: plainFrom place true cs
      else plainFrom (place.next c) false cs
    else if isLayout c ∧ place.showsLayout then c :: plainFrom place true cs
    else plainFrom (place.next c) false cs

/-- What is left of a text where there is no terminal. -/
def plain (text : String) : String := String.ofList (plainFrom .ground false text.toList)

end LineCalc.Terminal
