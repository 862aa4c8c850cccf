/-
Text and bytes. Bytes are decoded strictly, where only text will do, or leniently,
where something has to be shown: then each start of a character that leads nowhere
becomes one replacement character.
-/
namespace LineCalc

/-- A sequence of bytes, as files, streams and arguments hold them. -/
abbrev Bytes := List UInt8

namespace Utf8

/-- The bytes of a text. -/
def encode (s : String) : Bytes := s.toList.flatMap String.utf8EncodeChar

/-- The text that these bytes encode, if they encode one. -/
def decode? (bytes : Bytes) : Option String := String.fromUTF8? ⟨bytes.toArray⟩

/-- The byte of a digit. -/
def isDigitByte (b : UInt8) : Bool := 0x30 ≤ b && b ≤ 0x39

/-- What may follow a first byte: how many more bytes, and the bounds of the next one. -/
def following (first : UInt8) : Nat × UInt8 × UInt8 :=
  if first < 0xC2 then (0, 0x80, 0xBF)
  else if first ≤ 0xDF then (1, 0x80, 0xBF)
  else if first = 0xE0 then (2, 0xA0, 0xBF)
  else if first = 0xED then (2, 0x80, 0x9F)
  else if first ≤ 0xEF then (2, 0x80, 0xBF)
  else if first = 0xF0 then (3, 0x90, 0xBF)
  else if first ≤ 0xF3 then (3, 0x80, 0xBF)
  else if first = 0xF4 then (3, 0x80, 0x8F)
  else (0, 0x80, 0xBF)

/-- How many of the next `count` bytes go on with a character, when the next one has to
lie between `low` and `high` and those after it only have to be continuation bytes. -/
def continuing : (count : Nat) → (low high : UInt8) → Bytes → Nat
  | count + 1, low, high, b :: bytes =>
    if low ≤ b ∧ b ≤ high then continuing count 0x80 0xBF bytes + 1 else 0
  | _, _, _, _ => 0

/-- The byte `first` with all that follows it as part of the same character. -/
def extent (first : UInt8) (bytes : Bytes) : Nat :=
  let (count, low, high) := following first
  continuing count low high bytes + 1

theorem extent_pos (first : UInt8) (bytes : Bytes) : 0 < extent first bytes :=
  Nat.succ_pos _

/-- The characters at the start of the bytes, up to the first that does not decode, and
the bytes from there on. -/
def span (bytes : Bytes) : String × Bytes :=
  match bytes with
  | [] => ("", [])
  | first :: rest =>
    let size := extent first rest
    match decode? ((first :: rest).take size) with
    | none => ("", first :: rest)
    | some piece =>
      let (text, bad) := span ((first :: rest).drop size)
      (piece ++ text, bad)
termination_by bytes.length
decreasing_by
  have := extent_pos first rest
  simp only [List.length_drop, List.length_cons]
  omega

/-- The text of the bytes, with U+FFFD for each stretch that is no character. -/
def decodeLossy (bytes : Bytes) : String :=
  match bytes with
  | [] => ""
  | first :: rest =>
    let size := extent first rest
    (decode? ((first :: rest).take size)).getD "\uFFFD" ++ decodeLossy ((first :: rest).drop size)
termination_by bytes.length
decreasing_by
  have := extent_pos first rest
  simp only [List.length_drop, List.length_cons]
  omega

end Utf8

end LineCalc
