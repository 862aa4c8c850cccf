/-
What is said about a line that failed is one line of text, whatever the line itself holds.

Of all that a message is put together from, only two parts come from the line: a character that is no
token, which is quoted, and a number that is too large, which is made of digits.
-/
import LineCalc.Proofs.Culprit
import LineCalc.Proofs.Stream

namespace LineCalc

/-- A text without a line feed. -/
def OneLine (text : String) : Prop := '\n' ∉ text.toList

instance (text : String) : Decidable (OneLine text) := inferInstanceAs (Decidable (¬ _))

theorem OneLine.append {a b : String} (ha : OneLine a) (hb : OneLine b) : OneLine (a ++ b) := by
  simp only [OneLine, String.toList_append, List.mem_append, not_or]
  exact ⟨ha, hb⟩

/-! ## The parts of a message -/

theorem feed_not_mem_of_isDigit {text : List Char} (h : ∀ c ∈ text, c.isDigit) : '\n' ∉ text :=
  fun hfeed => absurd (h '\n' hfeed) (by decide)

theorem Decimal.oneLine_ofNat (n : Nat) : OneLine (ofNat n) := by
  rw [OneLine, ofNat, String.toList_ofList]
  exact feed_not_mem_of_isDigit fun c hc => Token.isDigit_of_mem_digits hc

namespace Quoted

theorem feed_not_mem_toDigits (n : Nat) : '\n' ∉ Nat.toDigits 16 n := by
  induction n using Nat.strongRecOn with
  | ind n ih =>
    rw [Nat.toDigits_eq_if (by decide)]
    split
    · simp
    · have hless : n / 16 < n := by omega
      simp [ih (n / 16) hless]

theorem feed_not_mem_escape (mark c : Char) : '\n' ∉ escape mark c := by
  unfold escape
  split_ifs with hnull htab hreturn hfeed hmarked hcode
  · decide
  · decide
  · decide
  · decide
  · simp [Ne.symm hfeed]
  · simp [codePoint, feed_not_mem_toDigits]
  · simpa using Ne.symm hfeed

theorem oneLine_ofChar (c : Char) : OneLine (ofChar c) := by
  rw [OneLine, ofChar, between, String.toList_ofList]
  simp [feed_not_mem_escape]

end Quoted

theorem Token.Kind.oneLine_name (kind : Token.Kind) : OneLine kind.name := by
  cases kind <;> decide

/-! ## Messages -/

theorem oneLine_messageAt {message : String} (h : OneLine message) (position : Nat) :
    OneLine (messageAt position message) := by
  have hstart : OneLine "Error at position " := by decide
  have hcolon : OneLine ": " := by decide
  exact ((hstart.append (Decimal.oneLine_ofNat position)).append hcolon).append h

theorem GrammarError.oneLine_message (error : GrammarError) : OneLine error.message := by
  cases error with
  | unexpectedToken expected found position =>
    have hstart : OneLine "Invalid syntax, expected " := by decide
    have hmiddle : OneLine " but found " := by decide
    have hend : OneLine "." := by decide
    exact oneLine_messageAt ((((hstart.append expected.oneLine_name).append hmiddle).append
      found.kind.oneLine_name).append hend) position
  | nestingTooDeep limit position =>
    have hstart : OneLine "Parentheses nested deeper than " := by decide
    have hend : OneLine " levels." := by decide
    exact oneLine_messageAt ((hstart.append (Decimal.oneLine_ofNat limit)).append hend) position

theorem ArithmeticError.oneLine_message (error : ArithmeticError) : OneLine error.message := by
  cases error with
  | divisionByZero position => exact oneLine_messageAt (by decide) position
  | overflow position => exact oneLine_messageAt (by decide) position

/-- An error that points at what stands in a line is told in one line. -/
theorem LexError.oneLine_message {error : LexError} {front rest : List Char}
    (h : (EvalError.lexical error).PointsAt front rest) : OneLine error.message := by
  have hend : OneLine "." := by decide
  cases error with
  | unknownCharacter character position =>
    have hstart : OneLine "Unknown character " := by decide
    exact oneLine_messageAt ((hstart.append (Quoted.oneLine_ofChar character)).append hend) position
  | literalTooLarge literal position =>
    have hstart : OneLine "Literal " := by decide
    have hlarge : OneLine " is too large." := by decide
    have hliteral : OneLine literal := by
      rw [OneLine, h.2.1]
      exact feed_not_mem_of_isDigit (List.all_eq_true.mp List.all_takeWhile)
    exact oneLine_messageAt ((hstart.append hliteral).append hlarge) position

/-- **Whatever is wrong with a line, it is told in one line.** -/
theorem oneLine_of_evaluate {line : String} {error : EvalError} (h : evaluate line = .error error) :
    OneLine error.message := by
  obtain ⟨front, rest, -, hpoints⟩ := exists_divides_of_evaluate h
  cases error with
  | lexical error => exact error.oneLine_message hpoints
  | grammatical error => exact error.oneLine_message
  | arithmetic error => exact error.oneLine_message

theorem oneLine_of_tokenize {line : String} {error : LexError} (h : tokenize line = .error error) :
    OneLine error.message := by
  rcases Scan.ofString_cases line with ⟨htokens, -⟩ | ⟨lexical, htokens, hscan⟩
  · rw [h] at htokens
    cases htokens
  · obtain rfl := Except.error.inj (htokens.symm.trans h)
    obtain ⟨front, rest, -, hpoints⟩ := Scan.exists_divides_error (congrArg Scan.ending hscan)
    exact lexical.oneLine_message hpoints

/-! ## Bytes of a line -/

namespace Utf8

@[simp] theorem decode?_encode (text : String) : decode? (encode text) = some text := by
  have hbytes : (⟨(encode text).toArray⟩ : ByteArray) = text.toByteArray := by
    have htext : text.toByteArray = text.toList.utf8Encode := by
      rw [← String.toByteArray_ofList, String.ofList_toList]
    rw [htext, List.utf8Encode]
    apply ByteArray.ext
    rw [List.data_toByteArray]
    rfl
  rw [decode?, hbytes, String.fromUTF8?, dif_pos text.isValidUTF8]
  rfl

/-- The byte of a line feed is part of no other character. -/
theorem feed_mem_utf8EncodeChar {c : Char} (h : 0x0A ∈ String.utf8EncodeChar c) : c = '\n' := by
  -- The bytes of a character that takes more than one are all above those of ASCII.
  have hbyte : ∀ n : Nat, 128 ≤ n → n < 256 → (0x0A : UInt8) ≠ UInt8.ofNat n := by
    intro n hlow hhigh heq
    have := congrArg UInt8.toNat heq
    simp at this
    omega
  unfold String.utf8EncodeChar at h
  dsimp only at h
  split_ifs at h with hone htwo hthree
  · have heq := congrArg UInt8.toNat (List.mem_singleton.mp h)
    change c.toNat ≤ 127 at hone
    have hfeed : '\n'.toNat = 10 := rfl
    simp at heq
    exact Char.toNat_inj.mp (by omega)
  · simp only [List.mem_cons, List.not_mem_nil, or_false] at h
    rcases h with h | h <;> exact absurd h (hbyte _ (by omega) (by omega))
  · simp only [List.mem_cons, List.not_mem_nil, or_false] at h
    rcases h with h | h | h <;> exact absurd h (hbyte _ (by omega) (by omega))
  · simp only [List.mem_cons, List.not_mem_nil, or_false] at h
    rcases h with h | h | h | h <;> exact absurd h (hbyte _ (by omega) (by omega))

theorem feed_not_mem_encode {text : String} (h : OneLine text) : 0x0A ∉ encode text := by
  intro hmem
  obtain ⟨c, hc, hbyte⟩ := List.mem_flatMap.mp hmem
  exact h (feed_mem_utf8EncodeChar hbyte ▸ hc)

theorem encode_line (text : String) : encode (text ++ "\n") = encode text ++ [0x0A] :=
  encode_append text "\n"

theorem takeWhile_encode {text : String} (h : OneLine text) (more : Bytes) :
    (encode (text ++ "\n") ++ more).takeWhile (· ≠ 0x0A) = encode text := by
  have htext : ∀ b ∈ encode text, decide (b ≠ 0x0A) = true := fun b hb => by
    have hne : b ≠ 0x0A := by
      rintro rfl
      exact feed_not_mem_encode h hb
    simpa using hne
  rw [encode_line, List.append_assoc, List.takeWhile_append_of_pos htext]
  simp

end Utf8

end LineCalc
