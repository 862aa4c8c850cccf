/-
What was rejected, found out by looking at the line again.

The text from the rejected place on is cut off at a byte offset. If its first bytes are digits, they are cut
off in turn, and were too large a number; otherwise its first character starts no token. A text cannot be cut
inside of a character, and an empty one has no first character, so this might come to nothing
(`diagnose?`). It never does where a piece of the line was rejected, and finds what the piece itself says
(`Item.diagnose?_eq`). So the errors that a lexer hands out are those that can be found in this way
(`Lexer.diagnose?_nextToken`).
-/
import LineCalc.Proofs.Reading

namespace LineCalc

theorem cutBytes?_byteSize (front rest : List Char) :
    cutBytes? (byteSize front) (front ++ rest) = some (front, rest) := by
  induction front with
  | nil => simp [cutBytes?]
  | cons c front ih =>
    obtain ⟨size, hsize⟩ := Nat.exists_eq_succ_of_ne_zero (byteSize_pos (List.cons_ne_nil c front)).ne'
    have hbytes := byteSize_cons c front
    have hleft : size + 1 - c.utf8Size = byteSize front := by omega
    rw [hsize, List.cons_append, cutBytes?, if_pos (by omega), hleft, ih]
    rfl

namespace Utf8

theorem isDigitByte_ofNat {n : Nat} (h : n < 256) :
    isDigitByte (UInt8.ofNat n) ↔ 48 ≤ n ∧ n ≤ 57 := by
  have hn : (UInt8.ofNat n).toNat = n := by simp; omega
  simp [isDigitByte, UInt8.le_iff_toNat_le, hn]

theorem utf8EncodeChar_of_isDigit {c : Char} (h : c.isDigit) :
    ∃ b, String.utf8EncodeChar c = [b] ∧ isDigitByte b := by
  obtain ⟨hlow, hhigh⟩ : 48 ≤ c.toNat ∧ c.toNat ≤ 57 := Char.isDigit_iff_toNat.mp h
  have hone : c.val.toNat ≤ 127 := by
    show c.toNat ≤ 127
    omega
  refine ⟨UInt8.ofNat c.toNat, ?_, (isDigitByte_ofNat (by omega)).mpr ⟨hlow, hhigh⟩⟩
  rw [String.utf8EncodeChar]
  exact if_pos hone

theorem utf8EncodeChar_of_not_isDigit {c : Char} (h : c.isDigit = false) :
    ∃ b bytes, String.utf8EncodeChar c = b :: bytes ∧ isDigitByte b = false := by
  have hbyte : ∀ n, n < 256 → ¬ (48 ≤ n ∧ n ≤ 57) → isDigitByte (UInt8.ofNat n) = false := by
    intro n hsize hn
    exact Bool.eq_false_iff.mpr (mt (isDigitByte_ofNat hsize).mp hn)
  unfold String.utf8EncodeChar
  dsimp only
  split_ifs with hone htwo hthree
  · have hdigit : ¬ (48 ≤ c.toNat ∧ c.toNat ≤ 57) := fun hc =>
      Bool.eq_false_iff.mp h (Char.isDigit_iff_toNat.mpr hc)
    exact ⟨_, _, rfl, hbyte _ (by omega) hdigit⟩
  · exact ⟨_, _, rfl, hbyte _ (by omega) (by omega)⟩
  · exact ⟨_, _, rfl, hbyte _ (by omega) (by omega)⟩
  · exact ⟨_, _, rfl, hbyte _ (by omega) (by omega)⟩

/-- The digits at the start of a text, counted as bytes. -/
theorem length_takeWhile_encode (text : List Char) :
    ((encode (String.ofList text)).takeWhile isDigitByte).length =
      (text.takeWhile Char.isDigit).length := by
  have hcons : ∀ c text, encode (String.ofList (c :: text)) =
      String.utf8EncodeChar c ++ encode (String.ofList text) := by
    intro c text
    simp [encode]
  induction text with
  | nil => rfl
  | cons c text ih =>
    rw [hcons]
    by_cases h : c.isDigit
    · obtain ⟨b, hc, hb⟩ := utf8EncodeChar_of_isDigit h
      simp [hc, hb, h, ih]
    · obtain ⟨b, bytes, hc, hb⟩ := utf8EncodeChar_of_not_isDigit (Bool.eq_false_iff.mpr h)
      simp [hc, hb, h]

end Utf8

namespace Item

/-- **Looking at the line again finds the fault of the item that stands there.** -/
theorem diagnose?_eq {line : String} {front first rest : List Char} {error : LexError}
    (htext : line.toList = front ++ (first ++ rest)) (hl : Leads first rest)
    (hread : (Item.mk first (byteSize front)).read = .error error) :
    diagnose? line (byteSize front) = some error := by
  rw [diagnose?, htext, cutBytes?_byteSize]
  simp only [Option.bind_eq_bind, Option.bind_some, Utf8.length_takeWhile_encode]
  rcases hl.of_fault hread with ⟨c, rfl, -, notDigit, -, rfl⟩ | ⟨rfl, -, ne, digits, ends⟩
  · simp [notDigit]
  · have hbytes : first.length = byteSize first := (Lexer.byteSize_run digits).symm
    rw [takeWhile_isDigit digits ends, if_pos (List.length_pos_iff.mpr ne), hbytes, cutBytes?_byteSize]
    rfl

end Item

/-- **Whatever error a lexer hands out, looking at its line again at the place finds the same one.** -/
theorem Lexer.diagnose?_nextToken {line : String} {front : List Char} {l after : Lexer} {error : LexError}
    (htext : line.toList = front ++ l.rest) (hfront : byteSize front = l.cursor)
    (h : l.nextToken = (.error error, after)) : diagnose? line after.position = some error := by
  rcases l.nextToken_split with ⟨-, hnext⟩ | ⟨blanks, first, rest, hrest, hl, -, hnext⟩
  · cases h.symm.trans hnext
  · obtain ⟨hread, rfl⟩ := Prod.mk.inj (h.symm.trans hnext)
    have hplace : byteSize (front ++ blanks) = l.cursor + byteSize blanks := by
      rw [byteSize_append, hfront]
    rw [← hplace] at hread ⊢
    refine Item.diagnose?_eq ?_ hl hread.symm
    rw [htext, hrest, List.append_assoc]

end LineCalc
