/-
The values a line computes with: signed 64-bit words. Arithmetic is exact, in the
integers, and a result becomes a word only if it is in range, so nothing ever wraps.
-/
namespace LineCalc

/-- A signed 64-bit value. -/
abbrev Word := Int64

/-- An integer that some word stands for: from -2⁶³ up to, and without, 2⁶³. -/
def Word.InRange (n : Int) : Prop := -9223372036854775808 ≤ n ∧ n < 9223372036854775808

instance (n : Int) : Decidable (Word.InRange n) :=
  inferInstanceAs (Decidable (_ ∧ _))

/-- The word for `n`, if there is one. -/
def Word.ofInt? (n : Int) : Option Word :=
  if Word.InRange n then some (Int64.ofInt n) else none

theorem Word.inRange_toInt (w : Word) : Word.InRange w.toInt :=
  ⟨Int64.le_toInt w, Int64.toInt_lt w⟩

theorem Word.InRange.toInt_ofInt {n : Int} (h : Word.InRange n) : (Int64.ofInt n).toInt = n :=
  Int64.toInt_ofInt_of_le h.1 h.2

/-- A word is read off an integer exactly when it stands for that integer. -/
theorem Word.ofInt?_eq_some_iff {n : Int} {w : Word} : Word.ofInt? n = some w ↔ w.toInt = n := by
  constructor
  · intro h
    unfold Word.ofInt? at h
    split at h
    · rename_i hr
      cases h
      exact hr.toInt_ofInt
    · cases h
  · rintro rfl
    rw [Word.ofInt?, if_pos w.inRange_toInt, Int64.ofInt_toInt]

theorem Word.ofInt?_eq_none_iff {n : Int} : Word.ofInt? n = none ↔ ¬ Word.InRange n := by
  unfold Word.ofInt?
  split <;> simp [*]

end LineCalc
