/-
Decimal numerals, read and written.

A run of digits is the digits of what it is worth, with zeros in front, and nothing else
(`Decimal.exists_zeros`). An integer that is written out is in canonical form (`Decimal.canonical_ofInt`), and a
word that is written out can be read again (`Decimal.word?_ofInt`).
-/
import LineCalc.Proofs.Writing

namespace LineCalc.Decimal

/-! ## Digits and zeros -/

theorem digitChar_sub {c : Char} (h : c.isDigit) : Nat.digitChar (c.toNat - '0'.toNat) = c := by
  obtain ⟨hlow, hhigh⟩ := Char.isDigit_iff_toNat.mp h
  have h0 : '0'.toNat = 48 := rfl
  have h9 : '9'.toNat = 57 := rfl
  apply Char.toNat_inj.mp
  rw [Nat.toNat_digitChar_of_lt_ten (by omega)]
  omega

theorem digits_value_singleton {c : Char} (h : c.isDigit) : digits (value [c]) = [c] := by
  have hle := value_digit_le h
  have hvalue : value [c] = c.toNat - '0'.toNat := by
    simp [value, Nat.ofDigitChars_cons]
  rw [digits, Nat.toDigits_of_lt_base (by omega), hvalue, digitChar_sub h]

theorem value_concat (run : List Char) (c : Char) : value (run ++ [c]) = 10 * value run + value [c] := by
  simp [value, Nat.ofDigitChars_append, Nat.ofDigitChars_cons]

theorem value_zeros (zeros n : Nat) : value (List.replicate zeros '0' ++ digits n) = n := by
  rw [value, Nat.ofDigitChars_append, Nat.ofDigitChars_replicate_zero, Nat.mul_zero]
  exact value_digits n

/-- **A run of digits is the digits of what it is worth, with zeros in front.** -/
theorem exists_zeros {run : List Char} (hne : run ≠ []) (hdigits : ∀ c ∈ run, c.isDigit) :
    ∃ zeros, run = List.replicate zeros '0' ++ digits (value run) := by
  induction run using List.reverseRecOn with
  | nil => exact absurd rfl hne
  | append_singleton run c ih =>
    have hc : c.isDigit := hdigits c (by simp)
    by_cases hrun : run = []
    · subst hrun
      exact ⟨0, (digits_value_singleton hc).symm⟩
    · obtain ⟨zeros, hzeros⟩ := ih hrun fun d hd => hdigits d (by simp [hd])
      by_cases hzero : value run = 0
      · -- All digits so far are zeros.
        rw [hzero, digits, Nat.toDigits_zero] at hzeros
        refine ⟨zeros + 1, ?_⟩
        rw [value_concat, hzero, Nat.mul_zero, Nat.zero_add, digits_value_singleton hc, hzeros,
          List.replicate_succ']
      · have hle := value_digit_le hc
        have hdigit : digits (value run) ++ [c] = digits (value (run ++ [c])) := by
          calc digits (value run) ++ [c] = digits (value run) ++ digits (value [c]) := by
                rw [digits_value_singleton hc]
            _ = digits (10 * value run + value [c]) :=
              Nat.toDigits_append_toDigits (by decide) (by omega) (by omega)
            _ = digits (value (run ++ [c])) := by rw [value_concat]
        refine ⟨zeros, ?_⟩
        rw [← hdigit, ← List.append_assoc, ← hzeros]

theorem head?_digits {n : Nat} (h : (digits n).head? = some '0') : digits n = ['0'] := by
  induction n using Nat.strongRecOn with
  | ind n ih =>
    by_cases hsmall : n < 10
    · rw [digits, Nat.toDigits_of_lt_base hsmall] at h ⊢
      simpa using h
    · have hge : 10 ≤ n := by omega
      have hless : n / 10 < n := by omega
      rw [digits, Nat.toDigits_of_base_le (by decide) hge, List.head?_append_of_ne_nil _ Nat.toDigits_ne_nil] at h
      -- Otherwise the number without its last digit would be zero.
      have hzero := congrArg value (ih (n / 10) hless h)
      rw [value_digits] at hzero
      have : value ['0'] = 0 := rfl
      omega

/-! ## Integers -/

/-- An integer in canonical form: digits, behind a minus sign or not, of which the first is no zero, unless
there is nothing but that zero. -/
def Canonical (text : List Char) : Prop :=
  ∃ sign run, text = sign ++ run ∧ (sign = [] ∨ sign = ['-']) ∧ run ≠ [] ∧ (∀ c ∈ run, c.isDigit) ∧
    (run.head? = some '0' → text = ['0'])

theorem canonical_ofInt (i : Int) : Canonical (ofInt i).toList := by
  cases i with
  | ofNat n =>
    refine ⟨[], digits n, String.toList_ofList, .inl rfl, Nat.toDigits_ne_nil,
      fun c hc => Token.isDigit_of_mem_digits hc, fun hzero => ?_⟩
    exact String.toList_ofList.trans (head?_digits hzero)
  | negSucc n =>
    refine ⟨['-'], digits (n + 1), by simp [ofInt, ofNat], .inr rfl, Nat.toDigits_ne_nil,
      fun c hc => Token.isDigit_of_mem_digits hc, fun hzero => ?_⟩
    have hvalue := congrArg value (head?_digits hzero)
    rw [value_digits] at hvalue
    exact absurd hvalue (Nat.succ_ne_zero n)

/-- What digits are worth, if they are digits, and there are any. -/
def natural? (run : List Char) : Option Nat :=
  if run ≠ [] ∧ run.all Char.isDigit then some (value run) else none

/-- The word that a text stands for: digits, behind a minus sign or not. -/
def word? : List Char → Option Word
  | '-' :: run => (natural? run).bind fun n => Word.ofInt? (-n)
  | run => (natural? run).bind fun n => Word.ofInt? n

theorem natural?_digits (n : Nat) : natural? (digits n) = some n := by
  have hall : (digits n).all Char.isDigit :=
    List.all_eq_true.mpr fun c hc => Token.isDigit_of_mem_digits hc
  rw [natural?, if_pos ⟨Nat.toDigits_ne_nil, hall⟩, value_digits]

theorem word?_digits (n : Nat) : word? (digits n) = Word.ofInt? n := by
  unfold word?
  split
  next run hrun =>
    have hminus : '-' ∈ digits n := by simp [hrun]
    exact absurd (Token.isDigit_of_mem_digits hminus) (by decide)
  next => rw [natural?_digits, Option.bind_some]

/-- **A word that is written out can be read again.** -/
theorem word?_ofInt (value : Word) : word? (ofInt value.toInt).toList = some value := by
  cases hint : value.toInt with
  | ofNat n =>
    rw [ofInt, ofNat, String.toList_ofList, word?_digits]
    exact Word.ofInt?_eq_some_iff.mpr hint
  | negSucc n =>
    have htext : (ofInt (.negSucc n)).toList = '-' :: digits (n + 1) := by simp [ofInt, ofNat]
    rw [htext, word?, natural?_digits, Option.bind_some]
    exact Word.ofInt?_eq_some_iff.mpr (hint.trans (Int.negSucc_eq n))

end LineCalc.Decimal
