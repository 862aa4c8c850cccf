/-
Numbers as decimal text: how they are written, and what a run of digits is worth.
-/
namespace LineCalc.Decimal

/-- The digits of `n`, without leading zeros. -/
def digits (n : Nat) : List Char := Nat.toDigits 10 n

/-- `n` in canonical decimal form. -/
def ofNat (n : Nat) : String := String.ofList (digits n)

/-- `i` in canonical decimal form: a minus sign in front of a negative one, and no leading zeros. -/
def ofInt : Int → String
  | .ofNat n => ofNat n
  | .negSucc n => "-" ++ ofNat (n + 1)

/-- What a run of decimal digits is worth; leading zeros do not matter. -/
def value (run : List Char) : Nat := Nat.ofDigitChars 10 run 0

/-- Writing a number and reading it gives the number back. -/
@[simp] theorem value_digits (n : Nat) : value (digits n) = n :=
  Nat.ofDigitChars_toDigits (by decide) (by decide)

end LineCalc.Decimal
