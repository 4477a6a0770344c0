import LineTables.Text.Basic

/-!
# Decimal numerals

Integers are written in decimal without leading zeros, a minus sign before the negative ones. They
are read from ASCII digits, with leading zeros and either sign. A numeral may have at most
`maxDigits` digits, its leading zeros counted; a longer one is not read at all.
-/

set_option autoImplicit false

namespace LineTables.Text

/-- The most digits that a numeral may have. -/
def maxDigits : Nat := 4300

def ofNat (n : Nat) : Text := Nat.toDigits 10 n

def ofInt : Int → Text
  | .ofNat n => ofNat n
  | .negSucc n => '-' :: ofNat (n + 1)

def isDigit (c : Char) : Bool := '0' ≤ c && c ≤ '9'

structure Numeral where
  negative : Bool
  digits : Text

def signed : Text → Bool × Text
  | '-' :: rest => (true, rest)
  | '+' :: rest => (false, rest)
  | rest => (false, rest)

def numeral? (t : Text) : Option Numeral :=
  let (negative, digits) := signed t
  if digits.isEmpty || !digits.all isDigit then none else some ⟨negative, digits⟩

namespace Numeral

def value (n : Numeral) : Int :=
  if n.negative then -(Nat.ofDigitChars 10 n.digits 0 : Int) else Nat.ofDigitChars 10 n.digits 0

def tooLong (n : Numeral) : Bool := maxDigits < n.digits.length

end Numeral

theorem isDigit_eq (c : Char) : isDigit c = c.isDigit := by
  simp [isDigit, Char.isDigit, Char.le_def]

theorem ofNat_all_digits (n : Nat) : (ofNat n).all isDigit = true := by
  rw [List.all_eq_true]
  intro c hc
  rw [isDigit_eq]
  exact Nat.isDigit_of_mem_toDigits (by omega) (by omega) hc

theorem ofNat_ne_nil (n : Nat) : ofNat n ≠ [] := Nat.toDigits_ne_nil

theorem value_ofNat (n : Nat) (negative : Bool) :
    (⟨negative, ofNat n⟩ : Numeral).value = if negative then -(n : Int) else n := by
  simp [Numeral.value, ofNat, Nat.ofDigitChars_ten_toDigits]

theorem signed_ofNat (n : Nat) : signed (ofNat n) = (false, ofNat n) := by
  have hall := ofNat_all_digits n
  rw [signed.eq_def]
  split
  case h_1 rest h => rw [h] at hall; simp [isDigit] at hall
  case h_2 rest h => rw [h] at hall; simp [isDigit] at hall
  case h_3 => rfl

theorem numeral?_ofInt (i : Int) : numeral? (ofInt i) = some ⟨decide (i < 0), ofNat i.natAbs⟩ := by
  cases i with
  | ofNat n =>
    rw [numeral?, ofInt, signed_ofNat]
    simp [ofNat_all_digits, ofNat_ne_nil]
  | negSucc n =>
    have h : signed (ofInt (.negSucc n)) = (true, ofNat (n + 1)) := rfl
    rw [numeral?, h]
    simp [ofNat_all_digits, ofNat_ne_nil, Int.negSucc_lt_zero]

theorem value_ofInt (i : Int) : (⟨decide (i < 0), ofNat i.natAbs⟩ : Numeral).value = i := by
  rw [value_ofNat]
  by_cases h : i < 0
  · rw [decide_eq_true h, if_pos rfl]
    omega
  · rw [decide_eq_false h, if_neg Bool.false_ne_true]
    omega

end LineTables.Text
