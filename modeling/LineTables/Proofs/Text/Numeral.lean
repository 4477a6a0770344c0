import Mathlib.Data.List.Induction
import Mathlib.Data.Nat.Digits.Defs
import LineTables.Text.Numeral

/-!
# Decimal notation

A numeral spells an integer: its digits count in powers of ten, and a minus sign makes the value
negative. Many texts spell one integer; among them the written form is the one without a plus sign,
without leading zeros, and without a sign in front of zero.
-/

set_option autoImplicit false

namespace LineTables.Text

theorem digitChar_ne_zero : ∀ n < 10, n ≠ 0 → Nat.digitChar n ≠ '0' := by
  decide

theorem ofNat_ne_zero_cons {n : Nat} (h : n ≠ 0) (t : Text) : ofNat n ≠ '0' :: t := by
  induction n using Nat.strongRecOn generalizing t with
  | ind n ih =>
    by_cases hlt : n < 10
    · rw [ofNat, Nat.toDigits_of_lt_base hlt]
      intro heq
      exact digitChar_ne_zero n hlt h (List.cons.inj heq).1
    · rw [ofNat, Nat.toDigits_of_base_le (by decide) (by omega)]
      intro heq
      have hrest := ih (n / 10) (by omega) (by omega)
      cases hd : Nat.toDigits 10 (n / 10) with
      | nil => exact Nat.toDigits_ne_nil hd
      | cons d ds =>
        rw [hd] at heq
        have hzero : d = '0' := (List.cons.inj heq).1
        exact hrest ds (by rw [ofNat, hd, hzero])

theorem ofNat_injective : Function.Injective ofNat := by
  intro m n h
  have hvalue := congrArg (Nat.ofDigitChars 10 · 0) h
  simpa only [ofNat, Nat.ofDigitChars_ten_toDigits] using hvalue

def signs : List (Bool × Text) := [(false, []), (false, ['+']), (true, ['-'])]

theorem exists_sign (t : Text) :
    ∃ sign, ((signed t).1, sign) ∈ signs ∧ t = sign ++ (signed t).2 := by
  rw [signed.eq_def]
  split
  · exact ⟨['-'], by simp [signs], rfl⟩
  · exact ⟨['+'], by simp [signs], rfl⟩
  · exact ⟨[], by simp [signs], rfl⟩

theorem signed_of_digits {digits : Text} (h : ∀ c ∈ digits, isDigit c = true) :
    signed digits = (false, digits) := by
  rw [signed.eq_def]
  split
  · exact absurd (h '-' List.mem_cons_self) (by decide)
  · exact absurd (h '+' List.mem_cons_self) (by decide)
  · rfl

theorem signed_append {negative : Bool} {sign digits : Text} (hs : (negative, sign) ∈ signs)
    (hd : ∀ c ∈ digits, isDigit c = true) : signed (sign ++ digits) = (negative, digits) := by
  simp only [signs, List.mem_cons, Prod.mk.injEq, List.not_mem_nil, or_false] at hs
  rcases hs with ⟨rfl, rfl⟩ | ⟨rfl, rfl⟩ | ⟨rfl, rfl⟩
  · exact signed_of_digits hd
  · rfl
  · rfl

theorem numeral?_eq_some_iff {t : Text} {n : Numeral} :
    numeral? t = some n ↔ n.digits ≠ [] ∧ (∀ c ∈ n.digits, isDigit c = true) ∧
      ∃ sign, (n.negative, sign) ∈ signs ∧ t = sign ++ n.digits := by
  obtain ⟨negative, digits⟩ := n
  constructor
  · intro h
    rw [numeral?] at h
    dsimp only at h
    split at h
    · cases h
    · rename_i hform
      cases h
      rw [Bool.or_eq_true, not_or, List.isEmpty_iff, Bool.not_eq_true', Bool.not_eq_false,
        List.all_eq_true] at hform
      exact ⟨hform.1, hform.2, exists_sign t⟩
  · rintro ⟨hne, hdigits, sign, hsign, rfl⟩
    have hsigned : signed (sign ++ digits) = (negative, digits) := signed_append hsign hdigits
    have hempty : digits.isEmpty = false := by simpa using hne
    have hall : digits.all isDigit = true := List.all_eq_true.2 hdigits
    rw [numeral?, hsigned]
    simp only [hempty, hall, Bool.not_true, Bool.or_self, Bool.false_eq_true, if_false]

/-- The value of digits: the last one counts once, and each other ten times what the one behind it does. -/
def decimal (digits : Text) : Nat :=
  Nat.ofDigits 10 (digits.reverse.map fun c => c.toNat - '0'.toNat)

structure Digits (t : Text) : Prop where
  ne_nil : t ≠ []
  all : ∀ c ∈ t, '0' ≤ c ∧ c ≤ '9'

/-- The text spells the integer with this number of digits, behind a sign or none. -/
inductive Spells : Text → Nat → Int → Prop
  | bare {digits : Text} (h : Digits digits) : Spells digits digits.length (decimal digits)
  | plus {digits : Text} (h : Digits digits) : Spells ('+' :: digits) digits.length (decimal digits)
  | minus {digits : Text} (h : Digits digits) :
      Spells ('-' :: digits) digits.length (-decimal digits)

theorem isDigit_iff {c : Char} : isDigit c = true ↔ '0' ≤ c ∧ c ≤ '9' := by
  rw [isDigit, Bool.and_eq_true, decide_eq_true_eq, decide_eq_true_eq]

theorem digits_iff {t : Text} : Digits t ↔ t ≠ [] ∧ ∀ c ∈ t, isDigit c = true := by
  constructor
  · intro h
    exact ⟨h.ne_nil, fun c hc => isDigit_iff.2 (h.all c hc)⟩
  · rintro ⟨hne, hall⟩
    exact ⟨hne, fun c hc => isDigit_iff.1 (hall c hc)⟩

theorem decimal_concat (digits : Text) (c : Char) :
    decimal (digits ++ [c]) = 10 * decimal digits + (c.toNat - '0'.toNat) := by
  rw [decimal, List.reverse_append, List.reverse_singleton, List.singleton_append, List.map_cons,
    Nat.ofDigits_cons, Nat.add_comm, ← decimal]

theorem ofDigitChars_eq_decimal (digits : Text) : Nat.ofDigitChars 10 digits 0 = decimal digits := by
  induction digits using List.reverseRecOn with
  | nil => rfl
  | append_singleton digits c ih =>
    rw [decimal_concat, ← ih, Nat.ofDigitChars_eq_foldl, List.foldl_append,
      ← Nat.ofDigitChars_eq_foldl]
    rfl

theorem value_eq (n : Numeral) :
    n.value = if n.negative then -(decimal n.digits : Int) else decimal n.digits := by
  rw [Numeral.value, ofDigitChars_eq_decimal]

theorem spells_iff {t : Text} {count : Nat} {i : Int} :
    Spells t count i ↔ ∃ n, numeral? t = some n ∧ n.digits.length = count ∧ n.value = i := by
  have hread : ∀ n : Numeral, numeral? t = some n ↔
      Digits n.digits ∧ ∃ sign, (n.negative, sign) ∈ signs ∧ t = sign ++ n.digits := by
    intro n
    rw [numeral?_eq_some_iff, digits_iff, and_assoc]
  simp only [hread, value_eq]
  constructor
  · intro h
    cases h with
    | bare h => exact ⟨⟨false, _⟩, ⟨h, [], by simp [signs], rfl⟩, rfl, rfl⟩
    | plus h => exact ⟨⟨false, _⟩, ⟨h, ['+'], by simp [signs], rfl⟩, rfl, rfl⟩
    | minus h => exact ⟨⟨true, _⟩, ⟨h, ['-'], by simp [signs], rfl⟩, rfl, rfl⟩
  · rintro ⟨⟨negative, digits⟩, ⟨h, sign, hsign, rfl⟩, rfl, rfl⟩
    simp only [signs, List.mem_cons, Prod.mk.injEq, List.not_mem_nil, or_false] at hsign
    rcases hsign with ⟨rfl, rfl⟩ | ⟨rfl, rfl⟩ | ⟨rfl, rfl⟩
    · exact .bare h
    · exact .plus h
    · exact .minus h

/-- Neither a plus sign, nor leading zeros, nor a sign in front of zero. -/
inductive Canonical : Text → Prop
  | zero : Canonical ['0']
  | positive {c : Char} {digits : Text} (h : '1' ≤ c ∧ c ≤ '9') : Canonical (c :: digits)
  | negative {c : Char} {digits : Text} (h : '1' ≤ c ∧ c ≤ '9') : Canonical ('-' :: c :: digits)

theorem digit_value {c : Char} (h : '0' ≤ c ∧ c ≤ '9') :
    c.toNat - '0'.toNat < 10 ∧ Nat.digitChar (c.toNat - '0'.toNat) = c := by
  have hlow : '0'.toNat ≤ c.toNat := h.1
  have hhigh : c.toNat ≤ '9'.toNat := h.2
  have hlt : c.toNat - '0'.toNat < 10 := by
    have hnine : '9'.toNat = '0'.toNat + 9 := rfl
    omega
  refine ⟨hlt, Char.toNat_inj.1 ?_⟩
  rw [Nat.toNat_digitChar_of_lt_ten hlt]
  exact Nat.add_sub_of_le hlow

theorem ofNat_append {n : Nat} (hn : 0 < n) {digits : Text} (h : ∀ c ∈ digits, '0' ≤ c ∧ c ≤ '9') :
    ofNat n ++ digits = ofNat (Nat.ofDigitChars 10 digits n) := by
  induction digits generalizing n with
  | nil => simp [Nat.ofDigitChars]
  | cons c digits ih =>
    obtain ⟨hlt, hchar⟩ := digit_value (h c List.mem_cons_self)
    have hnext := Nat.toDigits_append_toDigits (b := 10) (by decide) hn hlt
    rw [Nat.toDigits_of_lt_base hlt, hchar] at hnext
    rw [Nat.ofDigitChars_cons, ← ih (by omega) fun d hd => h d (List.mem_cons_of_mem c hd), ofNat,
      ofNat, ← hnext, List.append_assoc, List.singleton_append]

theorem ofNat_decimal {c : Char} {digits : Text} (hc : '1' ≤ c ∧ c ≤ '9')
    (h : Digits (c :: digits)) : ofNat (decimal (c :: digits)) = c :: digits := by
  obtain ⟨hlt, hchar⟩ := digit_value (h.all c List.mem_cons_self)
  have hlow : 49 ≤ c.toNat := hc.1
  have hpos : 0 < c.toNat - '0'.toNat := by
    show 0 < c.toNat - 48
    omega
  rw [← ofDigitChars_eq_decimal, Nat.ofDigitChars_cons, Nat.mul_zero, Nat.zero_add,
    ← ofNat_append hpos fun d hd => h.all d (List.mem_cons_of_mem c hd), ofNat,
    Nat.toDigits_of_lt_base hlt, hchar]
  rfl

theorem exists_ofNat_cons {n : Nat} (hn : 0 < n) :
    ∃ c digits, ofNat n = c :: digits ∧ '1' ≤ c ∧ c ≤ '9' := by
  obtain ⟨c, digits, hc⟩ := List.exists_cons_of_ne_nil (ofNat_ne_nil n)
  have hdigit : isDigit c = true :=
    List.all_eq_true.1 (ofNat_all_digits n) c (by rw [hc]; exact List.mem_cons_self)
  obtain ⟨hlow, hhigh⟩ := isDigit_iff.1 hdigit
  have hne : c ≠ '0' := by
    rintro rfl
    exact ofNat_ne_zero_cons (Nat.ne_of_gt hn) digits hc
  have hlow' : 48 ≤ c.toNat := hlow
  have hne' : c.toNat ≠ 48 := fun h => hne (Char.toNat_inj.1 h)
  have hone : 49 ≤ c.toNat := by omega
  exact ⟨c, digits, hc, hone, hhigh⟩

theorem canonical_ofInt (i : Int) : Canonical (ofInt i) := by
  match i with
  | .ofNat 0 => exact .zero
  | .ofNat (n + 1) =>
    obtain ⟨c, digits, heq, hc⟩ := exists_ofNat_cons (Nat.succ_pos n)
    rw [ofInt, heq]
    exact .positive hc
  | .negSucc n =>
    obtain ⟨c, digits, heq, hc⟩ := exists_ofNat_cons (Nat.succ_pos n)
    rw [ofInt, heq]
    exact .negative hc

theorem eq_ofInt_of_canonical {t : Text} {count : Nat} {i : Int} (h : Spells t count i)
    (hc : Canonical t) : t = ofInt i := by
  cases hc with
  | zero =>
    cases h with
    | bare h => rfl
  | positive hc =>
    cases h with
    | bare h => exact (ofNat_decimal hc h).symm
    | plus h => exact absurd hc (by decide)
    | minus h => exact absurd hc (by decide)
  | @negative c digits hc =>
    cases h with
    | bare h => exact absurd (h.all '-' List.mem_cons_self) (by decide)
    | minus h =>
      have hwritten := ofNat_decimal hc h
      cases hvalue : decimal (c :: digits) with
      | zero =>
        rw [hvalue] at hwritten
        obtain rfl : '0' = c := (List.cons.inj hwritten).1
        exact absurd hc (by decide)
      | succ n =>
        rw [hvalue] at hwritten
        exact congrArg ('-' :: ·) hwritten.symm

theorem eq_ofInt_iff {t : Text} {count : Nat} {i : Int} (h : Spells t count i) :
    t = ofInt i ↔ Canonical t := by
  refine ⟨?_, eq_ofInt_of_canonical h⟩
  rintro rfl
  exact canonical_ofInt i

end LineTables.Text
