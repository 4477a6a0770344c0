import LineTables.Text.Basic

/-!
# Blank characters

A blank separates words and is cut off at the ends of names, literals and conditions. The class is
wider than the ASCII blanks: it also holds the four information separators, the next-line and
no-break characters, and the spaces of every width.
-/

set_option autoImplicit false

namespace LineTables.Text

def isBlank (c : Char) : Bool :=
  let n := c.toNat
  (9 ≤ n && n ≤ 13) || (28 ≤ n && n ≤ 32) || n == 0x85 || n == 0xA0 || n == 0x1680 ||
    (0x2000 ≤ n && n ≤ 0x200A) || n == 0x2028 || n == 0x2029 || n == 0x202F || n == 0x205F ||
    n == 0x3000

def trimStart (t : Text) : Text := t.dropWhile isBlank

def trimEnd : Text → Text
  | [] => []
  | c :: t =>
    match trimEnd t with
    | [] => if isBlank c then [] else [c]
    | d :: u => c :: d :: u

def trim (t : Text) : Text := trimEnd (trimStart t)

theorem trimEnd_cons (c : Char) (t : Text) :
    trimEnd (c :: t) = if isBlank c && (trimEnd t).isEmpty then [] else c :: trimEnd t := by
  rw [trimEnd]
  cases trimEnd t with
  | nil => cases isBlank c <;> rfl
  | cons d u => simp

theorem trimEnd_eq_nil_iff {t : Text} : trimEnd t = [] ↔ t.all isBlank = true := by
  induction t with
  | nil => simp [trimEnd]
  | cons c t ih =>
    rw [trimEnd_cons, List.all_cons]
    cases isBlank c <;> simp [ih]

theorem trimEnd_append_blanks (t : Text) :
    ∃ blanks : Text, blanks.all isBlank = true ∧ t = trimEnd t ++ blanks := by
  induction t with
  | nil => exact ⟨[], rfl, rfl⟩
  | cons c t ih =>
    obtain ⟨blanks, hb, ht⟩ := ih
    rw [trimEnd_cons]
    split
    case isTrue h =>
      rw [Bool.and_eq_true, List.isEmpty_iff] at h
      exact ⟨c :: t, by simp [h.1, trimEnd_eq_nil_iff.1 h.2], rfl⟩
    case isFalse => exact ⟨blanks, hb, by rw [List.cons_append, ← ht]⟩

theorem trimStart_append_blanks (t : Text) :
    ∃ blanks : Text, blanks.all isBlank = true ∧ t = blanks ++ trimStart t :=
  ⟨t.takeWhile isBlank, List.all_takeWhile, List.takeWhile_append_dropWhile.symm⟩

end LineTables.Text
