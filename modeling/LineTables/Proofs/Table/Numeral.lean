import LineTables.Proofs.Text.Numeral
import LineTables.Table.Literal

/-!
# Literals of integers

A literal of an integer column is a numeral: a sign or none, and then ASCII digits. Its digits are
counted before its value is looked at, so that one with too many of them is neither out of range nor
malformed.
-/

set_option autoImplicit false

namespace LineTables

/-- A sign or none, and more ASCII digits than a numeral may have. -/
def Overlong (token : Text) : Prop :=
  ∃ sign digits : Text, sign ∈ [[], ['+'], ['-']] ∧ token = sign ++ digits ∧
    (∀ c ∈ digits, '0' ≤ c ∧ c ≤ '9') ∧ 4300 < digits.length

theorem overlong_iff {token : Text} :
    Overlong token ↔ ∃ count i, Text.Spells token count i ∧ 4300 < count := by
  constructor
  · rintro ⟨sign, digits, hsign, rfl, hall, hlong⟩
    have hdigits : Text.Digits digits := ⟨List.ne_nil_of_length_pos (by omega), hall⟩
    simp only [List.mem_cons, List.not_mem_nil, or_false] at hsign
    rcases hsign with rfl | rfl | rfl
    · exact ⟨_, _, .bare hdigits, hlong⟩
    · exact ⟨_, _, .plus hdigits, hlong⟩
    · exact ⟨_, _, .minus hdigits, hlong⟩
  · rintro ⟨count, i, hs, hlong⟩
    cases hs with
    | bare h => exact ⟨[], _, by simp, rfl, h.all, hlong⟩
    | plus h => exact ⟨['+'], _, by simp, rfl, h.all, hlong⟩
    | minus h => exact ⟨['-'], _, by simp, rfl, h.all, hlong⟩

theorem inIntRange_iff {i : Int} : inIntRange i = true ↔ -2 ^ 63 ≤ i ∧ i ≤ 2 ^ 63 - 1 := by
  rw [inIntRange, Bool.and_eq_true, decide_eq_true_eq, decide_eq_true_eq]
  omega

namespace Column

/-- What a column of integers makes of a token. -/
inductive ReadAsInteger (column : Column) (token : Text) : Except LiteralError Value → Prop
  | value {count : Nat} {i : Int} (spells : Text.Spells token count i) (short : count ≤ 4300)
      (inRange : -2 ^ 63 ≤ i ∧ i ≤ 2 ^ 63 - 1) : ReadAsInteger column token (.ok (.int i))
  | outOfRange {count : Nat} {i : Int} (spells : Text.Spells token count i) (short : count ≤ 4300)
      (outside : ¬(-2 ^ 63 ≤ i ∧ i ≤ 2 ^ 63 - 1)) :
      ReadAsInteger column token (.error (.outOfRange column.name token))
  | tooManyDigits {count : Nat} {i : Int} (spells : Text.Spells token count i)
      (long : 4300 < count) : ReadAsInteger column token (.error .tooManyDigits)
  | notInteger (spellsNone : ∀ count i, ¬ Text.Spells token count i) :
      ReadAsInteger column token (.error (.notInteger column.name token))

theorem literal?_of_spells {column : Column} (h : column.type = .int) {token : Text} {count : Nat}
    {i : Int} (hs : Text.Spells token count i) : column.literal? token =
      if 4300 < count then .error .tooManyDigits
      else if inIntRange i then .ok (.int i) else .error (.outOfRange column.name token) := by
  obtain ⟨n, hn, rfl, rfl⟩ := Text.spells_iff.1 hs
  have hlong : n.tooLong = true ↔ 4300 < n.digits.length := decide_eq_true_iff
  rw [literal?, h, hn]
  simp only [hlong]

theorem literal?_of_spells_none {column : Column} (h : column.type = .int) {token : Text}
    (hs : ∀ count i, ¬ Text.Spells token count i) :
    column.literal? token = .error (.notInteger column.name token) := by
  rw [literal?, h]
  cases hn : Text.numeral? token with
  | none => rfl
  | some n => exact absurd (Text.spells_iff.2 ⟨n, hn, rfl, rfl⟩) (hs n.digits.length n.value)

theorem literal?_eq_iff {column : Column} (h : column.type = .int) {token : Text}
    {result : Except LiteralError Value} :
    column.literal? token = result ↔ column.ReadAsInteger token result := by
  constructor
  · rintro rfl
    by_cases hnone : ∀ count i, ¬ Text.Spells token count i
    · rw [literal?_of_spells_none h hnone]
      exact .notInteger hnone
    · simp only [not_forall, Classical.not_not] at hnone
      obtain ⟨count, i, hs⟩ := hnone
      rw [literal?_of_spells h hs]
      by_cases hlong : 4300 < count
      · rw [if_pos hlong]
        exact .tooManyDigits hs hlong
      · rw [if_neg hlong]
        by_cases hrange : inIntRange i = true
        · rw [if_pos hrange]
          exact .value hs (Nat.le_of_not_lt hlong) (inIntRange_iff.1 hrange)
        · rw [if_neg hrange]
          exact .outOfRange hs (Nat.le_of_not_lt hlong) (mt inIntRange_iff.2 hrange)
  · intro hread
    cases hread with
    | value hs hshort hrange =>
      rw [literal?_of_spells h hs, if_neg (Nat.not_lt.2 hshort), if_pos (inIntRange_iff.2 hrange)]
    | outOfRange hs hshort hrange =>
      rw [literal?_of_spells h hs, if_neg (Nat.not_lt.2 hshort),
        if_neg (mt inIntRange_iff.1 hrange)]
    | tooManyDigits hs hlong => rw [literal?_of_spells h hs, if_pos hlong]
    | notInteger hnone => exact literal?_of_spells_none h hnone

namespace ReadAsInteger

variable {column : Column} {token : Text}

theorem ok_iff {value : Value} : column.ReadAsInteger token (.ok value) ↔
    ∃ count i, Text.Spells token count i ∧ count ≤ 4300 ∧ (-2 ^ 63 ≤ i ∧ i ≤ 2 ^ 63 - 1) ∧
      value = .int i := by
  constructor
  · intro h
    cases h with
    | value hs hshort hrange => exact ⟨_, _, hs, hshort, hrange, rfl⟩
  · rintro ⟨count, i, hs, hshort, hrange, rfl⟩
    exact .value hs hshort hrange

theorem outOfRange_iff : column.ReadAsInteger token (.error (.outOfRange column.name token)) ↔
    ∃ count i, Text.Spells token count i ∧ count ≤ 4300 ∧ ¬(-2 ^ 63 ≤ i ∧ i ≤ 2 ^ 63 - 1) := by
  constructor
  · intro h
    cases h with
    | outOfRange hs hshort houtside => exact ⟨_, _, hs, hshort, houtside⟩
  · rintro ⟨count, i, hs, hshort, houtside⟩
    exact .outOfRange hs hshort houtside

theorem tooManyDigits_iff : column.ReadAsInteger token (.error .tooManyDigits) ↔
    ∃ count i, Text.Spells token count i ∧ 4300 < count := by
  constructor
  · intro h
    cases h with
    | tooManyDigits hs hlong => exact ⟨_, _, hs, hlong⟩
  · rintro ⟨count, i, hs, hlong⟩
    exact .tooManyDigits hs hlong

theorem notInteger_iff : column.ReadAsInteger token (.error (.notInteger column.name token)) ↔
    ∀ count i, ¬ Text.Spells token count i := by
  constructor
  · intro h
    cases h with
    | notInteger hnone => exact hnone
  · exact .notInteger

end ReadAsInteger

end Column

theorem literal?_tooManyDigits_iff {column : Column} {token : Text} :
    column.literal? token = .error .tooManyDigits ↔ column.type = .int ∧ Overlong token := by
  rw [overlong_iff]
  cases htype : column.type with
  | int =>
    rw [Column.literal?_eq_iff htype, Column.ReadAsInteger.tooManyDigits_iff]
    exact (and_iff_right rfl).symm
  | string =>
    rw [Column.literal?, htype]
    dsimp only
    split <;> simp

end LineTables
