import LineTables.Proofs.Condition.Addressing
import LineTables.Proofs.Table.Described
import LineTables.Proofs.Table.Numeral

/-!
# Integers in literals, cells and conditions

What a literal denotes, what a cell may hold and what a condition compares with are the same values. But
a literal is read by its value and compared by its text: of all the tokens that spell an integer, a
condition finds the integer by the canonical one only, with quotes or without.
-/

set_option autoImplicit false

namespace LineTables
open Text

theorem DataType.accepts_iff {type : DataType} {item : Json} :
    type.accepts item = true ↔ ∃ value : Value, type.Admits value ∧ item = value.toJson := by
  rw [accepts, Option.isSome_iff_exists]
  exact exists_congr fun value => value?_eq_some_iff

section Spelled

variable {token : Text} {count : Nat} {i : Int} (h : Text.Spells token count i)
include h

theorem mem_of_spells {c : Char} (hc : c ∈ token) : c = '+' ∨ c = '-' ∨ isWordChar c = true := by
  have hword : ∀ {digits : Text}, Text.Digits digits → c ∈ digits → isWordChar c = true :=
    fun hdigits hm => Value.isWordChar_of_isDigit (Text.isDigit_iff.2 (hdigits.all c hm))
  cases h with
  | bare h => exact Or.inr (Or.inr (hword h hc))
  | plus h => exact (List.mem_cons.1 hc).imp_right fun hm => Or.inr (hword h hm)
  | minus h => exact Or.inr ((List.mem_cons.1 hc).imp_right (hword h))

theorem not_mem_of_spells {c : Char} (hc : c ∈ [' ', ',', '(', ')', '=', '*', '"']) :
    c ∉ token := by
  intro hm
  rcases mem_of_spells h hm with rfl | rfl | hword
  · exact absurd hc (by decide)
  · exact absurd hc (by decide)
  · rw [punctuation c hc] at hword
    cases hword

theorem solid_of_spells : Solid token := by
  apply Solid.of_all
  · cases h with
    | bare h => exact h.ne_nil
    | plus h => exact List.cons_ne_nil _ _
    | minus h => exact List.cons_ne_nil _ _
  · intro c hc
    rcases mem_of_spells h hc with rfl | rfl | hword
    · rfl
    · rfl
    · exact not_isBlank_of_isWordChar hword

namespace Condition

theorem uncut_of_spells : Uncut token := by
  have hblank : ' ' ∉ token := not_mem_of_spells h (by simp)
  exact {
    noEquals := not_mem_of_spells h (by simp)
    noAnd := fun hand => hblank (hand.subset (by decide))
    noOr := fun hor => hblank (hor.subset (by decide)) }

theorem filter_of_spells : token.filter (· != '"') = token :=
  filter_quote_eq_iff.2 (not_mem_of_spells h (by simp))

theorem freed_of_spells : freed token = token := by
  rw [freed, (solid_of_spells h).trim_eq, filter_of_spells h]

end Condition

end Spelled

namespace Condition

theorem holdsFor_int_iff {column literal : Text} (hc : isValidName column = true)
    (hl : Uncut literal) {row : Row Value} {i : Int} (hr : row.get? column = some (.int i)) :
    holdsFor (comparing column literal) row = true ↔ freed literal = Text.ofInt i := by
  refine (holdsFor_comparing_iff hc hl hr).trans ⟨And.right, fun h => ⟨?_, h⟩⟩
  intro hblank
  rw [freed, hblank] at h
  exact (Value.solid_ofInt i).ne_nil h.symm

/-- Literals, cells and conditions agree on the values: a literal denotes what its column accepts, and every
accepted value has a literal. A column of integers takes the tokens that spell an integer of 64 bits in no more
than 4300 digits, however they spell it; of all these a condition finds the integer by the canonical one. -/
theorem literals_agree {c : Column} (hc : isValidName c.name = true) :
    (∀ token value, c.literal? token = .ok value → c.type.accepts value.toJson = true) ∧
    (∀ item, c.type.accepts item = true →
      ∃ value : Value, value.toJson = item ∧ c.literal? value.literal = .ok value) ∧
    (c.type = .int → ∀ token,
      (∀ value, c.literal? token = .ok value ↔ ∃ count i, Text.Spells token count i ∧
        count ≤ 4300 ∧ (-2 ^ 63 ≤ i ∧ i ≤ 2 ^ 63 - 1) ∧ value = .int i) ∧
      (c.literal? token = .error .tooManyDigits ↔
        ∃ count i, Text.Spells token count i ∧ 4300 < count) ∧
      (c.literal? token = .error (.outOfRange c.name token) ↔ ∃ count i,
        Text.Spells token count i ∧ count ≤ 4300 ∧ ¬(-2 ^ 63 ≤ i ∧ i ≤ 2 ^ 63 - 1)) ∧
      (c.literal? token = .error (.notInteger c.name token) ↔
        ∀ count i, ¬ Text.Spells token count i)) ∧
    ∀ (row : Row Value) (i : Int), row.get? c.name = some (.int i) →
      (∀ literal, Uncut literal →
        (holdsFor (comparing c.name literal) row = true ↔ freed literal = Text.ofInt i)) ∧
      ∀ token count, Text.Spells token count i →
        (holdsFor (comparing c.name token) row = true ↔ Text.Canonical token) ∧
        (holdsFor (equating c.name token) row = true ↔ Text.Canonical token) := by
  refine ⟨?_, ?_, ?_, ?_⟩
  · intro token value h
    exact DataType.accepts_iff.2 ⟨value, admits_of_literal? h, rfl⟩
  · intro item h
    obtain ⟨value, hadmits, rfl⟩ := DataType.accepts_iff.1 h
    exact ⟨value, rfl, literal?_literal hadmits⟩
  · intro hint token
    exact ⟨fun value => (Column.literal?_eq_iff hint).trans Column.ReadAsInteger.ok_iff,
      (Column.literal?_eq_iff hint).trans Column.ReadAsInteger.tooManyDigits_iff,
      (Column.literal?_eq_iff hint).trans Column.ReadAsInteger.outOfRange_iff,
      (Column.literal?_eq_iff hint).trans Column.ReadAsInteger.notInteger_iff⟩
  · intro row i hr
    refine ⟨fun literal hl => holdsFor_int_iff hc hl hr, ?_⟩
    intro token count hs
    have hcanonical : token = Text.ofInt i ↔ Text.Canonical token := Text.eq_ofInt_iff hs
    have huncut := uncut_of_spells hs
    constructor
    · rw [holdsFor_int_iff hc huncut hr, freed_of_spells hs]
      exact hcanonical
    · refine (holdsFor_int_iff hc huncut.inQuotes hr).trans ?_
      rw [freed_inQuotes, filter_of_spells hs]
      exact hcanonical

theorem literals_agree_zeros :
    let c : Column := ⟨"c".toList, .int⟩
    let row : Row Value := [("c".toList, .int (-7))]
    isValidName c.name = true ∧ c.literal? "-007".toList = .ok (.int (-7)) ∧
      c.type.accepts (.int (-7)) = true ∧ row.get? c.name = some (.int (-7)) ∧
      holdsFor "c=-007".toList row = false ∧ holdsFor "c=\"-007\"".toList row = false ∧
      Uncut " -\"7\" ".toList ∧ holdsFor "c= -\"7\" ".toList row = true ∧
      c.literal? ('-' :: List.replicate 4301 '0') = .error .tooManyDigits := by
  intro c row
  have hc : isValidName c.name = true := by decide
  have hr : row.get? c.name = some (.int (-7)) := rfl
  have hliteral : c.literal? "-007".toList = .ok (.int (-7)) := rfl
  obtain ⟨haccepted, -, hint, hrow⟩ := literals_agree hc
  obtain ⟨hliterals, htokens⟩ := hrow row (-7) hr
  have hdigits : Text.Digits "007".toList :=
    Text.digits_iff.2 ⟨by decide, List.all_eq_true.1 (by decide)⟩
  have hs : Text.Spells "-007".toList 3 (-7) := .minus hdigits
  have hcanonical : ¬ Text.Canonical "-007".toList := by
    intro h
    cases Text.eq_ofInt_of_canonical hs h
  obtain ⟨hbare, hquoted⟩ := htokens _ _ hs
  have huncut : Uncut " -\"7\" ".toList := ⟨by decide, by decide +kernel, by decide +kernel⟩
  have hzeros : Text.Digits (List.replicate 4301 '0') := by
    refine ⟨by rw [List.replicate_succ]; exact List.cons_ne_nil _ _, ?_⟩
    intro d hd
    rw [List.eq_of_mem_replicate hd]
    decide
  have hmany : c.literal? ('-' :: List.replicate 4301 '0') = .error .tooManyDigits := by
    refine (hint rfl _).2.1.2 ⟨_, _, .minus hzeros, ?_⟩
    rw [List.length_replicate]
    decide
  exact ⟨hc, hliteral, haccepted _ _ hliteral, hr, Bool.eq_false_iff.2 (mt hbare.1 hcanonical),
    Bool.eq_false_iff.2 (mt hquoted.1 hcanonical), huncut, (hliterals _ huncut).2 (by decide), hmany⟩

end Condition

end LineTables
