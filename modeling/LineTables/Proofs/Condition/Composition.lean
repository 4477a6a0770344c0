import LineTables.Condition
import LineTables.Proofs.Record
import LineTables.Proofs.Text.Occurrence

/-!
# Conditions put together

A condition made of two conditions with a joint between them holds of a row where both, or one of the two,
do. The joint has to be found where it was put: the first condition must not end with the beginning of one
more joint. And it has to join: next to ` AND `, no part is read by ` OR `.
-/

set_option autoImplicit false

namespace LineTables
open Text

namespace Row

/-- The cells of a row that hold a value. -/
def filled (row : Record (Option Value)) : Row Value :=
  row.filterMap fun cell => cell.2.map (cell.1, ·)

theorem mem_filled_iff {row : Record (Option Value)} {name : Text} {value : Value} :
    (name, value) ∈ filled row ↔ (name, some value) ∈ row := by
  rw [filled, List.mem_filterMap]
  constructor
  · rintro ⟨⟨key, cell⟩, hm, hcell⟩
    obtain ⟨held, hheld, heq⟩ := Option.map_eq_some_iff.1 hcell
    cases heq
    rwa [← show cell = some value from hheld]
  · intro hm
    exact ⟨(name, some value), hm, rfl⟩

theorem names_filled_sublist (row : Record (Option Value)) :
    (filled row).names.Sublist row.names := by
  induction row with
  | nil => exact .refl _
  | cons cell row ih =>
    obtain ⟨name, _ | value⟩ := cell
    · exact ih.cons name
    · exact ih.cons_cons name

theorem get?_filled_iff {row : Record (Option Value)} (hn : row.names.Nodup) {name : Text}
    {value : Value} : (filled row).get? name = some value ↔ row.get? name = some (some value) := by
  have hnames : (filled row).names.Nodup := hn.sublist (names_filled_sublist row)
  constructor
  · intro h
    exact Record.get?_of_mem hn (mem_filled_iff.1 (Record.mem_of_get? h))
  · intro h
    exact Record.get?_of_mem hnames (mem_filled_iff.2 (Record.mem_of_get? h))

end Row

namespace Condition

theorem term_holds_iff {term : Term} {row : Row Value} :
    term.holds row = true ↔ ∃ value, row.get? term.column = some value ∧ value.shown = term.literal := by
  rw [Term.holds]
  cases row.get? term.column with
  | none => simp
  | some value => simp

theorem term_holds_filled_iff {term : Term} {row : Record (Option Value)} (hn : row.names.Nodup) :
    term.holds (Row.filled row) = true ↔
      ∃ value, row.get? term.column = some (some value) ∧ value.shown = term.literal := by
  simp only [term_holds_iff, Row.get?_filled_iff hn]

namespace Joint

theorem and_ne_nil : andSeparator ≠ [] := by decide

theorem or_ne_nil : orSeparator ≠ [] := by decide

theorem and_overlap : ∀ n < andSeparator.length, 0 < n → andSeparator.drop n <+: andSeparator →
    n + 1 = andSeparator.length := by
  decide

theorem or_overlap : ∀ n < orSeparator.length, 0 < n → orSeparator.drop n <+: orSeparator →
    n + 1 = orSeparator.length := by
  decide

end Joint

def termOf (piece : Text) : Option Term := Term.ofText? piece.trim

variable {t : Text} (row : Row Value)

theorem ofText_of_and (h : Joint.andSeparator <:+: t) :
    ofText t = ⟨.all, (pieces Joint.andSeparator t).map termOf⟩ := by
  rw [ofText, if_pos (occursIn_iff.2 h)]
  rfl

theorem ofText_of_or (hand : ¬ Joint.andSeparator <:+: t) (h : Joint.orSeparator <:+: t) :
    ofText t = ⟨.any, (pieces Joint.orSeparator t).map termOf⟩ := by
  rw [ofText, occursIn_eq_false hand, if_pos (occursIn_iff.2 h)]
  rfl

theorem ofText_of_none (hand : ¬ Joint.andSeparator <:+: t) (hor : ¬ Joint.orSeparator <:+: t) :
    ofText t = ⟨.single, [termOf t]⟩ := by
  rw [ofText, occursIn_eq_false hand, occursIn_eq_false hor]
  rfl

theorem holdsFor_eq_all (h : (ofText t).joint ≠ .any) :
    holdsFor t row =
      (pieces Joint.andSeparator t).all fun piece => termHolds row (termOf piece) := by
  rw [holdsFor]
  by_cases hand : Joint.andSeparator <:+: t
  · rw [ofText_of_and hand]
    exact List.all_map
  · by_cases hor : Joint.orSeparator <:+: t
    · rw [ofText_of_or hand hor] at h
      exact absurd rfl h
    · rw [ofText_of_none hand hor, pieces_eq_singleton hand]
      rfl

theorem holdsFor_eq_any (hand : ¬ Joint.andSeparator <:+: t) :
    holdsFor t row =
      (pieces Joint.orSeparator t).any fun piece => termHolds row (termOf piece) := by
  rw [holdsFor]
  by_cases hor : Joint.orSeparator <:+: t
  · rw [ofText_of_or hand hor]
    exact List.any_map
  · rw [ofText_of_none hand hor, pieces_eq_singleton hor]
    exact (Bool.and_true _).trans (Bool.or_false _).symm

theorem holdsFor_and {a b : Text} (ha : (ofText a).joint ≠ .any) (hb : (ofText b).joint ≠ .any)
    (hend : ¬ " AND".toList <:+ a) :
    holdsFor (a ++ Joint.andSeparator ++ b) row = (holdsFor a row && holdsFor b row) := by
  have hjoined : Joint.andSeparator <:+: a ++ Joint.andSeparator ++ b := ⟨a, b, rfl⟩
  have hall : (ofText (a ++ Joint.andSeparator ++ b)).joint ≠ .any := by
    rw [ofText_of_and hjoined]
    exact nofun
  have hclear : Clear Joint.andSeparator a := clear_of_not_suffix Joint.and_overlap hend
  rw [holdsFor_eq_all row hall, holdsFor_eq_all row ha, holdsFor_eq_all row hb,
    pieces_append Joint.and_ne_nil hclear, List.all_append]

theorem holdsFor_or {a b : Text}
    (hand : ¬ Joint.andSeparator <:+: a ++ Joint.orSeparator ++ b) (hend : ¬ " OR".toList <:+ a) :
    holdsFor (a ++ Joint.orSeparator ++ b) row = (holdsFor a row || holdsFor b row) := by
  have ha : ¬ Joint.andSeparator <:+: a := fun h =>
    hand (h.trans ⟨[], Joint.orSeparator ++ b, by rw [List.nil_append, List.append_assoc]⟩)
  have hb : ¬ Joint.andSeparator <:+: b := fun h =>
    hand (h.trans ⟨a ++ Joint.orSeparator, [], List.append_nil _⟩)
  have hclear : Clear Joint.orSeparator a := clear_of_not_suffix Joint.or_overlap hend
  rw [holdsFor_eq_any row hand, holdsFor_eq_any row ha, holdsFor_eq_any row hb,
    pieces_append Joint.or_ne_nil hclear, List.any_append]

/-- Two texts, whatever they are, with a joint between them make a condition that holds of a row where both
hold, or where one of them does. A cell without a value is like one that is not there. -/
theorem holdsFor_composed (row : Record (Option Value)) (a b : Text) :
    ((ofText a).joint ≠ .any → (ofText b).joint ≠ .any → ¬ " AND".toList <:+ a →
      holdsFor (a ++ " AND ".toList ++ b) (Row.filled row) =
        (holdsFor a (Row.filled row) && holdsFor b (Row.filled row))) ∧
    (¬ " AND ".toList <:+: a ++ " OR ".toList ++ b → ¬ " OR".toList <:+ a →
      holdsFor (a ++ " OR ".toList ++ b) (Row.filled row) =
        (holdsFor a (Row.filled row) || holdsFor b (Row.filled row))) ∧
    (row.names.Nodup → ∀ term : Term, term.holds (Row.filled row) = true ↔
      ∃ value, row.get? term.column = some (some value) ∧ value.shown = term.literal) := by
  refine ⟨?_, ?_, ?_⟩
  · intro ha hb hend
    exact holdsFor_and (Row.filled row) ha hb hend
  · intro hand hend
    exact holdsFor_or (Row.filled row) hand hend
  · intro hn term
    exact term_holds_filled_iff hn

theorem holdsFor_composed_malformed :
    let row : Record (Option Value) := [("a".toList, some (.int 1)), ("b".toList, none)]
    let a := "a=1".toList
    let b := "OR b=".toList
    (ofText a).joint ≠ .any ∧ (ofText b).joint ≠ .any ∧ ¬ " AND".toList <:+ a ∧
      holdsFor (a ++ " AND ".toList ++ b) (Row.filled row) = false ∧
      ¬ " AND ".toList <:+: a ++ " OR ".toList ++ b ∧ ¬ " OR".toList <:+ a ∧
      holdsFor (a ++ " OR ".toList ++ b) (Row.filled row) = true ∧
      row.names.Nodup ∧ Term.holds ⟨"b".toList, "None".toList⟩ (Row.filled row) = false := by
  intro row a b
  have ha : (ofText a).joint ≠ .any := by decide
  have hb : (ofText b).joint ≠ .any := by decide
  have handEnd : ¬ " AND".toList <:+ a := by decide
  have hand : ¬ " AND ".toList <:+: a ++ " OR ".toList ++ b := by decide
  have horEnd : ¬ " OR".toList <:+ a := by decide
  have hn : row.names.Nodup := by decide
  obtain ⟨hboth, heither, hterm⟩ := holdsFor_composed row a b
  refine ⟨ha, hb, handEnd, (hboth ha hb handEnd).trans (by decide), hand, horEnd,
    (heither hand horEnd).trans (by decide), hn, Bool.eq_false_iff.2 fun h => ?_⟩
  obtain ⟨value, hvalue, -⟩ := (hterm hn ⟨"b".toList, "None".toList⟩).1 h
  cases hvalue

end Condition
end LineTables
