import LineTables.Proofs.Condition.Composition
import LineTables.Proofs.Database.Reachable
import LineTables.Proofs.Table.Literal

/-!
# Stored texts and the conditions that find them

A text is stored from a literal in double quotes, which loses the outer two of them; a condition loses
all. The two agree on the texts without a double quote: such a text is found by the comparison with the
same literal, unless an equals sign or a joint inside it cuts the condition. A text with a double quote
is stored all the same, and no comparison finds it.
-/

set_option autoImplicit false

namespace LineTables
open Text

namespace Condition

def comparing (column literal : Text) : Text := column ++ '=' :: literal

/-- A literal as it is compared, without the blanks around it and without its double quotes. -/
def freed (literal : Text) : Text := literal.trim.filter (· != '"')

def equating (column t : Text) : Text := column ++ '=' :: inQuotes t

/-- The text holds nothing at which a condition is cut. -/
structure Uncut (t : Text) : Prop where
  noEquals : '=' ∉ t
  noAnd : ¬ Joint.andSeparator <:+: t
  noOr : ¬ Joint.orSeparator <:+: t

theorem not_infix_comparing {column literal joint : Text} (hfirst : joint.head? = some ' ')
    (hc : ' ' ∉ column) (hl : ¬ joint <:+: literal) : ¬ joint <:+: comparing column literal := by
  have hparts : comparing column literal = (column ++ ['=']) ++ literal := by
    simp [comparing]
  rwa [hparts, infix_append_left_iff hfirst (by simp [hc])]

theorem not_infix_inQuotes {t joint : Text} (hfirst : joint.head? = some ' ')
    (hlast : joint.getLast? = some ' ') (ht : ¬ joint <:+: t) : ¬ joint <:+: inQuotes t := by
  have hparts : inQuotes t = ['"'] ++ (t ++ ['"']) := rfl
  rwa [hparts, infix_append_left_iff hfirst (by simp), infix_append_right_iff hlast (by simp)]

theorem Uncut.inQuotes {t : Text} (h : Uncut t) : Uncut (inQuotes t) where
  noEquals := mt (mem_inQuotes_iff (by decide)).1 h.noEquals
  noAnd := not_infix_inQuotes rfl rfl h.noAnd
  noOr := not_infix_inQuotes rfl rfl h.noOr

theorem freed_inQuotes (t : Text) : freed (inQuotes t) = t.filter (· != '"') := by
  rw [freed, (solid_inQuotes t).trim_eq]
  simp [inQuotes]

theorem filter_quote_eq_iff {t : Text} : t.filter (· != '"') = t ↔ '"' ∉ t := by
  rw [List.filter_eq_self]
  constructor
  · intro h hm
    exact absurd (h _ hm) (by decide)
  · intro h c hm
    rw [bne_iff_ne]
    rintro rfl
    exact h hm

theorem termOf_comparing {column literal : Text} (hc : isValidName column = true)
    (hl : '=' ∉ literal) : termOf (comparing column literal) =
      if literal.trim = [] then none else some ⟨column, freed literal⟩ := by
  have hword := isWord_of_isValidName hc
  have hsolid := solid_of_isWord hword
  have htrim : (comparing column literal).trim = column ++ '=' :: trimEnd literal := by
    rw [comparing, trim, hsolid.trimStart_eq, trimEnd_append_cons rfl]
  obtain ⟨blanks, -, hliteral⟩ := trimEnd_append_blanks literal
  have hend : '=' ∉ trimEnd literal := by
    rw [hliteral] at hl
    exact fun hm => hl (List.mem_append_left blanks hm)
  have hcolumn : '=' ∉ column := hword.not_mem (punctuation '=' (by simp))
  have hcut : cutAt '=' (column ++ '=' :: trimEnd literal) = [column, trimEnd literal] := by
    rw [cutAt, cutWhere_append_cons (not_separates hcolumn) (beq_self_eq_true '='),
      cutWhere_eq_singleton (not_separates hend)]
  rw [termOf, htrim, Term.ofText?, hcut]
  dsimp only
  rw [trim_trimEnd, hsolid.trim_eq]
  simp only [List.isEmpty_iff, freed]

theorem ofText_comparing {column literal : Text} (hc : isValidName column = true)
    (hl : Uncut literal) : ofText (comparing column literal) =
      ⟨.single, [if literal.trim = [] then none else some ⟨column, freed literal⟩]⟩ := by
  have hblank : ' ' ∉ column :=
    (isWord_of_isValidName hc).not_mem (punctuation ' ' (by simp))
  rw [ofText_of_none (not_infix_comparing rfl hblank hl.noAnd)
    (not_infix_comparing rfl hblank hl.noOr), termOf_comparing hc hl.noEquals]

theorem not_infix_equating {column t joint : Text} (hfirst : joint.head? = some ' ')
    (hlast : joint.getLast? = some ' ') (hc : ' ' ∉ column) (ht : ¬ joint <:+: t) :
    ¬ joint <:+: equating column t :=
  not_infix_comparing hfirst hc (not_infix_inQuotes hfirst hlast ht)

theorem termOf_equating {column t : Text} (hc : isValidName column = true) (ht : '=' ∉ t) :
    termOf (equating column t) = some ⟨column, t.filter (· != '"')⟩ := by
  have hliteral : '=' ∉ inQuotes t := mt (mem_inQuotes_iff (by decide)).1 ht
  have hsolid := solid_inQuotes t
  have hterm := termOf_comparing hc hliteral
  rwa [hsolid.trim_eq, if_neg hsolid.ne_nil, freed_inQuotes] at hterm

theorem ofText_equating {column t : Text} (hc : isValidName column = true) (ht : Uncut t) :
    ofText (equating column t) = ⟨.single, [some ⟨column, t.filter (· != '"')⟩]⟩ := by
  have hsolid := solid_inQuotes t
  have htext := ofText_comparing hc ht.inQuotes
  rwa [hsolid.trim_eq, if_neg hsolid.ne_nil, freed_inQuotes] at htext

theorem holdsFor_comparing_iff {column literal : Text} (hc : isValidName column = true)
    (hl : Uncut literal) {row : Row Value} {value : Value} (hr : row.get? column = some value) :
    holdsFor (comparing column literal) row = true ↔
      literal.trim ≠ [] ∧ freed literal = value.shown := by
  rw [holdsFor, ofText_comparing hc hl]
  show (termHolds row _ && true) = true ↔ _
  rw [Bool.and_true]
  by_cases hblank : literal.trim = []
  · rw [if_pos hblank]
    exact iff_of_false Bool.false_ne_true fun h => h.1 hblank
  · rw [if_neg hblank]
    show Term.holds ⟨column, freed literal⟩ row = true ↔ _
    rw [Term.holds, hr]
    show (value.shown == freed literal) = true ↔ _
    rw [beq_iff_eq, eq_comm]
    exact (and_iff_right hblank).symm

theorem holdsFor_equating_iff {column t : Text} (hc : isValidName column = true) (ht : Uncut t)
    {row : Row Value} (hr : row.get? column = some (.text t)) :
    holdsFor (equating column t) row = true ↔ '"' ∉ t := by
  have hsolid := solid_inQuotes t
  refine (holdsFor_comparing_iff hc ht.inQuotes hr).trans ?_
  rw [hsolid.trim_eq, freed_inQuotes, ← filter_quote_eq_iff]
  exact and_iff_right hsolid.ne_nil

theorem quote_not_mem_literal {clause : Text} {term : Term} (h : Term.ofText? clause = some term) :
    '"' ∉ term.literal := by
  rw [Term.ofText?] at h
  split at h
  · dsimp only at h
    split at h
    · cases h
    · cases h
      simp
  · cases h

theorem holds_of_quote {clause : Text} {term : Term} (h : Term.ofText? clause = some term)
    {row : Row Value} {t : Text} (hr : row.get? term.column = some (.text t)) (ht : '"' ∈ t) :
    term.holds row = false := by
  rw [Term.holds, hr]
  show (t == term.literal) = false
  rw [beq_eq_false_iff_ne]
  rintro rfl
  exact quote_not_mem_literal h ht

end Condition

namespace Session

/-- In every state that a session reaches, a stored text that cuts no condition is found by the
comparison with its literal exactly if it has no double quote; where it has one, no comparison finds
it. -/
theorem reachable_addressed_iff (options : Options) (location : Location) (directory : Directory)
    (happenings : List Happening) {name : Text} {t : Table Value} {row : Row Value} {c : Column}
    (found : ((opened options location directory).run happenings).db.catalog.get? name = some t)
    (hrow : row ∈ t.rows) (hc : c ∈ t.columns) (hs : c.type = .string) :
    ∃ v, row.get? c.name = some (.text v) ∧ c.literal? (inQuotes v) = .ok (.text v) ∧
      (Condition.Uncut v →
        (Condition.holdsFor (Condition.equating c.name v) row = true ↔ '"' ∉ v)) ∧
      ('"' ∈ v → ∀ clause term, Condition.Term.ofText? clause = some term →
        term.column = c.name → term.holds row = false) := by
  have hwell := (reachable_sound options location directory happenings).of_get? found
  have hfits := hwell.rows row hrow
  have hnames : row.names.Nodup := Row.fits_names hfits ▸ hwell.distinct
  obtain ⟨value, hm, hadmits⟩ := Row.exists_cell_of_fits hfits hc
  have hget := Record.get?_of_mem hnames hm
  have hliteral := literal?_literal hadmits
  cases value with
  | int i =>
    rw [hs] at hadmits
    exact hadmits.elim
  | text v =>
    refine ⟨v, hget, hliteral, ?_, ?_⟩
    · intro huncut
      exact Condition.holdsFor_equating_iff (hwell.columnNames c hc) huncut hget
    · intro hquote clause term hterm hcolumn
      exact Condition.holds_of_quote hterm (hcolumn ▸ hget) hquote

theorem reachable_addressed_iff_blanks :
    let s := (opened ⟨false⟩ ⟨"data".toList, "/data".toList⟩ Directory.empty).run
      [.request (.line "CREATE_TABLE t (a INT, c STRING)".toList),
        .request (.line "INSERT INTO t VALUES (7, \" x AND\")".toList)]
    let row : Row Value := [("a".toList, .int 7), ("c".toList, .text " x AND".toList)]
    ∃ t, s.db.catalog.get? "t".toList = some t ∧ row ∈ t.rows ∧
      Condition.holdsFor "c=\" x AND\"".toList row = true := by
  intro s row
  have hfound : s.db.catalog.get? "t".toList = some ⟨"t".toList,
      [⟨"a".toList, .int⟩, ⟨"c".toList, .string⟩], [row]⟩ := by
    decide +kernel
  refine ⟨_, hfound, List.mem_singleton_self row, ?_⟩
  obtain ⟨v, hv, -, haddressed, -⟩ := reachable_addressed_iff _ _ _ _ (c := ⟨"c".toList, .string⟩)
    hfound (List.mem_singleton_self row) (by decide) rfl
  have hcell : row.get? "c".toList = some (.text " x AND".toList) := rfl
  obtain rfl : " x AND".toList = v := Value.text.inj (Option.some.inj (hcell.symm.trans hv))
  exact (haddressed ⟨by decide, by decide, by decide⟩).2 (by decide)

/-- The text between the outer quotes of a literal is stored with the quotes inside it, and then not
found. -/
theorem quoted_quote_not_addressed :
    let s := (opened ⟨false⟩ ⟨"data".toList, "/data".toList⟩ Directory.empty).run
      [.request (.line "CREATE_TABLE t (c STRING)".toList),
        .request (.line "INSERT INTO t VALUES (\"a\"b\")".toList)]
    let v := "a\"b".toList
    ∃ t row, s.db.catalog.get? "t".toList = some t ∧ row ∈ t.rows ∧
      row.get? "c".toList = some (.text v) ∧ Condition.Uncut v ∧
      Condition.holdsFor (Condition.equating "c".toList v) row = false := by
  intro s v
  have hfound : s.db.catalog.get? "t".toList = some ⟨"t".toList, [⟨"c".toList, .string⟩],
      [[("c".toList, .text v)]]⟩ := by
    decide +kernel
  exact ⟨_, _, hfound, List.mem_singleton_self _, rfl, ⟨by decide, by decide, by decide⟩,
    by decide +kernel⟩

end Session
end LineTables
