import LineTables.Proofs.Statement.Codec

/-!
# Statements made of names, literals and conditions

Valid names make a statement that can be read back from its written form, unless a name is the keyword
that ends the part in which it stands. Conditions may hold any keyword, since nothing is looked for
behind the one that opens them.
-/

set_option autoImplicit false

namespace LineTables
open Text

namespace Text

/-- The word occurs with no word character right before it or right behind it. -/
def HasWord (word t : Text) : Prop :=
  ∃ before rest, t = before ++ word ++ rest ∧ endsInWord false before = false ∧
    beginsInWord rest = false

theorem exists_cutAtWordFrom? {word left right : Text} (hw : IsWord word) {inWord : Bool}
    (hl : endsInWord inWord left = false) (hr : beginsInWord right = false) :
    ∃ before rest, cutAtWordFrom? word inWord (left ++ word ++ right) = some (before, rest) ∧
      before.length ≤ left.length := by
  induction left generalizing inWord with
  | nil =>
    have hout : inWord = false := hl
    rw [List.nil_append, hout]
    exact ⟨[], right, cutAtWordFrom?_word hw hr, Nat.le_refl _⟩
  | cons c left ih =>
    obtain ⟨before, rest, hcut, hle⟩ := ih hl
    rw [List.cons_append, List.cons_append, cutAtWordFrom?, hcut]
    split
    · rename_i here _
      exact ⟨[], here, rfl, Nat.zero_le _⟩
    · exact ⟨c :: before, rest, rfl, Nat.succ_le_succ hle⟩

theorem lacks_iff_not_hasWord {word : Text} (hw : IsWord word) (t : Text) :
    Lacks word t ↔ ¬ HasWord word t := by
  constructor
  · rintro hlacks ⟨before, rest, rfl, hb, hr⟩
    obtain ⟨_, _, hcut, -⟩ := exists_cutAtWordFrom? hw hb hr
    exact Option.some_ne_none _ (hcut.symm.trans hlacks)
  · intro h
    rw [Lacks, Option.eq_none_iff_forall_ne_some]
    rintro ⟨before, rest⟩ hcut
    have hends := cutAtWordFrom?_before hw hcut
    exact h ⟨before, rest, eq_of_cutAtWord? hcut, hends.2.1, hends.2.2⟩

end Text

namespace Action

def PlainCondition (w : Text) : Prop := w.trim = w ∧ w ≠ []

structure PlainAssignment (a : Text × Text) : Prop where
  column : isValidName a.1 = true
  notWhere : a.1 ≠ Keyword.whereText
  trimmed : a.2.trim = a.2
  noComma : ',' ∉ a.2
  noEquals : '=' ∉ a.2
  noWord : ¬ HasWord Keyword.whereText a.2

def PlainOn (table : Text) : Action → Prop
  | .insert literals => table ≠ Keyword.valuesText ∧ literals ≠ [] ∧
      ∀ literal ∈ literals, literal.trim = literal ∧ ',' ∉ literal
  | .select columns condition => table ≠ Keyword.whereText ∧
      (∀ names, columns = some names →
        names ≠ [] ∧ ∀ n ∈ names, isValidName n = true ∧ n ≠ Keyword.fromText) ∧
      ∀ w, condition = some w → PlainCondition w
  | .update assignments condition => table ≠ Keyword.setText ∧ assignments ≠ [] ∧
      (∀ a ∈ assignments, PlainAssignment a) ∧ PlainCondition condition
  | .delete condition => table ≠ Keyword.whereText ∧ PlainCondition condition

theorem solid_of_plain {w : Text} (h : PlainCondition w) : Solid w :=
  solid_of_trim_eq h.1 h.2

theorem legibleSide_of_name {name : Text} (h : isValidName name = true)
    (hne : name ≠ Keyword.whereText) : LegibleSide name := by
  have hword := isWord_of_isValidName h
  exact {
    trimmed := (solid_of_isWord hword).trim_eq
    noComma := hword.not_mem (punctuation ',' (by simp))
    noEquals := hword.not_mem (punctuation '=' (by simp))
    lacks := lacks_of_isWord hword hne }

theorem legibleSide_of_plain {a : Text × Text} (h : PlainAssignment a) : LegibleSide a.2 where
  trimmed := h.trimmed
  noComma := h.noComma
  noEquals := h.noEquals
  lacks := (lacks_iff_not_hasWord isWord_where a.2).2 h.noWord

theorem legibleOn_of_plain {table : Text} (ht : IsWord table) {action : Action}
    (h : action.PlainOn table) : action.LegibleOn table := by
  cases action with
  | insert literals => exact ⟨lacks_of_isWord ht h.1, h.2⟩
  | select columns condition =>
    obtain ⟨hne, hcolumns, hw⟩ := h
    refine ⟨lacks_of_isWord ht hne, ?_, fun w hc => solid_of_plain (hw w hc)⟩
    intro names hnames
    obtain ⟨hsome, hall⟩ := hcolumns names hnames
    refine ⟨hsome, ?_⟩
    intro n hn
    obtain ⟨hvalid, hfrom⟩ := hall n hn
    have hword := isWord_of_isValidName hvalid
    exact {
      ne_nil := hword.ne_nil
      ne_star := by
        rintro rfl
        exact hword.not_mem (punctuation '*' (by simp)) List.mem_cons_self
      chars := by
        intro c hc
        cases hs : Column.separates c with
        | false => rfl
        | true => exact absurd hc (hword.not_mem (Column.isWordChar_of_separates hs))
      lacks := lacks_of_isWord hword hfrom }
  | update assignments condition =>
    obtain ⟨hne, hsome, hall, hw⟩ := h
    refine ⟨lacks_of_isWord ht hne, hsome, ?_, solid_of_plain hw⟩
    intro a ha
    exact ⟨legibleSide_of_name (hall a ha).column (hall a ha).notWhere,
      legibleSide_of_plain (hall a ha)⟩
  | delete condition => exact ⟨lacks_of_isWord ht h.1, solid_of_plain h.2⟩

end Action

namespace Statement

/-- The statement is made of valid names and of parts that show where they end. -/
def Plain : Statement → Prop
  | .createTable table columns rejected => isValidName table = true ∧
      (columns ≠ [] ∨ rejected ≠ []) ∧ (∀ c ∈ columns, isValidName c.name = true) ∧
      ∀ clause ∈ rejected, Column.RejectedClause clause
  | .onTable table action => isValidName table = true ∧ action.PlainOn table
  | _ => True

theorem legible_of_plain {s : Statement} (h : s.Plain) : s.Legible := by
  match s with
  | .createTable _ _ _ => exact h
  | .onTable _ _ =>
    have hword := isWord_of_isValidName h.1
    exact ⟨solid_of_isWord hword, Action.legibleOn_of_plain hword h.2⟩
  | .showTables => trivial
  | .stop => trivial
  | .purgeAndStop => trivial

theorem legible_iff_read (s : Statement) : s.Legible ↔ ∃ line, parse line = .ok s := by
  constructor
  · intro h
    exact ⟨s.written, parse_written h⟩
  · rintro ⟨line, h⟩
    exact parse_legible h

/-- Writing what was read and reading it again changes nothing, and every plain statement is read. -/
theorem written_reads_back :
    (∀ (line : Text) (s : Statement), parse line = .ok s → parse s.written = .ok s) ∧
      ∀ s : Statement, s.Plain → parse s.written = .ok s := by
  constructor
  · intro line s h
    exact parse_written ((legible_iff_read s).2 ⟨line, h⟩)
  · intro s h
    exact parse_written (legible_of_plain h)

theorem written_reads_back_keywords :
    let read := Statement.onTable "new tab".toList (.insert ["1".toList, [], "VALUES".toList])
    let plain := Statement.onTable "SET2".toList
      (.update [("SET".toList, "FROM".toList)] "WHERE SET".toList)
    parse " insert INTO new tab  VALUES( 1,,VALUES )".toList = .ok read ∧
      parse read.written = .ok read ∧ plain.Plain ∧ parse plain.written = .ok plain := by
  intro read plain
  have hread : parse " insert INTO new tab  VALUES( 1,,VALUES )".toList = .ok read := rfl
  have hplain : plain.Plain := by
    refine ⟨by decide, by decide, by decide, ?_, by decide, by decide⟩
    intro a ha
    rw [List.mem_singleton.1 ha]
    refine ⟨by decide, by decide, by decide, by decide, by decide, ?_⟩
    rw [← lacks_iff_not_hasWord isWord_where]
    exact lacks_of_isWord (isWord_of_isValidName (by decide)) (by decide)
  exact ⟨hread, written_reads_back.1 _ read hread, hplain, written_reads_back.2 plain hplain⟩

end Statement
end LineTables
