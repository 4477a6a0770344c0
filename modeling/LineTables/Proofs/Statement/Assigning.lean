import LineTables.Proofs.Statement.Plain
import LineTables.Proofs.Table.Literal

/-!
# A text between quotes in an update

The line that gives a text to a column is cut without regard to the quotes around the text. Where the text
holds nothing at which a line is cut, the assignment is read back as it was written. Otherwise either the
line is not read at all, or the first cut falls inside the quotes: what is then given to the column begins
with a quote that is never closed, and that denotes no text.
-/

set_option autoImplicit false

namespace LineTables
open Text Checks

namespace Statement

def assigning (table column text condition : Text) : Text :=
  "UPDATE ".toList ++ table ++ " SET ".toList ++ column ++ "=\"".toList ++ text ++
    "\" WHERE ".toList ++ condition

/-- The text holds nothing at which the line of an update is cut. -/
structure Uncut (text : Text) : Prop where
  noComma : ',' ∉ text
  noEquals : '=' ∉ text
  noWord : ¬ HasWord Keyword.whereText text

variable {table column text condition : Text}

theorem assigning_eq (table column text condition : Text) :
    assigning table column text condition = "UPDATE ".toList ++ table ++ " SET ".toList ++
      Action.writtenAssignment (column, inQuotes text) ++ Action.writtenCondition condition := by
  have hopening : "=\"".toList = ['=', '"'] := by decide
  have hclosing : "\" WHERE ".toList = '"' :: " WHERE ".toList := by decide
  unfold assigning Action.writtenAssignment Action.writtenCondition inQuotes
  rw [hopening, hclosing]
  simp only [List.append_assoc, List.cons_append, List.nil_append]

theorem legibleSide_inQuotes (h : Uncut text) : Action.LegibleSide (inQuotes text) where
  trimmed := (solid_inQuotes text).trim_eq
  noComma := mt (mem_inQuotes_iff (by decide)).1 h.noComma
  noEquals := mt (mem_inQuotes_iff (by decide)).1 h.noEquals
  lacks := (lacks_inQuotes_iff isWord_where text).2
    ((lacks_iff_not_hasWord isWord_where text).2 h.noWord)

theorem parse_assigning (htable : isValidName table = true) (hset : table ≠ Keyword.setText)
    (hcolumn : isValidName column = true) (hwhere : column ≠ Keyword.whereText)
    (hw : Action.PlainCondition condition) (h : Uncut text) :
    parse (assigning table column text condition) =
      .ok (.onTable table (.update [(column, inQuotes text)] condition)) := by
  have hword := isWord_of_isValidName htable
  have hlegible : Legible (.onTable table (.update [(column, inQuotes text)] condition)) := by
    refine ⟨solid_of_isWord hword, lacks_of_isWord hword hset, by simp, ?_, Action.solid_of_plain hw⟩
    intro a ha
    rw [List.mem_singleton.1 ha]
    exact ⟨Action.legibleSide_of_name hcolumn hwhere, legibleSide_inQuotes h⟩
  rw [assigning_eq]
  exact parse_written hlegible

def unclosed (column start : Text) : Text := ' ' :: (column ++ '=' :: '"' :: start)

theorem unclosed_append (column start rest : Text) :
    unclosed column (start ++ rest) = unclosed column start ++ rest := by
  simp [unclosed]

theorem comma_mem_unclosed_iff (hcolumn : isValidName column = true) {start : Text} :
    ',' ∈ unclosed column start ↔ ',' ∈ start := by
  simp [unclosed, (isWord_of_isValidName hcolumn).not_mem (punctuation ',' (by simp))]

theorem count_unclosed (hcolumn : isValidName column = true) (start : Text) :
    (unclosed column start).count '=' = start.count '=' + 1 := by
  have hnone := (isWord_of_isValidName hcolumn).not_mem (punctuation '=' (by simp))
  simp [unclosed, List.count_eq_zero.2 hnone]

theorem parseAssignment_unclosed (hcolumn : isValidName column = true) {start : Text}
    (hstart : '"' ∉ start) {assignment : Text × Text}
    (h : parseAssignment (unclosed column start) = .ok assignment) :
    assignment.1 = column ∧ unquoted? assignment.2 = none := by
  have hword := isWord_of_isValidName hcolumn
  have hequals : '=' ∉ ' ' :: column := by simp [hword.not_mem (punctuation '=' (by simp))]
  have hcut : cutAt '=' (unclosed column start) = (' ' :: column) :: cutAt '=' ('"' :: start) :=
    cutWhere_append_cons (t := ' ' :: column) (not_separates hequals) (beq_self_eq_true '=') _
  have hjoined := joined_cutAt '=' ('"' :: start)
  rw [parseAssignment, hcut] at h
  generalize cutAt '=' ('"' :: start) = pieces at h hjoined
  rcases pieces with _ | ⟨literal, _ | ⟨next, rest⟩⟩
  · cases h
  · obtain rfl : literal = '"' :: start := hjoined
    cases h
    refine ⟨?_, unquoted?_trim_of_not_mem hstart⟩
    rw [trim_cons_blank, (solid_of_isWord hword).trim_eq]
  · cases h

theorem count_of_parseAssignment {clause : Text} {assignment : Text × Text}
    (h : parseAssignment clause = .ok assignment) : clause.count '=' = 1 := by
  rw [parseAssignment] at h
  split at h
  · rename_i first second hcut
    have hlength := length_cutAt '=' clause
    rw [hcut] at hlength
    simpa using hlength.symm
  · cases h

theorem parseAssignment_of_mem {clauses : List Text} {assignments : List (Text × Text)}
    (h : parseAssignments clauses = .ok assignments) {clause : Text} (hm : clause ∈ clauses) :
    ∃ assignment, parseAssignment clause = .ok assignment := by
  have hread := List.mem_map_of_mem (f := parseAssignment) hm
  rw [parseAssignments_ok_iff.1 h] at hread
  obtain ⟨assignment, -, heq⟩ := List.mem_map.1 hread
  exact ⟨assignment, heq.symm⟩

/-- What can stand before the condition that is found in the line: the whole assignment, or its beginning
up to a place inside the quotes. -/
inductive BeforeCondition (column text : Text) : Text → Prop
  | closed (noWord : ¬ HasWord Keyword.whereText text) :
      BeforeCondition column text (unclosed column text ++ ['"', ' '])
  | inside {start : Text} (part : ∀ c ∈ start, c ∈ text) :
      BeforeCondition column text (unclosed column start)

theorem beforeCondition (hcolumn : isValidName column = true)
    (hwhere : column ≠ Keyword.whereText) (hw : Solid condition) {clauses found : Text}
    (h : cutAtCondition (' ' :: (Action.writtenAssignment (column, inQuotes text) ++
      Action.writtenCondition condition)) = .ok (clauses, some found)) :
    BeforeCondition column text clauses := by
  have hlacks : Lacks Keyword.whereText (' ' :: column) :=
    (lacks_cons_blank_iff isWord_where column).2
      (lacks_of_isWord (isWord_of_isValidName hcolumn) hwhere)
  have hequals := punctuation '=' (by simp)
  have hquote := punctuation '"' (by simp)
  cases htext : cutAtWord? Keyword.whereText text with
  | none =>
    have hbefore : Lacks Keyword.whereText (' ' :: column ++ '=' :: inQuotes text) :=
      (lacks_append_cons_iff isWord_where hequals _ _).2
        ⟨hlacks, (lacks_inQuotes_iff isWord_where text).2 htext⟩
    have hclosed : ' ' :: column ++ '=' :: inQuotes text ++ [' '] =
        unclosed column text ++ ['"', ' '] := by
      simp [unclosed, inQuotes]
    cases (cutAtCondition_written hbefore hw).symm.trans h
    rw [hclosed]
    exact .closed ((lacks_iff_not_hasWord isWord_where text).1 htext)
  | some cut =>
    -- The column has no whole word `WHERE`, so the first one of the line is that of the text.
    obtain ⟨start, rest⟩ := cut
    have hline : ' ' :: (Action.writtenAssignment (column, inQuotes text) ++
        Action.writtenCondition condition) = ' ' :: column ++ '=' :: ([] ++ '"' ::
          (text ++ '"' :: Action.writtenCondition condition)) := by
      simp [Action.writtenAssignment, inQuotes]
    obtain ⟨after, hcut⟩ := cutAtCondition_some h
    rw [hline, cutAtWord?_append_cons isWord_where hequals hlacks,
      cutAtWord?_append_cons isWord_where hquote (lacks_nil Keyword.whereText),
      cutAtWord?_append_cons_of_some isWord_where hquote htext] at hcut
    cases hcut
    refine .inside fun c hc => ?_
    rw [eq_of_cutAtWord? htext]
    simp [hc]

theorem first_clause_unclosed (hcolumn : isValidName column = true) (hquote : '"' ∉ text)
    (hcut : ¬ Uncut text) {clauses : Text} (hbefore : BeforeCondition column text clauses)
    {assignments : List (Text × Text)}
    (h : parseAssignments (cutAt ',' clauses) = .ok assignments) :
    ∃ start more, cutAt ',' clauses = unclosed column start :: more ∧ '"' ∉ start := by
  cases hbefore with
  | closed noWord =>
    by_cases hcomma : ',' ∈ text
    · obtain ⟨start, rest, rfl, hstart⟩ := List.eq_append_cons_of_mem hcomma
      refine ⟨start, cutAt ',' (rest ++ ['"', ' ']), ?_, fun hm => hquote (by simp [hm])⟩
      rw [unclosed_append, List.append_assoc, List.cons_append]
      exact cutWhere_append_cons (not_separates (mt (comma_mem_unclosed_iff hcolumn).1 hstart))
        (beq_self_eq_true ',') _
    · -- one clause with two equals signs at least is no assignment
      have hequals : '=' ∈ text :=
        Decidable.byContradiction fun hnone => hcut ⟨hcomma, hnone, noWord⟩
      have hclause : unclosed column text ++ ['"', ' '] ∈
          cutAt ',' (unclosed column text ++ ['"', ' ']) := by
        rw [cutAt, cutWhere_eq_singleton (not_separates _)]
        · exact List.mem_cons_self
        · simp [comma_mem_unclosed_iff hcolumn, hcomma]
      obtain ⟨assignment, hassignment⟩ := parseAssignment_of_mem h hclause
      have hcount := count_of_parseAssignment hassignment
      have hmore := List.count_pos_iff.2 hequals
      rw [List.count_append, count_unclosed hcolumn] at hcount
      omega
  | @inside start part =>
    obtain ⟨first, more, hpieces⟩ := List.exists_cons_of_ne_nil (cutAt_ne_nil ',' start)
    have happ := unclosed_append column [] start
    rw [List.nil_append] at happ
    refine ⟨first, more, ?_, ?_⟩
    · rw [happ, cutAt, cutWhere_append_left (not_separates
        (mt (comma_mem_unclosed_iff hcolumn).1 List.not_mem_nil)) hpieces, ← unclosed_append]
      rfl
    · intro hm
      exact hquote (part _ (not_mem_cutWhere (hpieces ▸ List.mem_cons_self) _ hm).2)

theorem parse_assigning_cut (htable : isValidName table = true) (hset : table ≠ Keyword.setText)
    (hcolumn : isValidName column = true) (hwhere : column ≠ Keyword.whereText)
    (hw : Action.PlainCondition condition) (hquote : '"' ∉ text) (hcut : ¬ Uncut text)
    {s : Statement} (h : parse (assigning table column text condition) = .ok s) :
    ∃ literal later found, s = .onTable table (.update ((column, literal) :: later) found) ∧
      unquoted? literal = none := by
  have hword := isWord_of_isValidName htable
  have hsolid := Action.solid_of_plain hw
  rw [assigning_eq, parse_updating (solid_of_isWord hword) (lacks_of_isWord hword hset) hsolid] at h
  obtain ⟨clauses, found, assignments, hcondition, hassignments, rfl⟩ := h
  obtain ⟨start, more, hpieces, hstart⟩ := first_clause_unclosed hcolumn hquote hcut
    (beforeCondition hcolumn hwhere hsolid hcondition) hassignments
  rw [hpieces] at hassignments
  simp only [parseAssignments, bind_ok_iff, pure_ok_iff] at hassignments
  obtain ⟨⟨name, literal⟩, hfirst, later, -, rfl⟩ := hassignments
  obtain ⟨rfl, hnone⟩ := parseAssignment_unclosed hcolumn hstart hfirst
  exact ⟨literal, later, found, rfl, hnone⟩

end Statement
end LineTables
