import LineTables.Proofs.Checks
import LineTables.Proofs.Text.Cutting
import LineTables.Proofs.Text.WholeWord
import LineTables.Statement.Parser

/-!
# Legible statements

A statement is legible if its written form can be cut into its parts again: no table name hides the
keyword that ends it, no part holds the character at which its list is cut, and nothing has a blank at
its ends. Every statement that is read from a line is legible, also one with a table name of several
words, with empty literals or with rejected clauses.
-/

set_option autoImplicit false

namespace LineTables
open Checks Text

namespace Column

def separates (c : Char) : Bool := isBlank c || c == ','

theorem isWordChar_of_separates {c : Char} (h : separates c = true) : isWordChar c = false := by
  rw [separates, Bool.or_eq_true] at h
  rcases h with h | h
  · exact isWordChar_of_isBlank h
  · exact isWordChar_of_eq_comma h

structure LegibleName (name : Text) : Prop where
  ne_nil : name ≠ []
  ne_star : name ≠ ['*']
  chars : ∀ c ∈ name, separates c = false
  lacks : Lacks Keyword.fromText name

structure RejectedClause (clause : Text) : Prop where
  trimmed : clause.trim = clause
  noComma : ',' ∉ clause
  noOpening : '(' ∉ clause
  noClosing : ')' ∉ clause
  noColumn : ofClause? clause = none

end Column

namespace Action

structure LegibleSide (side : Text) : Prop where
  trimmed : side.trim = side
  noComma : ',' ∉ side
  noEquals : '=' ∉ side
  lacks : Lacks Keyword.whereText side

def LegibleOn (table : Text) : Action → Prop
  | .insert literals => Lacks Keyword.valuesText table ∧ literals ≠ [] ∧
      ∀ literal ∈ literals, literal.trim = literal ∧ ',' ∉ literal
  | .select columns condition => Lacks Keyword.whereText table ∧
      (∀ names, columns = some names → names ≠ [] ∧ ∀ n ∈ names, Column.LegibleName n) ∧
      ∀ w, condition = some w → Solid w
  | .update assignments condition => Lacks Keyword.setText table ∧ assignments ≠ [] ∧
      (∀ a ∈ assignments, LegibleSide a.1 ∧ LegibleSide a.2) ∧ Solid condition
  | .delete condition => Lacks Keyword.whereText table ∧ Solid condition

end Action

namespace Statement

def Legible : Statement → Prop
  | .createTable table columns rejected => isValidName table = true ∧
      (columns ≠ [] ∨ rejected ≠ []) ∧ (∀ c ∈ columns, isValidName c.name = true) ∧
      ∀ clause ∈ rejected, Column.RejectedClause clause
  | .onTable table action => Solid table ∧ action.LegibleOn table
  | _ => True

end Statement

theorem isWord_values : IsWord Keyword.valuesText := isWord_of_isValidName (by decide)

theorem isWord_from : IsWord Keyword.fromText := isWord_of_isValidName (by decide)

theorem isWord_set : IsWord Keyword.setText := isWord_of_isValidName (by decide)

theorem isWord_where : IsWord Keyword.whereText := isWord_of_isValidName (by decide)

namespace Text

theorem cutAtKeyword_ok_iff {t keyword : Text} {cut : Text × Text} :
    cutAtKeyword t keyword = .ok cut ↔ cutAtWord? keyword t = some cut := by
  rw [cutAtKeyword]
  cases cutAtWord? keyword t <;> simp

theorem tableName_ok {t name : Text} (h : t.tableName = .ok name) : name = t.trim ∧ Solid name := by
  rw [tableName] at h
  split at h
  · cases h
  · rename_i hne
    cases h
    exact ⟨rfl, trim_solid (by simpa using hne)⟩

theorem cutAtCondition_ok {t before : Text} {condition : Option Text}
    (h : cutAtCondition t = .ok (before, condition)) :
    Lacks Keyword.whereText before ∧ ∀ w, condition = some w → Solid w := by
  rw [cutAtCondition] at h
  split at h
  · rename_i hnone
    cases h
    exact ⟨hnone, by simp⟩
  · rename_i b after hcut
    dsimp only at h
    split at h
    · cases h
    · rename_i hne
      cases h
      refine ⟨lacks_before isWord_where hcut, ?_⟩
      intro w hw
      cases hw
      exact trim_solid (by simpa using hne)

theorem cutAtCondition_some {t before w : Text} (h : cutAtCondition t = .ok (before, some w)) :
    ∃ after, cutAtWord? Keyword.whereText t = some (before, after) := by
  rw [cutAtCondition] at h
  split at h
  · cases h
  · rename_i b after hcut
    dsimp only at h
    split at h
    · cases h
    · cases h
      exact ⟨after, hcut⟩

theorem cutAtRequiredCondition_ok_iff {t before condition : Text} :
    cutAtRequiredCondition t = .ok (before, condition) ↔
      cutAtCondition t = .ok (before, some condition) := by
  rw [cutAtRequiredCondition]
  split <;> simp_all

end Text

namespace Column

theorem ofClause?_trim (clause : Text) : ofClause? clause.trim = ofClause? clause := by
  rw [ofClause?, ofClause?, words_trim]

theorem ofClause?_valid {clause : Text} {c : Column} (h : ofClause? clause = some c) :
    isValidName c.name = true := by
  rw [ofClause?] at h
  split at h
  · split at h
    · rename_i hname
      obtain ⟨type, -, rfl⟩ := Option.map_eq_some_iff.1 h
      exact hname
    · cases h
  · cases h

theorem rejectedClause_trim {clause : Text} (hcomma : ',' ∉ clause) (hopening : '(' ∉ clause)
    (hclosing : ')' ∉ clause) (hnone : ofClause? clause = none) : RejectedClause clause.trim where
  trimmed := trim_trim clause
  noComma := fun h => hcomma (mem_of_mem_trim h)
  noOpening := fun h => hopening (mem_of_mem_trim h)
  noClosing := fun h => hclosing (mem_of_mem_trim h)
  noColumn := by rw [ofClause?_trim, hnone]

end Column

namespace Statement

theorem ofClauses_legible {table : Text} {clauses : List Text} (hname : isValidName table = true)
    (hne : clauses ≠ []) (h : ∀ clause ∈ clauses, ',' ∉ clause ∧ '(' ∉ clause ∧ ')' ∉ clause) :
    (ofClauses table clauses).Legible := by
  refine ⟨hname, ?_, ?_, ?_⟩
  · obtain ⟨clause, hmem⟩ := List.exists_mem_of_ne_nil clauses hne
    cases hc : Column.ofClause? clause with
    | some c =>
      left
      exact List.ne_nil_of_mem (List.mem_filterMap.2 ⟨clause, hmem, hc⟩)
    | none =>
      right
      exact List.ne_nil_of_mem (List.mem_map_of_mem (List.mem_filter.2 ⟨hmem, by simp [hc]⟩))
  · intro c hc
    obtain ⟨clause, -, hclause⟩ := List.mem_filterMap.1 hc
    exact Column.ofClause?_valid hclause
  · intro rejected hr
    obtain ⟨clause, hclause, rfl⟩ := List.mem_map.1 hr
    obtain ⟨hmem, hnone⟩ := List.mem_filter.1 hclause
    obtain ⟨hcomma, hopening, hclosing⟩ := h clause hmem
    exact Column.rejectedClause_trim hcomma hopening hclosing (by simpa using hnone)

theorem parseCreateTable_legible {rest : Text} {s : Statement}
    (h : parseCreateTable rest = .ok s) : s.Legible := by
  rw [parseCreateTable] at h
  split at h
  · rename_i name body hcut
    simp only [guard_ok_iff, pure_ok_iff] at h
    obtain ⟨hname, rfl⟩ := h
    apply ofClauses_legible (by simpa using hname) (cutAt_ne_nil _ _)
    intro clause hclause
    have hopening : '(' ∉ body := not_mem_of_mem_cutAt (by rw [hcut]; simp)
    have hmem : ∀ c ∈ clause, c ∈ body ∧ c ≠ ')' := by
      intro c hc
      simpa using (not_mem_cutWhere hclause c hc).2
    exact ⟨not_mem_of_mem_cutAt hclause, fun h => hopening (hmem _ h).1,
      fun h => (hmem _ h).2 rfl⟩
  · cases h

theorem parseLiterals_legible {t : Text} {literals : List Text} (h : parseLiterals t = .ok literals) :
    literals ≠ [] ∧ ∀ literal ∈ literals, literal.trim = literal ∧ ',' ∉ literal := by
  rw [parseLiterals] at h
  split at h
  · rename_i inner _
    split at h
    · cases h
      refine ⟨by simpa using cutAt_ne_nil _ _, ?_⟩
      intro literal hl
      obtain ⟨piece, hp, rfl⟩ := List.mem_map.1 hl
      exact ⟨trim_trim piece, fun hc => not_mem_of_mem_cutAt hp (mem_of_mem_trim hc)⟩
    · cases h
  · cases h

theorem parseInsert_legible {rest : Text} {s : Statement} (h : parseInsert rest = .ok s) :
    s.Legible := by
  rw [parseInsert] at h
  split at h
  · simp only [bind_ok_iff, pure_ok_iff, cutAtKeyword_ok_iff] at h
    obtain ⟨⟨before, values⟩, hcut, literals, hliterals, table, htable, rfl⟩ := h
    obtain ⟨rfl, hsolid⟩ := tableName_ok htable
    obtain ⟨hne, hall⟩ := parseLiterals_legible hliterals
    refine ⟨hsolid, ?_, hne, hall⟩
    rw [lacks_trim_iff isWord_values]
    exact lacks_before isWord_values hcut
  · cases h

theorem parseProjection_legible {t : Text} {columns : Option (List Text)}
    (hlacks : Lacks Keyword.fromText t) (h : parseProjection t = .ok columns) (names : List Text)
    (hn : columns = some names) : names ≠ [] ∧ ∀ n ∈ names, Column.LegibleName n := by
  rw [parseProjection] at h
  split at h
  · cases h
  · rename_i hne
    split at h
    · split at h
      · cases h
        cases hn
      · cases h
    · rename_i hstar
      cases h
      cases hn
      refine ⟨by simpa using hne, ?_⟩
      intro n hmem
      obtain ⟨hcut, hnil⟩ := List.mem_filter.1 hmem
      exact {
        ne_nil := by simpa using hnil
        ne_star := fun he => hstar (by simpa [← he] using hmem)
        chars := fun c hc => (not_mem_cutWhere hcut c hc).1
        lacks := lacks_of_mem_cutWhere isWord_from Column.isWordChar_of_separates hlacks hcut }

theorem parseSelect_legible {rest : Text} {s : Statement} (h : parseSelect rest = .ok s) :
    s.Legible := by
  simp only [parseSelect, bind_ok_iff, pure_ok_iff, cutAtKeyword_ok_iff] at h
  obtain ⟨⟨projection, source⟩, hcut, columns, hcolumns, ⟨before, condition⟩, hcondition, table,
    htable, rfl⟩ := h
  obtain ⟨rfl, hsolid⟩ := tableName_ok htable
  obtain ⟨hlacks, hw⟩ := cutAtCondition_ok hcondition
  refine ⟨hsolid, ?_, parseProjection_legible (lacks_before isWord_from hcut) hcolumns, hw⟩
  rwa [lacks_trim_iff isWord_where]

theorem parseAssignment_legible {clause : Text} {assignment : Text × Text} (hcomma : ',' ∉ clause)
    (hlacks : Lacks Keyword.whereText clause) (h : parseAssignment clause = .ok assignment) :
    Action.LegibleSide assignment.1 ∧ Action.LegibleSide assignment.2 := by
  rw [parseAssignment] at h
  split at h
  · rename_i column literal hcut
    cases h
    have hclause : clause = column ++ '=' :: literal := by
      rw [← joined_cutAt '=' clause, hcut]
      simp [joined]
    have hsides : Lacks Keyword.whereText column ∧ Lacks Keyword.whereText literal := by
      rw [hclause] at hlacks
      exact (lacks_append_cons_iff isWord_where (by decide +kernel) column literal).1 hlacks
    have hside : ∀ side ∈ clause.cutAt '=', Lacks Keyword.whereText side →
        (∀ c ∈ side, c ∈ clause) → Action.LegibleSide side.trim := by
      intro side hs hl hsub
      exact {
        trimmed := trim_trim side
        noComma := fun hc => hcomma (hsub _ (mem_of_mem_trim hc))
        noEquals := fun hc => not_mem_of_mem_cutAt hs (mem_of_mem_trim hc)
        lacks := (lacks_trim_iff isWord_where side).2 hl }
    constructor
    · exact hside column (by simp [hcut]) hsides.1 (by simp +contextual [hclause])
    · exact hside literal (by simp [hcut]) hsides.2 (by simp +contextual [hclause])
  · cases h

theorem parseAssignments_ok_iff {clauses : List Text} {assignments : List (Text × Text)} :
    parseAssignments clauses = .ok assignments ↔
      clauses.map parseAssignment = assignments.map .ok := by
  induction clauses generalizing assignments with
  | nil => cases assignments <;> simp [parseAssignments]
  | cons clause clauses ih =>
    simp only [parseAssignments, bind_ok_iff, pure_ok_iff]
    constructor
    · rintro ⟨a, ha, rest, hr, rfl⟩
      simp [ha, ih.1 hr]
    · intro h
      cases assignments with
      | nil => simp at h
      | cons a rest =>
        simp only [List.map_cons, List.cons.injEq] at h
        exact ⟨a, h.1, rest, ih.2 h.2, rfl⟩

theorem parseUpdate_legible {rest : Text} {s : Statement} (h : parseUpdate rest = .ok s) :
    s.Legible := by
  simp only [parseUpdate, bind_ok_iff, pure_ok_iff, cutAtKeyword_ok_iff] at h
  obtain ⟨⟨before, tail⟩, hcut, ⟨clauses, condition⟩, hcondition, assignments, hassignments, table,
    htable, rfl⟩ := h
  obtain ⟨rfl, hsolid⟩ := tableName_ok htable
  obtain ⟨hlacks, hw⟩ := cutAtCondition_ok (cutAtRequiredCondition_ok_iff.1 hcondition)
  rw [parseAssignments_ok_iff] at hassignments
  refine ⟨hsolid, ?_, ?_, ?_, hw condition rfl⟩
  · rw [lacks_trim_iff isWord_set]
    exact lacks_before isWord_set hcut
  · rintro rfl
    simp [cutAt_ne_nil] at hassignments
  · intro a ha
    have hok : Except.ok a ∈ (clauses.cutAt ',').map parseAssignment := by
      rw [hassignments]
      exact List.mem_map_of_mem ha
    obtain ⟨clause, hclause, hparse⟩ := List.mem_map.1 hok
    refine parseAssignment_legible (not_mem_of_mem_cutAt hclause) ?_ hparse
    exact lacks_of_mem_cutWhere isWord_where isWordChar_of_eq_comma hlacks hclause

theorem parseDelete_legible {rest : Text} {s : Statement} (h : parseDelete rest = .ok s) :
    s.Legible := by
  rw [parseDelete] at h
  split at h
  · simp only [bind_ok_iff, pure_ok_iff] at h
    obtain ⟨⟨before, condition⟩, hcondition, table, htable, rfl⟩ := h
    obtain ⟨rfl, hsolid⟩ := tableName_ok htable
    obtain ⟨hlacks, hw⟩ := cutAtCondition_ok (cutAtRequiredCondition_ok_iff.1 hcondition)
    refine ⟨hsolid, ?_, hw condition rfl⟩
    rwa [lacks_trim_iff isWord_where]
  · cases h

/-- What is read from a line can be written. -/
theorem parse_legible {line : Text} {s : Statement} (h : parse line = .ok s) : s.Legible := by
  rw [parse] at h
  dsimp only at h
  split at h
  · cases h
  · split at h
    · rename_i verb _
      cases verb with
      | createTable => exact parseCreateTable_legible h
      | insert => exact parseInsert_legible h
      | select => exact parseSelect_legible h
      | update => exact parseUpdate_legible h
      | delete => exact parseDelete_legible h
      | showTables =>
        rw [parseRest, parseShow] at h
        split at h <;> cases h
        trivial
      | stop =>
        rw [parseRest, parseBare] at h
        split at h <;> cases h
        trivial
      | purgeAndStop =>
        rw [parseRest, parseBare] at h
        split at h <;> cases h
        trivial
    · cases h

end Statement
end LineTables
