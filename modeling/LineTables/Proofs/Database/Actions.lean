import LineTables.Proofs.Database.Answers

/-!
# What an action makes of its table

The check of an action goes through its literals or assignments from the left and is refused at the
first one that fails. What passes is a change of the rows of one of three kinds. A line with an action
on a table that is there is then refused, or prints, or is answered with the number of rows that its
change touches, and the table with the changed rows is put into its place unless there are none.
-/

set_option autoImplicit false

namespace LineTables
open Checks

namespace Column

def Reads (column : Column) (token : Text) : Prop := ∃ value, column.literal? token = .ok value

end Column

namespace Action

def cellOf (cell : Column × Text) : Except LiteralError (Text × Value) :=
  (cell.1.literal? cell.2).map (cell.1.name, ·)

def updateOf (t : Table Value) (assignment : Text × Text) : Except Refusal (Text × Value) :=
  match t.column? assignment.1 with
  | none => .error (.noSuchColumn assignment.1)
  | some column => ((column.literal? assignment.2).mapError .literal).map (assignment.1, ·)

theorem rowOf_eq_mapM (columns : List Column) (literals : List Text) :
    rowOf columns literals = (columns.zip literals).mapM cellOf := by
  induction columns generalizing literals with
  | nil => rfl
  | cons column columns ih =>
    cases literals with
    | nil => rfl
    | cons literal literals =>
      rw [rowOf, ih, List.zip_cons_cons, List.mapM_cons, cellOf]
      cases column.literal? literal <;> rfl

theorem updatesOf_eq_mapM (t : Table Value) (assignments : List (Text × Text)) :
    updatesOf t assignments = assignments.mapM (updateOf t) := by
  induction assignments with
  | nil => rfl
  | cons assignment assignments ih =>
    rw [updatesOf, ih, List.mapM_cons, updateOf]
    cases t.column? assignment.1 with
    | none => rfl
    | some column =>
      dsimp only
      cases column.literal? assignment.2 <;> rfl

theorem updateOf_ok_iff {t : Table Value} {assignment : Text × Text} {update : Text × Value} :
    updateOf t assignment = .ok update ↔
      update.1 = assignment.1 ∧ ∃ column, t.column? assignment.1 = some column ∧
        column.literal? assignment.2 = .ok update.2 := by
  obtain ⟨name, value⟩ := update
  rw [updateOf]
  cases t.column? assignment.1 with
  | none => simp
  | some column =>
    simp only [map_ok_iff, mapError_ok_iff, Prod.mk.injEq, Option.some.injEq, exists_eq_left']
    constructor
    · rintro ⟨read, hread, rfl, rfl⟩
      exact ⟨rfl, hread⟩
    · rintro ⟨rfl, hread⟩
      exact ⟨value, hread, rfl, rfl⟩

theorem updateOf_reads_iff {t : Table Value} {assignment : Text × Text} :
    (∃ update, updateOf t assignment = .ok update) ↔
      ∃ column, t.column? assignment.1 = some column ∧ column.Reads assignment.2 := by
  constructor
  · rintro ⟨update, h⟩
    obtain ⟨-, column, hcolumn, hvalue⟩ := updateOf_ok_iff.1 h
    exact ⟨column, hcolumn, update.2, hvalue⟩
  · rintro ⟨column, hcolumn, value, hvalue⟩
    exact ⟨(assignment.1, value), updateOf_ok_iff.2 ⟨rfl, column, hcolumn, hvalue⟩⟩

/-- The change that an action asks for, where all its literals are accepted. -/
inductive Makes (t : Table Value) : Action → Change → Prop
  | append {literals : List Text} {row : Row Value}
      (length : literals.length = t.columns.length) (cells : rowOf t.columns literals = .ok row) :
      Makes t (.insert literals) (.append row)
  | assign {assignments : List (Text × Text)} {updates : List (Text × Value)} (condition : Text)
      (values : updatesOf t assignments = .ok updates) :
      Makes t (.update assignments condition) (.assign updates (Condition.ofText condition))
  | remove (condition : Text) : Makes t (.delete condition) (.remove (Condition.ofText condition))

theorem makes_of_check {t : Table Value} {action : Action} {change : Change}
    (h : action.check t = .ok (.change change)) : Makes t action change := by
  cases action with
  | insert literals =>
    rw [check] at h
    split at h
    · cases h
    · rename_i hlength
      split at h
      · rename_i row hrow
        cases h
        exact .append (not_not.1 hlength) hrow
      · cases h
  | select columns condition =>
    rw [check] at h
    split at h <;> cases h
  | update assignments condition =>
    rw [check] at h
    split at h
    · rename_i updates hupdates
      cases h
      exact .assign condition hupdates
    · cases h
  | delete condition =>
    cases h
    exact .remove condition

theorem check_withRows (t : Table Value) (rows : List (Row Value)) (action : Action) :
    action.check { t with rows } = action.check t := by
  cases action with
  | insert literals => rfl
  | select columns condition => rfl
  | update assignments condition =>
    have hupdates : updatesOf { t with rows } assignments = updatesOf t assignments := by
      rw [updatesOf_eq_mapM, updatesOf_eq_mapM]
      rfl
    rw [check, hupdates, check]
  | delete condition => rfl

end Action

namespace Change

def added : Change → Nat
  | append _ => 1
  | assign _ _ | remove _ => 0

def dropped (rows : List (Row Value)) : Change → Nat
  | append _ | assign _ _ => 0
  | remove condition => rows.countP condition.holds

theorem length_applied (rows : List (Row Value)) (change : Change) :
    (change.applied rows).length + change.dropped rows = rows.length + change.added := by
  cases change with
  | append row => exact List.length_append
  | assign updates condition => exact List.length_map _
  | remove condition =>
    simpa [applied, dropped, added, List.countP_eq_length_filter, Nat.add_comm] using
      (List.length_eq_countP_add_countP condition.holds (l := rows)).symm

end Change

namespace Database

variable (options : Options) {db : Database} {line name : Text} {action : Action} {t : Table Value}

theorem execute_change (hname : t.name = name) (found : db.catalog.get? name = some t)
    {change : Change} (checked : action.check t = .ok (.change change)) :
    (db.execute options (.onTable name action)).seen =
      (.ok (change.reply (change.touched t.rows)), if change.touched t.rows = 0 then db
        else db.withTable { t with rows := change.applied t.rows }) := by
  have hseen := execute_of_change options hname found checked
  split_ifs at hseen ⊢ with htouched
  · rw [hseen, htouched]
  · exact hseen

theorem process_of_missing (hparse : Statement.parse line = .ok (.onTable name action))
    (missing : db.catalog.get? name = none) :
    (db.process options line).seen = ("TABLE_NOT_FOUND".toList, db) := by
  rw [process_of_parse hparse, execute, hold_of_none missing]
  rfl

theorem process_onTable (hf : db.catalog.Filed)
    (hparse : Statement.parse line = .ok (.onTable name action))
    (found : db.catalog.get? name = some t) :
    (∃ refusal, action.check t = .error refusal ∧
      (db.process options line).seen = (refusal.mark, db)) ∨
    (∃ columns condition, action = .select columns condition ∧
      (db.process options line).after = db) ∨
    ∃ change, action.check t = .ok (.change change) ∧
      (db.process options line).seen = ((change.reply (change.touched t.rows)).text,
        if change.touched t.rows = 0 then db
        else db.withTable { t with rows := change.applied t.rows }) := by
  cases hcheck : action.check t with
  | error refusal => exact Or.inl ⟨refusal, rfl, process_of_refused options hparse found hcheck⟩
  | ok task =>
    cases task with
    | print names printed =>
      obtain ⟨columns, condition, haction, -⟩ := Action.check_print hcheck
      have hseen := process_of_print options hparse found hcheck
      exact Or.inr (Or.inl ⟨columns, condition, haction, congrArg Prod.snd hseen⟩)
    | change change =>
      have hseen := execute_change options (hf.name_of_get? found) found hcheck
      exact Or.inr (Or.inr ⟨change, rfl, process_of_execute options hparse hseen⟩)

theorem get?_changed (hname : t.name = name) (found : db.catalog.get? name = some t)
    (change : Change) :
    (if change.touched t.rows = 0 then db
      else db.withTable { t with rows := change.applied t.rows }).catalog.get? name =
        some { t with rows := change.applied t.rows } := by
  split
  · rename_i htouched
    rw [Change.applied_eq_of_touched_eq_zero htouched, found]
  · rw [withTable_catalog, ← hname]
    exact Catalog.get?_update_self db.catalog { t with rows := change.applied t.rows }

end Database
end LineTables
