import LineTables.Proofs.Database.Actions

/-!
# The rows that a condition is about

A selection, an update and a deletion with one condition are about the same rows, those that satisfy it.
The selection prints them in the order of the table, the update rewrites them where they stand, judged by
the values that they had, and the deletion leaves the others in their order. The answers tell how many they
are, or that there are none.
-/

set_option autoImplicit false

namespace LineTables
open Checks

namespace Action

variable {t : Table Value} {assignments : List (Text × Text)} {updates : List (Text × Value)}

/-- The value is that of the last assignment to the column. -/
def LastAssigned (t : Table Value) (assignments : List (Text × Text)) (name : Text) (value : Value) :
    Prop :=
  ∃ before token after column, assignments = before ++ (name, token) :: after ∧
    name ∉ after.map (·.1) ∧ t.column? name = some column ∧ column.literal? token = .ok value

theorem updatesOf_names (h : updatesOf t assignments = .ok updates) :
    updates.map (·.1) = assignments.map (·.1) := by
  rw [updatesOf_eq_mapM] at h
  induction assignments generalizing updates with
  | nil =>
    cases h
    rfl
  | cons assignment assignments ih =>
    obtain ⟨update, rest, hupdate, hrest, rfl⟩ := mapM_cons_ok_iff.1 h
    rw [List.map_cons, List.map_cons, ih hrest, (updateOf_ok_iff.1 hupdate).1]

theorem LastAssigned.written {name : Text} {value : Value}
    (h : LastAssigned t assignments name value) (hu : updatesOf t assignments = .ok updates) :
    ∃ before after, updates = before ++ (name, value) :: after ∧ name ∉ after.map (·.1) := by
  obtain ⟨before, token, after, column, rfl, hlast, hcolumn, hvalue⟩ := h
  rw [updatesOf_eq_mapM, mapM_append_ok_iff] at hu
  obtain ⟨first, rest, -, hrest, rfl⟩ := hu
  obtain ⟨update, later, hupdate, hlater, rfl⟩ := mapM_cons_ok_iff.1 hrest
  have hwritten : updateOf t (name, token) = .ok (name, value) :=
    updateOf_ok_iff.2 ⟨rfl, column, hcolumn, hvalue⟩
  cases hupdate.symm.trans hwritten
  rw [← updatesOf_eq_mapM] at hlater
  refine ⟨first, later, rfl, ?_⟩
  rw [updatesOf_names hlater]
  exact hlast

end Action

namespace Row

end Row

namespace Database

variable (options : Options) {db : Database} {name : Text} {t : Table Value}

theorem update_matching (hname : t.name = name) (found : db.catalog.get? name = some t)
    {assignments : List (Text × Text)} {updates : List (Text × Value)}
    (h : Action.updatesOf t assignments = .ok updates) (w : Text) :
    (db.execute options (.onTable name (.update assignments w))).seen =
      (.ok (if t.rows.countP (Condition.holdsFor w) = 0 then .noneUpdated
          else .updated (t.rows.countP (Condition.holdsFor w))),
        if t.rows.countP (Condition.holdsFor w) = 0 then db else db.withTable { t with
          rows := t.rows.map fun row =>
            if Condition.holdsFor w row then row.putAll updates else row }) := by
  have hcheck : Action.check t (.update assignments w) =
      .ok (.change (.assign updates (Condition.ofText w))) := by
    rw [Action.check, h]
  exact execute_change options hname found hcheck

end Database

namespace Session

end Session
end LineTables
