import LineTables.Condition
import LineTables.Outcome

/-!
# Reading and changing the rows of a table

An action is first checked against the columns of its table, which gives either a refusal or a task
that cannot fail any more: to print rows, or to change them. A change touches a number of rows; one
that touches none leaves the rows as they are.
-/

set_option autoImplicit false

namespace LineTables

inductive Change where
  | append (row : Row Value)
  | assign (updates : List (Text × Value)) (condition : Condition)
  | remove (condition : Condition)

namespace Change

def touched (rows : List (Row Value)) : Change → Nat
  | append _ => 1
  | assign _ condition => rows.countP condition.holds
  | remove condition => rows.countP condition.holds

/-- The rows after the change. An update writes its values into the rows that satisfy the condition,
the last value of a column last. -/
def applied (rows : List (Row Value)) : Change → List (Row Value)
  | append row => rows ++ [row]
  | assign updates condition =>
    rows.map (fun row => if condition.holds row then row.putAll updates else row)
  | remove condition => rows.filter (fun row => !condition.holds row)

def reply (count : Nat) : Change → Reply
  | append _ => .success
  | assign _ _ => if count = 0 then .noneUpdated else .updated count
  | remove _ => if count = 0 then .noneDeleted else .deleted count

theorem applied_eq_of_touched_eq_zero {rows : List (Row Value)} {change : Change}
    (h : change.touched rows = 0) : change.applied rows = rows := by
  cases change with
  | append row => simp [touched] at h
  | assign updates condition =>
    rw [touched, List.countP_eq_zero] at h
    exact (List.map_congr_left fun row hr => by rw [if_neg (h row hr)]).trans (List.map_id' rows)
  | remove condition =>
    rw [touched, List.countP_eq_zero] at h
    exact List.filter_eq_self.2 fun row hr => by simpa using h row hr

end Change

inductive Task where
  | print (columns : List Text) (condition : Option Condition)
  | change (change : Change)

namespace Action

def rowOf : List Column → List Text → Except LiteralError (Row Value)
  | column :: columns, literal :: literals => do
    let value ← column.literal? literal
    let row ← rowOf columns literals
    return (column.name, value) :: row
  | _, _ => .ok []

def updatesOf (t : Table Value) : List (Text × Text) → Except Refusal (List (Text × Value))
  | [] => .ok []
  | (name, literal) :: assignments => do
    let some column := t.column? name | throw (.noSuchColumn name)
    let value ← (column.literal? literal).mapError .literal
    let updates ← updatesOf t assignments
    return (name, value) :: updates

def columnsOf (t : Table Value) : Option (List Text) → Except Refusal (List Text)
  | none => .ok t.columnNames
  | some names =>
    match names.find? (fun name => (t.column? name).isNone) with
    | some name => .error (.noSuchColumn name)
    | none => .ok names

def check (t : Table Value) : Action → Except Refusal Task
  | insert literals =>
    if literals.length ≠ t.columns.length then
      .error (.wrongCount literals.length t.columns.length)
    else
      match rowOf t.columns literals with
      | .ok row => .ok (.change (.append row))
      | .error cause => .error (.literal cause)
  | select columns condition =>
    match columnsOf t columns with
    | .ok names => .ok (.print names (condition.map Condition.ofText))
    | .error refusal => .error refusal
  | update assignments condition =>
    match updatesOf t assignments with
    | .ok updates => .ok (.change (.assign updates (Condition.ofText condition)))
    | .error refusal => .error refusal
  | delete condition => .ok (.change (.remove (Condition.ofText condition)))

end Action

namespace Row

def printedCells (row : Row Value) : List Text → Except Refusal (List Text)
  | [] => .ok []
  | name :: names =>
    match row.get? name with
    | none => .error (.missingCell name)
    | some value => do
      let cells ← printedCells row names
      return (name ++ ": ".toList ++ value.shown) :: cells

end Row

namespace Table

def printedRows (columns : List Text) : List (Row Value) → Except Refusal (List Text)
  | [] => .ok []
  | row :: rows => do
    let cells ← Row.printedCells row columns
    let lines ← printedRows columns rows
    return Text.joined ", ".toList cells :: lines

def print (t : Table Value) (columns : List Text) (condition : Option Condition) : Outcome :=
  let rows := match condition with
    | some condition => t.rows.filter condition.holds
    | none => t.rows
  if rows.isEmpty then .ok .noRows else (printedRows columns rows).map .rows

end Table
end LineTables
