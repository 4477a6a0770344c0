import LineTables.Proofs.Database.Alike
import LineTables.Proofs.Database.Answers
import LineTables.Proofs.Database.Unchanged

/-!
# Statements about one table

A statement that enters a table, or reads or changes its rows, is settled by what stands under the one
name that it is about, and by nothing else. It leaves the database as it was, or puts one table under
this name, in memory and in its file.
-/

set_option autoImplicit false

namespace LineTables

namespace Statement

def table? : Statement → Option Text
  | createTable name _ _ => some name
  | onTable name _ => some name
  | showTables | stop | purgeAndStop => none

end Statement

/-- The outcome says that the database was changed. -/
def Outcome.Changes (outcome : Outcome) : Prop :=
  ∃ reply : Reply, outcome = .ok reply ∧ reply.TellsChange

namespace Change

theorem reply_not_tellsChange {rows : List (Row Value)} {change : Change}
    (h : change.touched rows = 0) : ¬ (change.reply 0).TellsChange := by
  cases change with
  | append row => simp [touched] at h
  | assign updates condition => exact id
  | remove condition => exact id

end Change

theorem Table.print_not_changes (t : Table Value) (columns : List Text)
    (condition : Option Condition) : ¬ Outcome.Changes (t.print columns condition) := by
  rintro ⟨reply, hreply, htells⟩
  rw [print_eq] at hreply
  split at hreply
  · cases hreply
    exact htells
  · cases hrows : printedRows columns (t.matching condition) with
    | error refusal =>
      rw [hrows] at hreply
      cases hreply
    | ok lines =>
      rw [hrows] at hreply
      cases hreply
      exact htells

namespace Database

def settled (db : Database) : Option (Table Value) → Database
  | some t => db.withTable t
  | none => db

/-- Wherever this is found under the name, the statement has the outcome and puts the table, or none,
into its place. -/
structure Settles (options : Options) (s : Statement) (name : Text) (found : Option (Table Value))
    (outcome : Outcome) (entered : Option (Table Value)) : Prop where
  step : ∀ db : Database, db.catalog.get? name = found →
    (db.execute options s).seen = (outcome, db.settled entered)
  own : ∀ t, entered = some t → t.name = name
  changes : entered.isSome = true ↔ Outcome.Changes outcome

variable {options : Options} {s : Statement} {name : Text} {found : Option (Table Value)}

theorem settles_of_kept {outcome : Outcome} (h : ∀ db : Database, db.catalog.get? name = found →
      (db.execute options s).seen = (outcome, db)) (hkept : ¬ Outcome.Changes outcome) :
    Settles options s name found outcome none where
  step := h
  own := by
    intro t ht
    cases ht
  changes := by simpa using hkept

theorem settles_of_refusal {refusal : Refusal}
    (h : ∀ db : Database, db.catalog.get? name = found →
      (db.execute options s).seen = (.error refusal, db)) :
    Settles options s name found (.error refusal) none :=
  settles_of_kept h (by simp [Outcome.Changes])

theorem createTable_found (options : Options) {db : Database} {t : Table Value}
    (h : db.catalog.get? name = some t) (columns : List Column) (rejected : List Text) :
    (db.createTable options name columns rejected).seen =
      (.error (.catalog (.tableExists name)), db) := by
  have hcontains : db.catalog.contains name = true := by
    show (db.catalog.get? name).isSome = true
    rw [h]
    rfl
  rw [createTable, hcontains]
  rfl

theorem createTable_of_none (options : Options) {db : Database} (h : db.catalog.get? name = none)
    (columns : List Column) (rejected : List Text) :
    (db.createTable options name columns rejected).seen =
      if options.strict && !rejected.isEmpty then (.error (.rejectedColumns rejected), db)
      else if columns.isEmpty then (.error (.noValidColumn name), db)
      else if hasRepetition (columns.map (·.name)) then
        (.error (.repeatedColumn (columns.map (·.name))), db)
      else (.ok .success, db.withTable ⟨name, columns, []⟩) := by
  have hcontains : db.catalog.contains name = false := by
    show (db.catalog.get? name).isSome = false
    rw [h]
    rfl
  rw [createTable, hcontains]
  dsimp only
  rw [if_neg Bool.false_ne_true]
  split_ifs <;> rfl

theorem createTable_fresh (options : Options) (name : Text) (columns : List Column)
    (rejected : List Text) :
    (∃ refusal : Refusal, refusal.mark = "INVALID_COMMAND".toList ∧
      ∀ db : Database, db.catalog.get? name = none →
        (db.createTable options name columns rejected).seen = (.error refusal, db)) ∨
    ∀ db : Database, db.catalog.get? name = none →
      (db.createTable options name columns rejected).seen =
        (.ok .success, db.withTable ⟨name, columns, []⟩) := by
  by_cases hstrict : (options.strict && !rejected.isEmpty) = true
  · left
    refine ⟨.rejectedColumns rejected, rfl, fun db h => ?_⟩
    rw [createTable_of_none options h, if_pos hstrict]
  · by_cases hempty : columns.isEmpty = true
    · left
      refine ⟨.noValidColumn name, rfl, fun db h => ?_⟩
      rw [createTable_of_none options h, if_neg hstrict, if_pos hempty]
    · by_cases hrepeated : hasRepetition (columns.map (·.name)) = true
      · left
        refine ⟨.repeatedColumn (columns.map (·.name)), rfl, fun db h => ?_⟩
        rw [createTable_of_none options h, if_neg hstrict, if_neg hempty, if_pos hrepeated]
      · right
        intro db h
        rw [createTable_of_none options h, if_neg hstrict, if_neg hempty, if_neg hrepeated]

theorem createTable_settles (options : Options) (name : Text) (columns : List Column)
    (rejected : List Text) (found : Option (Table Value)) :
    ∃ outcome entered,
      Settles options (.createTable name columns rejected) name found outcome entered := by
  cases found with
  | some t =>
    exact ⟨_, none, settles_of_refusal fun db h => createTable_found options h columns rejected⟩
  | none =>
    rcases createTable_fresh options name columns rejected with ⟨refusal, -, hrefused⟩ | hentered
    · exact ⟨_, none, settles_of_refusal hrefused⟩
    · refine ⟨.ok .success, some ⟨name, columns, []⟩, hentered, ?_, ?_⟩
      · rintro t ⟨⟩
        rfl
      · exact ⟨fun _ => ⟨.success, rfl, trivial⟩, fun _ => rfl⟩

theorem action_settles (options : Options) {t : Table Value} (hname : t.name = name)
    (action : Action) :
    ∃ outcome entered,
      Settles options (.onTable name action) name (some t) outcome entered := by
  cases hcheck : action.check t with
  | error refusal =>
    exact ⟨_, none, settles_of_refusal fun db h => execute_of_refused options h hcheck⟩
  | ok task =>
    cases task with
    | print columns condition =>
      have hkept := t.print_not_changes columns condition
      exact ⟨_, none, settles_of_kept (fun db h => execute_of_print options h hcheck) hkept⟩
    | change change =>
      have hseen := fun (db : Database) (h : db.catalog.get? name = some t) =>
        execute_of_change options hname h hcheck
      by_cases htouched : change.touched t.rows = 0
      · have hkept : ¬ Outcome.Changes (.ok (change.reply 0)) := by
          rintro ⟨reply, hreply, htells⟩
          cases hreply
          exact change.reply_not_tellsChange htouched htells
        simp only [if_pos htouched] at hseen
        exact ⟨_, none, settles_of_kept hseen hkept⟩
      · simp only [if_neg htouched] at hseen
        refine ⟨_, some { t with rows := change.applied t.rows }, hseen, ?_, ?_⟩
        · rintro u ⟨⟩
          exact hname
        · exact ⟨fun _ => ⟨_, rfl, change.reply_tellsChange htouched⟩, fun _ => rfl⟩

theorem execute_settles (options : Options) (h : s.table? = some name)
    (found : Option (Table Value)) (hname : ∀ t, found = some t → t.name = name) :
    ∃ outcome entered, Settles options s name found outcome entered := by
  cases s with
  | createTable other columns rejected =>
    cases h
    exact createTable_settles options name columns rejected found
  | onTable other action =>
    cases h
    cases found with
    | some t => exact action_settles options (hname t rfl) action
    | none =>
      refine ⟨.error (.catalog (.tableNotFound name)), none, settles_of_refusal fun db h => ?_⟩
      rw [execute, hold_of_none h]
      rfl
  | _ => cases h

theorem withTable_location (db : Database) (t : Table Value) :
    (db.withTable t).location = db.location := by
  rw [withTable, store, persist_eq]

theorem get?_withTable (db : Database) {t : Table Value} (ht : t.WellFormed) (path : Text) :
    (db.withTable t).directory.get? path =
      if path = Storage.fileName t.name ∧ Storage.CanWrite db.location db.directory t.name then
        some (.file (Storage.encoded t.document))
      else db.directory.get? path :=
  get?_persist { db with catalog := db.catalog.update t } ht path

theorem canWrite_withTable (db : Database) {t : Table Value} (ht : t.WellFormed) (name : Text) :
    Storage.CanWrite (db.withTable t).location (db.withTable t).directory name ↔
      Storage.CanWrite db.location db.directory name :=
  canWrite_persist { db with catalog := db.catalog.update t } ht name

theorem get?_settled_of_ne (db : Database) {entered : Option (Table Value)} {other : Text}
    (h : ∀ t, entered = some t → t.name ≠ other) :
    (db.settled entered).catalog.get? other = db.catalog.get? other := by
  cases entered with
  | none => rfl
  | some t =>
    rw [settled, withTable_catalog]
    exact Catalog.get?_update_of_ne _ (h t rfl).symm

theorem Settles.wellFormed {outcome : Outcome} {entered : Option (Table Value)}
    (h : Settles options s name found outcome entered) {db : Database} (hs : db.catalog.Sound)
    (hl : s.Legible) (hfound : db.catalog.get? name = found) {t : Table Value}
    (ht : entered = some t) : t.WellFormed := by
  have hafter : (db.execute options s).after = db.withTable t := by
    rw [ht] at h
    exact congrArg Prod.snd (h.step db hfound)
  have hsound : (db.withTable t).catalog.Sound :=
    hafter ▸ (execute_effect options hs.filed s).sound hl hs
  rw [withTable_catalog] at hsound
  exact hsound.of_get? (Catalog.get?_update_self _ t)

end Database
end LineTables
