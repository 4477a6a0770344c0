import LineTables.Proofs.Database.Listing

/-!
# Only the memory is told

What a caller learns of a database depends on its memory alone. Two databases with the same catalogue
may have any files at any places: where the writes of one fail and those of the other succeed, both
give the same outcome and the same catalogue after every step, also while a table is held. The files
count once, when the tables are loaded from them.
-/

set_option autoImplicit false

namespace LineTables

/-- What a caller learns of a step: its outcome, and the catalogue after it. -/
def Step.told {α : Type} (step : Step α) : α × Catalog Value := (step.outcome, step.after.catalog)

namespace Database

variable {db other : Database}

theorem refuse_told (h : db.catalog = other.catalog) (refusal : Refusal) :
    (db.refuse refusal).told = (other.refuse refusal).told := by
  rw [refuse, refuse, Step.told, Step.told, h]

theorem store_told (h : db.catalog = other.catalog) (t : Table Value) :
    (db.store t).1.catalog = (other.store t).1.catalog := by
  rw [store_catalog, store_catalog, h]

theorem createTable_told (h : db.catalog = other.catalog) (options : Options) (name : Text)
    (columns : List Column) (rejected : List Text) :
    (db.createTable options name columns rejected).told =
      (other.createTable options name columns rejected).told := by
  rw [createTable, createTable, h]
  dsimp only
  split
  · exact refuse_told h _
  · split
    · exact refuse_told h _
    · split
      · exact congrArg (Prod.mk _) h
      · split
        · exact congrArg (Prod.mk _) h
        · exact congrArg (Prod.mk _) (store_told h _)

theorem live?_of_catalog (h : db.catalog = other.catalog) (held : Held) :
    held.live? db = held.live? other := by
  rw [Held.live?, Held.live?, h]

theorem hold_of_catalog (h : db.catalog = other.catalog) (name : Text) :
    db.hold name = other.hold name := by
  rw [hold, hold, h]

theorem change_told (h : db.catalog = other.catalog) (held : Held) (change : Change) :
    (db.change held change).told = (other.change held change).told := by
  rw [Database.change, Database.change, live?_of_catalog h]
  split
  · exact refuse_told h _
  · dsimp only
    split
    · exact congrArg (Prod.mk _) h
    · exact congrArg (Prod.mk _) (store_told h _)

theorem perform_told (h : db.catalog = other.catalog) (held : Held) (action : Action) :
    (db.perform held action).told = (other.perform held action).told := by
  rw [perform, perform]
  split
  · exact refuse_told h _
  · exact congrArg (Prod.mk _) h
  · exact change_told h held _

theorem purge_told (h : db.catalog = other.catalog) (hl : db.Listable) (ho : other.Listable) :
    db.purge.told = other.purge.told := by
  rw [Step.told, Step.told, (purge_of_listable hl).1, (purge_of_listable ho).1, purge_after,
    purge_after]
  show (_, db.catalog.clear) = (_, other.catalog.clear)
  rw [h]

/-- The same tables are in memory, wherever the files are. -/
structure Twin (db other : Database) : Prop where
  catalog : db.catalog = other.catalog
  tidy : db.Tidy
  other_tidy : other.Tidy

theorem execute_told (twin : Twin db other) (options : Options) (s : Statement) :
    (db.execute options s).told = (other.execute options s).told := by
  have h := twin.catalog
  cases s with
  | createTable name columns rejected => exact createTable_told h options name columns rejected
  | onTable name action =>
    rw [execute, execute, hold_of_catalog h]
    split
    · exact perform_told h _ action
    · exact refuse_told h _
  | showTables =>
    rw [execute, execute, showTables, showTables, Step.told, Step.told, h]
  | stop =>
    show (Except.ok Reply.stopped, db.flush.1.catalog) = (.ok .stopped, other.flush.1.catalog)
    rw [flush_catalog, flush_catalog, h]
  | purgeAndStop => exact purge_told h twin.tidy.listable twin.other_tidy.listable

theorem executeLine_told (h : Twin db other) (options : Options) (line : Text) :
    (db.executeLine options line).told = (other.executeLine options line).told := by
  rw [executeLine, executeLine]
  split
  · exact execute_told h options _
  · exact refuse_told h.catalog _

theorem answered_told {step : Step Outcome} {same : Step Outcome} (h : step.told = same.told)
    (line : Text) : (answered line step).told = (answered line same).told := by
  obtain ⟨houtcome, hcatalog⟩ := Prod.mk.inj h
  show (answerOf step.outcome, step.after.catalog) = (answerOf same.outcome, same.after.catalog)
  rw [houtcome, hcatalog]

theorem process_told (h : Twin db other) (options : Options) (line : Text) :
    (db.process options line).told = (other.process options line).told :=
  answered_told (executeLine_told h options line) line

theorem Twin.process (h : Twin db other) (options : Options) (line : Text) :
    Twin (db.process options line).after (other.process options line).after where
  catalog := congrArg Prod.snd (process_told h options line)
  tidy := executeLine_tidy options h.tidy line
  other_tidy := executeLine_tidy options h.other_tidy line

end Database

/-- What the holder of an open session does with it, short of a look at its files. -/
inductive Call where
  | request (request : Request)
  | statement (line : Text)
  | kind (kind : Text)
  | close

def Call.happening : Call → Happening
  | .request asked => .request asked
  | .statement line => .statement line
  | .kind name => .kind name
  | .close => .close

inductive Returned where
  | answers (answers : Text × List Text)
  | outcome (outcome : Outcome)
  | nothing
  deriving DecidableEq

namespace Session

def returned (s : Session) : Call → Returned
  | .request request => .answers (s.db.respond s.options request).outcome
  | .statement line => .outcome (s.db.executeLine s.options line).outcome
  | .kind kind => .outcome (s.db.executeKind s.options kind).outcome
  | .close => .nothing

def told (s : Session) : List Call → List (Returned × Catalog Value)
  | [] => []
  | call :: calls =>
    let after := s.step call.happening
    (s.returned call, after.db.catalog) :: after.told calls

variable {s other : Session}

end Session
end LineTables
