import LineTables.Database.Basic
import LineTables.Statement.Parser

/-!
# Carrying out statements

A statement is checked in full before anything changes: a refused one leaves the database as it was.
An action on a table goes in two steps, so that others may come between them: the table is looked up
and held, and then the action is carried out on what is held.

Lines are served one after the other until one is answered by a final text; what comes after that line has
no effect. If no line is answered so, the files of all tables are written at the end.
-/

set_option autoImplicit false

namespace LineTables

structure Options where
  strict : Bool := false
  deriving DecidableEq, Repr

namespace Database

def refuse (db : Database) (refusal : Refusal) : Step Outcome := ⟨.error refusal, db, []⟩

/-- Enters an empty table. The name is looked at first, then the rejected clauses, then the
columns. -/
def createTable (options : Options) (db : Database) (name : Text) (columns : List Column)
    (rejected : List Text) : Step Outcome :=
  let names := columns.map (·.name)
  if db.catalog.contains name then db.refuse (.catalog (.tableExists name))
  else if options.strict && !rejected.isEmpty then db.refuse (.rejectedColumns rejected)
  else
    let dropped : List Event :=
      if rejected.isEmpty then []
      else [⟨.debug, .executor, "丢弃非法列定义: 表=".toList ++ name ++ ", 列=".toList ++
        Text.quotedList rejected⟩]
    if columns.isEmpty then ⟨.error (.noValidColumn name), db, dropped⟩
    else if hasRepetition names then ⟨.error (.repeatedColumn names), db, dropped⟩
    else
      let (db, events) := db.store ⟨name, columns, []⟩
      ⟨.ok .success, db, dropped ++ events ++
        [⟨.info, .executor, "创建表: 表=".toList ++ name ++ ", 列=".toList ++
          Text.quotedList names⟩]⟩

/-- Carries out a checked change on a held table, if it is live. A change that touches no row is not
written. -/
def change (db : Database) (held : Held) (change : Change) : Step Outcome :=
  match held.live? db with
  | none => db.refuse (.catalog (.tableNotFound held.table.name))
  | some t =>
    let count := change.touched t.rows
    if count = 0 then ⟨.ok (change.reply 0), db, []⟩
    else
      let (db, events) := db.store { t with rows := change.applied t.rows }
      ⟨.ok (change.reply count), db, events⟩

def perform (db : Database) (held : Held) (action : Action) : Step Outcome :=
  match action.check held.table with
  | .error refusal => db.refuse refusal
  | .ok (.print columns condition) => ⟨held.table.print columns condition, db, []⟩
  | .ok (.change task) => db.change held task

def showTables (db : Database) : Step Outcome :=
  let names := db.catalog.names
  ⟨.ok (if names.isEmpty then .noTables else .tables names), db, []⟩

def stop (db : Database) : Step Outcome :=
  let (after, events) := db.flush
  ⟨.ok .stopped, after, events ++
    [⟨.info, .executor, "已落盘全部表: 表数=".toList ++ Text.ofNat db.catalog.size⟩]⟩

/-- Removes all tables, and then all table files. Where these cannot be listed, the memory is empty by
then and the files stay. -/
def purge (db : Database) : Step Outcome :=
  let emptied := { db with catalog := db.catalog.clear }
  match Storage.deleteAll? db.location db.directory with
  | some (directory, count) =>
    ⟨.ok .purged, { emptied with directory },
      [⟨.info, .executor, "已清空全部表: 删除文件数=".toList ++ Text.ofNat count⟩]⟩
  | none => emptied.refuse .pathTooLong

def execute (options : Options) (db : Database) : Statement → Step Outcome
  | .createTable name columns rejected => db.createTable options name columns rejected
  | .onTable name action =>
    match db.hold name with
    | .ok held => db.perform held action
    | .error cause => db.refuse (.catalog cause)
  | .showTables => db.showTables
  | .stop => db.stop
  | .purgeAndStop => db.purge

/-- Carries out a statement without operands, told by the name of its kind. -/
def executeKind (options : Options) (db : Database) (kind : Text) : Step Outcome :=
  if kind = "SHOW_TABLES".toList then db.execute options .showTables
  else if kind = "STOP".toList then db.execute options .stop
  else if kind = "PURGE_AND_STOP".toList then db.execute options .purgeAndStop
  else db.refuse (.unknownKind kind)

def executeLine (options : Options) (db : Database) (line : Text) : Step Outcome :=
  match Statement.parse line with
  | .ok statement => db.execute options statement
  | .error cause => db.refuse (.malformed cause)

def answerOf : Outcome → Text
  | .ok reply => reply.text
  | .error refusal => refusal.mark

def refusalEvents (line : Text) : Outcome → List Event
  | .ok _ => []
  | .error refusal =>
    if refusal.isForeseen then
      [⟨.debug, .engine, "命令被拒绝: ".toList ++ Text.quoted line ++ ": ".toList ++ refusal.message⟩]
    else [⟨.error, .engine, "执行命令时发生未预期错误: ".toList ++ Text.quoted line⟩]

def answered (line : Text) (step : Step Outcome) : Step Text :=
  ⟨answerOf step.outcome, step.after, step.events ++ refusalEvents line step.outcome⟩

def process (options : Options) (db : Database) (line : Text) : Step Text :=
  answered line (db.executeLine options line)

def processAll (options : Options) (db : Database) : List Text → Step (List Text)
  | [] => ⟨[], db, []⟩
  | line :: lines =>
    let step := db.process options line
    let rest := step.after.processAll options lines
    ⟨step.outcome :: rest.outcome, rest.after, step.events ++ rest.events⟩

/-- Answers lines up to the first final answer, and says whether there was one. -/
def answerUntilFinal (options : Options) (db : Database) : List Text → Bool × Step (List Text)
  | [] => (false, ⟨[], db, []⟩)
  | line :: lines =>
    let step := db.process options line
    if Reply.isFinal step.outcome then (true, ⟨[step.outcome], step.after, step.events⟩)
    else
      let (ended, rest) := step.after.answerUntilFinal options lines
      (ended, ⟨step.outcome :: rest.outcome, rest.after, step.events ++ rest.events⟩)

/-- Answers lines up to the first final answer. Without one all files are written at the end. -/
def serve (options : Options) (db : Database) (lines : List Text) : Step (List Text) :=
  match db.answerUntilFinal options lines with
  | (true, step) => step
  | (false, step) =>
    let (after, events) := step.after.flush
    ⟨step.outcome, after, step.events ++ events⟩

end Database
end LineTables
