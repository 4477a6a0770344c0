import LineTables.Change
import LineTables.Storage

/-!
# The database

A database is a catalogue of tables in memory and the directory with their files. Every change of a
table is written to its file at once; a write that fails is only reported, and the change in memory
stays. A table that was found is held: it is live as long as the catalogue has not been emptied since,
and a held table that is no longer live keeps the rows it had at that moment.
-/

set_option autoImplicit false

namespace LineTables

structure Database where
  catalog : Catalog Value
  directory : Directory
  location : Location

structure Step (α : Type) where
  outcome : α
  after : Database
  events : List Event

/-- A table found in the catalogue, and when. -/
structure Held where
  table : Table Value
  generation : Nat

namespace Held

/-- The table under the name as it is now, if it is still the one that was found. -/
def live? (held : Held) (db : Database) : Option (Table Value) :=
  if db.catalog.generation = held.generation then db.catalog.get? held.table.name else none

/-- The held table with the rows it has now, or had at last. -/
def followed (held : Held) (db : Database) : Held :=
  match held.live? db with
  | some t => { held with table := t }
  | none => held

end Held

namespace Database

def hold (db : Database) (name : Text) : Except CatalogError Held :=
  match db.catalog.require name with
  | .ok t => .ok ⟨t, db.catalog.generation⟩
  | .error cause => .error cause

/-- Writes the file of a table. A failure is no more than an event. -/
def persist (db : Database) (t : Table Value) : Database × List Event :=
  match Storage.write db.location db.directory (t.mapCells Value.toJson) with
  | (directory, none) =>
    ({ db with directory },
      [⟨.debug, .storage, "表已落盘: 表=".toList ++ t.name ++ ", 行数=".toList ++
        Text.ofNat t.rows.length⟩])
  | (directory, some cause) =>
    ({ db with directory },
      [⟨.warning, .executor, "表落盘失败: 表=".toList ++ t.name ++ ": ".toList ++ cause.message⟩])

def store (db : Database) (t : Table Value) : Database × List Event :=
  persist { db with catalog := db.catalog.update t } t

def persistAll (db : Database) : List (Table Value) → Database × List Event
  | [] => (db, [])
  | t :: tables =>
    let (db, events) := db.persist t
    let (db, more) := db.persistAll tables
    (db, events ++ more)

def flush (db : Database) : Database × List Event := db.persistAll db.catalog.tables

def load (location : Location) (directory : Directory) : Database × List Event :=
  let (tables, events) := Storage.loadAll directory
  let catalog := Catalog.ofTables tables
  (⟨catalog, directory, location⟩, events ++
    [⟨.info, .engine, "引擎就绪: 目录=".toList ++ location.path ++ ", 表数=".toList ++
      Text.ofNat catalog.size⟩])

/-- Opens the database of a directory. It cannot be opened where an entry that is named as a table file
has a path too long to be looked at. -/
def open? (location : Location) (directory : Directory) : Option (Database × List Event) :=
  if Storage.canLoad location directory then some (load location directory) else none

theorem persist_catalog (db : Database) (t : Table Value) :
    (db.persist t).1.catalog = db.catalog := by
  rw [persist]
  split <;> rfl

theorem persistAll_catalog (db : Database) (tables : List (Table Value)) :
    (db.persistAll tables).1.catalog = db.catalog := by
  induction tables generalizing db with
  | nil => rfl
  | cons t tables ih => exact (ih _).trans (persist_catalog db t)

theorem store_catalog (db : Database) (t : Table Value) :
    (db.store t).1.catalog = db.catalog.update t :=
  persist_catalog _ t

end Database
end LineTables
