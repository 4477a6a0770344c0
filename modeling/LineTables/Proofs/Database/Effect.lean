import LineTables.Database.Session
import LineTables.Proofs.Record
import LineTables.Proofs.Table.WellFormed

/-!
# What a statement can do to a database

A statement leaves the database as it was, puts one table into memory and into its file, writes all
files, or removes all tables. Every invariant of a database is carried through these cases; the checks
that were passed on the way stand in them. The only assumption is that tables are under their own
names in the catalogue.
-/

set_option autoImplicit false

namespace LineTables

namespace Catalog

def Filed (c : Catalog Value) : Prop := ∀ entry ∈ c.entries, entry.2.name = entry.1

theorem Filed.name_of_get? {c : Catalog Value} (hf : c.Filed) {name : Text} {t : Table Value}
    (h : c.get? name = some t) : t.name = name :=
  hf _ (Record.mem_of_get? h)

theorem Filed.update {c : Catalog Value} (hf : c.Filed) (t : Table Value) :
    (c.update t).Filed := by
  intro entry he
  rcases Record.mem_put he with rfl | he
  · rfl
  · exact hf entry he

end Catalog

namespace Database

theorem ext {db other : Database} (catalog : db.catalog = other.catalog)
    (directory : db.directory = other.directory) (location : db.location = other.location) :
    db = other := by
  cases db
  cases other
  cases catalog
  cases directory
  cases location
  rfl

def withTable (db : Database) (t : Table Value) : Database := (db.store t).1

theorem withTable_catalog (db : Database) (t : Table Value) :
    (db.withTable t).catalog = db.catalog.update t :=
  store_catalog db t

theorem flush_catalog (db : Database) : db.flush.1.catalog = db.catalog :=
  persistAll_catalog db db.catalog.tables

def Listable (db : Database) : Prop := Storage.canLoad db.location db.directory = true

/-- The database without tables. The files are gone with them unless they could not be listed. -/
def purged (db : Database) : Database :=
  { db with
    catalog := db.catalog.clear
    directory := ((Storage.deleteAll? db.location db.directory).map Prod.fst).getD db.directory }

theorem purge_after (db : Database) : db.purge.after = db.purged := by
  rw [purge, purged]
  cases Storage.deleteAll? db.location db.directory <;> rfl

theorem purge_of_listable {db : Database} (h : db.Listable) :
    db.purge.outcome = .ok .purged ∧
      db.purged.directory = (Storage.deleteAll db.directory).1 := by
  have hdelete : Storage.deleteAll? db.location db.directory =
      some (Storage.deleteAll db.directory) := if_pos h
  rw [purge, purged, hdelete]
  exact ⟨rfl, rfl⟩

theorem purge_of_not_listable {db : Database} (h : ¬ db.Listable) :
    db.purge.outcome = .error .pathTooLong ∧ db.purged.directory = db.directory := by
  have hdelete : Storage.deleteAll? db.location db.directory = none := if_neg h
  rw [purge, purged, hdelete]
  exact ⟨rfl, rfl⟩

inductive Effect (db : Database) : Statement → Database → Prop
  | kept (s : Statement) : Effect db s db
  | created {table : Text} {columns : List Column} (rejected : List Text)
      (fresh : db.catalog.get? table = none) (columns_ne : columns ≠ [])
      (distinct : (columns.map (·.name)).Nodup) :
      Effect db (.createTable table columns rejected) (db.withTable ⟨table, columns, []⟩)
  | changed {name : Text} {action : Action} {t : Table Value} {change : Change}
      (found : db.catalog.get? name = some t) (checked : action.check t = .ok (.change change))
      (touched : change.touched t.rows ≠ 0) :
      Effect db (.onTable name action) (db.withTable { t with rows := change.applied t.rows })
  | flushed : Effect db .stop db.flush.1
  | purged : Effect db .purgeAndStop db.purged

theorem createTable_effect (options : Options) (db : Database) (table : Text)
    (columns : List Column) (rejected : List Text) :
    db.Effect (.createTable table columns rejected)
      (db.createTable options table columns rejected).after := by
  rw [createTable]
  dsimp only
  split
  · exact .kept _
  · rename_i hfresh
    split
    · exact .kept _
    · split
      · exact .kept _
      · rename_i hne
        split
        · exact .kept _
        · rename_i hrep
          refine .created rejected ?_ (by simpa using hne) ?_
          · simpa [Catalog.contains, Record.contains, Catalog.get?] using hfresh
          · exact hasRepetition_eq_false_iff.1 (Bool.eq_false_iff.2 hrep)

theorem hold_ok_iff {db : Database} {name : Text} {held : Held} :
    db.hold name = .ok held ↔
      db.catalog.get? name = some held.table ∧ held.generation = db.catalog.generation := by
  rw [hold, Catalog.require]
  cases db.catalog.get? name with
  | none => simp
  | some t =>
    obtain ⟨table, generation⟩ := held
    simp only [Except.ok.injEq, Held.mk.injEq, Option.some.injEq]
    constructor
    · rintro ⟨rfl, rfl⟩
      exact ⟨rfl, rfl⟩
    · rintro ⟨rfl, rfl⟩
      exact ⟨rfl, rfl⟩

theorem perform_effect {db : Database} (hf : db.catalog.Filed) {name : Text} {held : Held}
    (hh : db.hold name = .ok held) (action : Action) :
    db.Effect (.onTable name action) (db.perform held action).after := by
  obtain ⟨hfound, hgeneration⟩ := hold_ok_iff.1 hh
  have hlive : held.live? db = some held.table := by
    rw [Held.live?, if_pos hgeneration.symm, hf.name_of_get? hfound, hfound]
  rw [perform]
  split
  · exact .kept _
  · exact .kept _
  · rename_i change hcheck
    rw [Database.change, hlive]
    dsimp only
    split
    · exact .kept _
    · rename_i htouched
      exact .changed hfound hcheck htouched

theorem execute_effect (options : Options) {db : Database} (hf : db.catalog.Filed)
    (s : Statement) : db.Effect s (db.execute options s).after := by
  cases s with
  | createTable table columns rejected => exact createTable_effect options db table columns rejected
  | onTable name action =>
    rw [execute]
    split
    · rename_i held hh
      exact perform_effect hf hh action
    · exact .kept _
  | showTables => exact .kept _
  | stop => exact .flushed
  | purgeAndStop =>
    rw [execute, purge_after]
    exact .purged

theorem executeLine_effect (options : Options) {db : Database} (hf : db.catalog.Filed)
    (line : Text) :
    (db.executeLine options line).after = db ∨
      ∃ s, Statement.parse line = .ok s ∧ db.Effect s (db.executeLine options line).after := by
  rw [executeLine]
  split
  · rename_i s hs
    exact Or.inr ⟨s, hs, execute_effect options hf s⟩
  · exact Or.inl rfl

end Database
end LineTables
