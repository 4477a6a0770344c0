import LineTables.Proofs.Database.Serial
import LineTables.Proofs.Statement.Legible
import LineTables.Proofs.Storage.Loading

/-!
# Reachable states

A session starts with any files and goes on with any happenings. Whatever comes, every table in memory
stands under its name once and is well formed: neither a document nor a line lets anything else in, and
what happens to the files does not reach the memory before they are read again. Interleaved lines leave
nothing that lines in an order would not, so they need no argument of their own.
-/

set_option autoImplicit false

namespace LineTables

namespace Catalog

structure Sound (c : Catalog Value) : Prop where
  distinct : c.entries.names.Nodup
  filed : c.Filed
  wellFormed : ∀ entry ∈ c.entries, entry.2.WellFormed

theorem Sound.of_get? {c : Catalog Value} (h : c.Sound) {name : Text} {t : Table Value}
    (ht : c.get? name = some t) : t.WellFormed :=
  h.wellFormed _ (Record.mem_of_get? ht)

theorem Sound.update {c : Catalog Value} (h : c.Sound) {t : Table Value} (ht : t.WellFormed) :
    (c.update t).Sound where
  distinct := Record.nodup_names_put h.distinct t
  filed := h.filed.update t
  wellFormed := by
    intro entry he
    rcases Record.mem_put he with rfl | he
    · exact ht
    · exact h.wellFormed entry he

theorem sound_of_entries_nil {c : Catalog Value} (h : c.entries = []) : c.Sound where
  distinct := by simp [h, Record.names]
  filed := by simp [Filed, h]
  wellFormed := by simp [h]

theorem sound_ofTables {tables : List (Table Value)} (h : ∀ t ∈ tables, t.WellFormed) :
    (ofTables tables).Sound := by
  have hmem : ∀ entry ∈ (ofTables tables).entries, ∃ t ∈ tables, (t.name, t) = entry := by
    intro entry he
    rcases Record.mem_putAll he with he | he
    · cases he
    · exact List.mem_map.1 he
  constructor
  · exact Record.nodup_names_ofPairs _
  · intro entry he
    obtain ⟨t, -, rfl⟩ := hmem entry he
    rfl
  · intro entry he
    obtain ⟨t, ht, rfl⟩ := hmem entry he
    exact h t ht

end Catalog

namespace Action

theorem applied_wellFormed {t : Table Value} (h : t.WellFormed) {action : Action} {change : Change}
    (hc : action.check t = .ok (.change change)) :
    Table.WellFormed { t with rows := change.applied t.rows } := by
  have hrows : ∀ row ∈ change.applied t.rows, Row.Fits t.columns row := by
    cases action with
    | insert literals =>
      rw [check] at hc
      split at hc
      · cases hc
      · rename_i hl
        split at hc
        · rename_i row hrow
          cases hc
          intro r hr
          rcases List.mem_append.1 hr with hr | hr
          · exact h.rows r hr
          · rw [List.mem_singleton.1 hr]
            exact rowOf_fits (by omega) hrow
        · cases hc
    | select columns condition =>
      rw [check] at hc
      split at hc <;> cases hc
    | update assignments condition =>
      rw [check] at hc
      split at hc
      · rename_i updates hu
        cases hc
        intro r hr
        obtain ⟨row, hmem, rfl⟩ := List.mem_map.1 hr
        split
        · exact Row.fits_putAll (h.rows row hmem) (updatesOf_admitted hu)
        · exact h.rows row hmem
      · cases hc
    | delete condition =>
      cases hc
      intro r hr
      exact h.rows r (List.mem_filter.1 hr).1
  exact { h with rows := hrows }

end Action

namespace Database

theorem created_wellFormed {table : Text} {columns : List Column} {rejected : List Text}
    (h : (Statement.createTable table columns rejected).Legible) (hne : columns ≠ [])
    (hd : (columns.map (·.name)).Nodup) : Table.WellFormed ⟨table, columns, []⟩ where
  name := h.1
  columns_ne := hne
  columnNames := h.2.2.1
  distinct := hd
  rows := by
    intro row hr
    cases hr

theorem Effect.sound {db after : Database} {s : Statement} (h : db.Effect s after)
    (hs : s.Legible) (hc : db.catalog.Sound) : after.catalog.Sound := by
  cases h with
  | kept => exact hc
  | created rejected fresh columns_ne distinct =>
    rw [withTable_catalog]
    exact hc.update (created_wellFormed hs columns_ne distinct)
  | changed found checked touched =>
    rw [withTable_catalog]
    exact hc.update (Action.applied_wellFormed (hc.of_get? found) checked)
  | flushed =>
    rw [flush_catalog]
    exact hc
  | purged => exact Catalog.sound_of_entries_nil rfl

theorem executeLine_sound (options : Options) {db : Database} (hc : db.catalog.Sound)
    (line : Text) : (db.executeLine options line).after.catalog.Sound := by
  rcases executeLine_effect options hc.filed line with h | ⟨s, hs, h⟩
  · rw [h]
    exact hc
  · exact h.sound (Statement.parse_legible hs) hc

theorem executeKind_effect (options : Options) {db : Database} (hf : db.catalog.Filed)
    (kind : Text) :
    (db.executeKind options kind).after = db ∨
      ∃ s : Statement, s.Legible ∧ db.Effect s (db.executeKind options kind).after := by
  rw [executeKind]
  split
  · exact Or.inr ⟨.showTables, trivial, execute_effect options hf _⟩
  · split
    · exact Or.inr ⟨.stop, trivial, execute_effect options hf _⟩
    · split
      · exact Or.inr ⟨.purgeAndStop, trivial, execute_effect options hf _⟩
      · exact Or.inl rfl

theorem executeKind_sound (options : Options) {db : Database} (hc : db.catalog.Sound)
    (kind : Text) : (db.executeKind options kind).after.catalog.Sound := by
  rcases executeKind_effect options hc.filed kind with h | ⟨s, hs, h⟩
  · rw [h]
    exact hc
  · exact h.sound hs hc

theorem respond_sound (options : Options) {db : Database} (hc : db.catalog.Sound)
    (request : Request) : (db.respond options request).after.catalog.Sound :=
  respond_keeps (P := fun db => db.catalog.Sound) (fun _ hd => hd.filed)
    (fun _ line hd => executeLine_sound options hd line) hc request

theorem load_sound (location : Location) (directory : Directory) :
    (load location directory).1.catalog.Sound := by
  apply Catalog.sound_ofTables
  intro t ht
  obtain ⟨file, content, -, -, hread⟩ := Storage.mem_loadAll_iff.1 ht
  exact Storage.tableOfContent_wellFormed hread

end Database

namespace Session

theorem opened_sound (options : Options) (location : Location) (directory : Directory) :
    (opened options location directory).db.catalog.Sound :=
  Database.load_sound location directory

theorem step_sound {s : Session} (hc : s.db.catalog.Sound) (happening : Happening) :
    (s.step happening).db.catalog.Sound := by
  cases happening with
  | request request => exact Database.respond_sound s.options hc request
  | statement line => exact Database.executeLine_sound s.options hc line
  | kind kind => exact Database.executeKind_sound s.options hc kind
  | close =>
    show s.db.flush.1.catalog.Sound
    rw [Database.flush_catalog]
    exact hc
  | reopen options => exact Database.load_sound s.db.location s.db.directory
  | exchange directory => exact hc

theorem run_sound {s : Session} (hc : s.db.catalog.Sound) (happenings : List Happening) :
    (s.run happenings).db.catalog.Sound := by
  induction happenings generalizing s with
  | nil => exact hc
  | cons happening happenings ih => exact ih (step_sound hc happening)

/-- In every state that a session reaches, each table in memory stands under its own name and is well
formed. -/
theorem reachable_sound (options : Options) (location : Location) (directory : Directory)
    (happenings : List Happening) :
    ((opened options location directory).run happenings).db.catalog.Sound :=
  run_sound (opened_sound options location directory) happenings

/-- In every state that a session reaches, a line and those that come between its look-up and its
action are answered, and leave memory and files, as in some order one after the other. If a line between
them removes all tables, the interleaved line leaves no trace. -/
theorem reachable_interleave_serial (options : Options) (location : Location)
    (directory : Directory) (happenings : List Happening) (line : Text) (between : List Text) :
    let s := (opened options location directory).run happenings
    let others := s.db.admitted line between
    (∃ place ≤ others.length, (s.db.interleave s.options line between).seen =
        (s.db.inOrder s.options line others place).seen) ∧
      (others.any Database.purges = true →
        (s.db.interleave s.options line between).after =
          (s.db.processAll s.options others).after) := by
  intro s others
  have hsound := run_sound (opened_sound options location directory) happenings
  exact Database.interleave_serial s.options hsound.filed line between

theorem reachable_interleave_serial_purge :
    let s := (opened ⟨false⟩ ⟨"data".toList, "/data".toList⟩ Directory.empty).run
      [.request (.line "CREATE_TABLE t (a INT)".toList)]
    let line := "INSERT INTO t VALUES (1)".toList
    let between := ["PURGE_AND_STOP".toList, "CREATE_TABLE t (a STRING)".toList]
    (s.db.admitted line between).any Database.purges = true ∧
      (s.db.interleave s.options line between).after =
        (s.db.processAll s.options (s.db.admitted line between)).after := by
  intro s line between
  have hpurges : (s.db.admitted line between).any Database.purges = true := by decide +kernel
  exact ⟨hpurges, (reachable_interleave_serial _ _ _ _ line between).2 hpurges⟩

end Session
end LineTables
