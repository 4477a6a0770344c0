import LineTables.Proofs.Database.Flush

/-!
# Listing the table files

The table files are listed when a database is opened and when its tables are removed, and both fail where
one of them has a path too long to be looked at. A database that was opened writes no such file, so it can
always list what it has: unless a file is put there from outside, by a shorter path.
-/

set_option autoImplicit false

namespace LineTables

namespace Database

/-- The tables in memory are sound, and the table files can be listed. -/
structure Tidy (db : Database) : Prop where
  sound : db.catalog.Sound
  listable : db.Listable

variable {db : Database} {t : Table Value}

theorem Tidy.persist (h : db.Tidy) (ht : t.WellFormed) : (db.persist t).1.Tidy where
  sound := by
    rw [persist_catalog]
    exact h.sound
  listable := by
    rw [persist_eq]
    exact Storage.canLoad_write ht.name h.listable

theorem Tidy.withTable (h : db.Tidy) (ht : t.WellFormed) : (db.withTable t).Tidy := by
  have hupdated : Tidy { db with catalog := db.catalog.update t } :=
    ⟨h.sound.update ht, h.listable⟩
  exact hupdated.persist ht

theorem Tidy.persistAll (h : db.Tidy) {tables : List (Table Value)}
    (ht : ∀ t ∈ tables, t.WellFormed) : (db.persistAll tables).1.Tidy := by
  induction tables generalizing db with
  | nil => exact h
  | cons t tables ih =>
    exact ih (h.persist (ht t List.mem_cons_self)) fun u hu => ht u (List.mem_cons_of_mem t hu)

theorem Tidy.flush (h : db.Tidy) : db.flush.1.Tidy :=
  h.persistAll fun _ ht => h.sound.of_get? ((Catalog.mem_tables_iff h.sound).1 ht)

theorem Tidy.purged (h : db.Tidy) : db.purged.Tidy where
  sound := Catalog.sound_of_entries_nil rfl
  listable := by
    rw [Listable, (purge_of_listable h.listable).2]
    exact Storage.canLoad_deleteAll h.listable

theorem Effect.tidy {after : Database} {s : Statement} (h : db.Effect s after) (hs : s.Legible)
    (hd : db.Tidy) : after.Tidy := by
  cases h with
  | kept => exact hd
  | created rejected fresh columns_ne distinct =>
    exact hd.withTable (created_wellFormed hs columns_ne distinct)
  | changed found checked touched =>
    exact hd.withTable (Action.applied_wellFormed (hd.sound.of_get? found) checked)
  | flushed => exact hd.flush
  | purged => exact hd.purged

theorem executeLine_tidy (options : Options) (hd : db.Tidy) (line : Text) :
    (db.executeLine options line).after.Tidy := by
  rcases executeLine_effect options hd.sound.filed line with h | ⟨s, hs, h⟩
  · rw [h]
    exact hd
  · exact h.tidy (Statement.parse_legible hs) hd

theorem executeKind_tidy (options : Options) (hd : db.Tidy) (kind : Text) :
    (db.executeKind options kind).after.Tidy := by
  rcases executeKind_effect options hd.sound.filed kind with h | ⟨s, hs, h⟩
  · rw [h]
    exact hd
  · exact h.tidy hs hd

theorem respond_tidy (options : Options) (hd : db.Tidy) (request : Request) :
    (db.respond options request).after.Tidy :=
  respond_keeps (P := Tidy) (fun _ hd => hd.sound.filed)
    (fun _ line hd => executeLine_tidy options hd line) hd request

theorem load_tidy {location : Location} {d : Directory} (h : Storage.canLoad location d = true) :
    (load location d).1.Tidy :=
  ⟨load_sound location d, h⟩

theorem Effect.location {after : Database} {s : Statement} (h : db.Effect s after) :
    after.location = db.location := by
  cases h with
  | kept => rfl
  | created => rw [Database.withTable, store, persist_eq]
  | changed => rw [Database.withTable, store, persist_eq]
  | flushed => exact persistAll_location db _
  | purged => rfl

theorem executeLine_location (options : Options) (hf : db.catalog.Filed) (line : Text) :
    (db.executeLine options line).after.location = db.location := by
  rcases executeLine_effect options hf line with h | ⟨s, -, h⟩
  · rw [h]
  · exact h.location

theorem executeKind_location (options : Options) (hf : db.catalog.Filed) (kind : Text) :
    (db.executeKind options kind).after.location = db.location := by
  rcases executeKind_effect options hf kind with h | ⟨s, -, h⟩
  · rw [h]
  · exact h.location

theorem respond_location (options : Options) (hf : db.catalog.Filed) (request : Request) :
    (db.respond options request).after.location = db.location := by
  have hkept := respond_keeps
    (P := fun d => d.catalog.Filed ∧ d.location = db.location) (fun _ hd => hd.1)
    (fun _ line hd => ⟨executeLine_filed options hd.1 line,
      (executeLine_location options hd.1 line).trans hd.2⟩) ⟨hf, rfl⟩ request
  exact hkept.2

end Database

/-- What is put into the directory from outside has paths that are short enough to be looked at. -/
def Happening.InSight (location : Location) : Happening → Prop
  | .exchange directory => Storage.canLoad location directory = true
  | _ => True

namespace Session

variable {s : Session}

theorem step_location (hf : s.db.catalog.Filed) (happening : Happening) :
    (s.step happening).db.location = s.db.location := by
  cases happening with
  | request request => exact Database.respond_location s.options hf request
  | statement line => exact Database.executeLine_location s.options hf line
  | kind kind => exact Database.executeKind_location s.options hf kind
  | close => exact Database.persistAll_location s.db _
  | reopen options => rfl
  | exchange directory => rfl

theorem step_tidy (h : s.db.Tidy) {happening : Happening} (hseen : happening.InSight s.db.location) :
    (s.step happening).db.Tidy := by
  cases happening with
  | request request => exact Database.respond_tidy s.options h request
  | statement line => exact Database.executeLine_tidy s.options h line
  | kind kind => exact Database.executeKind_tidy s.options h kind
  | close => exact h.flush
  | reopen options => exact Database.load_tidy h.listable
  | exchange directory => exact ⟨h.sound, hseen⟩

theorem run_tidy (h : s.db.Tidy) {happenings : List Happening}
    (hseen : ∀ happening ∈ happenings, happening.InSight s.db.location) :
    (s.run happenings).db.Tidy := by
  -- `InSight` speaks of the place of the database, which no happening changes.
  induction happenings generalizing s with
  | nil => exact h
  | cons happening happenings ih =>
    apply ih (step_tidy h (hseen happening List.mem_cons_self))
    rw [step_location h.sound.filed]
    exact fun other hm => hseen other (List.mem_cons_of_mem happening hm)

/-- A session that could be opened can list its table files, whatever it has written since. -/
theorem reachable_listable (options : Options) {location : Location} {directory : Directory}
    {happenings : List Happening} (hopens : Storage.canLoad location directory = true)
    (hseen : ∀ happening ∈ happenings, happening.InSight location) :
    ((opened options location directory).run happenings).db.Listable :=
  (run_tidy (Database.load_tidy hopens) hseen).listable

end Session
end LineTables
