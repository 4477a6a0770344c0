import LineTables.Proofs.Database.Reachable
import LineTables.Proofs.Storage.Codec

/-!
# Writing all files

Writing the files of all tables leaves the document of each table that can be written under the name of
its file, and every other entry as it was. No write makes another one fail, so the order in which the
tables are written shows nowhere.
-/

set_option autoImplicit false

namespace LineTables

theorem Catalog.mem_tables_iff {c : Catalog Value} (h : c.Sound) {t : Table Value} :
    t ∈ c.tables ↔ c.get? t.name = some t := by
  constructor
  · intro ht
    obtain ⟨entry, he, rfl⟩ := List.mem_map.1 ht
    rw [h.filed entry he]
    exact Record.get?_of_mem h.distinct he
  · intro ht
    exact List.mem_map.2 ⟨_, Record.mem_of_get? ht, rfl⟩

theorem Catalog.nodup_tables {c : Catalog Value} (h : c.Sound) : (c.tables.map (·.name)).Nodup := by
  have hnames : c.tables.map (·.name) = c.entries.names := by
    rw [tables, Record.values, Record.names, List.map_map]
    exact List.map_congr_left fun entry he => h.filed entry he
  rw [hnames]
  exact h.distinct

namespace Database

theorem persist_eq (db : Database) (t : Table Value) :
    (db.persist t).1 =
      { db with
        directory := (Storage.write db.location db.directory (t.mapCells Value.toJson)).1 } := by
  rw [persist]
  split <;> rename_i h <;> rw [h]

theorem get?_persist (db : Database) {t : Table Value} (ht : t.WellFormed) (path : Text) :
    (db.persist t).1.directory.get? path =
      if path = Storage.fileName t.name ∧ Storage.CanWrite db.location db.directory t.name then
        some (.file (Storage.encoded t.document))
      else db.directory.get? path := by
  rw [persist_eq]
  exact Storage.get?_write db.location db.directory ht.name path

theorem canWrite_persist (db : Database) {t : Table Value} (ht : t.WellFormed) (name : Text) :
    Storage.CanWrite (db.persist t).1.location (db.persist t).1.directory name ↔
      Storage.CanWrite db.location db.directory name := by
  have hlocation : (db.persist t).1.location = db.location := by rw [persist_eq]
  rw [Storage.CanWrite, Storage.CanWrite, hlocation, get?_persist db ht]
  by_cases h : Storage.fileName name = Storage.fileName t.name ∧
      Storage.CanWrite db.location db.directory t.name
  · rw [if_pos h, h.1]
    simp [h.2.2]
  · rw [if_neg h]

theorem persistAll_cons (db : Database) (t : Table Value) (tables : List (Table Value)) :
    (db.persistAll (t :: tables)).1 = ((db.persist t).1.persistAll tables).1 := by
  rw [persistAll]

theorem persistAll_other {db : Database} {tables : List (Table Value)} {path : Text}
    (ht : ∀ t ∈ tables, t.WellFormed)
    (hp : ∀ t ∈ tables, Storage.CanWrite db.location db.directory t.name →
      path ≠ Storage.fileName t.name) :
    (db.persistAll tables).1.directory.get? path = db.directory.get? path := by
  induction tables generalizing db with
  | nil => rfl
  | cons t tables ih =>
    have hwell := ht t List.mem_cons_self
    have hrest : ∀ u ∈ tables, Storage.CanWrite (db.persist t).1.location
        (db.persist t).1.directory u.name → path ≠ Storage.fileName u.name := by
      intro u hu hw
      exact hp u (List.mem_cons_of_mem t hu) ((canWrite_persist db hwell u.name).1 hw)
    have hfirst := get?_persist db hwell path
    rw [if_neg fun h => hp t List.mem_cons_self h.2 h.1] at hfirst
    rw [persistAll_cons, ih (fun u hu => ht u (List.mem_cons_of_mem t hu)) hrest, hfirst]

theorem persistAll_written {db : Database} {tables : List (Table Value)} {t : Table Value}
    (ht : ∀ t ∈ tables, t.WellFormed) (hn : (tables.map (·.name)).Nodup) (hm : t ∈ tables)
    (hw : Storage.CanWrite db.location db.directory t.name) :
    (db.persistAll tables).1.directory.get? (Storage.fileName t.name) =
      some (.file (Storage.encoded t.document)) := by
  induction tables generalizing db with
  | nil => cases hm
  | cons u tables ih =>
    have hwell := ht u List.mem_cons_self
    have hrest : ∀ v ∈ tables, v.WellFormed := fun v hv => ht v (List.mem_cons_of_mem u hv)
    obtain ⟨hnew, hn⟩ := List.nodup_cons.1 hn
    rw [persistAll_cons]
    rcases List.mem_cons.1 hm with rfl | hm
    · have hother : ∀ v ∈ tables, Storage.CanWrite (db.persist t).1.location
          (db.persist t).1.directory v.name → Storage.fileName t.name ≠ Storage.fileName v.name := by
        intro v hv _ heq
        exact hnew (List.mem_map.2 ⟨v, hv, (Storage.fileName_inj.1 heq).symm⟩)
      have hfirst := get?_persist db hwell (Storage.fileName t.name)
      rw [if_pos ⟨rfl, hw⟩] at hfirst
      rw [persistAll_other hrest hother, hfirst]
    · exact ih hrest hn hm ((canWrite_persist db hwell t.name).2 hw)

theorem flush_other {db : Database} (hs : db.catalog.Sound) {path : Text}
    (hp : ∀ t, db.catalog.get? t.name = some t →
      Storage.CanWrite db.location db.directory t.name → path ≠ Storage.fileName t.name) :
    db.flush.1.directory.get? path = db.directory.get? path := by
  apply persistAll_other
  · intro t ht
    exact hs.of_get? ((Catalog.mem_tables_iff hs).1 ht)
  · intro t ht
    exact hp t ((Catalog.mem_tables_iff hs).1 ht)

theorem flush_written {db : Database} (hs : db.catalog.Sound) {t : Table Value}
    (ht : db.catalog.get? t.name = some t)
    (hw : Storage.CanWrite db.location db.directory t.name) :
    db.flush.1.directory.get? (Storage.fileName t.name) =
      some (.file (Storage.encoded t.document)) := by
  apply persistAll_written _ (Catalog.nodup_tables hs) ((Catalog.mem_tables_iff hs).2 ht) hw
  intro u hu
  exact hs.of_get? ((Catalog.mem_tables_iff hs).1 hu)

theorem canWrite_persistAll {db : Database} {tables : List (Table Value)}
    (ht : ∀ t ∈ tables, t.WellFormed) (name : Text) :
    Storage.CanWrite (db.persistAll tables).1.location (db.persistAll tables).1.directory name ↔
      Storage.CanWrite db.location db.directory name := by
  induction tables generalizing db with
  | nil => rfl
  | cons t tables ih =>
    rw [persistAll_cons, ih fun u hu => ht u (List.mem_cons_of_mem t hu)]
    exact canWrite_persist db (ht t List.mem_cons_self) name

theorem canWrite_flush {db : Database} (hs : db.catalog.Sound) (name : Text) :
    Storage.CanWrite db.flush.1.location db.flush.1.directory name ↔
      Storage.CanWrite db.location db.directory name := by
  apply canWrite_persistAll
  intro t ht
  exact hs.of_get? ((Catalog.mem_tables_iff hs).1 ht)

theorem get?_flush {db : Database} (hs : db.catalog.Sound) (path : Text) :
    (∃ t, db.catalog.get? t.name = some t ∧ Storage.CanWrite db.location db.directory t.name ∧
      path = Storage.fileName t.name ∧
      db.flush.1.directory.get? path = some (.file (Storage.encoded t.document))) ∨
    (∀ t, db.catalog.get? t.name = some t → Storage.CanWrite db.location db.directory t.name →
      path ≠ Storage.fileName t.name) ∧
      db.flush.1.directory.get? path = db.directory.get? path := by
  by_cases hp : ∃ t, db.catalog.get? t.name = some t ∧
      Storage.CanWrite db.location db.directory t.name ∧ path = Storage.fileName t.name
  · obtain ⟨t, ht, hw, rfl⟩ := hp
    exact Or.inl ⟨t, ht, hw, rfl, flush_written hs ht hw⟩
  · have hother : ∀ t, db.catalog.get? t.name = some t →
        Storage.CanWrite db.location db.directory t.name → path ≠ Storage.fileName t.name := by
      intro t ht hw heq
      exact hp ⟨t, ht, hw, heq⟩
    exact Or.inr ⟨hother, flush_other hs hother⟩

theorem persistAll_location (db : Database) (tables : List (Table Value)) :
    (db.persistAll tables).1.location = db.location := by
  induction tables generalizing db with
  | nil => rfl
  | cons t tables ih =>
    have hfirst : (db.persist t).1.location = db.location := by rw [persist_eq]
    rw [persistAll_cons, ih, hfirst]

end Database
end LineTables
