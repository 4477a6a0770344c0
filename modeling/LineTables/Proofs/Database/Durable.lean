import LineTables.Proofs.Database.Listing

/-!
# Memory and files in step

Every statement leaves each table file in step with memory: the file of a table that can be written
gives this very table, and no other table file gives one. What is read when a database is opened is
therefore what was in memory before, however its files came about.
-/

set_option autoImplicit false

namespace LineTables

namespace Database

theorem load_get? (location : Location) (d : Directory) (name : Text) :
    (load location d).1.catalog.get? name = Storage.tableUnder d name := by
  have hfound : ∀ t, (load location d).1.catalog.get? name = some t →
      Storage.tableUnder d name = some t := by
    intro t ht
    rcases Record.mem_putAll (Record.mem_of_get? ht) with hm | hm
    · cases hm
    · obtain ⟨u, hu, heq⟩ := List.mem_map.1 hm
      cases heq
      exact Storage.mem_loadAll_iff_tableUnder.1 hu
  cases hunder : Storage.tableUnder d name with
  | none =>
    rw [Option.eq_none_iff_forall_ne_some]
    intro t ht
    rw [hfound t ht] at hunder
    cases hunder
  | some t =>
    obtain ⟨rfl, -⟩ := Storage.wellFormed_of_tableUnder hunder
    have hmem : t ∈ (Storage.loadAll d).1 := Storage.mem_loadAll_iff_tableUnder.2 hunder
    have hname : t.name ∈ (load location d).1.catalog.entries.names := by
      apply Record.mem_names_putAll
      left
      rw [List.map_map]
      exact List.mem_map_of_mem hmem
    obtain ⟨u, hu⟩ := Option.isSome_iff_exists.1 (Record.isSome_get?_iff.2 hname)
    have hsame := hfound u hu
    rw [hunder] at hsame
    cases hsame
    exact hu

/-- No folder stands where the file of a table would. -/
def Unblocked (d : Directory) : Prop :=
  ∀ name, isValidName name = true → d.get? (Storage.fileName name) ≠ some .folder

/-- The table that the file of the name gives is the one in memory, if its file can be written. -/
def InStep (db : Database) (name : Text) : Prop :=
  Storage.tableUnder db.directory name =
    if Storage.HasRoom db.location name then db.catalog.get? name else none

structure Durable (db : Database) : Prop extends Tidy db where
  unblocked : Unblocked db.directory
  inStep : ∀ name, db.InStep name

theorem unblocked_persist {db : Database} (hu : Unblocked db.directory) {t : Table Value}
    (ht : t.WellFormed) : Unblocked (db.persist t).1.directory := by
  intro name hn
  rw [get?_persist db ht]
  split
  · simp
  · exact hu name hn

theorem inStep_persist {db : Database} (hu : Unblocked db.directory) {t : Table Value}
    (ht : t.WellFormed) (hself : db.catalog.get? t.name = some t)
    (h : ∀ name, name ≠ t.name ∨ ¬ Storage.HasRoom db.location name → db.InStep name)
    (name : Text) : (db.persist t).1.InStep name := by
  rw [InStep, persist_eq]
  dsimp only
  rw [Storage.tableUnder_write _ _ ht]
  by_cases hname : name = t.name
  · by_cases hroom : Storage.HasRoom db.location name
    · have hcan : Storage.CanWrite db.location db.directory t.name :=
        ⟨hname ▸ hroom, hu t.name ht.name⟩
      rw [if_pos ⟨hname, hcan⟩, if_pos hroom, hname, hself]
    · rw [if_neg fun hw => hroom (hname ▸ hw.2.1)]
      exact h name (Or.inr hroom)
  · rw [if_neg fun hw => hname hw.1]
    exact h name (Or.inl hname)

theorem Durable.withTable {db : Database} (h : db.Durable) {t : Table Value}
    (ht : t.WellFormed) : (db.withTable t).Durable := by
  let updated := { db with catalog := db.catalog.update t }
  have hunblocked : Unblocked updated.directory := h.unblocked
  have hstep : ∀ name, name ≠ t.name ∨ ¬ Storage.HasRoom db.location name →
      updated.InStep name := by
    intro name hname
    have hbefore := h.inStep name
    rw [InStep] at hbefore ⊢
    rcases hname with hne | hroom
    · rw [hbefore, Catalog.get?_update_of_ne _ hne]
    · rw [hbefore, if_neg hroom, if_neg hroom]
  constructor
  · exact h.toTidy.withTable ht
  · exact unblocked_persist hunblocked ht
  · exact inStep_persist hunblocked ht (Catalog.get?_update_self _ t) hstep

theorem Durable.persist {db : Database} (h : db.Durable) {t : Table Value}
    (ht : db.catalog.get? t.name = some t) : (db.persist t).1.Durable where
  toTidy := h.toTidy.persist (h.sound.of_get? ht)
  unblocked := unblocked_persist h.unblocked (h.sound.of_get? ht)
  inStep := inStep_persist h.unblocked (h.sound.of_get? ht) ht fun name _ => h.inStep name

theorem Durable.persistAll {db : Database} (h : db.Durable) {tables : List (Table Value)}
    (ht : ∀ t ∈ tables, db.catalog.get? t.name = some t) : (db.persistAll tables).1.Durable := by
  induction tables generalizing db with
  | nil => exact h
  | cons t tables ih =>
    apply ih (h.persist (ht t List.mem_cons_self))
    intro u hu
    rw [persist_catalog]
    exact ht u (List.mem_cons_of_mem t hu)

theorem Durable.purged {db : Database} (h : db.Durable) : db.purged.Durable where
  toTidy := h.toTidy.purged
  unblocked := by
    intro name hn hfolder
    rw [(purge_of_listable h.listable).2, Storage.get?_deleteAll,
      Option.filter_eq_some_iff] at hfolder
    exact h.unblocked name hn hfolder.1
  inStep := by
    intro name
    rw [InStep, (purge_of_listable h.listable).2, Storage.tableUnder_deleteAll]
    exact (ite_self none).symm

theorem Effect.durable {db after : Database} {s : Statement} (h : db.Effect s after)
    (hs : s.Legible) (hd : db.Durable) : after.Durable := by
  cases h with
  | kept => exact hd
  | created rejected fresh columns_ne distinct =>
    exact hd.withTable (created_wellFormed hs columns_ne distinct)
  | changed found checked touched =>
    exact hd.withTable (Action.applied_wellFormed (hd.sound.of_get? found) checked)
  | flushed => exact hd.persistAll fun t ht => (Catalog.mem_tables_iff hd.sound).1 ht
  | purged => exact hd.purged

theorem executeLine_durable (options : Options) {db : Database} (hd : db.Durable) (line : Text) :
    (db.executeLine options line).after.Durable := by
  rcases executeLine_effect options hd.sound.filed line with h | ⟨s, hs, h⟩
  · rw [h]
    exact hd
  · exact h.durable (Statement.parse_legible hs) hd

theorem respond_durable (options : Options) {db : Database} (hd : db.Durable)
    (request : Request) : (db.respond options request).after.Durable :=
  respond_keeps (P := Durable) (fun _ hd => hd.sound.filed)
    (fun _ line hd => executeLine_durable options hd line) hd request

theorem load_durable {location : Location} {d : Directory}
    (hload : Storage.canLoad location d = true) (hu : Unblocked d)
    (hroom : ∀ name t, (load location d).1.catalog.get? name = some t →
      Storage.HasRoom location name) : (load location d).1.Durable where
  toTidy := load_tidy hload
  unblocked := hu
  inStep := by
    intro name
    show Storage.tableUnder d name =
      if Storage.HasRoom location name then (load location d).1.catalog.get? name else none
    rw [load_get?]
    by_cases h : Storage.HasRoom location name
    · rw [if_pos h]
    · rw [if_neg h, ← load_get? location, Option.eq_none_iff_forall_ne_some]
      intro t ht
      exact h (hroom name t ht)

end Database
end LineTables
