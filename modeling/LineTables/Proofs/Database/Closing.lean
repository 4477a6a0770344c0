import LineTables.Proofs.Database.Durable
import LineTables.Proofs.Storage.Opening

/-!
# Opening and closing

A directory is opened and closed with nothing asked in between. The files of the tables that were read
are then rewritten in the one form in which tables are written, except those whose names have no room;
every file still gives the table it gave, or none, as before. A second time finds nothing to rewrite.
-/

set_option autoImplicit false

namespace LineTables

namespace Storage

theorem nodup_loadAll (d : Directory) : (loadAll d).1.Nodup := by
  apply (loadAll_ascending d).imp
  intro t u hlt heq
  exact List.lt_irrefl _ (heq ▸ hlt)

theorem loadAll_eq {d e : Directory} (h : ∀ name, tableUnder d name = tableUnder e name) :
    (loadAll d).1 = (loadAll e).1 := by
  have hperm : (loadAll d).1.Perm (loadAll e).1 := by
    rw [List.perm_ext_iff_of_nodup (nodup_loadAll d) (nodup_loadAll e)]
    intro t
    rw [mem_loadAll_iff_tableUnder, mem_loadAll_iff_tableUnder, h]
  apply hperm.eq_of_pairwise _ (loadAll_ascending d) (loadAll_ascending e)
  intro t u _ _ htu hut
  exact absurd hut (List.lt_asymm htu)

theorem canLoad_eq {d e : Directory} (h : ∀ path, (d.get? path).isSome = (e.get? path).isSome)
    (location : Location) : canLoad location d = canLoad location e := by
  have hle : ∀ d e : Directory, (∀ path, (d.get? path).isSome = (e.get? path).isSome) →
      canLoad location d = true → canLoad location e = true := by
    intro d e h hload
    rw [canLoad_iff] at hload ⊢
    intro path entry he
    obtain ⟨other, hd⟩ := Option.isSome_iff_exists.1 ((h path).trans (by rw [he]; rfl))
    exact hload path other hd
  exact Bool.eq_iff_iff.2 ⟨hle d e h, hle e d fun path => (h path).symm⟩

end Storage

namespace Database

theorem flush_flush {db : Database} (hs : db.catalog.Sound) : db.flush.1.flush.1 = db.flush.1 := by
  have hcatalog := flush_catalog db
  have hs' : db.flush.1.catalog.Sound := hcatalog ▸ hs
  have hdirectory : db.flush.1.flush.1.directory = db.flush.1.directory := by
    apply Directory.ext
    intro path
    rcases get?_flush hs path with ⟨t, ht, hw, rfl, hwritten⟩ | ⟨hother, -⟩
    · rw [hwritten]
      exact flush_written hs' (hcatalog ▸ ht) ((canWrite_flush hs t.name).2 hw)
    · apply flush_other hs'
      intro t ht hw
      exact hother t (hcatalog ▸ ht) ((canWrite_flush hs t.name).1 hw)
  have hlocation : db.flush.1.flush.1.location = db.flush.1.location :=
    persistAll_location db.flush.1 _
  exact ext (flush_catalog db.flush.1) hdirectory hlocation

theorem tableUnder_flush {db : Database} (hs : db.catalog.Sound)
    (h : ∀ name, db.catalog.get? name = Storage.tableUnder db.directory name) (name : Text) :
    Storage.tableUnder db.flush.1.directory name = Storage.tableUnder db.directory name := by
  rcases get?_flush hs (Storage.fileName name) with ⟨t, ht, -, hfile, hwritten⟩ | ⟨-, hkept⟩
  · obtain rfl : name = t.name := Storage.fileName_inj.1 hfile
    rw [← h, ht, Storage.tableUnder_eq_some_iff]
    exact ⟨_, hwritten, Storage.tableOfContent_encoded (hs.of_get? ht)⟩
  · rw [Storage.tableUnder, Storage.tableUnder, hkept]

theorem tableUnder_close (location : Location) (d : Directory) (name : Text) :
    Storage.tableUnder (load location d).1.flush.1.directory name = Storage.tableUnder d name :=
  tableUnder_flush (load_sound location d) (load_get? location d) name

theorem load_close (location : Location) (d : Directory) :
    (load location (load location d).1.flush.1.directory).1 = (load location d).1.flush.1 := by
  have htables : (Storage.loadAll (load location d).1.flush.1.directory).1 =
      (Storage.loadAll d).1 := Storage.loadAll_eq (tableUnder_close location d)
  have hcatalog : (load location d).1.flush.1.catalog = Catalog.ofTables (Storage.loadAll d).1 :=
    flush_catalog _
  have hlocation : (load location d).1.flush.1.location = location :=
    persistAll_location (load location d).1 _
  generalize (load location d).1.flush.1 = closed at htables hcatalog hlocation
  show Database.mk (Catalog.ofTables (Storage.loadAll closed.directory).1) closed.directory location =
    closed
  rw [htables, ← hcatalog, ← hlocation]

end Database

namespace Session

theorem closed_db (options : Options) (location : Location) (d : Directory) :
    ((opened options location d).step .close).db = (Database.load location d).1.flush.1 := rfl

/-- Opening any directory and closing it keeps the tables that are loaded and their order, rewrites the
files of those whose names have room for it and no other entry, and takes away or adds none. Doing it
again changes nothing. -/
theorem opened_closed_once (options later : Options) (location : Location) (d : Directory) :
    let once := ((opened options location d).step .close).db.directory
    let twice := ((opened later location once).step .close).db.directory
    (Database.open? location once).isSome = (Database.open? location d).isSome ∧
      (Storage.loadAll once).1 = (Storage.loadAll d).1 ∧
      (∀ path, (∀ t ∈ (Storage.loadAll d).1, path ≠ Storage.fileName t.name) →
        once.get? path = d.get? path) ∧
      (∀ t ∈ (Storage.loadAll d).1, once.get? (Storage.fileName t.name) =
        if Storage.HasRoom location t.name then some (.file (Storage.encoded t.document))
        else d.get? (Storage.fileName t.name)) ∧
      (∀ path, (once.get? path).isSome = (d.get? path).isSome) ∧
      twice = once := by
  intro once twice
  let db := (Database.load location d).1
  have hs : db.catalog.Sound := Database.load_sound location d
  have hunder : ∀ t, db.catalog.get? t.name = some t ↔ t ∈ (Storage.loadAll d).1 := by
    intro t
    rw [Storage.mem_loadAll_iff_tableUnder, Database.load_get? location d]
  have hfile : ∀ t ∈ (Storage.loadAll d).1, ∃ content,
      d.get? (Storage.fileName t.name) = some (.file content) := by
    intro t ht
    obtain ⟨content, hd, -⟩ :=
      Storage.tableUnder_eq_some_iff.1 (Storage.mem_loadAll_iff_tableUnder.1 ht)
    exact ⟨content, hd⟩
  -- Only files that are there are rewritten, so closing adds no entry and takes none away.
  have hpaths : ∀ path, (once.get? path).isSome = (d.get? path).isSome := by
    intro path
    rcases Database.get?_flush hs path with ⟨t, ht, -, rfl, hwritten⟩ | ⟨-, hkept⟩
    · obtain ⟨content, hd⟩ := hfile t ((hunder t).1 ht)
      show (db.flush.1.directory.get? _).isSome = _
      rw [hwritten, hd]
      rfl
    · exact congrArg Option.isSome hkept
  refine ⟨?_, Storage.loadAll_eq (Database.tableUnder_close location d), ?_, ?_, hpaths, ?_⟩
  · rw [Database.open?, Database.open?, Storage.canLoad_eq hpaths]
    split <;> rfl
  · intro path hother
    apply Database.flush_other hs
    intro t ht _
    exact hother t ((hunder t).1 ht)
  · intro t ht
    by_cases hroom : Storage.HasRoom location t.name
    · rw [if_pos hroom]
      apply Database.flush_written hs ((hunder t).2 ht)
      refine ⟨hroom, ?_⟩
      intro hfolder
      obtain ⟨content, hd⟩ := hfile t ht
      cases hd.symm.trans hfolder
    · rw [if_neg hroom]
      apply Database.flush_other hs
      intro u _ hw heq
      exact hroom (Storage.fileName_inj.1 heq ▸ hw.1)
  · simp only [twice, once, closed_db]
    rw [Database.load_close, Database.flush_flush hs]

theorem opened_closed_once_blanks :
    let location : Location := ⟨"data".toList, "/data".toList⟩
    let document : Text :=
      "\x7b \"columns\" : [\x7b\"name\":\"a\", \"type\":\"int\"\x7d], \"name\" : \"t\" \x7d".toList
    let d := (Directory.empty.insert "t.dat".toList
      (.file (String.ofList document).toUTF8)).insert "u.dat".toList (.file ⟨#[0xff]⟩)
    let t : Table Value := ⟨"t".toList, [⟨"a".toList, .int⟩], []⟩
    let once := ((opened ⟨false⟩ location d).step .close).db.directory
    (Storage.loadAll d).1 = [t] ∧ String.ofList document ≠ String.ofList t.document.written ∧
      once.get? "t.dat".toList = some (.file (Storage.encoded t.document)) ∧
      once.get? "u.dat".toList = some (.file ⟨#[0xff]⟩) ∧
      ((opened ⟨true⟩ location once).step .close).db.directory = once := by
  intro location document d t
  have hload : (Storage.loadAll d).1 = [t] := by decide +kernel
  have hroom : Storage.HasRoom location t.name := by decide
  obtain ⟨-, -, hothers, hrewritten, -, htwice⟩ :=
    opened_closed_once ⟨false⟩ ⟨true⟩ location d
  rw [hload] at hothers hrewritten
  have ht := hrewritten t List.mem_cons_self
  rw [if_pos hroom] at ht
  have hu := hothers "u.dat".toList (by decide)
  exact ⟨hload, by decide +kernel, ht, hu.trans rfl, htwice⟩

end Session
end LineTables
