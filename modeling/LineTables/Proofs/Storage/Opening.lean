import LineTables.Database.Basic
import LineTables.Proofs.Storage.Codec

/-!
# Directories that are opened

A database opens with the tables whose files hold valid UTF-8 and a document that describes them, and
with no others, whatever else the directory holds. They come in the order of their names. Opening fails
only below a path so long that some entry named as a table file cannot be looked at.
-/

set_option autoImplicit false

namespace LineTables
open Text

namespace Storage

/-- The file of the table holds a document that describes it, in UTF-8. -/
def FileDescribes (d : Directory) (t : Table Value) : Prop :=
  ∃ text fields, d.get? (fileName t.name) = some (.file (String.ofList text).toUTF8) ∧
    Json.PaddedText maxDigits text (.object fields) ∧ t.DescribedBy fields

theorem characters?_eq_some_iff {content : ByteArray} {text : Text} :
    characters? content = some text ↔ content = (String.ofList text).toUTF8 := by
  constructor
  · intro h
    obtain ⟨s, hs, rfl⟩ := Option.map_eq_some_iff.1 h
    rw [String.fromUTF8?] at hs
    split at hs
    · cases hs
      rw [String.ofList_toList]
      rfl
    · cases hs
  · rintro rfl
    exact characters?_toUTF8 text

theorem decoded?_eq_some_iff {content : ByteArray} {document : Json} :
    decoded? content = some document ↔ ∃ text, content = (String.ofList text).toUTF8 ∧
      Json.PaddedText maxDigits text document := by
  simp only [← characters?_eq_some_iff, ← Json.read?_eq_some_iff]
  rw [decoded?]
  cases characters? content with
  | none => simp
  | some text => simp

theorem tableUnder_eq_some_iff_describes {d : Directory} {t : Table Value} :
    tableUnder d t.name = some t ↔ FileDescribes d t := by
  simp only [tableUnder_eq_some_iff, tableOfContent_ok_iff, decoded?_eq_some_iff,
    Table.ofDocument?_ok_iff]
  constructor
  · rintro ⟨_, hd, fields, ⟨text, rfl, htext⟩, ht, -⟩
    exact ⟨text, fields, hd, htext, ht⟩
  · rintro ⟨text, fields, hd, htext, ht⟩
    exact ⟨_, hd, fields, ⟨text, rfl, htext⟩, ht, tableName_fileName t.name⟩

theorem mem_loadAll_iff_describes {d : Directory} {t : Table Value} :
    t ∈ (loadAll d).1 ↔ FileDescribes d t :=
  mem_loadAll_iff_tableUnder.trans tableUnder_eq_some_iff_describes

theorem dot_lt_of_isNameChar {c : Char} (h : isNameChar c = true) : '.' < c := by
  rw [Char.lt_def, UInt32.lt_iff_toNat_lt]
  have hrange := isNameChar_iff.1 h
  show 46 < c.toNat
  omega

theorem lt_of_fileName_lt {name other : Text} (hn : name.all isNameChar = true)
    (ho : other.all isNameChar = true) (h : fileName name < fileName other) : name < other := by
  induction name generalizing other with
  | nil =>
    cases other with
    | nil => exact absurd h (List.lt_irrefl _)
    | cons c other => exact List.nil_lt_cons c other
  | cons c name ih =>
    rw [List.all_cons, Bool.and_eq_true] at hn
    cases other with
    | nil =>
      have hhead : c < '.' ∨ c = '.' ∧ _ := List.cons_lt_cons_iff.1 h
      have hdot := dot_lt_of_isNameChar hn.1
      rcases hhead with hlt | ⟨rfl, -⟩
      · exact absurd (Char.lt_trans hdot hlt) (Char.lt_irrefl _)
      · exact absurd hdot (Char.lt_irrefl _)
    | cons e other =>
      rw [List.all_cons, Bool.and_eq_true] at ho
      rw [List.cons_lt_cons_iff]
      rcases List.cons_lt_cons_iff.1 h with hlt | ⟨rfl, hrest⟩
      · exact Or.inl hlt
      · exact Or.inr ⟨rfl, ih hn.2 ho.2 hrest⟩

theorem loadFiles_ascending {files : List (Text × Entry)}
    (h : files.Pairwise (fun a b => a.1 < b.1)) (hpaths : ∀ file ∈ files, isTablePath file.1 = true) :
    (loadFiles files).1.Pairwise (fun t u => t.name < u.name) := by
  induction files with
  | nil => exact .nil
  | cons head files ih =>
    obtain ⟨file, entry⟩ := head
    have hrest := ih h.of_cons fun f hf => hpaths f (List.mem_cons_of_mem _ hf)
    cases entry with
    | folder => exact hrest
    | file content =>
      rw [loadFiles]
      cases hread : tableOfContent file file content with
      | error e => exact hrest
      | ok t =>
        refine List.pairwise_cons.2 ⟨?_, hrest⟩
        intro u hu
        obtain ⟨other, content', hm, hother⟩ := mem_loadFiles_iff.1 hu
        have hbefore : file < other := List.rel_of_pairwise_cons h hm
        have hfile : file = fileName t.name :=
          eq_fileName_of_tableOfContent (hpaths _ List.mem_cons_self) hread
        have hfile' : other = fileName u.name :=
          eq_fileName_of_tableOfContent (hpaths _ (List.mem_cons_of_mem _ hm)) hother
        rw [hfile, hfile'] at hbefore
        have hvalid := (tableOfContent_wellFormed hread).name
        have hvalid' := (tableOfContent_wellFormed hother).name
        rw [isValidName, Bool.and_eq_true] at hvalid hvalid'
        exact lt_of_fileName_lt hvalid.2 hvalid'.2 hbefore

theorem loadAll_ascending (d : Directory) :
    (loadAll d).1.Pairwise (fun t u => t.name < u.name) := by
  apply loadFiles_ascending (d.filter isTableFile).ascending
  rintro ⟨file, entry⟩ hm
  have hkept := (List.mem_filter.1 hm).2
  cases entry with
  | folder => cases hkept
  | file content => exact hkept

end Storage

namespace Catalog

theorem tables_ofTables {tables : List (Table Value)} (h : (tables.map (·.name)).Nodup) :
    (ofTables tables).tables = tables := by
  have hnames : (Record.names (tables.map fun t => (t.name, t))).Nodup := by
    rwa [Record.names, List.map_map]
  rw [Catalog.tables, ofTables, Record.ofPairs_of_nodup hnames, Record.values, List.map_map]
  exact List.map_id tables

end Catalog

namespace Database

/-- A database opens on any directory whose path leaves room for the names of the table files in it,
with one table for each file that describes one, in the order of their names. -/
theorem open?_tables {location : Location} {d : Directory}
    (h : ∀ path entry, d.get? path = some entry → Storage.isTablePath path = true →
      Path.bytesBefore location.path + path.byteSize ≤ Path.maxBytes) :
    ∃ db events, open? location d = some (db, events) ∧ db.directory = d ∧
      db.catalog.tables = (Storage.loadAll d).1 ∧
      (∀ t, t ∈ (Storage.loadAll d).1 ↔ Storage.FileDescribes d t) ∧
      (Storage.loadAll d).1.Pairwise (fun t u => t.name < u.name) := by
  have hascending := Storage.loadAll_ascending d
  have hnodup : ((Storage.loadAll d).1.map (·.name)).Nodup := by
    rw [List.nodup_iff_pairwise_ne, List.pairwise_map]
    apply hascending.imp
    intro t u hlt heq
    exact List.lt_irrefl _ (heq ▸ hlt)
  refine ⟨_, _, if_pos (Storage.canLoad_iff.2 h), rfl, Catalog.tables_ofTables hnodup, ?_,
    hascending⟩
  intro t
  exact Storage.mem_loadAll_iff_describes

theorem open?_tables_mixed :
    let location : Location := ⟨"data".toList, "/data".toList⟩
    let document : Text := "\x7b\"rows\":[\x7b\"a\":1,\"a\":-2\x7d], \"x\":1e3,\"columns\":".toList ++
      "[\x7b\"name\":\"a\",\"type\":\"Int\"\x7d],\"name\":\"\\u0074\"\x7d".toList
    let refused : Text := "\x7b\"name\":\"u\",\"columns\":[\x7b\"name\":\"a\",".toList ++
      "\"type\":\"INT\"\x7d],\"rows\":[\x7b\"a\":true\x7d]\x7d".toList
    let d := (((Directory.empty.insert "t.dat".toList
      (.file (String.ofList document).toUTF8)).insert "u.dat".toList
      (.file (String.ofList refused).toUTF8)).insert "v.dat".toList
      (.file ⟨#[0xff]⟩)).insert "w.dat".toList .folder
    let t : Table Value := ⟨"t".toList, [⟨"a".toList, .int⟩], [[("a".toList, .int (-2))]]⟩
    Storage.canLoad location d = true ∧
      ∃ db events, open? location d = some (db, events) ∧ db.catalog.tables = [t] ∧
        Storage.FileDescribes d t := by
  intro location document refused d t
  have hload : Storage.canLoad location d = true := by decide +kernel
  have htables : (Storage.loadAll d).1 = [t] := by decide +kernel
  obtain ⟨db, events, hopen, -, hcatalog, hmem, -⟩ := open?_tables (Storage.canLoad_iff.1 hload)
  refine ⟨hload, db, events, hopen, hcatalog.trans htables, (hmem t).1 ?_⟩
  rw [htables]
  exact List.mem_singleton_self t

/-- A directory reached by a path of 4091 bytes is not opened if it holds a table file. -/
theorem open?_fails_below_long_path :
    ¬ ∀ (location : Location) (d : Directory), ∃ db events, open? location d = some (db, events) := by
  intro h
  let location : Location := ⟨(List.replicate 818 "d/../".toList).flatten ++ ['d'], "/data/d".toList⟩
  let d := Directory.empty.insert "t.dat".toList (.file ByteArray.empty)
  have hload : Storage.canLoad location d = false := by decide +kernel
  obtain ⟨db, events, hopen⟩ := h location d
  rw [open?, hload] at hopen
  cases hopen

end Database
end LineTables
