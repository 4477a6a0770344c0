import LineTables.Proofs.Table.Described
import LineTables.Storage

/-!
# Tables that files give

A file gives a table exactly if its bytes are the document of one with the name of the file. The tables
of a directory are those that its table files give, each file on its own.
-/

set_option autoImplicit false

namespace LineTables.Storage

theorem tableOf_ok_iff {path file : Text} {document : Json} {t : Table Value} :
    tableOf path file document = .ok t ↔
      ∃ fields, document = .object fields ∧ Table.ofDocument? fields = .ok t ∧
        tableName file = t.name := by
  cases document with
  | object fields =>
    simp only [Json.object.injEq, exists_eq_left']
    rw [tableOf]
    cases hread : Table.ofDocument? fields with
    | error cause => simp
    | ok u =>
      dsimp only
      by_cases hname : tableName file = u.name
      · rw [if_pos hname]
        constructor
        · intro h
          cases h
          exact ⟨rfl, hname⟩
        · rintro ⟨h, -⟩
          exact congrArg Except.ok (Except.ok.inj h)
      · rw [if_neg hname]
        constructor
        · intro h
          cases h
        · rintro ⟨h, heq⟩
          cases h
          exact absurd heq hname
  | _ => simp [tableOf]

theorem tableOfContent_ok_iff {path file : Text} {content : ByteArray} {t : Table Value} :
    tableOfContent path file content = .ok t ↔
      ∃ fields, decoded? content = some (.object fields) ∧ Table.ofDocument? fields = .ok t ∧
        tableName file = t.name := by
  rw [tableOfContent]
  cases decoded? content with
  | none => simp
  | some document => simp [tableOf_ok_iff]

theorem tableOfContent_wellFormed {path file : Text} {content : ByteArray} {t : Table Value}
    (h : tableOfContent path file content = .ok t) : t.WellFormed := by
  obtain ⟨fields, -, hok, -⟩ := tableOfContent_ok_iff.1 h
  exact (Table.ofDocument?_ok_iff.1 hok).wellFormed

theorem mem_loadFiles_iff {files : List (Text × Entry)} {t : Table Value} :
    t ∈ (loadFiles files).1 ↔
      ∃ file content, (file, .file content) ∈ files ∧ tableOfContent file file content = .ok t := by
  induction files with
  | nil => simp [loadFiles]
  | cons head files ih =>
    obtain ⟨file, entry⟩ := head
    cases entry with
    | folder => simp [loadFiles, ih]
    | file content =>
      have hsplit : (∃ f c, (f, Entry.file c) ∈ (file, Entry.file content) :: files ∧
          tableOfContent f f c = .ok t) ↔
          tableOfContent file file content = .ok t ∨ t ∈ (loadFiles files).1 := by
        rw [ih]
        constructor
        · rintro ⟨f, c, hm, hok⟩
          rcases List.mem_cons.1 hm with h | hm
          · cases h
            exact Or.inl hok
          · exact Or.inr ⟨f, c, hm, hok⟩
        · rintro (hok | ⟨f, c, hm, hok⟩)
          · exact ⟨file, content, List.mem_cons_self, hok⟩
          · exact ⟨f, c, List.mem_cons_of_mem _ hm, hok⟩
      rw [hsplit, loadFiles]
      cases hread : tableOfContent file file content with
      | ok u => simp [eq_comm]
      | error e => simp

theorem mem_loadAll_iff {d : Directory} {t : Table Value} :
    t ∈ (loadAll d).1 ↔ ∃ file content, isTablePath file = true ∧
      d.get? file = some (.file content) ∧ tableOfContent file file content = .ok t := by
  have hmem : ∀ file content, (file, Entry.file content) ∈ (d.filter isTableFile).entries ↔
      isTablePath file = true ∧ d.get? file = some (.file content) := by
    intro file content
    rw [Directory.get?, Directory.get?_eq_some_iff_mem d.ascending, Directory.filter,
      List.mem_filter, and_comm]
    rfl
  rw [loadAll, mem_loadFiles_iff]
  simp only [hmem, and_assoc]

end LineTables.Storage
