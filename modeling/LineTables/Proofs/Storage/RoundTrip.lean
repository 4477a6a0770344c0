import LineTables.Proofs.Storage.Codec

/-!
# Tables survive their files

A well-formed table whose file has room is written, and read back from the bytes of its file as it was,
with every character of its texts. The bytes tell it from every other table. A short name alone is not
enough: the path of the directory may be so long that no file can be put under it.
-/

set_option autoImplicit false

namespace LineTables.Storage

theorem write_of_canWrite {location : Location} {d : Directory} {t : Table Value}
    (ht : t.WellFormed) (hw : CanWrite location d t.name) :
    write location d (t.mapCells Value.toJson) =
      (d.insert (fileName t.name) (.file (encoded t.document)), none) := by
  have hwrite := write_eq location d (t := t.mapCells Value.toJson) ht.name
  exact hwrite.trans (if_pos hw)

theorem encoded_injective {t u : Table Value} (ht : t.WellFormed) (hu : u.WellFormed)
    (h : encoded u.document = encoded t.document) : u = t := by
  have hdecoded := decoded?_encoded hu
  rw [h, decoded?_encoded ht] at hdecoded
  have hfields : t.fields = u.fields := Json.object.inj (Option.some.inj hdecoded)
  have hread := Table.ofDocument?_fields ht
  rw [hfields, Table.ofDocument?_fields hu] at hread
  exact Except.ok.inj hread

/-- Writing a well-formed table succeeds where no folder has the name of its file and the name and the
paths are short enough; its file then gives the table back, and no other table has the same bytes. -/
theorem written_table_read_back {location : Location} {d : Directory} {t : Table Value}
    (ht : t.WellFormed) (hw : CanWrite location d t.name) :
    ∃ after, write location d (t.mapCells Value.toJson) = (after, none) ∧
      after.get? (fileName t.name) = some (.file (encoded t.document)) ∧
      read location after (fileName t.name) = .ok t ∧
      ∀ u : Table Value, u.WellFormed → encoded u.document = encoded t.document → u = t := by
  have hunder : tableUnder (write location d (t.mapCells Value.toJson)).1 t.name = some t := by
    rw [tableUnder_write location d ht, if_pos ⟨rfl, hw⟩]
  rw [write_of_canWrite ht hw] at hunder
  refine ⟨_, write_of_canWrite ht hw, Directory.get?_insert_self d _ _, ?_, ?_⟩
  · exact read_of_tableUnder hw.1 hunder
  · intro u hu h
    exact encoded_injective ht hu h

theorem written_table_read_back_marks :
    let location : Location := ⟨"data".toList, "/data".toList⟩
    let t : Table Value := ⟨"t".toList, [⟨"a".toList, .int⟩, ⟨"b".toList, .string⟩],
      [[("a".toList, .int (-0x8000000000000000)), ("b".toList, .text "\"\\/\n\x00\x7f\u2028😀".toList)],
        [("a".toList, .int 0x7fffffffffffffff), ("b".toList, .text [])]]⟩
    t.WellFormed ∧ CanWrite location Directory.empty t.name ∧
      ∃ after, write location Directory.empty (t.mapCells Value.toJson) = (after, none) ∧
        read location after (fileName t.name) = .ok t := by
  intro location t
  have ht : t.WellFormed := {
    name := by decide
    columns_ne := by decide
    columnNames := by decide
    distinct := by decide
    rows := by
      intro row hrow
      simp only [t, List.mem_cons, List.not_mem_nil, or_false] at hrow
      rcases hrow with rfl | rfl <;>
        exact .cons ⟨rfl, by decide, by decide⟩ (.cons ⟨rfl, trivial⟩ .nil) }
  have hw : CanWrite location Directory.empty t.name := by decide
  obtain ⟨after, hwrite, -, hread, -⟩ := written_table_read_back ht hw
  exact ⟨ht, hw, after, hwrite, hread⟩

/-- A directory reached by a path of 4091 bytes has no room for the file of a table with one letter. -/
theorem write_fails_below_long_path :
    ¬ ∀ (location : Location) (d : Directory) (t : Table Value), t.WellFormed →
      t.name.length ≤ 237 → d.get? (fileName t.name) ≠ some .folder →
        (write location d (t.mapCells Value.toJson)).2 = none := by
  intro h
  let location : Location := ⟨(List.replicate 818 "d/../".toList).flatten ++ ['d'], "/data/d".toList⟩
  let t : Table Value := ⟨"t".toList, [⟨"a".toList, .int⟩], []⟩
  have ht : t.WellFormed := {
    name := by decide
    columns_ne := by decide
    columnNames := by decide
    distinct := by decide
    rows := by
      intro row hrow
      cases hrow }
  have hroom : ¬ CanWrite location Directory.empty t.name := by
    decide +kernel
  have hwrite := write_eq location Directory.empty (t := t.mapCells Value.toJson) ht.name
  have hfails := h location Directory.empty t ht (by decide) (by decide)
  rw [hwrite.trans (if_neg hroom)] at hfails
  cases hfails

end LineTables.Storage
