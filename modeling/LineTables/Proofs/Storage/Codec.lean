import LineTables.Proofs.Storage.Loading
import LineTables.Proofs.Table.Codec
import LineTables.Proofs.Text.Cutting

/-!
# Table files written and read

The file of a table with a valid name stands at the top of the directory. Writing it succeeds where its
name and its paths are short enough and no folder has its name, and what was written is read back as the
table it was. Only the entry under the name of the file is ever touched.
-/

set_option autoImplicit false

namespace LineTables
open Text

namespace Path

structure Single (file : Text) : Prop where
  noSlash : '/' ∉ file
  ne_nil : file ≠ []
  ne_dot : file ≠ ['.']
  ne_up : file ≠ up

namespace Single

variable {file : Text}

theorem names_eq (h : Single file) : names file = [file] := by
  rw [names, cutAt, cutWhere_eq_singleton (not_separates h.noSlash)]
  simp [h.ne_nil, h.ne_dot]

theorem head_ne_slash (h : Single file) : ∃ c rest, file = c :: rest ∧ c ≠ '/' := by
  cases hfile : file with
  | nil => exact absurd hfile h.ne_nil
  | cons c rest =>
    refine ⟨c, rest, rfl, ?_⟩
    rintro rfl
    exact h.noSlash (by simp [hfile])

theorem shown_eq (h : Single file) : shown file = file := by
  obtain ⟨c, rest, hfile, hc⟩ := h.head_ne_slash
  have hnone : file.takeWhile (· == '/') = [] := by
    rw [hfile, List.takeWhile_cons_of_neg (by simpa using hc)]
  have hleading : leadingSlashes file = [] := by
    rw [leadingSlashes, hnone]
    rfl
  have hempty : file.isEmpty = false := by simpa using h.ne_nil
  rw [shown, hleading, h.names_eq, List.nil_append]
  show (if file.isEmpty = true then ['.'] else file) = file
  rw [hempty, if_neg Bool.false_ne_true]

theorem isAbsolute_eq (h : Single file) : isAbsolute file = false := by
  obtain ⟨c, rest, hfile, hc⟩ := h.head_ne_slash
  rw [isAbsolute, hfile, List.head?_cons, beq_eq_false_iff_ne]
  intro heq
  exact hc (Option.some.inj heq)

theorem leadsOut_eq (h : Single file) : leadsOut file = false := by
  rw [leadsOut, h.isAbsolute_eq, h.names_eq, Bool.false_or, leadsAbove, if_neg h.ne_up, leadsAbove]

end Single
end Path

namespace Storage

theorem isTablePath_iff {path : Text} :
    isTablePath path = true ↔ '/' ∉ path ∧ ∃ name, path = fileName name := by
  rw [isTablePath, Bool.and_eq_true, List.isSuffixOf_iff_suffix]
  constructor
  · rintro ⟨hslash, name, hname⟩
    exact ⟨by simpa using hslash, name, hname.symm⟩
  · rintro ⟨hslash, name, hname⟩
    exact ⟨by simpa using hslash, name, hname.symm⟩

theorem single_of_isTablePath {path : Text} (h : isTablePath path = true) : Path.Single path := by
  obtain ⟨hslash, name, hname⟩ := isTablePath_iff.1 h
  have hlength : 4 ≤ path.length := by
    rw [hname, fileName, List.length_append]
    exact Nat.le_add_left _ _
  have hshort : ∀ other : Text, other.length < 4 → path ≠ other := by
    rintro other hother rfl
    omega
  exact ⟨hslash, hshort [] (by decide), hshort ['.'] (by decide), hshort Path.up (by decide)⟩

theorem not_mem_of_isValidName {name : Text} (h : isValidName name = true) {c : Char}
    (hc : isNameChar c = false) : c ∉ name := by
  intro hm
  simp only [isValidName, Bool.and_eq_true, List.all_eq_true] at h
  rw [h.2 c hm] at hc
  cases hc

theorem not_mem_fileName {name : Text} (h : isValidName name = true) {c : Char}
    (hc : isNameChar c = false) (hs : c ∉ suffix) : c ∉ fileName name := by
  rw [fileName, List.mem_append]
  rintro (hm | hm)
  · exact not_mem_of_isValidName h hc hm
  · exact hs hm

theorem isTablePath_fileName {name : Text} (h : isValidName name = true) :
    isTablePath (fileName name) = true :=
  isTablePath_iff.2 ⟨not_mem_fileName h (by decide) (by decide), name, rfl⟩

theorem fileName_inj {name other : Text} : fileName name = fileName other ↔ name = other := by
  rw [fileName, fileName, List.append_left_inj]

theorem byteSize_fileName {name : Text} (h : isValidName name = true) :
    (fileName name).byteSize = name.length + 4 := by
  have hone : ∀ c, isNameChar c = true → c.utf8Size = 1 := by
    intro c hc
    rw [Char.utf8Size_eq_one_iff, UInt32.le_iff_toNat_le]
    rcases isNameChar_iff.1 hc with (hc | hc) | hc <;> exact Nat.le_trans hc.2 (by decide)
  have hname : ∀ t : Text, t.all isNameChar = true → (t ++ suffix).byteSize = t.length + 4 := by
    intro t ht
    induction t with
    | nil => rfl
    | cons c t ih =>
      rw [List.all_cons, Bool.and_eq_true] at ht
      rw [List.cons_append, byteSize, hone c ht.1, ih ht.2, List.length_cons]
      omega
  simp only [isValidName, Bool.and_eq_true] at h
  exact hname name h.2

theorem hasNull_fileName {name : Text} (h : isValidName name = true) :
    (fileName name).hasNull = false := by
  have hm := not_mem_fileName h (c := '\x00') (by decide) (by decide)
  simpa [hasNull] using hm

/-- The name and the paths of a table file, and those of the temporary one beside it, are short
enough: a table name has at most 237 characters, and the path of the directory leaves room for it. -/
structure HasRoom (location : Location) (name : Text) : Prop where
  shortName : name.length ≤ 237
  shortRoot : Path.bytesBefore location.root + name.length + 18 ≤ Path.maxBytes
  shortPath : Path.bytesBefore location.path + name.length + 4 ≤ Path.maxBytes

instance (location : Location) (name : Text) : Decidable (HasRoom location name) :=
  decidable_of_iff (name.length ≤ 237 ∧
      Path.bytesBefore location.root + name.length + 18 ≤ Path.maxBytes ∧
      Path.bytesBefore location.path + name.length + 4 ≤ Path.maxBytes)
    ⟨fun h => ⟨h.1, h.2.1, h.2.2⟩, fun h => ⟨h.1, h.2, h.3⟩⟩

/-- The file of the table can be written. -/
def CanWrite (location : Location) (d : Directory) (name : Text) : Prop :=
  HasRoom location name ∧ d.get? (fileName name) ≠ some .folder

instance (location : Location) (d : Directory) (name : Text) :
    Decidable (CanWrite location d name) :=
  inferInstanceAs (Decidable (_ ∧ _))

theorem refused_iff_not_canWrite (location : Location) (d : Directory) {name : Text}
    (h : isValidName name = true) :
    (decide (Path.maxNameBytes < temporarySize (fileName name)) ||
      decide (Path.maxBytes < Path.bytesBefore location.root + temporarySize (fileName name)) ||
      decide (Path.maxBytes < Path.bytesBefore location.path + (fileName name).byteSize) ||
      d.hasFolder (fileName name)) = true ↔ ¬ CanWrite location d name := by
  have hempty : (fileName name).isEmpty = false := by
    simpa using (single_of_isTablePath (isTablePath_fileName h)).ne_nil
  have hfolder : d.hasFolder (fileName name) = true ↔ d.get? (fileName name) = some .folder := by
    rw [Directory.hasFolder, hempty, Bool.false_or, beq_iff_eq]
  simp only [Bool.or_eq_true, decide_eq_true_eq, hfolder, temporarySize, byteSize_fileName h,
    CanWrite]
  constructor
  · rintro (((h | h) | h) | h) ⟨hroom, hnone⟩
    · have hshort := hroom.shortName
      rw [Path.maxNameBytes] at h
      omega
    · have hshort := hroom.shortRoot
      omega
    · have hshort := hroom.shortPath
      omega
    · exact hnone h
  · intro h
    by_cases hf : d.get? (fileName name) = some .folder
    · exact Or.inr hf
    · left
      rw [Path.maxNameBytes]
      by_contra hlong
      apply h
      refine ⟨⟨?_, ?_, ?_⟩, hf⟩ <;> omega

/-- A write puts the document of the table under the name of its file, or changes nothing. -/
theorem write_eq (location : Location) (d : Directory) {t : Table Json}
    (ht : isValidName t.name = true) :
    write location d t =
      if CanWrite location d t.name then
        (d.insert (fileName t.name) (.file (encoded t.toDocument)), none)
      else (d, some (.writeFailed (fileName t.name))) := by
  have hsingle := single_of_isTablePath (isTablePath_fileName ht)
  have hcan := refused_iff_not_canWrite location d ht
  have hmake : d.makePath [] (Path.bytesBefore location.path) (Path.ofNames []) =
      if Path.maxBytes < Path.bytesBefore location.path then (d, none) else (d, some []) := by
    rfl
  rw [write]
  simp only [hsingle.shown_eq, hsingle.names_eq, hsingle.leadsOut_eq, List.getLast?_singleton,
    Option.getD_some, List.dropLast_singleton, List.any_nil, hmake]
  rw [if_neg Bool.false_ne_true, if_neg Bool.false_ne_true]
  by_cases hbytes : Path.maxBytes < Path.bytesBefore location.path
  · have hnot : ¬ CanWrite location d t.name := by
      intro h
      have hshort := h.1.shortPath
      omega
    rw [if_pos hbytes, if_neg hnot]
  · rw [if_neg hbytes]
    dsimp only
    rw [hasNull_fileName ht, if_neg Bool.false_ne_true]
    by_cases hwrite : CanWrite location d t.name
    · rw [if_pos hwrite]
      exact if_neg fun h => hcan.1 h hwrite
    · rw [if_neg hwrite]
      exact if_pos (hcan.2 hwrite)

theorem get?_write (location : Location) (d : Directory) {t : Table Json}
    (ht : isValidName t.name = true) (path : Text) :
    (write location d t).1.get? path =
      if path = fileName t.name ∧ CanWrite location d t.name then
        some (.file (encoded t.toDocument))
      else d.get? path := by
  rw [write_eq location d ht]
  by_cases hwrite : CanWrite location d t.name
  · rw [if_pos hwrite]
    by_cases hpath : path = fileName t.name
    · rw [if_pos ⟨hpath, hwrite⟩, hpath, Directory.get?_insert_self]
    · rw [if_neg fun h => hpath h.1, Directory.get?_insert_of_ne d hpath]
  · rw [if_neg hwrite, if_neg fun h => hwrite h.2]

/-- The table that the file of the name gives. -/
def tableUnder (d : Directory) (name : Text) : Option (Table Value) :=
  match d.get? (fileName name) with
  | some (.file content) => (tableOfContent (fileName name) (fileName name) content).toOption
  | _ => none

theorem tableUnder_eq_some_iff {d : Directory} {name : Text} {t : Table Value} :
    tableUnder d name = some t ↔ ∃ content, d.get? (fileName name) = some (.file content) ∧
      tableOfContent (fileName name) (fileName name) content = .ok t := by
  have hread : ∀ x : Except StorageError (Table Value), x.toOption = some t ↔ x = .ok t := by
    intro x
    cases x <;> simp [Except.toOption]
  rw [tableUnder]
  cases hd : d.get? (fileName name) with
  | none => simp
  | some entry =>
    cases entry with
    | folder => simp
    | file content => simp [hread]

theorem wellFormed_of_tableUnder {d : Directory} {name : Text} {t : Table Value}
    (h : tableUnder d name = some t) : t.name = name ∧ t.WellFormed := by
  obtain ⟨content, -, hread⟩ := tableUnder_eq_some_iff.1 h
  obtain ⟨fields, -, -, hname⟩ := tableOfContent_ok_iff.1 hread
  rw [tableName_fileName] at hname
  exact ⟨hname.symm, tableOfContent_wellFormed hread⟩

theorem eq_fileName_of_tableOfContent {path : Text} {content : ByteArray} {t : Table Value}
    (hpath : isTablePath path = true) (h : tableOfContent path path content = .ok t) :
    path = fileName t.name := by
  obtain ⟨-, name, hfile⟩ := isTablePath_iff.1 hpath
  obtain ⟨fields, -, -, hname⟩ := tableOfContent_ok_iff.1 h
  rw [hfile, tableName_fileName] at hname
  rw [hfile, hname]

theorem tableUnder_of_isTablePath {d : Directory} {path : Text} {content : ByteArray}
    {t : Table Value} (hpath : isTablePath path = true) (hd : d.get? path = some (.file content))
    (h : tableOfContent path path content = .ok t) : tableUnder d t.name = some t := by
  rw [eq_fileName_of_tableOfContent hpath h] at hd h
  exact tableUnder_eq_some_iff.2 ⟨content, hd, h⟩

theorem mem_loadAll_iff_tableUnder {d : Directory} {t : Table Value} :
    t ∈ (loadAll d).1 ↔ tableUnder d t.name = some t := by
  rw [mem_loadAll_iff]
  constructor
  · rintro ⟨file, content, hfile, hd, hread⟩
    exact tableUnder_of_isTablePath hfile hd hread
  · intro h
    obtain ⟨content, hd, hread⟩ := tableUnder_eq_some_iff.1 h
    exact ⟨fileName t.name, content, isTablePath_fileName (wellFormed_of_tableUnder h).2.name, hd,
      hread⟩

theorem decoded?_encoded {t : Table Value} (h : t.WellFormed) :
    decoded? (encoded t.document) = some (.object t.fields) := by
  rw [decoded?, encoded, characters?_toUTF8, ← Table.document_eq]
  exact Json.read?_written (Table.readable_document h)

theorem tableOfContent_encoded {t : Table Value} (h : t.WellFormed) :
    tableOfContent (fileName t.name) (fileName t.name) (encoded t.document) = .ok t := by
  rw [tableOfContent_ok_iff]
  exact ⟨t.fields, decoded?_encoded h, Table.ofDocument?_fields h, tableName_fileName t.name⟩

theorem tableUnder_write (location : Location) (d : Directory) {t : Table Value}
    (ht : t.WellFormed) (name : Text) :
    tableUnder (write location d (t.mapCells Value.toJson)).1 name =
      if name = t.name ∧ CanWrite location d t.name then some t else tableUnder d name := by
  have hget := get?_write location d (t := t.mapCells Value.toJson) ht.name (fileName name)
  by_cases hname : name = t.name ∧ CanWrite location d t.name
  · rw [if_pos hname, tableUnder_eq_some_iff]
    rw [if_pos ⟨fileName_inj.2 hname.1, hname.2⟩] at hget
    refine ⟨encoded t.document, hget, ?_⟩
    rw [hname.1]
    exact tableOfContent_encoded ht
  · rw [if_neg hname, tableUnder, tableUnder]
    rw [if_neg fun h => hname ⟨fileName_inj.1 h.1, h.2⟩] at hget
    rw [hget]

theorem canLoad_iff {location : Location} {d : Directory} :
    canLoad location d = true ↔ ∀ path entry, d.get? path = some entry → isTablePath path = true →
      Path.bytesBefore location.path + path.byteSize ≤ Path.maxBytes := by
  rw [canLoad, List.all_eq_true]
  constructor
  · intro h path entry hd hpath
    have hentry := h _ ((Directory.get?_eq_some_iff_mem d.ascending).1 hd)
    simpa [hpath] using hentry
  · rintro h ⟨path, entry⟩ hm
    have hd := (Directory.get?_eq_some_iff_mem d.ascending).2 hm
    cases hpath : isTablePath path with
    | false => simp [hpath]
    | true => simpa [hpath] using h path entry hd hpath

theorem canLoad_write {location : Location} {d : Directory} {t : Table Json}
    (hname : isValidName t.name = true) (h : canLoad location d = true) :
    canLoad location (write location d t).1 = true := by
  rw [canLoad_iff] at h ⊢
  intro path entry hd hpath
  rw [get?_write location d hname path] at hd
  split at hd
  · rename_i hwritten
    have hshort := hwritten.2.1.shortPath
    rw [hwritten.1, byteSize_fileName hname]
    omega
  · exact h path entry hd hpath

theorem get?_deleteAll (d : Directory) (path : Text) :
    (deleteAll d).1.get? path = (d.get? path).filter (fun entry => !isTableFile path entry) :=
  Directory.get?_filter d _ path

theorem canLoad_deleteAll {location : Location} {d : Directory} (h : canLoad location d = true) :
    canLoad location (deleteAll d).1 = true := by
  rw [canLoad_iff] at h ⊢
  intro path entry hd hpath
  rw [get?_deleteAll, Option.filter_eq_some_iff] at hd
  exact h path entry hd.1 hpath

theorem deleteAll_deleteAll (d : Directory) : (deleteAll (deleteAll d).1).1 = (deleteAll d).1 := by
  apply Directory.ext
  intro path
  simp only [get?_deleteAll, Option.filter_filter, Bool.and_self]

theorem tableUnder_deleteAll (d : Directory) (name : Text) :
    tableUnder (deleteAll d).1 name = none := by
  rw [Option.eq_none_iff_forall_ne_some]
  intro t h
  obtain ⟨hname, hwell⟩ := wellFormed_of_tableUnder h
  have hpath := isTablePath_fileName hwell.name
  obtain ⟨content, hd, -⟩ := tableUnder_eq_some_iff.1 h
  rw [get?_deleteAll, Option.filter_eq_some_iff, isTableFile, ← hname, hpath] at hd
  cases hd.2

theorem sight_single {d : Directory} {path : Text} (h : Path.Single path) (bytes : Nat) :
    d.sight [] bytes path =
      if path.hasNull then .nothing
      else if Path.maxBytes < bytes + path.byteSize ∨ Path.maxNameBytes < path.byteSize then .tooLong
      else
        match d.get? path with
        | some .folder => .folder
        | some (.file content) => .file content
        | none => .nothing := by
  have hcut : cutAt '/' path = [path] := cutWhere_eq_singleton (not_separates h.noSlash)
  have hempty : path.isEmpty = false := by simpa using h.ne_nil
  -- One name at the top: no folder is passed on the way, so what is seen is the entry itself.
  have hlook : d.look [] [path] =
      if Path.maxNameBytes < path.byteSize then .tooLong
      else
        match d.get? path with
        | some .folder => .folder
        | some (.file content) => .file content
        | none => .nothing := by
    rw [Directory.look]
    simp only [hempty, Bool.false_or, decide_eq_true_eq, h.ne_dot, h.ne_up, if_false]
    split
    · rfl
    · cases d.get? path with
      | none => rfl
      | some entry =>
        cases entry with
        | folder => rfl
        | file content => rfl
  rw [Directory.sight, h.isAbsolute_eq]
  simp only [hcut, List.nil_append, Bool.false_eq_true, ite_self]
  rw [hlook]
  split
  · rfl
  · by_cases hbytes : Path.maxBytes < bytes + path.byteSize
    · rw [if_pos hbytes, if_pos (Or.inl hbytes)]
    · rw [if_neg hbytes]
      by_cases hname : Path.maxNameBytes < path.byteSize
      · rw [if_pos hname, if_pos (Or.inr hname)]
      · rw [if_neg hname, if_neg (fun h => h.elim hbytes hname)]

theorem read_single {location : Location} {d : Directory} {path : Text} (h : Path.Single path)
    {t : Table Value} :
    read location d path = .ok t ↔ ∃ content,
      d.sight [] (Path.bytesBefore location.path) path = .file content ∧
        tableOfContent path path content = .ok t := by
  rw [read, h.shown_eq, h.names_eq, h.isAbsolute_eq]
  rw [if_neg Bool.false_ne_true]
  cases d.sight [] (Path.bytesBefore location.path) path with
  | file content => simp
  | _ => simp

theorem tableUnder_of_read {location : Location} {d : Directory} {path : Text} {t : Table Value}
    (hpath : isTablePath path = true) (h : read location d path = .ok t) :
    path = fileName t.name ∧ tableUnder d t.name = some t := by
  have hsingle := single_of_isTablePath hpath
  obtain ⟨content, hsight, hread⟩ := (read_single hsingle).1 h
  rw [sight_single hsingle] at hsight
  split at hsight
  · cases hsight
  · split at hsight
    · cases hsight
    · split at hsight
      · cases hsight
      · rename_i c hd
        cases hsight
        exact ⟨eq_fileName_of_tableOfContent hpath hread, tableUnder_of_isTablePath hpath hd hread⟩
      · cases hsight

theorem read_of_tableUnder {location : Location} {d : Directory} {name : Text} {t : Table Value}
    (hroom : HasRoom location name) (h : tableUnder d name = some t) :
    read location d (fileName name) = .ok t := by
  obtain ⟨hname, hwell⟩ := wellFormed_of_tableUnder h
  have hvalid : isValidName name = true := hname ▸ hwell.name
  have hsingle := single_of_isTablePath (isTablePath_fileName hvalid)
  obtain ⟨content, hd, hread⟩ := tableUnder_eq_some_iff.1 h
  have hshort : ¬ (Path.maxBytes < Path.bytesBefore location.path + (fileName name).byteSize ∨
      Path.maxNameBytes < (fileName name).byteSize) := by
    have hname := hroom.shortName
    have hpath := hroom.shortPath
    rw [byteSize_fileName hvalid, Path.maxNameBytes]
    omega
  rw [read_single hsingle]
  refine ⟨content, ?_, hread⟩
  rw [sight_single hsingle, hasNull_fileName hvalid, if_neg Bool.false_ne_true, if_neg hshort, hd]

end Storage
end LineTables
