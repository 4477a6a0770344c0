import LineTables.Proofs.Json.Codec
import LineTables.Proofs.Record
import LineTables.Proofs.Table.Described

/-!
# Documents of well-formed tables

A well-formed table is read back from its document, and the document from its written form: the names
of columns and fields are distinct, and integers of 64 bits have fewer digits than the limit.
-/

set_option autoImplicit false

namespace LineTables

namespace Row

theorem fits_admits {columns : List Column} {row : Row Value} (h : Fits columns row)
    {cell : Text × Value} (hm : cell ∈ row) : ∃ c ∈ columns, c.type.Admits cell.2 := by
  induction h with
  | nil => cases hm
  | @cons c head columns row hcell hrest ih =>
    rcases List.mem_cons.1 hm with rfl | hm
    · exact ⟨c, List.mem_cons_self, hcell.2⟩
    · obtain ⟨d, hd, hadmits⟩ := ih hm
      exact ⟨d, List.mem_cons_of_mem c hd, hadmits⟩

def toJson (row : Row Value) : Json := .object (Record.mapValues Value.toJson row)

theorem names_mapValues (row : Row Value) :
    Record.names (Record.mapValues Value.toJson row) = Record.names row := by
  rw [Record.names, Record.mapValues, List.map_map]
  rfl

theorem get?_mapValues (row : Row Value) (name : Text) :
    Record.get? name (Record.mapValues Value.toJson row) =
      (Record.get? name row).map Value.toJson := by
  induction row with
  | nil => rfl
  | cons cell row ih =>
    obtain ⟨key, value⟩ := cell
    show (if key = name then some value.toJson else
      Record.get? name (Record.mapValues Value.toJson row)) = _
    rw [Record.get?]
    by_cases hk : key = name
    · rw [if_pos hk, if_pos hk]
      rfl
    · rw [if_neg hk, if_neg hk, ih]

end Row

namespace Table

theorem describedBy_toDocument {c : Column} (h : isValidName c.name = true) :
    c.DescribedBy c.toDocument := by
  have hcapital : Text.capitalized c.type.keyword = c.type.keyword :=
    DataType.ofKeyword?_eq_some_iff.1 (DataType.ofKeyword?_keyword c.type)
  exact .object rfl h rfl hcapital

theorem describedBy_toJson {columns : List Column} {row : Row Value}
    (hd : (columns.map (·.name)).Nodup) (h : Row.Fits columns row) :
    Row.DescribedBy columns row row.toJson := by
  have hnames := Row.fits_names h
  have hnodup : (Record.names row).Nodup := by rwa [hnames]
  refine .object ?_ h ?_
  · intro name
    rw [Row.names_mapValues, hnames]
  · intro cell hm
    rw [Row.get?_mapValues, Record.get?_of_mem hnodup hm]
    rfl

def fields (t : Table Value) : List (Text × Json) :=
  [(nameField, .str t.name), (columnsField, .array (t.columns.map Column.toDocument)),
    (rowsField, .array (t.rows.map Row.toJson))]

theorem document_eq (t : Table Value) : t.document = .object t.fields := by
  rw [document, toDocument, fields, mapCells, List.map_map]
  rfl

theorem describedBy_fields {t : Table Value} (h : t.WellFormed) : t.DescribedBy t.fields := by
  have hcolumns : List.Forall₂ Column.DescribedBy t.columns (t.columns.map Column.toDocument) :=
    List.forall₂_map_right_iff.2 (List.forall₂_same.2 fun c hc =>
      describedBy_toDocument (h.columnNames c hc))
  have hrows : List.Forall₂ (Row.DescribedBy t.columns) t.rows (t.rows.map Row.toJson) :=
    List.forall₂_map_right_iff.2 (List.forall₂_same.2 fun row hr =>
      describedBy_toJson h.distinct (h.rows row hr))
  exact {
    name := rfl
    validName := h.name
    columns := ⟨_, rfl, hcolumns⟩
    columns_ne := h.columns_ne
    distinct := h.distinct
    rows := Or.inr ⟨_, rfl, hrows⟩ }

theorem ofDocument?_fields {t : Table Value} (h : t.WellFormed) :
    ofDocument? t.fields = .ok t :=
  ofDocument?_ok_iff.2 (describedBy_fields h)

theorem readable_toJson {type : DataType} {value : Value} (h : type.Admits value) :
    Json.Readable Text.maxDigits value.toJson := by
  cases value with
  | int i =>
    cases type with
    | int => exact length_ofNat_of_admits h
    | string => exact h.elim
  | text t => trivial

theorem readable_document {t : Table Value} (h : t.WellFormed) :
    Json.Readable Text.maxDigits t.document := by
  have hcolumns : ∀ item ∈ t.columns.map Column.toDocument, Json.Readable Text.maxDigits item := by
    intro item hm
    obtain ⟨c, -, rfl⟩ := List.mem_map.1 hm
    have hnames : [nameField, typeField].Nodup := by decide
    exact ⟨hnames, trivial, trivial, trivial⟩
  have hrows : ∀ item ∈ t.rows.map Row.toJson, Json.Readable Text.maxDigits item := by
    intro item hm
    obtain ⟨row, hrow, rfl⟩ := List.mem_map.1 hm
    have hfits := h.rows row hrow
    constructor
    · rw [Row.names_mapValues, Row.fits_names hfits]
      exact h.distinct
    · rw [Json.readableFields_iff]
      intro field hf
      obtain ⟨cell, hcell, rfl⟩ := List.mem_map.1 hf
      obtain ⟨c, -, hadmits⟩ := Row.fits_admits hfits hcell
      exact readable_toJson hadmits
  have hnames : [nameField, columnsField, rowsField].Nodup := by decide
  rw [document_eq]
  refine ⟨hnames, trivial, ?_, ?_, trivial⟩
  · exact Json.readableItems_iff.2 hcolumns
  · exact Json.readableItems_iff.2 hrows

end Table
end LineTables
