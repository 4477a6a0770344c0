import Mathlib.Data.List.Forall2
import LineTables.Proofs.Table.WellFormed

/-!
# The documents of tables

An object describes a table if it gives the table its valid name, its columns, at least one and none
twice, and its rows, each an object with the names of the columns and no other, whose values stand for
cells of their types. Whatever else the object holds counts for nothing. The reader gives a table for
exactly the objects that describe it.
-/

set_option autoImplicit false

namespace LineTables
open Checks

/-- An object with the valid name of the column and with its type, in any case. -/
inductive Column.DescribedBy (c : Column) : Json → Prop
  | object {fields : Record Json} {type : Text} (hname : fields.get? nameField = some (.str c.name))
      (hvalid : isValidName c.name = true) (htype : fields.get? typeField = some (.str type))
      (hcapital : type.capitalized = c.type.keyword) : DescribedBy c (.object fields)

/-- An object with the names of the columns, whose values stand for the cells of the row; these come
in the order of the columns, whatever the order of the fields. -/
inductive Row.DescribedBy (columns : List Column) (row : Row Value) : Json → Prop
  | object {fields : Record Json}
      (hnames : ∀ name, name ∈ fields.names ↔ name ∈ columns.map (·.name))
      (hfits : Fits columns row) (hcells : ∀ cell ∈ row, fields.get? cell.1 = some cell.2.toJson) :
      DescribedBy columns row (.object fields)

namespace Table

/-- The object stands for the table. Rows that are absent or blank stand for none. -/
structure DescribedBy (t : Table Value) (fields : Record Json) : Prop where
  name : fields.get? nameField = some (.str t.name)
  validName : isValidName t.name = true
  columns : ∃ items, fields.get? columnsField = some (.array items) ∧
    List.Forall₂ Column.DescribedBy t.columns items
  columns_ne : t.columns ≠ []
  distinct : t.columnNames.Nodup
  rows : (t.rows = [] ∧ ∀ value, fields.get? rowsField = some value → value.isBlankValue = true) ∨
    ∃ items, fields.get? rowsField = some (.array items) ∧
      List.Forall₂ (Row.DescribedBy t.columns) t.rows items

end Table

theorem DataType.ofKeyword?_eq_some_iff {t : Text} {type : DataType} :
    ofKeyword? t = some type ↔ t.capitalized = type.keyword := by
  have hdistinct : int.keyword ≠ string.keyword := by decide
  rw [ofKeyword?]
  constructor
  · intro h
    split at h
    · cases h
      assumption
    · split at h
      · cases h
        assumption
      · cases h
  · intro h
    cases type with
    | int => rw [h, if_pos rfl]
    | string => rw [h, if_neg hdistinct.symm, if_pos rfl]

theorem value?_eq_some_iff {type : DataType} {json : Json} {value : Value} :
    type.value? json = some value ↔ type.Admits value ∧ json = value.toJson := by
  constructor
  · intro h
    cases type <;> cases json <;> simp only [DataType.value?, reduceCtorEq] at h
    case int.int i =>
      split at h
      · rename_i hr
        cases h
        exact ⟨admits_int_iff.2 hr, rfl⟩
      · cases h
    case string.str t =>
      cases h
      exact ⟨trivial, rfl⟩
  · rintro ⟨h, rfl⟩
    cases type with
    | int =>
      cases value with
      | int i => exact if_pos (admits_int_iff.1 h)
      | text t => exact h.elim
    | string =>
      cases value with
      | int i => exact h.elim
      | text t => rfl

theorem Column.ofDocument?_ok_iff {item : Json} {c : Column} :
    ofDocument? item = .ok c ↔ c.DescribedBy item := by
  constructor
  · intro h
    cases item with
    | object fields =>
      rw [ofDocument?, ofFields?.eq_def] at h
      split at h
      · rename_i hread
        cases h
        split at hread
        · rename_i name type hname htype
          split at hread
          · rename_i hvalid
            obtain ⟨type', hkeyword, rfl⟩ := Option.map_eq_some_iff.1 hread
            exact .object hname hvalid htype (DataType.ofKeyword?_eq_some_iff.1 hkeyword)
          · cases hread
        · cases hread
      · cases h
    | _ => cases h
  · rintro ⟨hname, hvalid, htype, hcapital⟩
    simp only [ofDocument?, ofFields?, hname, htype, hvalid, if_true,
      DataType.ofKeyword?_eq_some_iff.2 hcapital, Option.map_some]

namespace Table

theorem columnsOf_ok_iff {items : List Json} {columns : List Column} :
    columnsOf items = .ok columns ↔ List.Forall₂ Column.DescribedBy columns items := by
  induction items generalizing columns with
  | nil => simp [columnsOf, eq_comm]
  | cons item items ih =>
    simp only [columnsOf, bind_ok_iff, pure_ok_iff, ih, Column.ofDocument?_ok_iff]
    constructor
    · rintro ⟨c, hc, rest, hrest, rfl⟩
      exact .cons hc hrest
    · rintro (_ | ⟨hc, hrest⟩)
      exact ⟨_, hc, _, hrest, rfl⟩

theorem cellsOf_cons_ok_iff {table : Text} {fields : Record Json} {c : Column}
    {columns : List Column} {row : Row Value} :
    cellsOf table fields (c :: columns) = .ok row ↔ ∃ value rest, c.type.Admits value ∧
      fields.get? c.name = some value.toJson ∧ cellsOf table fields columns = .ok rest ∧
      row = (c.name, value) :: rest := by
  -- no cell is null, so an absent field is as good as one that holds null
  have hget : ∀ value : Value, (fields.get? c.name).getD .null = value.toJson ↔
      fields.get? c.name = some value.toJson := by
    intro value
    cases fields.get? c.name with
    | none => cases value <;> simp [Value.toJson]
    | some json => simp
  rw [cellsOf]
  constructor
  · intro h
    cases hv : c.type.value? ((fields.get? c.name).getD .null) with
    | none => simp only [hv] at h; cases h
    | some value =>
      simp only [hv, bind_ok_iff, pure_ok_iff] at h
      obtain ⟨rest, hrest, rfl⟩ := h
      obtain ⟨hadmits, hjson⟩ := value?_eq_some_iff.1 hv
      exact ⟨value, rest, hadmits, (hget value).1 hjson, hrest, rfl⟩
  · rintro ⟨value, rest, hadmits, hjson, hrest, rfl⟩
    simp only [value?_eq_some_iff.2 ⟨hadmits, (hget value).2 hjson⟩, bind_ok_iff]
    exact ⟨rest, hrest, rfl⟩

theorem cellsOf_ok_iff {table : Text} {fields : Record Json} {columns : List Column}
    {row : Row Value} : cellsOf table fields columns = .ok row ↔
      Row.Fits columns row ∧ ∀ cell ∈ row, fields.get? cell.1 = some cell.2.toJson := by
  induction columns generalizing row with
  | nil =>
    simp only [cellsOf, Row.Fits, List.forall₂_nil_left_iff]
    constructor
    · intro h
      cases h
      simp
    · rintro ⟨rfl, -⟩
      rfl
  | cons c columns ih =>
    simp only [cellsOf_cons_ok_iff, ih]
    constructor
    · rintro ⟨value, rest, hadmits, hjson, ⟨hfits, hcells⟩, rfl⟩
      exact ⟨.cons ⟨rfl, hadmits⟩ hfits, List.forall_mem_cons.2 ⟨hjson, hcells⟩⟩
    · rintro ⟨hfits, hcells⟩
      obtain _ | @⟨_, cell, _, rest, hcell, hfits⟩ := hfits
      obtain ⟨key, value⟩ := cell
      obtain ⟨rfl, hadmits⟩ : key = c.name ∧ c.type.Admits value := hcell
      obtain ⟨hjson, hcells⟩ := List.forall_mem_cons.1 hcells
      exact ⟨value, rest, hadmits, hjson, ⟨hfits, hcells⟩, rfl⟩

theorem sameNames_iff {columns : List Column} {fields : Record Json} :
    sameNames columns fields = true ↔
      ∀ name, name ∈ fields.names ↔ name ∈ columns.map (·.name) := by
  simp only [sameNames, Bool.and_eq_true, List.all_eq_true, Record.contains,
    Record.isSome_get?_iff, List.any_eq_true, beq_iff_eq, List.mem_map]
  constructor
  · rintro ⟨hcolumns, hfields⟩ name
    constructor
    · exact hfields name
    · rintro ⟨c, hc, rfl⟩
      exact hcolumns c hc
  · intro h
    exact ⟨fun c hc => (h c.name).2 ⟨c, hc, rfl⟩, fun name hn => (h name).1 hn⟩

theorem rowOf_ok_iff {table : Text} {columns : List Column} {item : Json} {row : Row Value} :
    rowOf table columns item = .ok row ↔ Row.DescribedBy columns row item := by
  constructor
  · intro h
    cases item with
    | object fields =>
      rw [rowOf] at h
      split at h
      · rename_i hnames
        obtain ⟨hfits, hcells⟩ := cellsOf_ok_iff.1 h
        exact .object (sameNames_iff.1 hnames) hfits hcells
      · cases h
    | _ => cases h
  · rintro ⟨hnames, hfits, hcells⟩
    rw [rowOf, if_pos (sameNames_iff.2 hnames)]
    exact cellsOf_ok_iff.2 ⟨hfits, hcells⟩

theorem rowsOf_ok_iff {table : Text} {columns : List Column} {items : List Json}
    {rows : List (Row Value)} : rowsOf table columns items = .ok rows ↔
      List.Forall₂ (Row.DescribedBy columns) rows items := by
  induction items generalizing rows with
  | nil => simp [rowsOf, eq_comm]
  | cons item items ih =>
    simp only [rowsOf, bind_ok_iff, pure_ok_iff, ih, rowOf_ok_iff]
    constructor
    · rintro ⟨row, hrow, rest, hrest, rfl⟩
      exact .cons hrow hrest
    · rintro (_ | ⟨hrow, hrest⟩)
      exact ⟨_, hrow, _, hrest, rfl⟩

theorem nameOf_ok_iff {fields : Record Json} {name : Text} :
    nameOf fields = .ok name ↔
      fields.get? nameField = some (.str name) ∧ isValidName name = true := by
  rw [nameOf]
  constructor
  · intro h
    split at h
    · split at h
      · rename_i hname hvalid
        cases h
        exact ⟨hname, hvalid⟩
      · cases h
    · cases h
  · rintro ⟨hname, hvalid⟩
    rw [hname]
    exact if_pos hvalid

theorem items?_array (items : List Json) : items? (some (.array items)) = some items := by
  cases items <;> rfl

theorem items?_eq_some_iff {value : Option Json} {items : List Json}
    (hitems : ∀ item ∈ items, ∃ fields, item = .object fields) :
    items? value = some items ↔
      (items = [] ∧ ∀ json, value = some json → json.isBlankValue = true) ∨
        value = some (.array items) := by
  constructor
  · intro h
    rw [items?.eq_def] at h
    split at h
    · cases h
      exact Or.inl ⟨rfl, nofun⟩
    · rename_i json
      split at h
      · rename_i hblank
        cases h
        refine Or.inl ⟨rfl, ?_⟩
        rintro _ ⟨⟩
        exact hblank
      · rename_i hblank
        -- the characters of a text and the names of an object are no objects
        split at h
        · cases h
          exact Or.inr rfl
        · cases h
          rename_i t
          cases t with
          | nil => exact absurd rfl hblank
          | cons c t => exact absurd (hitems _ List.mem_cons_self) nofun
        · cases h
          rename_i fields
          cases fields with
          | nil => exact absurd rfl hblank
          | cons field fields => exact absurd (hitems _ List.mem_cons_self) nofun
        · cases h
  · rintro (⟨rfl, hblank⟩ | rfl)
    · cases value with
      | none => rfl
      | some json => exact if_pos (hblank json rfl)
    · exact items?_array items

theorem ofDocument?_ok_iff_checks {fields : Record Json} {t : Table Value} :
    ofDocument? fields = .ok t ↔ ∃ columnItems rowItems, nameOf fields = .ok t.name ∧
      items? (fields.get? columnsField) = some columnItems ∧
      columnsOf columnItems = .ok t.columns ∧ t.columns ≠ [] ∧ t.columnNames.Nodup ∧
      items? (fields.get? rowsField) = some rowItems ∧
      rowsOf t.name t.columns rowItems = .ok t.rows := by
  rw [ofDocument?, bind_ok_iff]
  constructor
  · rintro ⟨name, hname, h⟩
    cases hci : items? (fields.get? columnsField) with
    | none => rw [hci] at h; cases h
    | some columnItems =>
    rw [hci] at h
    simp only [bind_ok_iff, guard_ok_iff] at h
    obtain ⟨columns, hcolumns, hne, hrep, h⟩ := h
    cases hri : items? (fields.get? rowsField) with
    | none => rw [hri] at h; cases h
    | some rowItems =>
    rw [hri] at h
    simp only [bind_ok_iff, pure_ok_iff] at h
    obtain ⟨rows, hrows, rfl⟩ := h
    refine ⟨columnItems, rowItems, hname, rfl, hcolumns, ?_, ?_, rfl, hrows⟩
    · simpa using hne
    · exact hasRepetition_eq_false_iff.1 (Bool.eq_false_iff.2 hrep)
  · rintro ⟨columnItems, rowItems, hname, hci, hcolumns, hne, hdistinct, hri, hrows⟩
    refine ⟨t.name, hname, ?_⟩
    rw [hci, hri]
    simp only [bind_ok_iff, guard_ok_iff]
    refine ⟨t.columns, hcolumns, by simpa using hne, ?_, t.rows, hrows, rfl⟩
    exact Bool.eq_false_iff.1 (hasRepetition_eq_false_iff.2 hdistinct)

theorem forall_left_of_forall₂ {α β : Type} {R : α → β → Prop} {p : α → Prop} {l : List α}
    {m : List β} (h : List.Forall₂ R l m) (hp : ∀ a b, R a b → p a) : ∀ a ∈ l, p a :=
  ((List.forall₂_and_left l m).1 (h.imp fun a b hr => ⟨hp a b hr, hr⟩)).1

theorem objects_of_columns {columns : List Column} {items : List Json}
    (h : List.Forall₂ Column.DescribedBy columns items) :
    ∀ item ∈ items, ∃ fields, item = .object fields := by
  refine forall_left_of_forall₂ (R := fun item c => Column.DescribedBy c item) h.flip ?_
  rintro _ _ ⟨⟩
  exact ⟨_, rfl⟩

theorem objects_of_rows {columns : List Column} {rows : List (Row Value)} {items : List Json}
    (h : List.Forall₂ (Row.DescribedBy columns) rows items) :
    ∀ item ∈ items, ∃ fields, item = .object fields := by
  refine forall_left_of_forall₂ (R := fun item row => Row.DescribedBy columns row item) h.flip ?_
  rintro _ _ ⟨⟩
  exact ⟨_, rfl⟩

/-- A document gives the table that it describes, and no other. -/
theorem ofDocument?_ok_iff {fields : Record Json} {t : Table Value} :
    ofDocument? fields = .ok t ↔ t.DescribedBy fields := by
  rw [ofDocument?_ok_iff_checks]
  simp only [nameOf_ok_iff, columnsOf_ok_iff, rowsOf_ok_iff]
  constructor
  · rintro ⟨columnItems, rowItems, ⟨hname, hvalid⟩, hci, hcolumns, hne, hdistinct, hri, hrows⟩
    refine ⟨hname, hvalid, ⟨columnItems, ?_, hcolumns⟩, hne, hdistinct, ?_⟩
    · rcases (items?_eq_some_iff (objects_of_columns hcolumns)).1 hci with ⟨rfl, -⟩ | h
      · exact absurd (List.forall₂_nil_right_iff.1 hcolumns) hne
      · exact h
    · rcases (items?_eq_some_iff (objects_of_rows hrows)).1 hri with ⟨rfl, hblank⟩ | h
      · exact Or.inl ⟨List.forall₂_nil_right_iff.1 hrows, hblank⟩
      · exact Or.inr ⟨rowItems, h, hrows⟩
  · intro h
    obtain ⟨columnItems, hci, hcolumns⟩ := h.columns
    obtain ⟨rowItems, hri, hrows⟩ : ∃ rowItems, items? (fields.get? rowsField) = some rowItems ∧
        List.Forall₂ (Row.DescribedBy t.columns) t.rows rowItems := by
      rcases h.rows with ⟨hnil, hblank⟩ | ⟨rowItems, hri, hrows⟩
      · refine ⟨[], (items?_eq_some_iff (by simp)).2 (Or.inl ⟨rfl, hblank⟩), ?_⟩
        rw [hnil]
        exact .nil
      · exact ⟨rowItems, hri ▸ items?_array rowItems, hrows⟩
    exact ⟨columnItems, rowItems, ⟨h.name, h.validName⟩, hci ▸ items?_array columnItems, hcolumns,
      h.columns_ne, h.distinct, hri, hrows⟩

theorem DescribedBy.wellFormed {t : Table Value} {fields : Record Json}
    (h : t.DescribedBy fields) : t.WellFormed := by
  obtain ⟨items, -, hcolumns⟩ := h.columns
  refine {
    name := h.validName
    columns_ne := h.columns_ne
    columnNames := ?_
    distinct := h.distinct
    rows := ?_ }
  · refine forall_left_of_forall₂ hcolumns ?_
    rintro c _ ⟨⟩
    assumption
  · rcases h.rows with ⟨hnil, -⟩ | ⟨items, -, hrows⟩
    · rw [hnil]
      exact nofun
    · refine forall_left_of_forall₂ hrows ?_
      rintro row _ ⟨⟩
      assumption

end Table
end LineTables
