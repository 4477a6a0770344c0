import Mathlib.Data.List.Forall2
import LineTables.Change
import LineTables.Proofs.Checks
import LineTables.Table.Document

/-!
# Well-formed tables

A table is well formed if its name and its distinct column names are valid, it has a column at least,
and each row has a cell of the right type for every column, in their order. The checks of new rows and
of assignments are shown to let nothing else through.
-/

set_option autoImplicit false

namespace LineTables
open Checks

def DataType.Admits : DataType → Value → Prop
  | .int, .int i => Int64.minValue.toInt ≤ i ∧ i ≤ Int64.maxValue.toInt
  | .string, .text _ => True
  | _, _ => False

def Column.Holds (c : Column) (cell : Text × Value) : Prop :=
  cell.1 = c.name ∧ c.type.Admits cell.2

def Row.Fits (columns : List Column) (row : Row Value) : Prop :=
  List.Forall₂ Column.Holds columns row

namespace Table

structure WellFormed (t : Table Value) : Prop where
  name : isValidName t.name = true
  columns_ne : t.columns ≠ []
  columnNames : ∀ c ∈ t.columns, isValidName c.name = true
  distinct : t.columnNames.Nodup
  rows : ∀ row ∈ t.rows, Row.Fits t.columns row

theorem WellFormed.column?_of_mem {t : Table Value} (ht : t.WellFormed) {c : Column} (hc : c ∈ t.columns) :
    t.column? c.name = some c := by
  obtain ⟨before, after, hsplit⟩ := List.append_of_mem hc
  have hdistinct := ht.distinct
  rw [Table.columnNames, hsplit, List.map_append, List.map_cons, List.nodup_append] at hdistinct
  rw [column?, List.find?_eq_some_iff_append]
  refine ⟨by simp, before, after, hsplit, ?_⟩
  intro d hd
  have hne := hdistinct.2.2 d.name (List.mem_map_of_mem hd) c.name List.mem_cons_self
  simpa using hne

end Table

theorem admits_int_iff {i : Int} : DataType.int.Admits (.int i) ↔ inIntRange i = true := by
  rw [DataType.Admits, Int64.toInt_minValue, Int64.toInt_maxValue, inIntRange, Bool.and_eq_true,
    decide_eq_true_eq, decide_eq_true_eq]
  omega

namespace Row

theorem fits_names {columns : List Column} {row : Row Value} (h : Fits columns row) :
    row.names = columns.map (·.name) := by
  induction h with
  | nil => rfl
  | cons hcell _ ih =>
    simp only [Record.names, List.map_cons] at ih ⊢
    rw [hcell.1, ih]

theorem exists_cell_of_fits {columns : List Column} {row : Row Value} (h : Fits columns row)
    {c : Column} (hc : c ∈ columns) : ∃ value, (c.name, value) ∈ row ∧ c.type.Admits value := by
  induction h with
  | nil => cases hc
  | @cons d cell columns row hcell hrest ih =>
    rcases List.mem_cons.1 hc with rfl | hc
    · refine ⟨cell.2, ?_, hcell.2⟩
      rw [← hcell.1]
      exact List.mem_cons_self
    · obtain ⟨value, hm, hadmits⟩ := ih hc
      exact ⟨value, List.mem_cons_of_mem cell hm, hadmits⟩

theorem fits_put {columns : List Column} {row : Row Value} (h : Fits columns row) {name : Text}
    {c : Column} (hc : columns.find? (·.name == name) = some c) {value : Value}
    (hv : c.type.Admits value) : Fits columns (row.put name value) := by
  induction h with
  | nil => simp at hc
  | @cons d cell columns row hcell hrest ih =>
    obtain ⟨key, old⟩ := cell
    have hkey : key = d.name := hcell.1
    by_cases hd : d.name = name
    · have hcd : d = c := by simpa [hd] using hc
      rw [Record.put, if_pos (hkey.trans hd)]
      exact List.Forall₂.cons ⟨hkey, hcd ▸ hv⟩ hrest
    · have hc' : columns.find? (·.name == name) = some c := by simpa [hd] using hc
      rw [Record.put, if_neg (hkey ▸ hd)]
      exact List.Forall₂.cons hcell (ih hc')

theorem fits_putAll {t : Table Value} {row : Row Value} (h : Fits t.columns row)
    {updates : List (Text × Value)}
    (hu : ∀ u ∈ updates, ∃ c, t.column? u.1 = some c ∧ c.type.Admits u.2) :
    Fits t.columns (row.putAll updates) := by
  induction updates generalizing row with
  | nil => exact h
  | cons u updates ih =>
    obtain ⟨c, hc, hv⟩ := hu u List.mem_cons_self
    exact ih (fits_put h hc hv) (fun w hw => hu w (List.mem_cons_of_mem u hw))

end Row

theorem admits_of_literal? {c : Column} {token : Text} {value : Value}
    (h : c.literal? token = .ok value) : c.type.Admits value := by
  rw [Column.literal?] at h
  cases ht : c.type with
  | int =>
    rw [ht] at h
    dsimp only at h
    split at h
    · cases h
    · split at h
      · cases h
      · split at h
        · rename_i hr
          cases h
          exact admits_int_iff.2 hr
        · cases h
  | string =>
    rw [ht] at h
    dsimp only at h
    split at h
    · cases h
      trivial
    · cases h

theorem length_ofNat_of_admits {i : Int} (h : DataType.int.Admits (.int i)) :
    (Text.ofNat i.natAbs).length ≤ Text.maxDigits := by
  have hrange := admits_int_iff.1 h
  rw [inIntRange, Bool.and_eq_true, decide_eq_true_eq, decide_eq_true_eq] at hrange
  have hsize : i.natAbs < 10 ^ 20 := by omega
  have hlength : (Text.ofNat i.natAbs).length ≤ 20 :=
    (Nat.length_toDigits_le_iff (by decide) (by decide)).2 hsize
  exact Nat.le_trans hlength (by decide)

theorem literal?_literal {c : Column} {value : Value} (h : c.type.Admits value) :
    c.literal? value.literal = .ok value := by
  rw [Column.literal?]
  cases hc : c.type with
  | int =>
    rw [hc] at h
    cases value with
    | int i =>
      have hshort : Text.Numeral.tooLong ⟨decide (i < 0), Text.ofNat i.natAbs⟩ = false := by
        simpa [Text.Numeral.tooLong] using length_ofNat_of_admits h
      rw [Value.literal, Text.numeral?_ofInt]
      dsimp only
      rw [hshort, Text.value_ofInt, if_neg Bool.false_ne_true, if_pos (admits_int_iff.1 h)]
    | text t => exact h.elim
  | string =>
    rw [hc] at h
    cases value with
    | int i => exact h.elim
    | text t => rw [Value.literal, unquoted?_inQuotes]

namespace Action

theorem rowOf_fits {columns : List Column} {literals : List Text} {row : Row Value}
    (hl : literals.length = columns.length) (h : rowOf columns literals = .ok row) :
    Row.Fits columns row := by
  induction columns generalizing literals row with
  | nil =>
    have hnil : literals = [] := List.length_eq_zero_iff.1 hl
    subst hnil
    cases h
    exact List.Forall₂.nil
  | cons c columns ih =>
    cases literals with
    | nil => simp at hl
    | cons literal literals =>
      simp only [rowOf, bind_ok_iff, pure_ok_iff] at h
      obtain ⟨value, hv, rest, hr, rfl⟩ := h
      exact List.Forall₂.cons ⟨rfl, admits_of_literal? hv⟩ (ih (by simpa using hl) hr)

theorem updatesOf_admitted {t : Table Value} {assignments : List (Text × Text)}
    {updates : List (Text × Value)} (h : updatesOf t assignments = .ok updates) :
    ∀ u ∈ updates, ∃ c, t.column? u.1 = some c ∧ c.type.Admits u.2 := by
  induction assignments generalizing updates with
  | nil =>
    cases h
    simp
  | cons assignment assignments ih =>
    obtain ⟨name, literal⟩ := assignment
    rw [updatesOf] at h
    cases hc : t.column? name with
    | none => rw [hc] at h; cases h
    | some c =>
      simp only [hc, bind_ok_iff, pure_ok_iff, mapError_ok_iff] at h
      obtain ⟨value, hv, rest, hr, rfl⟩ := h
      intro u hu
      rcases List.mem_cons.1 hu with rfl | hu
      · exact ⟨c, hc, admits_of_literal? hv⟩
      · exact ih hr u hu

end Action

end LineTables
