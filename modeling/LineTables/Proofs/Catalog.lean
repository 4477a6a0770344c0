import Mathlib.Logic.Function.Basic
import LineTables.Catalog
import LineTables.Proofs.Record
import LineTables.Proofs.Text.Sorting

/-!
# The catalogue as a map with an order

Whatever is asked of a catalogue, and in whatever order, it answers like a map from names to tables together
with the names in the order in which they came since the last removal. Of tables of one name that it begins
with, the last one stays in the place of the first; later a name that is there is refused.
-/

set_option autoImplicit false

namespace LineTables

variable {α : Type}

namespace Catalog

inductive Request (α : Type) where
  | add (t : Table α)
  | get (name : Text)
  | require (name : Text)
  | contains (name : Text)
  | size
  | names
  | tables
  | clear

inductive Answer (α : Type) where
  | done
  | refused (cause : CatalogError)
  | found (t : Option (Table α))
  | table (t : Table α)
  | truth (value : Bool)
  | number (n : Nat)
  | texts (names : List Text)
  | list (tables : List (Table α))
  deriving DecidableEq

def serve {σ : Type} (answer : σ → Request α → Answer α × σ) :
    σ → List (Request α) → List (Answer α) × σ
  | s, [] => ([], s)
  | s, request :: requests =>
    let (first, next) := answer s request
    let (rest, last) := serve answer next requests
    (first :: rest, last)

def answer (c : Catalog α) : Request α → Answer α × Catalog α
  | .add t =>
    match c.add t with
    | .ok after => (.done, after)
    | .error cause => (.refused cause, c)
  | .get name => (.found (c.get? name), c)
  | .require name =>
    match c.require name with
    | .ok t => (.table t, c)
    | .error cause => (.refused cause, c)
  | .contains name => (.truth (c.contains name), c)
  | .size => (.number c.size, c)
  | .names => (.texts c.names, c)
  | .tables => (.list c.tables, c)
  | .clear => (.done, c.clear)

end Catalog

/-- A map from names to tables, and the names in the order in which they came. -/
structure OrderedMap (α : Type) where
  order : List Text
  table? : Text → Option (Table α)

namespace OrderedMap

def empty : OrderedMap α := ⟨[], fun _ => none⟩

def ofTables (tables : List (Table α)) : OrderedMap α where
  order := (tables.map (·.name)).eraseDups
  table? name := (tables.filter (·.name == name)).getLast?

def enter (m : OrderedMap α) (t : Table α) : OrderedMap α :=
  ⟨m.order ++ [t.name], Function.update m.table? t.name (some t)⟩

theorem table?_enter_self (m : OrderedMap α) (t : Table α) : (m.enter t).table? t.name = some t :=
  Function.update_self _ _ _

theorem table?_enter_of_ne (m : OrderedMap α) {t : Table α} {name : Text} (h : name ≠ t.name) :
    (m.enter t).table? name = m.table? name :=
  Function.update_of_ne h _ _

def answer (m : OrderedMap α) : Catalog.Request α → Catalog.Answer α × OrderedMap α
  | .add t =>
    if (m.table? t.name).isSome then (.refused (.tableExists t.name), m) else (.done, m.enter t)
  | .get name => (.found (m.table? name), m)
  | .require name =>
    match m.table? name with
    | some t => (.table t, m)
    | none => (.refused (.tableNotFound name), m)
  | .contains name => (.truth (m.table? name).isSome, m)
  | .size => (.number m.order.length, m)
  | .names => (.texts (m.order.mergeSort fun t u => !decide (u < t)), m)
  | .tables => (.list (m.order.filterMap m.table?), m)
  | .clear => (.done, empty)

end OrderedMap

namespace Catalog

theorem contains_iff {c : Catalog α} {name : Text} :
    c.contains name = true ↔ name ∈ c.entries.names :=
  Record.isSome_get?_iff

theorem add_of_mem {c : Catalog α} {t : Table α} (h : t.name ∈ c.entries.names) :
    c.add t = .error (.tableExists t.name) :=
  if_pos (contains_iff.2 h)

theorem add_of_not_mem {c : Catalog α} {t : Table α} (h : t.name ∉ c.entries.names) :
    c.add t = .ok { c with entries := c.entries.put t.name t } :=
  if_neg (mt contains_iff.1 h)

theorem add_error_iff {c : Catalog α} {t : Table α} {cause : CatalogError} :
    c.add t = .error cause ↔ cause = .tableExists t.name ∧ t.name ∈ c.entries.names := by
  by_cases h : t.name ∈ c.entries.names
  · rw [add_of_mem h, Except.error.injEq, eq_comm]
    exact (and_iff_left h).symm
  · rw [add_of_not_mem h]
    exact iff_of_false nofun fun hc => h hc.2

theorem require_error_iff {c : Catalog α} {name : Text} {cause : CatalogError} :
    c.require name = .error cause ↔ cause = .tableNotFound name ∧ c.get? name = none := by
  rw [require]
  cases c.get? name with
  | none => simp [eq_comm]
  | some t => simp

/-- The catalogue holds the tables of the map under their names, in its order. -/
structure Represents (c : Catalog α) (m : OrderedMap α) : Prop where
  order : c.entries.names = m.order
  distinct : c.entries.names.Nodup
  found : ∀ name, c.get? name = m.table? name
  named : ∀ entry ∈ c.entries, entry.2.name = entry.1

theorem represents_ofTables (tables : List (Table α)) :
    (ofTables tables).Represents (OrderedMap.ofTables tables) where
  order := by
    rw [ofTables, Record.names_ofPairs, List.map_map]
    rfl
  distinct := Record.nodup_names_ofPairs _
  found := by
    intro name
    rw [get?, ofTables, Record.get?_ofPairs, List.filter_map, List.getLast?_map, Option.map_map]
    exact Option.map_id_apply
  named := by
    intro entry he
    rcases Record.mem_putAll he with he | he
    · cases he
    · obtain ⟨t, -, rfl⟩ := List.mem_map.1 he
      rfl

theorem represents_clear (c : Catalog α) : c.clear.Represents OrderedMap.empty where
  order := rfl
  distinct := List.nodup_nil
  found := fun _ => rfl
  named := fun _ he => absurd he List.not_mem_nil

namespace Represents

variable {c : Catalog α} {m : OrderedMap α}

theorem tables_eq (h : c.Represents m) : c.tables = m.order.filterMap m.table? := by
  rw [← h.order, ← funext h.found]
  exact (Record.filterMap_get?_names h.distinct).symm

theorem names_tables (h : c.Represents m) : c.tables.map (·.name) = c.entries.names := by
  rw [tables, Record.values, List.map_map, Record.names]
  exact List.map_congr_left h.named

theorem enter (h : c.Represents m) {t : Table α} (ht : t.name ∉ c.entries.names) :
    Represents { c with entries := c.entries.put t.name t } (m.enter t) where
  order := by
    rw [OrderedMap.enter, ← h.order]
    exact Record.names_put_of_not_mem ht t
  distinct := Record.nodup_names_put h.distinct t
  found := by
    intro name
    by_cases hname : name = t.name
    · rw [hname, m.table?_enter_self]
      exact Record.get?_put_self t.name t c.entries
    · rw [m.table?_enter_of_ne hname, ← h.found]
      exact Record.get?_put_of_ne hname t c.entries
  named := by
    intro entry he
    rcases Record.mem_put he with rfl | he
    · rfl
    · exact h.named entry he

theorem answer (h : c.Represents m) (request : Request α) :
    (c.answer request).1 = (m.answer request).1 ∧
      (c.answer request).2.Represents (m.answer request).2 := by
  cases request with
  | add t =>
    have hpresent : (m.table? t.name).isSome = true ↔ t.name ∈ c.entries.names := by
      rw [← h.found]
      exact contains_iff
    by_cases hm : t.name ∈ c.entries.names
    · rw [Catalog.answer, OrderedMap.answer, add_of_mem hm, if_pos (hpresent.2 hm)]
      exact ⟨rfl, h⟩
    · rw [Catalog.answer, OrderedMap.answer, add_of_not_mem hm, if_neg (mt hpresent.1 hm)]
      exact ⟨rfl, h.enter hm⟩
  | get name => exact ⟨congrArg Answer.found (h.found name), h⟩
  | require name =>
    rw [Catalog.answer, OrderedMap.answer, require, ← h.found]
    cases c.get? name with
    | none => exact ⟨rfl, h⟩
    | some t => exact ⟨rfl, h⟩
  | contains name =>
    rw [OrderedMap.answer, ← h.found]
    exact ⟨rfl, h⟩
  | size =>
    rw [OrderedMap.answer, ← h.order, Record.names, List.length_map]
    exact ⟨rfl, h⟩
  | names =>
    rw [OrderedMap.answer, ← h.order, ← Text.sorted_eq_mergeSort]
    exact ⟨rfl, h⟩
  | tables => exact ⟨congrArg Answer.list h.tables_eq, h⟩
  | clear => exact ⟨rfl, represents_clear c⟩

theorem serve (h : c.Represents m) (requests : List (Request α)) :
    (Catalog.serve Catalog.answer c requests).1 = (Catalog.serve OrderedMap.answer m requests).1 ∧
      (Catalog.serve Catalog.answer c requests).2.Represents
        (Catalog.serve OrderedMap.answer m requests).2 := by
  induction requests generalizing c m with
  | nil => exact ⟨rfl, h⟩
  | cons request requests ih =>
    obtain ⟨hfirst, hnext⟩ := h.answer request
    obtain ⟨hrest, hlast⟩ := ih hnext
    exact ⟨congrArg₂ List.cons hfirst hrest, hlast⟩

theorem names_perm (h : c.Represents m) : c.names.Perm (c.tables.map (·.name)) := by
  rw [h.names_tables]
  exact c.names_perm

end Represents

theorem serve_add_of_mem {c : Catalog α} {t : Table α} (h : t.name ∈ c.names)
    (requests : List (Request α)) : serve answer c (.add t :: requests) =
      (.refused (.tableExists t.name) :: (serve answer c requests).1, (serve answer c requests).2) := by
  have hrefused : c.answer (.add t) = (.refused (.tableExists t.name), c) := by
    rw [answer, add_of_mem (c.names_perm.mem_iff.1 h)]
  rw [serve, hrefused]

/-- All requests are answered as by a map that keeps the order in which the names came. In every state that
they lead to, a table is refused for its name alone, and the names in their order are those of the tables. -/
theorem served_like_ordered_map (tables : List (Table α)) (requests : List (Request α)) :
    let served := serve answer (ofTables tables) requests
    let c := served.2
    served.1 = (serve OrderedMap.answer (OrderedMap.ofTables tables) requests).1 ∧
      (∀ t cause, c.add t = .error cause ↔ cause = .tableExists t.name ∧ t.name ∈ c.names) ∧
      (∀ t : Table α, t.name ∈ c.names → ∀ more, serve answer c (.add t :: more) =
        (.refused (.tableExists t.name) :: (serve answer c more).1, (serve answer c more).2)) ∧
      (∀ name cause, c.require name = .error cause ↔
        cause = .tableNotFound name ∧ c.get? name = none) ∧
      c.names.Pairwise (· < ·) ∧ c.names.Perm (c.tables.map (·.name)) ∧
      c.size = c.names.length ∧ c.size = c.tables.length := by
  intro served c
  obtain ⟨hanswers, h⟩ := (represents_ofTables tables).serve requests
  have hperm : c.names.Perm (c.tables.map (·.name)) := h.names_perm
  have hsize : c.size = c.tables.length := (List.length_map _).symm
  refine ⟨hanswers, ?_, ?_, fun name cause => require_error_iff, Text.sorted_strict h.distinct, hperm,
    ?_, hsize⟩
  · intro t cause
    rw [c.names_perm.mem_iff]
    exact add_error_iff
  · intro t ht more
    exact serve_add_of_mem ht more
  · rw [hperm.length_eq, List.length_map, hsize]

theorem served_like_ordered_map_repeated :
    let first : Table Value := ⟨"b".toList, [⟨"x".toList, .int⟩], []⟩
    let other : Table Value := ⟨"a".toList, [⟨"x".toList, .int⟩], []⟩
    let last : Table Value := ⟨"b".toList, [⟨"y".toList, .string⟩], []⟩
    let requests : List (Request Value) := [.add ⟨"a".toList, [], []⟩, .tables, .names,
      .require "c".toList, .clear, .add other, .get "b".toList, .size]
    let served := serve answer (ofTables [first, other, last]) requests
    let c := served.2
    (serve OrderedMap.answer (OrderedMap.ofTables [first, other, last]) requests).1 =
      [.refused (.tableExists "a".toList), .list [last, other], .texts ["a".toList, "b".toList],
        .refused (.tableNotFound "c".toList), .done, .done, .found none, .number 1] ∧
      other.name ∈ c.names ∧
      serve answer c [.add other, .tables] =
        ([.refused (.tableExists "a".toList), .list [other]], c) := by
  intro first other last requests served c
  obtain ⟨hanswers, -, hrefused, -⟩ := served_like_ordered_map [first, other, last] requests
  have hmem : other.name ∈ c.names := by decide
  exact ⟨hanswers.symm.trans rfl, hmem, hrefused other hmem [.tables]⟩

end Catalog

end LineTables
