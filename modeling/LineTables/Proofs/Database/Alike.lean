import LineTables.Proofs.Database.Durable
import LineTables.Proofs.Text.Sorting

/-!
# Databases that no caller can tell apart

Two databases are alike if they have the same tables under the same names and the same files. The order
in which the names came and how often the tables were removed may differ: neither shows in an answer or
in a file, not even where a table is held while other lines are answered.
-/

set_option autoImplicit false

namespace LineTables

namespace Database

structure Alike (db other : Database) : Prop where
  tables : ∀ name, db.catalog.get? name = other.catalog.get? name
  directory : db.directory = other.directory
  location : db.location = other.location

structure StepAlike {α : Type} (step other : Step α) : Prop where
  outcome : step.outcome = other.outcome
  after : Alike step.after other.after

variable {db other : Database}

theorem Alike.contains (h : Alike db other) (name : Text) :
    db.catalog.contains name = other.catalog.contains name := by
  show (db.catalog.get? name).isSome = (other.catalog.get? name).isSome
  rw [h.tables]

theorem Alike.names (h : Alike db other) (hs : db.catalog.Sound) (ho : other.catalog.Sound) :
    db.catalog.names = other.catalog.names := by
  apply Text.sorted_eq_of_perm
  rw [List.perm_ext_iff_of_nodup hs.distinct ho.distinct]
  intro name
  rw [← Record.isSome_get?_iff, ← Record.isSome_get?_iff]
  exact Bool.eq_iff_iff.1 (h.contains name)

theorem Alike.withTable (h : Alike db other) (t : Table Value) :
    Alike (db.withTable t) (other.withTable t) := by
  constructor
  · intro name
    rw [withTable_catalog, withTable_catalog]
    by_cases hname : name = t.name
    · rw [hname, Catalog.get?_update_self, Catalog.get?_update_self]
    · rw [Catalog.get?_update_of_ne _ hname, Catalog.get?_update_of_ne _ hname, h.tables]
  · rw [Database.withTable, Database.withTable, store, store, persist_eq, persist_eq]
    dsimp only
    rw [h.directory, h.location]
  · rw [Database.withTable, Database.withTable, store, store, persist_eq, persist_eq]
    exact h.location

/-- The order in which the files are written shows nowhere. -/
theorem Alike.flush (h : Alike db other) (hs : db.catalog.Sound) (ho : other.catalog.Sound) :
    Alike db.flush.1 other.flush.1 := by
  constructor
  · intro name
    rw [flush_catalog, flush_catalog, h.tables]
  · apply Directory.ext
    intro path
    rcases get?_flush hs path with ⟨t, ht, hw, rfl, hwritten⟩ | ⟨hother, hkept⟩
    · have hto : other.catalog.get? t.name = some t := by rw [← h.tables, ht]
      have hwo : Storage.CanWrite other.location other.directory t.name := by
        rwa [← h.location, ← h.directory]
      rw [hwritten, flush_written ho hto hwo]
    · rw [hkept, flush_other ho, h.directory]
      rw [← h.location, ← h.directory]
      intro t ht
      exact hother t (by rw [h.tables, ht])
  · rw [Database.flush, Database.flush, persistAll_location, persistAll_location, h.location]

theorem Alike.purge (h : Alike db other) : StepAlike db.purge other.purge := by
  rw [Database.purge, Database.purge, h.location, h.directory]
  cases Storage.deleteAll? other.location other.directory with
  | some deleted => exact ⟨rfl, ⟨fun _ => rfl, rfl, rfl⟩⟩
  | none => exact ⟨rfl, ⟨fun _ => rfl, rfl, rfl⟩⟩

theorem Alike.createTable (h : Alike db other) (options : Options) (name : Text)
    (columns : List Column) (rejected : List Text) :
    StepAlike (db.createTable options name columns rejected)
      (other.createTable options name columns rejected) := by
  rw [Database.createTable, Database.createTable, h.contains]
  dsimp only
  split
  · exact ⟨rfl, h⟩
  · split
    · exact ⟨rfl, h⟩
    · split
      · exact ⟨rfl, h⟩
      · split
        · exact ⟨rfl, h⟩
        · exact ⟨rfl, h.withTable _⟩

/-- Two held tables are alike if they are the same and both are live or neither is. -/
structure HeldAlike (db other : Database) (held kept : Held) : Prop where
  table : held.table = kept.table
  live : held.generation = db.catalog.generation ↔ kept.generation = other.catalog.generation
  le : held.generation ≤ db.catalog.generation
  le_other : kept.generation ≤ other.catalog.generation

theorem HeldAlike.live? (h : Alike db other) {held kept : Held}
    (hh : HeldAlike db other held kept) : held.live? db = kept.live? other := by
  rw [Held.live?, Held.live?, hh.table, h.tables]
  by_cases hlive : db.catalog.generation = held.generation
  · rw [if_pos hlive, if_pos (hh.live.1 hlive.symm).symm]
  · rw [if_neg hlive, if_neg fun ho => hlive (hh.live.2 ho.symm).symm]

theorem Alike.perform (h : Alike db other) {held kept : Held}
    (hh : HeldAlike db other held kept) (action : Action) :
    StepAlike (db.perform held action) (other.perform kept action) := by
  rw [Database.perform, Database.perform, hh.table]
  split
  · exact ⟨rfl, h⟩
  · exact ⟨rfl, h⟩
  · rw [Database.change, Database.change, hh.live? h, hh.table]
    split
    · exact ⟨rfl, h⟩
    · dsimp only
      split
      · exact ⟨rfl, h⟩
      · exact ⟨rfl, h.withTable _⟩

theorem Alike.hold (h : Alike db other) (name : Text) :
    (∃ held kept, db.hold name = .ok held ∧ other.hold name = .ok kept ∧
      HeldAlike db other held kept) ∨
    db.hold name = .error (.tableNotFound name) ∧ other.hold name = .error (.tableNotFound name) := by
  cases ht : db.catalog.get? name with
  | some t =>
    left
    refine ⟨⟨t, db.catalog.generation⟩, ⟨t, other.catalog.generation⟩, ?_, ?_, ?_⟩
    · exact hold_ok_iff.2 ⟨ht, rfl⟩
    · exact hold_ok_iff.2 ⟨(h.tables name).symm.trans ht, rfl⟩
    · exact ⟨rfl, ⟨fun _ => rfl, fun _ => rfl⟩, Nat.le_refl _, Nat.le_refl _⟩
  | none =>
    right
    have hto : other.catalog.get? name = none := (h.tables name).symm.trans ht
    rw [Database.hold, Database.hold, Catalog.require, Catalog.require, ht, hto]
    exact ⟨rfl, rfl⟩

theorem Alike.execute (h : Alike db other) (hs : db.catalog.Sound) (ho : other.catalog.Sound)
    (options : Options) (s : Statement) :
    StepAlike (db.execute options s) (other.execute options s) := by
  cases s with
  | createTable name columns rejected => exact h.createTable options name columns rejected
  | onTable name action =>
    rw [Database.execute, Database.execute]
    rcases h.hold name with ⟨held, kept, hd, hk, hh⟩ | ⟨hd, hk⟩
    · rw [hd, hk]
      exact h.perform hh action
    · rw [hd, hk]
      exact ⟨rfl, h⟩
  | showTables =>
    refine ⟨?_, h⟩
    show Except.ok (if db.catalog.names.isEmpty then Reply.noTables else .tables db.catalog.names) =
      Except.ok (if other.catalog.names.isEmpty then Reply.noTables else .tables other.catalog.names)
    rw [h.names hs ho]
  | stop => exact ⟨rfl, h.flush hs ho⟩
  | purgeAndStop => exact h.purge

theorem Alike.process (h : Alike db other) (hs : db.catalog.Sound) (ho : other.catalog.Sound)
    (options : Options) (line : Text) :
    StepAlike (db.process options line) (other.process options line) := by
  have hline : StepAlike (db.executeLine options line) (other.executeLine options line) := by
    rw [executeLine, executeLine]
    split
    · exact h.execute hs ho options _
    · exact ⟨rfl, h⟩
  exact ⟨congrArg answerOf hline.outcome, hline.after⟩

theorem generation_followed (held : Held) (db : Database) :
    (held.followed db).generation = held.generation := by
  rw [Held.followed]
  split <;> rfl

theorem HeldAlike.process (h : Alike db other) (hs : db.catalog.Sound) (ho : other.catalog.Sound)
    {held kept : Held} (hh : HeldAlike db other held kept) (options : Options) (line : Text) :
    HeldAlike (db.process options line).after (other.process options line).after
      (held.followed (db.process options line).after)
      (kept.followed (other.process options line).after) := by
  have hafter := (h.process hs ho options line).after
  have hg := generation_process options hs.filed line
  have hgo := generation_process options ho.filed line
  generalize (db.process options line).after = a at hafter hg
  generalize (other.process options line).after = b at hafter hgo
  have hle := hh.le
  have hleo := hh.le_other
  -- A removal raises both counts above those of the held tables, and neither is live then.
  have hstill : HeldAlike a b held kept := by
    refine ⟨hh.table, ?_, by omega, by omega⟩
    rw [hg, hgo]
    by_cases hp : purges line = true
    · rw [if_pos hp]
      omega
    · rw [if_neg hp]
      exact hh.live
  have hlive := hstill.live? hafter
  constructor
  · rw [Held.followed, Held.followed, hlive]
    split
    · rfl
    · exact hh.table
  · rw [generation_followed, generation_followed]
    exact hstill.live
  · rw [generation_followed]
    exact hstill.le
  · rw [generation_followed]
    exact hstill.le_other

theorem Alike.processHolding (h : Alike db other) (hs : db.catalog.Sound) (ho : other.catalog.Sound)
    {held kept : Held} (hh : HeldAlike db other held kept) (options : Options)
    (lines : List Text) :
    StepAlike (db.processHolding options held lines).2 (other.processHolding options kept lines).2 ∧
      HeldAlike (db.processHolding options held lines).2.after
        (other.processHolding options kept lines).2.after
        (db.processHolding options held lines).1 (other.processHolding options kept lines).1 := by
  induction lines generalizing db other held kept with
  | nil => exact ⟨⟨rfl, h⟩, hh⟩
  | cons line lines ih =>
    have hline := h.process hs ho options line
    have hrest := ih hline.after (executeLine_sound options hs line)
      (executeLine_sound options ho line) (hh.process h hs ho options line)
    constructor
    · constructor
      · show _ :: _ = _ :: _
        rw [hline.outcome, hrest.1.outcome]
      · exact hrest.1.after
    · exact hrest.2

theorem Alike.interleave (h : Alike db other) (hs : db.catalog.Sound) (ho : other.catalog.Sound)
    (options : Options) (line : Text) (between : List Text) :
    StepAlike (db.interleave options line between) (other.interleave options line between) := by
  have hline := h.process hs ho options line
  have halone : StepAlike (db.respond options (.line line)) (other.respond options (.line line)) :=
    ⟨congrArg (·, []) hline.outcome, hline.after⟩
  rw [Database.interleave, Database.interleave]
  cases Statement.parse line with
  | error cause => exact halone
  | ok s =>
    cases s with
    | onTable name action =>
      dsimp only
      rcases h.hold name with ⟨held, kept, hd, hk, hh⟩ | ⟨hd, hk⟩
      · rw [hd, hk]
        obtain ⟨hothers, hheld⟩ := h.processHolding hs ho hh options between
        have hown := hothers.after.perform hheld action
        constructor
        · show (answerOf _, _) = (answerOf _, _)
          rw [hown.outcome, hothers.outcome]
        · exact hown.after
      · rw [hd, hk]
        exact halone
    | _ => exact halone

theorem Alike.respond (h : Alike db other) (hs : db.catalog.Sound) (ho : other.catalog.Sound)
    (options : Options) (request : Request) :
    StepAlike (db.respond options request) (other.respond options request) := by
  cases request with
  | line line =>
    have hline := h.process hs ho options line
    exact ⟨congrArg (·, []) hline.outcome, hline.after⟩
  | interleaved line between => exact h.interleave hs ho options line between

end Database
end LineTables
