import LineTables.Proofs.Database.Turns

/-!
# Tables that stand

Which tables there are, and with which columns, can be told from the tables that were loaded and the
turns since: a table stands from the turn that created it until the next removal of all tables. No other
turn adds a table, takes one away or touches its columns, whatever it answers and whether or not it can
write its files.
-/

set_option autoImplicit false

namespace LineTables

namespace Catalog

def schema? (c : Catalog Value) (name : Text) : Option (List Column) :=
  (c.get? name).map (·.columns)

theorem schema?_update_self (c : Catalog Value) (t : Table Value) :
    (c.update t).schema? t.name = some t.columns := by
  rw [schema?, get?_update_self, Option.map_some]

theorem schema?_update_of_ne (c : Catalog Value) {t : Table Value} {name : Text}
    (h : name ≠ t.name) : (c.update t).schema? name = c.schema? name := by
  rw [schema?, get?_update_of_ne c h, schema?]

theorem isSome_get?_iff {c : Catalog Value} {name : Text} :
    (c.get? name).isSome = true ↔ ∃ columns, c.schema? name = some columns := by
  rw [← Option.isSome_iff_exists, schema?, Option.isSome_map]

theorem mem_names_iff {c : Catalog Value} {name : Text} :
    name ∈ c.names ↔ ∃ columns, c.schema? name = some columns := by
  rw [c.names_perm.mem_iff, ← Record.isSome_get?_iff]
  exact isSome_get?_iff

theorem names_ascending {c : Catalog Value} (h : c.Sound) : c.names.Pairwise (· < ·) :=
  Text.sorted_strict h.distinct

end Catalog

namespace Turn

/-- The turn created this table: its line asks for it, and was answered with success. -/
def Creates (turn : Turn) (name : Text) (columns : List Column) : Prop :=
  turn.answer = "SUCCESS".toList ∧
    ∃ rejected, Statement.parse turn.line = .ok (.createTable name columns rejected)

theorem not_creates_of_answer {line answer name : Text} {columns : List Column}
    (h : answer ≠ "SUCCESS".toList) : ¬ Creates ⟨line, answer⟩ name columns :=
  fun hcreates => h hcreates.1

end Turn

/-- The table was loaded, or a turn created it, and no turn since has removed all tables. -/
def Standing (loaded : List (Table Value)) (turns : List Turn) (name : Text)
    (columns : List Column) : Prop :=
  (∃ t ∈ loaded, t.name = name ∧ t.columns = columns) ∧
      (∀ turn ∈ turns, Database.purges turn.line = false) ∨
    ∃ earlier turn later, turns = earlier ++ turn :: later ∧ turn.Creates name columns ∧
      ∀ turn ∈ later, Database.purges turn.line = false

theorem standing_nil {loaded : List (Table Value)} {name : Text} {columns : List Column} :
    Standing loaded [] name columns ↔ ∃ t ∈ loaded, t.name = name ∧ t.columns = columns := by
  constructor
  · rintro (⟨hloaded, -⟩ | ⟨earlier, turn, later, hturns, -⟩)
    · exact hloaded
    · simp at hturns
  · intro hloaded
    exact Or.inl ⟨hloaded, by simp⟩

theorem standing_concat {loaded : List (Table Value)} {turns : List Turn} {turn : Turn}
    {name : Text} {columns : List Column} :
    Standing loaded (turns ++ [turn]) name columns ↔
      turn.Creates name columns ∨
        Database.purges turn.line = false ∧ Standing loaded turns name columns := by
  constructor
  · rintro (⟨hloaded, hkept⟩ | ⟨earlier, creating, later, hturns, hcreates, hkept⟩)
    · rw [List.forall_mem_append, List.forall_mem_singleton] at hkept
      exact Or.inr ⟨hkept.2, Or.inl ⟨hloaded, hkept.1⟩⟩
    · -- The last turn is the creating one, or one of those behind it.
      rcases List.eq_nil_or_concat later with rfl | ⟨later, last, rfl⟩
      · obtain ⟨-, hlast⟩ := List.append_inj' hturns rfl
        cases hlast
        exact Or.inl hcreates
      · rw [List.concat_eq_append, ← List.cons_append, ← List.append_assoc] at hturns
        obtain ⟨rfl, hlast⟩ := List.append_inj' hturns rfl
        cases hlast
        rw [List.concat_eq_append, List.forall_mem_append, List.forall_mem_singleton] at hkept
        exact Or.inr ⟨hkept.2, Or.inr ⟨earlier, creating, later, rfl, hcreates, hkept.1⟩⟩
  · rintro (hcreates | ⟨hpurge, ⟨hloaded, hkept⟩ | ⟨earlier, creating, later, rfl, hcreates, hkept⟩⟩)
    · exact Or.inr ⟨turns, turn, [], rfl, hcreates, by simp⟩
    · left
      rw [List.forall_mem_append, List.forall_mem_singleton]
      exact ⟨hloaded, hkept, hpurge⟩
    · refine Or.inr ⟨earlier, creating, later ++ [turn], by simp, hcreates, ?_⟩
      rw [List.forall_mem_append, List.forall_mem_singleton]
      exact ⟨hkept, hpurge⟩

namespace Database

variable {options : Options} {db after : Database}

section Creation

variable (options) {line name : Text} {columns : List Column} {rejected : List Text}
  (hparse : Statement.parse line = .ok (.createTable name columns rejected))
include hparse

theorem process_of_found {t : Table Value} (h : db.catalog.get? name = some t) :
    (db.process options line).seen = ("TABLE_EXISTS".toList, db) :=
  process_of_execute options hparse (createTable_found options h columns rejected)

theorem process_of_fresh (h : db.catalog.get? name = none) :
    (db.process options line).seen = ("INVALID_COMMAND".toList, db) ∨
      (db.process options line).seen =
        ("SUCCESS".toList, db.withTable ⟨name, columns, []⟩) := by
  rcases createTable_fresh options name columns rejected with ⟨refusal, hmark, hrefused⟩ | hentered
  · left
    rw [← hmark]
    exact process_of_execute options hparse (hrefused db h)
  · exact Or.inr (process_of_execute options hparse (hentered db h))

theorem process_exists_iff :
    (db.process options line).outcome = "TABLE_EXISTS".toList ↔
      ∃ columns, db.catalog.schema? name = some columns := by
  rw [← Catalog.isSome_get?_iff]
  cases hget : db.catalog.get? name with
  | some t =>
    have hexists : (db.process options line).outcome = "TABLE_EXISTS".toList :=
      congrArg Prod.fst (process_of_found options hparse hget)
    exact iff_of_true hexists rfl
  | none =>
    apply iff_of_false _ Bool.false_ne_true
    have hanswer : (db.process options line).outcome = "INVALID_COMMAND".toList ∨
        (db.process options line).outcome = "SUCCESS".toList :=
      (process_of_fresh options hparse hget).imp (congrArg Prod.fst) (congrArg Prod.fst)
    rcases hanswer with h | h
    · rw [h]
      decide
    · rw [h]
      decide

end Creation

theorem process_showTables {line : Text} (hparse : Statement.parse line = .ok .showTables) :
    (db.process options line).outcome =
      if db.catalog.names = [] then "NO_TABLES_AVAILABLE".toList
      else Text.joined ['\n'] db.catalog.names := by
  rw [process_of_parse hparse]
  show answerOf (.ok (if db.catalog.names.isEmpty then .noTables else .tables db.catalog.names)) = _
  cases db.catalog.names with
  | nil => rfl
  | cons name names => rfl

theorem Effect.schema? {s : Statement} (hf : db.catalog.Filed) (h : db.Effect s after)
    (hcreate : ∀ name columns rejected, s ≠ .createTable name columns rejected)
    (hpurge : s ≠ .purgeAndStop) (name : Text) :
    after.catalog.schema? name = db.catalog.schema? name := by
  cases h with
  | kept => rfl
  | created => exact absurd rfl (hcreate _ _ _)
  | @changed found action t change hfound =>
    rw [withTable_catalog]
    by_cases hname : name = t.name
    · rw [hname, Catalog.schema?_update_self _ { t with rows := change.applied t.rows },
        hf.name_of_get? hfound, Catalog.schema?, hfound, Option.map_some]
    · exact Catalog.schema?_update_of_ne _ hname
  | flushed => rw [flush_catalog]
  | purged => exact absurd rfl hpurge

theorem schema?_iff_of_kept {turn : Turn} {name : Text} {columns : List Column}
    (hcreate : ¬ turn.Creates name columns) (hpurge : purges turn.line = false)
    (h : after.catalog.schema? name = db.catalog.schema? name) :
    after.catalog.schema? name = some columns ↔
      turn.Creates name columns ∨
        purges turn.line = false ∧ db.catalog.schema? name = some columns := by
  rw [h]
  constructor
  · intro hschema
    exact Or.inr ⟨hpurge, hschema⟩
  · rintro (hcreates | ⟨-, hschema⟩)
    · exact absurd hcreates hcreate
    · exact hschema

theorem purges_eq_false {line : Text} {s : Statement} (hparse : Statement.parse line = .ok s)
    (hs : s ≠ .purgeAndStop) : purges line = false := by
  rw [Bool.eq_false_iff]
  intro hp
  rw [purges_iff, hparse] at hp
  exact hs (Except.ok.inj hp)

theorem createTable_schema?_iff {line table : Text} {made : List Column} {rejected : List Text}
    (hparse : Statement.parse line = .ok (.createTable table made rejected)) (name : Text)
    (columns : List Column) :
    (db.process options line).after.catalog.schema? name = some columns ↔
      Turn.Creates ⟨line, (db.process options line).outcome⟩ name columns ∨
        purges line = false ∧ db.catalog.schema? name = some columns := by
  have hpurge : purges line = false := purges_eq_false hparse (by simp)
  cases hget : db.catalog.get? table with
  | some t =>
    obtain ⟨houtcome, hafter⟩ := Prod.mk.inj (process_of_found options hparse hget)
    rw [hafter, houtcome]
    exact schema?_iff_of_kept (Turn.not_creates_of_answer (by decide)) hpurge rfl
  | none =>
    rcases process_of_fresh options hparse hget with hseen | hseen
    · obtain ⟨houtcome, hafter⟩ := Prod.mk.inj hseen
      rw [hafter, houtcome]
      exact schema?_iff_of_kept (Turn.not_creates_of_answer (by decide)) hpurge rfl
    · obtain ⟨houtcome, hafter⟩ := Prod.mk.inj hseen
      rw [hafter, houtcome]
      -- Under the new name there was nothing before, and every other name keeps what it had.
      by_cases hname : name = table
      · subst hname
        rw [withTable_catalog, Catalog.schema?_update_self _ ⟨name, made, []⟩, Catalog.schema?, hget]
        constructor
        · rintro ⟨⟩
          exact Or.inl ⟨rfl, rejected, hparse⟩
        · rintro (⟨-, other, hother⟩ | ⟨-, hnone⟩)
          · rw [hparse] at hother
            cases hother
            rfl
          · cases hnone
      · have hcreate : ¬ Turn.Creates ⟨line, "SUCCESS".toList⟩ name columns := by
          rintro ⟨-, other, hother⟩
          rw [hparse] at hother
          cases hother
          exact hname rfl
        apply schema?_iff_of_kept hcreate hpurge
        rw [withTable_catalog]
        exact Catalog.schema?_update_of_ne _ hname

theorem Takes.schema?_iff (hf : db.catalog.Filed) {turn : Turn}
    (h : db.Takes options turn after) (name : Text) (columns : List Column) :
    after.catalog.schema? name = some columns ↔
      turn.Creates name columns ∨
        purges turn.line = false ∧ db.catalog.schema? name = some columns := by
  cases h with
  | stale parsed =>
    apply schema?_iff_of_kept _ (purges_eq_false parsed (by simp)) rfl
    rintro ⟨-, rejected, hparse⟩
    cases parsed.symm.trans hparse
  | whole line =>
    by_cases hcreate : ∃ table made rejected,
        Statement.parse line = .ok (.createTable table made rejected)
    · obtain ⟨table, made, rejected, hparse⟩ := hcreate
      exact createTable_schema?_iff hparse name columns
    · have hnot : ∀ answer, ¬ Turn.Creates ⟨line, answer⟩ name columns := by
        rintro answer ⟨-, rejected, hparse⟩
        exact hcreate ⟨name, columns, rejected, hparse⟩
      by_cases hpurge : purges line = true
      · rw [process_of_purges hpurge]
        apply iff_of_false
        · rintro ⟨⟩
        · rintro (hcreates | ⟨hkept, -⟩)
          · exact hnot _ hcreates
          · cases hpurge.symm.trans hkept
      · apply schema?_iff_of_kept (hnot _) (Bool.eq_false_iff.2 hpurge)
        rcases executeLine_effect options hf line with hkept | ⟨s, hparse, heffect⟩
        · show (db.executeLine options line).after.catalog.schema? name = _
          rw [hkept]
        · apply heffect.schema? hf
          · rintro table made rejected rfl
            exact hcreate ⟨table, made, rejected, hparse⟩
          · rintro rfl
            exact hpurge (purges_iff.2 hparse)

theorem Takes.sound (hs : db.catalog.Sound) {turn : Turn} (h : db.Takes options turn after) :
    after.catalog.Sound := by
  cases h with
  | whole line => exact executeLine_sound options hs line
  | stale => exact hs

theorem History.sound (hs : db.catalog.Sound) {turns : List Turn}
    (h : db.History options turns after) : after.catalog.Sound := by
  induction h with
  | start => exact hs
  | turn _ taken ih => exact taken.sound ih

theorem History.standing (hs : db.catalog.Sound) {loaded : List (Table Value)}
    (hloaded : ∀ name columns, db.catalog.schema? name = some columns ↔
      ∃ t ∈ loaded, t.name = name ∧ t.columns = columns)
    {turns : List Turn} (h : db.History options turns after) (name : Text)
    (columns : List Column) :
    after.catalog.schema? name = some columns ↔ Standing loaded turns name columns := by
  -- The turns are taken from the end: the last one decides, unless it leaves the name alone.
  induction h with
  | start => rw [hloaded, standing_nil]
  | turn earlier taken ih => rw [taken.schema?_iff (earlier.sound hs).filed, ih, standing_concat]

theorem load_schema? (location : Location) (d : Directory) (name : Text) (columns : List Column) :
    (load location d).1.catalog.schema? name = some columns ↔
      ∃ t ∈ (Storage.loadAll d).1, t.name = name ∧ t.columns = columns := by
  rw [Catalog.schema?, load_get?, Option.map_eq_some_iff]
  constructor
  · rintro ⟨t, ht, hcolumns⟩
    obtain ⟨rfl, -⟩ := Storage.wellFormed_of_tableUnder ht
    exact ⟨t, Storage.mem_loadAll_iff_tableUnder.2 ht, rfl, hcolumns⟩
  · rintro ⟨t, ht, rfl, hcolumns⟩
    exact ⟨t, Storage.mem_loadAll_iff_tableUnder.1 ht, hcolumns⟩

end Database

namespace Session

/-- After any requests, and after any of the lines that come while another one waits, the tables in
memory are those that stand, with their columns. They are what is listed, each once and in ascending
order, and the names under which no new table can be created. -/
theorem reachable_standing (options : Options) (location : Location) (directory : Directory)
    (requests : List Request) (inner : List Text) :
    let opened := opened options location directory
    let s := opened.run (requests.map .request)
    let db := (s.db.processAll options inner).after
    let turns := opened.turns requests ++ s.db.turns options inner
    let loaded := (Storage.loadAll directory).1
    (∀ name columns, db.catalog.schema? name = some columns ↔
      Standing loaded turns name columns) ∧
    (∃ names : List Text, names.Pairwise (· < ·) ∧
      (∀ name, name ∈ names ↔ ∃ columns, Standing loaded turns name columns) ∧
      ∀ flags request, Statement.parse request.own = .ok .showTables →
        (db.respond flags request).outcome =
          (if names = [] then "NO_TABLES_AVAILABLE".toList else Text.joined ['\n'] names, [])) ∧
    ∀ flags request name columns rejected,
      Statement.parse request.own = .ok (.createTable name columns rejected) →
        ((db.respond flags request).outcome.1 = "TABLE_EXISTS".toList ↔
          ∃ columns, Standing loaded turns name columns) := by
  intro opened s db turns loaded
  have hopened : opened.db.catalog.Sound := opened_sound options location directory
  have hhistory : opened.db.History options turns db :=
    (history hopened requests).append (Database.processAll_history options s.db inner)
  have hsound : db.catalog.Sound := hhistory.sound hopened
  have hstanding : ∀ name columns, db.catalog.schema? name = some columns ↔
      Standing loaded turns name columns :=
    hhistory.standing hopened (Database.load_schema? location directory)
  -- No line comes between where no table is looked up.
  have halone : ∀ (flags : Options) (request : Request),
      (∀ name action, Statement.parse request.own ≠ .ok (.onTable name action)) →
      (db.respond flags request).outcome = ((db.process flags request.own).outcome, []) := by
    intro flags request hparse
    exact congrArg Prod.fst (Database.respond_of_alone fun name action _ h => absurd h (hparse _ _))
  refine ⟨hstanding, ⟨db.catalog.names, Catalog.names_ascending hsound, ?_, ?_⟩, ?_⟩
  · intro name
    simp only [← hstanding]
    exact Catalog.mem_names_iff
  · intro flags request hparse
    rw [halone flags request (by simp [hparse]), Database.process_showTables hparse]
  · intro flags request name columns rejected hparse
    simp only [← hstanding]
    rw [halone flags request (by simp [hparse])]
    exact Database.process_exists_iff flags hparse

theorem reachable_standing_recreated :
    let opened := opened ⟨true⟩ ⟨"data".toList, "/data".toList⟩ Directory.empty
    let requests := [Request.line "CREATE_TABLE t (a INT)".toList,
      .interleaved "INSERT INTO t VALUES (1)".toList
        ["PURGE_AND_STOP".toList, "CREATE_TABLE t (b STRING)".toList]]
    let inner := ["STOP".toList]
    let s := opened.run (requests.map .request)
    let db := (s.db.processAll ⟨true⟩ inner).after
    let turns := opened.turns requests ++ s.db.turns ⟨true⟩ inner
    let again := Request.line "CREATE_TABLE t (a REAL)".toList
    db.catalog.schema? "t".toList = some [⟨"b".toList, .string⟩] ∧
      Standing (Storage.loadAll Directory.empty).1 turns "t".toList [⟨"b".toList, .string⟩] ∧
      Statement.parse again.own = .ok (.createTable "t".toList [] ["a REAL".toList]) ∧
      (db.respond ⟨true⟩ again).outcome.1 = "TABLE_EXISTS".toList := by
  have hparse : Statement.parse "CREATE_TABLE t (a REAL)".toList =
      .ok (.createTable "t".toList [] ["a REAL".toList]) := by decide +kernel
  obtain ⟨hstanding, -, hexists⟩ := reachable_standing ⟨true⟩ ⟨"data".toList, "/data".toList⟩
    Directory.empty
    [.line "CREATE_TABLE t (a INT)".toList, .interleaved "INSERT INTO t VALUES (1)".toList
      ["PURGE_AND_STOP".toList, "CREATE_TABLE t (b STRING)".toList]] ["STOP".toList]
  have hturns := (hstanding "t".toList [⟨"b".toList, .string⟩]).1 (by decide +kernel)
  exact ⟨(hstanding _ _).2 hturns, hturns, hparse,
    (hexists ⟨true⟩ (.line _) _ _ _ hparse).2 ⟨_, hturns⟩⟩

end Session
end LineTables
