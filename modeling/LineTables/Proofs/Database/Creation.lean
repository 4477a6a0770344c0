import LineTables.Proofs.Database.Single
import LineTables.Proofs.Statement.Clauses

/-!
# New tables, strict and lenient

A line that asks for a new table is accepted if its clauses declare a column at least and no name twice;
a strict database also wants no clause that declares none. This is all that strictness is about: on every
other line, and where the table is there already, it makes no difference.
-/

set_option autoImplicit false

namespace LineTables

namespace Database

variable (options : Options) {db : Database} {line name : Text} {columns : List Column}
  {rejected : List Text}

/-- A table with the columns can be entered, though clauses were rejected. -/
def Enterable (strict : Bool) (columns : List Column) (rejected : List Text) : Prop :=
  columns ≠ [] ∧ (columns.map (·.name)).Nodup ∧ (strict = true → rejected = [])

theorem createTable_enterable (fresh : db.catalog.get? name = none)
    (h : Enterable options.strict columns rejected) :
    (db.createTable options name columns rejected).seen =
      (.ok .success, db.withTable ⟨name, columns, []⟩) := by
  obtain ⟨hne, hdistinct, hstrict⟩ := h
  have hkept : ¬ (options.strict && !rejected.isEmpty) = true := by
    simpa using hstrict
  have hempty : ¬ columns.isEmpty = true := by simpa using hne
  have hrepeated : ¬ hasRepetition (columns.map (·.name)) = true := by
    rw [hasRepetition_eq_false_iff.2 hdistinct]
    exact Bool.false_ne_true
  rw [createTable_of_none options fresh, if_neg hkept, if_neg hempty, if_neg hrepeated]

theorem createTable_not_enterable (fresh : db.catalog.get? name = none)
    (h : ¬ Enterable options.strict columns rejected) :
    ∃ refusal : Refusal, refusal.mark = "INVALID_COMMAND".toList ∧
      (db.createTable options name columns rejected).seen = (.error refusal, db) := by
  rw [createTable_of_none options fresh]
  split_ifs with hstrict hempty hrepeated
  · exact ⟨_, rfl, rfl⟩
  · exact ⟨_, rfl, rfl⟩
  · exact ⟨_, rfl, rfl⟩
  · refine absurd ⟨by simpa using hempty, ?_, by simpa using hstrict⟩ h
    exact hasRepetition_eq_false_iff.1 (Bool.eq_false_iff.2 hrepeated)

/-- The line asks for a table that is not there, with a clause that declares no column. -/
def Contested (db : Database) (line : Text) : Prop :=
  ∃ name columns rejected, Statement.parse line = .ok (.createTable name columns rejected) ∧
    rejected ≠ [] ∧ db.catalog.get? name = none

theorem createTable_agrees (h : rejected = [] ∨ db.catalog.get? name ≠ none) :
    db.createTable ⟨true⟩ name columns rejected = db.createTable ⟨false⟩ name columns rejected := by
  rw [createTable, createTable]
  rcases h with rfl | hfound
  · rfl
  · have hcontains : db.catalog.contains name = true := Option.isSome_iff_ne_none.2 hfound
    rw [if_pos hcontains, if_pos hcontains]

theorem process_agrees (h : ¬ db.Contested line) :
    db.process ⟨true⟩ line = db.process ⟨false⟩ line := by
  rw [process, process, executeLine, executeLine]
  cases hparse : Statement.parse line with
  | error cause => rfl
  | ok s =>
    cases s with
    | createTable name columns rejected =>
      have hkept : rejected = [] ∨ db.catalog.get? name ≠ none := by
        by_contra hboth
        rw [not_or, not_not] at hboth
        exact h ⟨name, columns, rejected, hparse, hboth⟩
      exact congrArg (answered line) (createTable_agrees hkept)
    | onTable name action => rfl
    | showTables => rfl
    | stop => rfl
    | purgeAndStop => rfl

theorem process_contested (h : db.Contested line) :
    (db.process ⟨true⟩ line).seen = ("INVALID_COMMAND".toList, db) := by
  obtain ⟨name, columns, rejected, hparse, hrejected, fresh⟩ := h
  have hnot : ¬ Enterable true columns rejected := fun henterable => hrejected (henterable.2.2 rfl)
  obtain ⟨refusal, hmark, hseen⟩ := createTable_not_enterable ⟨true⟩ fresh hnot
  rw [← hmark]
  exact process_of_execute ⟨true⟩ hparse hseen

end Database

namespace Session
open Database

/-- In every state that a session reaches, a line that asks for a new table with clauses is carried out
exactly if the clauses that declare columns are one at least and name no column twice, and, where the database
is strict, no clause was rejected; the table then has the declared columns in their order. Strictness makes no
difference to any other line. -/
theorem reachable_created (options : Options) (location : Location) (directory : Directory)
    (happenings : List Happening) :
    let s := (opened options location directory).run happenings
    (∀ (name : Text) (clauses : List Text), isValidName name = true →
      s.db.catalog.get? name = none → clauses ≠ [] →
      (∀ clause ∈ clauses, ∀ c ∈ [',', '(', ')'], c ∉ clause) →
      ∃ columns rejected, Statement.Sifted clauses columns rejected ∧ ∀ strict : Bool,
        let step := s.db.process ⟨strict⟩ (Statement.creation name clauses)
        let accepted := columns ≠ [] ∧ (columns.map (·.name)).Nodup ∧ (strict = true → rejected = [])
        (step.outcome = "SUCCESS".toList ↔ accepted) ∧
        (accepted → step.after = s.db.withTable ⟨name, columns, []⟩ ∧
          step.after.catalog.get? name = some ⟨name, columns, []⟩ ∧
          ∀ other, other ≠ name → step.after.catalog.get? other = s.db.catalog.get? other) ∧
        (¬ accepted → step.outcome = "INVALID_COMMAND".toList ∧ step.after = s.db)) ∧
    ∀ line,
      (¬ s.db.Contested line → s.db.process ⟨true⟩ line = s.db.process ⟨false⟩ line) ∧
      (s.db.Contested line → (s.db.process ⟨true⟩ line).outcome = "INVALID_COMMAND".toList ∧
        (s.db.process ⟨true⟩ line).after = s.db) := by
  intro s
  constructor
  · intro name clauses hname fresh hne hclauses
    obtain ⟨columns, rejected, hsifted, hparse⟩ := Statement.parse_creation hname hne hclauses
    refine ⟨columns, rejected, hsifted, ?_⟩
    intro strict step accepted
    have hmode : accepted ↔ Enterable strict columns (rejected.map Text.trim) := by
      rw [Enterable, List.map_eq_nil_iff]
    have hentered : accepted →
        step.seen = ("SUCCESS".toList, s.db.withTable ⟨name, columns, []⟩) := by
      intro haccepted
      exact process_of_execute ⟨strict⟩ hparse (createTable_enterable ⟨strict⟩ fresh (hmode.1 haccepted))
    have hrefused : ¬ accepted → step.seen = ("INVALID_COMMAND".toList, s.db) := by
      intro hnot
      obtain ⟨refusal, hmark, hseen⟩ := createTable_not_enterable ⟨strict⟩ fresh (mt hmode.2 hnot)
      rw [← hmark]
      exact process_of_execute ⟨strict⟩ hparse hseen
    refine ⟨⟨?_, fun haccepted => congrArg Prod.fst (hentered haccepted)⟩, ?_, ?_⟩
    · intro hsuccess
      by_contra hnot
      have hanswer : step.outcome = "INVALID_COMMAND".toList := congrArg Prod.fst (hrefused hnot)
      exact absurd (hsuccess.symm.trans hanswer) (by decide)
    · intro haccepted
      have hafter : step.after = s.db.withTable ⟨name, columns, []⟩ :=
        congrArg Prod.snd (hentered haccepted)
      refine ⟨hafter, ?_, ?_⟩
      · rw [hafter, withTable_catalog]
        exact Catalog.get?_update_self s.db.catalog ⟨name, columns, []⟩
      · intro other hother
        rw [hafter, withTable_catalog]
        exact Catalog.get?_update_of_ne s.db.catalog hother
    · intro hnot
      exact Prod.mk.inj (hrefused hnot)
  · intro line
    exact ⟨process_agrees, fun hcontested => Prod.mk.inj (process_contested hcontested)⟩

theorem reachable_created_dropped :
    let s := (opened ⟨false⟩ ⟨"data".toList, "/data".toList⟩ Directory.empty).run []
    let clauses := [" id\u00a0int".toList, "id FLOAT".toList, "\u3000".toList]
    let line := Statement.creation "t".toList clauses
    isValidName "t".toList = true ∧ s.db.catalog.get? "t".toList = none ∧ clauses ≠ [] ∧
      (∀ clause ∈ clauses, ∀ c ∈ [',', '(', ')'], c ∉ clause) ∧
      (∃ columns rejected, Statement.Sifted clauses columns rejected ∧ columns ≠ [] ∧
        (columns.map (·.name)).Nodup ∧ rejected ≠ []) ∧
      s.db.Contested line ∧ (s.db.process ⟨true⟩ line).after = s.db ∧
      ¬ s.db.Contested "SHOW".toList ∧
      s.db.process ⟨true⟩ "SHOW".toList = s.db.process ⟨false⟩ "SHOW".toList := by
  intro s clauses line
  have hname : isValidName "t".toList = true := by decide
  have hfresh : s.db.catalog.get? "t".toList = none := rfl
  have hne : clauses ≠ [] := by decide
  have hclauses : ∀ clause ∈ clauses, ∀ c ∈ [',', '(', ')'], c ∉ clause := by
    have hall : clauses.all (fun clause => [',', '(', ')'].all (!clause.contains ·)) = true := by
      decide
    simpa only [List.all_eq_true, Bool.not_eq_true', List.contains_eq_mem,
      decide_eq_false_iff_not] using hall
  have hlenient : (s.db.process ⟨false⟩ line).outcome = "SUCCESS".toList := by decide +kernel
  have hstrict : (s.db.process ⟨true⟩ line).outcome ≠ "SUCCESS".toList := by decide +kernel
  have hcontested : s.db.Contested line := by
    refine ⟨"t".toList, [⟨"id".toList, .int⟩], ["id FLOAT".toList, []], ?_, by decide, rfl⟩
    decide +kernel
  have hother : ¬ s.db.Contested "SHOW".toList := by
    rintro ⟨name, columns, rejected, hparse, -⟩
    have hshow : Statement.parse "SHOW".toList = .ok .showTables := by decide +kernel
    rw [hshow] at hparse
    cases hparse
  obtain ⟨hcreated, hlines⟩ :=
    reachable_created ⟨false⟩ ⟨"data".toList, "/data".toList⟩ Directory.empty []
  obtain ⟨columns, rejected, hsifted, hmodes⟩ := hcreated "t".toList clauses hname hfresh hne hclauses
  obtain ⟨hcolumns, hdistinct, -⟩ := (hmodes false).1.1 hlenient
  have hrejected : rejected ≠ [] := by
    intro hnil
    exact hstrict ((hmodes true).1.2 ⟨hcolumns, hdistinct, fun _ => hnil⟩)
  exact ⟨hname, hfresh, hne, hclauses, ⟨columns, rejected, hsifted, hcolumns, hdistinct, hrejected⟩,
    hcontested, ((hlines line).2 hcontested).2, hother, (hlines "SHOW".toList).1 hother⟩

end Session
end LineTables
