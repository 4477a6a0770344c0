import LineTables.Proofs.Database.Frame
import LineTables.Proofs.Database.Matching
import LineTables.Proofs.Statement.Assigning

/-!
# A text that an update stores

The line that gives a text to a column stores this text in the rows of its condition, or is refused. A text
at which the line would be cut is never stored in parts, and neither is it taken for a further assignment or
for another condition: the check of the first literal fails before anything changes.
-/

set_option autoImplicit false

namespace LineTables
open Text

namespace Row

/-- The row after one column was given a value. -/
structure Assigned (column : Text) (value : Value) (row later : Row Value) : Prop where
  names : later.names = row.names
  assigned : later.get? column = some value
  kept : ∀ other, other ≠ column → later.get? other = row.get? other

theorem assigned_put {columns : List Column} {row : Row Value} (fits : Fits columns row) {c : Column}
    (hc : c ∈ columns) (value : Value) : Assigned c.name value row (row.put c.name value) where
  names := by
    apply Record.names_put_of_mem
    rw [fits_names fits]
    exact List.mem_map_of_mem hc
  assigned := Record.get?_put_self c.name value row
  kept := fun _ hother => Record.get?_put_of_ne hother value row

end Row

namespace Action

variable {t : Table Value} {c : Column}

theorem updatesOf_inQuotes (ht : t.WellFormed) (hc : c ∈ t.columns) (hs : c.type = .string)
    (text : Text) : updatesOf t [(c.name, inQuotes text)] = .ok [(c.name, .text text)] := by
  have hadmits : c.type.Admits (.text text) := by
    rw [hs]
    trivial
  have hread : c.literal? (inQuotes text) = .ok (.text text) := literal?_literal hadmits
  rw [updatesOf, ht.column?_of_mem hc]
  dsimp only
  rw [hread]
  rfl

theorem check_notQuoted (ht : t.WellFormed) (hc : c ∈ t.columns) (hs : c.type = .string)
    {literal : Text} (h : unquoted? literal = none) (later : List (Text × Text)) (w : Text) :
    check t (.update ((c.name, literal) :: later) w) =
      .error (.literal (.notQuoted c.name literal)) := by
  have hread : c.literal? literal = .error (.notQuoted c.name literal) := by
    rw [Column.literal?, hs, h]
  rw [check, updatesOf, ht.column?_of_mem hc]
  dsimp only
  rw [hread]
  rfl

end Action

namespace Database

variable (options : Options) {db : Database} {name text w : Text} {t : Table Value} {c : Column}

theorem assigning_stored (hf : db.catalog.Filed) (ht : t.WellFormed)
    (found : db.catalog.get? name = some t) (hset : name ≠ Keyword.setText) (hc : c ∈ t.columns)
    (hs : c.type = .string) (hwhere : c.name ≠ Keyword.whereText) (hw : Action.PlainCondition w)
    (h : Statement.Uncut text) :
    let k := t.rows.countP (Condition.holdsFor w)
    (db.process options (Statement.assigning name c.name text w)).seen =
      (if k = 0 then "NO_ROWS_UPDATED".toList else "UPDATED ".toList ++ Text.ofNat k,
        if k = 0 then db else db.withTable { t with
          rows := t.rows.map fun row =>
            if Condition.holdsFor w row then row.put c.name (.text text) else row }) := by
  intro k
  have hname := hf.name_of_get? found
  have hparse := Statement.parse_assigning (hname ▸ ht.name) hset (ht.columnNames c hc) hwhere hw h
  have hseen := update_matching options hname found (Action.updatesOf_inQuotes ht hc hs text) w
  rw [process_of_execute options hparse hseen]
  split <;> rfl

theorem assigning_refused (hf : db.catalog.Filed) (ht : t.WellFormed)
    (found : db.catalog.get? name = some t) (hset : name ≠ Keyword.setText) (hc : c ∈ t.columns)
    (hs : c.type = .string) (hwhere : c.name ≠ Keyword.whereText) (hw : Action.PlainCondition w)
    (hquote : '"' ∉ text) (h : ¬ Statement.Uncut text) :
    (db.process options (Statement.assigning name c.name text w)).seen =
      ("INVALID_COMMAND".toList, db) := by
  have hname : isValidName name = true := hf.name_of_get? found ▸ ht.name
  cases hparse : Statement.parse (Statement.assigning name c.name text w) with
  | error cause => exact process_of_malformed options hparse
  | ok s =>
    obtain ⟨literal, later, condition, rfl, hnone⟩ := Statement.parse_assigning_cut hname hset
      (ht.columnNames c hc) hwhere hw hquote h hparse
    exact process_of_refused options hparse found
      (Action.check_notQuoted ht hc hs hnone later condition)

end Database

namespace Session

/-- In every state that a session reaches, the line that gives a text to a column stores this text in the
rows of its condition and changes nothing else, if there is no comma, no equals sign and no whole word that
opens a condition in the text; otherwise it is refused and changes nothing. -/
theorem reachable_text_assigned (options : Options) (location : Location) (directory : Directory)
    (happenings : List Happening) {name text w : Text} {t : Table Value} {c : Column}
    (found : ((opened options location directory).run happenings).db.catalog.get? name = some t)
    (hset : name ≠ Keyword.setText) (hc : c ∈ t.columns) (hs : c.type = .string)
    (hwhere : c.name ≠ Keyword.whereText) (hquote : '"' ∉ text) (hw : Action.PlainCondition w) :
    let s := (opened options location directory).run happenings
    let step := s.db.process s.options (Statement.assigning name c.name text w)
    let k := t.rows.countP (Condition.holdsFor w)
    (Statement.Uncut text →
      step.outcome =
        (if k = 0 then "NO_ROWS_UPDATED".toList else "UPDATED ".toList ++ Text.ofNat k) ∧
      (∃ rows, step.after = (if k = 0 then s.db else s.db.withTable { t with rows }) ∧
        step.after.catalog.get? name = some { t with rows } ∧
        List.Forall₂ (fun row later => if Condition.holdsFor w row = true
          then Row.Assigned c.name (.text text) row later else later = row) t.rows rows) ∧
      (∀ other, other ≠ name → step.after.catalog.get? other = s.db.catalog.get? other) ∧
      ∀ path, path ≠ Storage.fileName name →
        step.after.directory.get? path = s.db.directory.get? path) ∧
    (¬ Statement.Uncut text → step.outcome = "INVALID_COMMAND".toList ∧ step.after = s.db) := by
  intro s step k
  have hsound : s.db.catalog.Sound := reachable_sound options location directory happenings
  have ht := hsound.of_get? found
  have hname := hsound.filed.name_of_get? found
  constructor
  · intro h
    obtain ⟨houtcome, hafter⟩ := Prod.mk.inj (Database.assigning_stored s.options hsound.filed ht
      found hset hc hs hwhere hw h)
    have hparse := Statement.parse_assigning (hname ▸ ht.name) hset (ht.columnNames c hc) hwhere hw h
    have hconfined := Database.executeLine_confined s.options hsound hparse rfl
    refine ⟨houtcome, ⟨_, hafter, ?_, ?_⟩, hconfined.memory, hconfined.files⟩
    · rw [show step.after = _ from hafter]
      exact Database.get?_changed hname found
        (.assign [(c.name, .text text)] (Condition.ofText w))
    · rw [List.forall₂_map_right_iff, List.forall₂_same]
      intro row hm
      split
      · exact Row.assigned_put (ht.rows row hm) hc (.text text)
      · rfl
  · intro h
    exact Prod.mk.inj (Database.assigning_refused s.options hsound.filed ht found hset hc hs hwhere hw
      hquote h)

theorem reachable_text_assigned_torn :
    let s := (opened ⟨false⟩ ⟨"data".toList, "/data".toList⟩ Directory.empty).run
      [.request (.line "CREATE_TABLE t (c STRING, d INT)".toList),
        .request (.line "INSERT INTO t VALUES (\"y\", 1)".toList),
        .request (.line "INSERT INTO t VALUES (\"y\", 2)".toList)]
    let c : Column := ⟨"c".toList, .string⟩
    let row (v : Text) (d : Int) : Row Value := [("c".toList, .text v), ("d".toList, .int d)]
    let t : Table Value := ⟨"t".toList, [c, ⟨"d".toList, .int⟩], [row ['y'] 1, row ['y'] 2]⟩
    let whole := " SET (it's) WHEREx AND ".toList
    let line (text : Text) := Statement.assigning t.name c.name text "d=1".toList
    s.db.catalog.get? t.name = some t ∧
      line "x, d=5".toList = "UPDATE t SET c=\"x, d=5\" WHERE d=1".toList ∧
      Statement.Uncut whole ∧ (s.db.process s.options (line whole)).outcome = "UPDATED 1".toList ∧
      (s.db.process s.options (line whole)).after.catalog.get? t.name =
        some { t with rows := [row whole 1, row ['y'] 2] } ∧
      (s.db.process s.options (line "x, d=5".toList)).after = s.db ∧
      (s.db.process s.options (line "a WHERE b".toList)).after = s.db := by
  intro s c row t whole line
  have hfound : s.db.catalog.get? t.name = some t := by decide +kernel
  have hcolumn : c ∈ t.columns := List.mem_cons_self
  have hwhole : Statement.Uncut whole := by
    refine ⟨by decide, by decide, ?_⟩
    rw [← lacks_iff_not_hasWord isWord_where, Lacks]
    decide +kernel
  have hword : HasWord Keyword.whereText "a WHERE b".toList :=
    ⟨"a ".toList, " b".toList, by decide, by decide +kernel, by decide +kernel⟩
  have hcondition : Action.PlainCondition "d=1".toList := ⟨by decide, by decide⟩
  have happly (text : Text) (hquote : '"' ∉ text) := reachable_text_assigned ⟨false⟩
    ⟨"data".toList, "/data".toList⟩ Directory.empty _ hfound (by decide) hcolumn rfl (by decide)
    hquote hcondition
  have houtcome := ((happly whole (by decide)).1 hwhole).1
  refine ⟨hfound, by decide +kernel, hwhole, houtcome.trans (by decide +kernel), by decide +kernel,
    ?_, ?_⟩
  · exact ((happly _ (by decide)).2 fun h => h.noComma (by decide)).2
  · exact ((happly _ (by decide)).2 fun h => h.noWord hword).2

end Session
end LineTables
