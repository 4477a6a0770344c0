import LineTables.Proofs.Database.Actions
import LineTables.Proofs.Database.Listing
import LineTables.Proofs.Statement.Codec
import LineTables.Proofs.Table.Numeral

/-!
# Refusals that are not foreseen

A line can be refused for something that no check looks for in one way only: an integer literal with more
digits than a numeral may have, and only if everything to the left of it is accepted. A cell that a row has
not does not come up: the rows of a table have a cell for each of its columns, whatever files they were read
from, and columns that a table has not are refused before its rows are looked at. A table file with a path
too long to be looked at comes up only if it was put there from outside.
-/

set_option autoImplicit false

namespace LineTables
open Checks

namespace Action

variable {t : Table Value}

/-- The leftmost literal of the action that fails is one of an integer column of the table, and has too
many digits. -/
inductive Overflows (t : Table Value) : Action → Prop
  | insert {literals : List Text} {before after : List (Column × Text)} {column : Column}
      {token : Text} (length : literals.length = t.columns.length)
      (split : t.columns.zip literals = before ++ (column, token) :: after)
      (accepted : ∀ cell ∈ before, cell.1.Reads cell.2)
      (type : column.type = .int) (overlong : Overlong token) : Overflows t (.insert literals)
  | update {before after : List (Text × Text)} {column : Column} {name token : Text}
      (condition : Text)
      (accepted : ∀ assignment ∈ before, ∃ column, t.column? assignment.1 = some column ∧
        column.Reads assignment.2)
      (found : t.column? name = some column)
      (type : column.type = .int) (overlong : Overlong token) :
      Overflows t (.update (before ++ (name, token) :: after) condition)

theorem cellOf_reads_iff {cell : Column × Text} :
    (∃ result, cellOf cell = .ok result) ↔ cell.1.Reads cell.2 := by
  simp only [cellOf, map_ok_iff]
  constructor
  · rintro ⟨-, value, hvalue, -⟩
    exact ⟨value, hvalue⟩
  · rintro ⟨value, hvalue⟩
    exact ⟨_, value, hvalue, rfl⟩

theorem cellOf_error_iff {cell : Column × Text} {cause : LiteralError} :
    cellOf cell = .error cause ↔ cell.1.literal? cell.2 = .error cause :=
  map_error_iff

theorem updateOf_error_iff {assignment : Text × Text} {refusal : Refusal} :
    updateOf t assignment = .error refusal ↔
      (t.column? assignment.1 = none ∧ refusal = .noSuchColumn assignment.1) ∨
      ∃ column cause, t.column? assignment.1 = some column ∧
        column.literal? assignment.2 = .error cause ∧ refusal = .literal cause := by
  rw [updateOf]
  cases t.column? assignment.1 with
  | none => simp [eq_comm]
  | some column =>
    simp only [map_error_iff, mapError_error_iff, reduceCtorEq, false_and, false_or,
      Option.some.injEq]
    constructor
    · rintro ⟨cause, hcause, rfl⟩
      exact ⟨column, cause, rfl, hcause, rfl⟩
    · rintro ⟨_, cause, rfl, hcause, rfl⟩
      exact ⟨cause, hcause, rfl⟩

theorem rowOf_overflows_iff {literals : List Text}
    (hl : literals.length = t.columns.length) :
    rowOf t.columns literals = .error .tooManyDigits ↔ Overflows t (.insert literals) := by
  rw [rowOf_eq_mapM, mapM_error_iff]
  simp only [cellOf_reads_iff, cellOf_error_iff, literal?_tooManyDigits_iff]
  constructor
  · rintro ⟨before, ⟨column, token⟩, after, hsplit, haccepted, htype, hoverlong⟩
    exact .insert hl hsplit haccepted htype hoverlong
  · intro h
    cases h with
    | insert _ hsplit haccepted htype hoverlong =>
      exact ⟨_, _, _, hsplit, haccepted, htype, hoverlong⟩

theorem updatesOf_overflows_iff {assignments : List (Text × Text)} (condition : Text) :
    updatesOf t assignments = .error (.literal .tooManyDigits) ↔
      Overflows t (.update assignments condition) := by
  rw [updatesOf_eq_mapM, mapM_error_iff]
  simp only [updateOf_reads_iff, updateOf_error_iff]
  constructor
  · rintro ⟨before, ⟨name, token⟩, after, rfl, haccepted, hfails⟩
    obtain ⟨-, hrefusal⟩ | ⟨column, cause, hcolumn, hcause, hrefusal⟩ := hfails
    · cases hrefusal
    · cases hrefusal
      obtain ⟨htype, hoverlong⟩ := literal?_tooManyDigits_iff.1 hcause
      exact .update condition haccepted hcolumn htype hoverlong
  · intro h
    cases h with
    | update _ haccepted hcolumn htype hoverlong =>
      have hcause := literal?_tooManyDigits_iff.2 ⟨htype, hoverlong⟩
      exact ⟨_, _, _, rfl, haccepted, Or.inr ⟨_, _, hcolumn, hcause, rfl⟩⟩

theorem columnsOf_refuses {columns : Option (List Text)} {refusal : Refusal}
    (h : columnsOf t columns = .error refusal) : ∃ name, refusal = .noSuchColumn name := by
  cases columns with
  | none => cases h
  | some names =>
    rw [columnsOf] at h
    split at h
    · rename_i name _
      cases h
      exact ⟨name, rfl⟩
    · cases h

theorem literal_foreseen_or (cause : LiteralError) :
    (Refusal.literal cause).isForeseen = true ∨
      Refusal.literal cause = .literal .tooManyDigits := by
  cases cause with
  | tooManyDigits => exact Or.inr rfl
  | _ => exact Or.inl rfl

theorem check_refuses {action : Action} {refusal : Refusal} (h : action.check t = .error refusal) :
    refusal.isForeseen = true ∨ refusal = .literal .tooManyDigits := by
  cases action with
  | insert literals =>
    rw [check] at h
    split at h
    · cases h
      exact Or.inl rfl
    · split at h
      · cases h
      · cases h
        exact literal_foreseen_or _
  | select columns condition =>
    rw [check] at h
    split at h
    · cases h
    · rename_i hcolumns
      cases h
      obtain ⟨name, rfl⟩ := columnsOf_refuses hcolumns
      exact Or.inl rfl
  | update assignments condition =>
    rw [check] at h
    split at h
    · cases h
    · rename_i hupdates
      cases h
      rw [updatesOf_eq_mapM, mapM_error_iff] at hupdates
      obtain ⟨-, assignment, -, -, -, hfails⟩ := hupdates
      rcases updateOf_error_iff.1 hfails with ⟨-, rfl⟩ | ⟨column, cause, -, -, rfl⟩
      · exact Or.inl rfl
      · exact literal_foreseen_or cause
  | delete condition => cases h

theorem check_overflows_iff {action : Action} :
    action.check t = .error (.literal .tooManyDigits) ↔ Overflows t action := by
  cases action with
  | insert literals =>
    by_cases hlength : literals.length = t.columns.length
    · rw [check, if_neg (not_not.2 hlength), ← rowOf_overflows_iff hlength]
      cases rowOf t.columns literals <;> simp
    · rw [check, if_pos hlength]
      constructor
      · intro h
        cases h
      · rintro ⟨length⟩
        exact absurd length hlength
  | select columns condition =>
    constructor
    · intro h
      rw [check] at h
      split at h
      · cases h
      · rename_i hcolumns
        cases h
        obtain ⟨name, hname⟩ := columnsOf_refuses hcolumns
        cases hname
    · intro h
      cases h
  | update assignments condition =>
    rw [check, ← updatesOf_overflows_iff condition]
    cases updatesOf t assignments <;> simp
  | delete condition =>
    constructor
    · intro h
      cases h
    · intro h
      cases h

theorem columnsOf_mem {columns : Option (List Text)} {names : List Text}
    (h : columnsOf t columns = .ok names) : ∀ name ∈ names, name ∈ t.columnNames := by
  cases columns with
  | none =>
    cases h
    exact fun name hname => hname
  | some given =>
    rw [columnsOf] at h
    split at h
    · cases h
    · rename_i hnone
      cases h
      intro name hname
      have hfound : t.column? name ≠ none := by
        simpa using List.find?_eq_none.1 hnone name hname
      obtain ⟨column, hcolumn⟩ := Option.ne_none_iff_exists'.1 hfound
      have heq : column.name = name := by
        simpa using List.find?_some hcolumn
      exact heq ▸ List.mem_map_of_mem (List.mem_of_find?_eq_some hcolumn)

end Action

namespace Database

variable (options : Options) {db : Database} {line name : Text} {t : Table Value}

theorem createTable_foreseen {columns : List Column} {rejected : List Text} {refusal : Refusal}
    (h : (db.createTable options name columns rejected).outcome = .error refusal) :
    refusal.isForeseen = true := by
  rw [createTable] at h
  dsimp only at h
  split at h
  · cases h
    rfl
  · split at h
    · cases h
      rfl
    · split at h
      · cases h
        rfl
      · split at h
        · cases h
          rfl
        · cases h

theorem print_found (hs : db.catalog.Sound) (found : db.catalog.get? name = some t)
    {columns : Option (List Text)} {names : List Text} (h : Action.columnsOf t columns = .ok names)
    (condition : Option Condition) : ∃ reply, t.print names condition = .ok reply :=
  Table.print_total (hs.of_get? found) (Action.columnsOf_mem h) condition

theorem check_of_refused (hs : db.catalog.Sound) (found : db.catalog.get? name = some t)
    {action : Action} {refusal : Refusal}
    (h : (db.execute options (.onTable name action)).outcome = .error refusal) :
    action.check t = .error refusal := by
  cases hcheck : action.check t with
  | error cause =>
    have hseen := congrArg Prod.fst (execute_of_refused options found hcheck)
    cases hseen.symm.trans h
    rfl
  | ok task =>
    cases task with
    | print names condition =>
      obtain ⟨columns, -, -, hcolumns⟩ := Action.check_print hcheck
      obtain ⟨reply, hreply⟩ := print_found hs found hcolumns condition
      have hseen := congrArg Prod.fst (execute_of_print options found hcheck)
      cases (hseen.symm.trans h).symm.trans hreply
    | change change =>
      have hseen := execute_change options (hs.filed.name_of_get? found) found hcheck
      cases (congrArg Prod.fst hseen).symm.trans h

theorem executeLine_refuses (hs : db.catalog.Sound) {refusal : Refusal}
    (h : (db.executeLine options line).outcome = .error refusal) :
    refusal.isForeseen = true ∨
      (refusal = .literal .tooManyDigits ∧
        ∃ name t action, Statement.parse line = .ok (.onTable name action) ∧
          db.catalog.get? name = some t ∧ action.Overflows t) ∨
      (refusal = .pathTooLong ∧ Statement.parse line = .ok .purgeAndStop ∧ ¬ db.Listable) := by
  rw [executeLine] at h
  split at h
  · rename_i s hparse
    cases s with
    | createTable table columns rejected => exact Or.inl (createTable_foreseen options h)
    | onTable name action =>
      cases hfound : db.catalog.get? name with
      | none =>
        rw [execute, hold_of_none hfound] at h
        cases h
        exact Or.inl rfl
      | some t =>
        have hcheck := check_of_refused options hs hfound h
        rcases Action.check_refuses hcheck with hforeseen | rfl
        · exact Or.inl hforeseen
        · exact Or.inr (Or.inl
            ⟨rfl, name, t, action, hparse, hfound, Action.check_overflows_iff.1 hcheck⟩)
    | showTables => cases h
    | stop => cases h
    | purgeAndStop =>
      by_cases hlist : db.Listable
      · cases (purge_of_listable hlist).1.symm.trans h
      · cases (purge_of_not_listable hlist).1.symm.trans h
        exact Or.inr (Or.inr ⟨rfl, hparse, hlist⟩)
  · cases h
    exact Or.inl rfl

theorem error_mem_refusalEvents_iff {outcome : Outcome} :
    (∃ event ∈ refusalEvents line outcome, event.level = .error) ↔
      ∃ refusal, outcome = .error refusal ∧ refusal.isForeseen = false := by
  cases outcome with
  | ok reply => simp [refusalEvents]
  | error refusal => cases hforeseen : refusal.isForeseen <;> simp [refusalEvents, hforeseen]

theorem executeLine_of_overflows {action : Action}
    (hparse : Statement.parse line = .ok (.onTable name action))
    (found : db.catalog.get? name = some t) (h : action.Overflows t) :
    (db.executeLine options line).outcome = .error (.literal .tooManyDigits) := by
  rw [executeLine, hparse]
  exact congrArg Prod.fst (execute_of_refused options found (Action.check_overflows_iff.2 h))

end Database

namespace Session

/-- In every state that a session reaches, and for every line, a refusal that is not foreseen is that of
a literal with too many digits, and no other one is told as an error, as long as the table files can be
listed. It comes up exactly if such a literal is the leftmost one that fails, in an insertion of the right
length or an update, on a table that is there. No cell is missing where columns of a table are printed. The
table files can be listed in every session that was opened, unless they were put out of sight from outside;
then the removal of all tables is refused too, and told as an error. -/
theorem reachable_unforeseen_iff (options : Options) (location : Location) (directory : Directory)
    (happenings : List Happening) (line : Text) :
    let s := (opened options location directory).run happenings
    let outcome := (s.db.executeLine s.options line).outcome
    (s.db.Listable →
      (∀ refusal, outcome = .error refusal →
        refusal.isForeseen = true ∨ refusal = .literal .tooManyDigits) ∧
      ((∃ event ∈ Database.refusalEvents line outcome, event.level = .error) ↔
        outcome = .error (.literal .tooManyDigits))) ∧
    (outcome = .error (.literal .tooManyDigits) ↔
      ∃ name t action, Statement.parse line = .ok (.onTable name action) ∧
        s.db.catalog.get? name = some t ∧ action.Overflows t) ∧
    (∀ name t columns names condition, s.db.catalog.get? name = some t →
      Action.columnsOf t columns = .ok names → ∃ reply, t.print names condition = .ok reply) ∧
    (Storage.canLoad location directory = true →
      (∀ happening ∈ happenings, happening.InSight location) → s.db.Listable) ∧
    (¬ s.db.Listable → ∀ refusal, outcome = .error refusal →
      refusal.isForeseen = true ∨ refusal = .literal .tooManyDigits ∨
        refusal = .pathTooLong ∧ Statement.parse line = .ok .purgeAndStop) := by
  intro s outcome
  have hsound : s.db.catalog.Sound := reachable_sound options location directory happenings
  -- A refusal has one of three causes; the third one is a removal of files that cannot be listed.
  have hrefuses : ∀ refusal, outcome = .error refusal → _ :=
    fun _ hrefused => Database.executeLine_refuses s.options hsound hrefused
  refine ⟨?_, ⟨?_, ?_⟩, ?_, reachable_listable options, ?_⟩
  · intro hlist
    have hcause : ∀ refusal, outcome = .error refusal →
        refusal.isForeseen = true ∨ refusal = .literal .tooManyDigits := by
      intro refusal hrefused
      rcases hrefuses refusal hrefused with hforeseen | ⟨hdigits, -⟩ | ⟨-, -, hnot⟩
      · exact Or.inl hforeseen
      · exact Or.inr hdigits
      · exact absurd hlist hnot
    refine ⟨hcause, ?_⟩
    rw [Database.error_mem_refusalEvents_iff]
    constructor
    · rintro ⟨refusal, hrefused, hforeseen⟩
      rcases hcause refusal hrefused with h | rfl
      · cases hforeseen.symm.trans h
      · exact hrefused
    · intro hrefused
      exact ⟨_, hrefused, rfl⟩
  · intro hrefused
    rcases hrefuses _ hrefused with hforeseen | ⟨-, h⟩ | ⟨h, -⟩
    · cases hforeseen
    · exact h
    · cases h
  · rintro ⟨name, t, action, hparse, hfound, h⟩
    exact Database.executeLine_of_overflows s.options hparse hfound h
  · intro name t columns names condition hfound hcolumns
    exact Database.print_found hsound hfound hcolumns condition
  · intro _ refusal hrefused
    rcases hrefuses refusal hrefused with hforeseen | ⟨hdigits, -⟩ | ⟨hpath, hparse, -⟩
    · exact Or.inl hforeseen
    · exact Or.inr (Or.inl hdigits)
    · exact Or.inr (Or.inr ⟨hpath, hparse⟩)

theorem reachable_unforeseen_iff_zeros :
    let s := (opened ⟨false⟩ ⟨"data".toList, "/data".toList⟩ Directory.empty).run
      [.request (.line "CREATE_TABLE t (a STRING, b INT, c INT)".toList)]
    let zeros := '-' :: List.replicate 4301 '0'
    let line := (Statement.onTable "t".toList
      (.insert ["\"x\"".toList, zeros, "y".toList])).written
    (s.db.executeLine s.options line).outcome = .error (.literal .tooManyDigits) := by
  intro s zeros line
  let t : Table Value :=
    ⟨"t".toList, [⟨"a".toList, .string⟩, ⟨"b".toList, .int⟩, ⟨"c".toList, .int⟩], []⟩
  have hfound : s.db.catalog.get? "t".toList = some t := by decide +kernel
  have hchars : ∀ c ∈ zeros, c = '-' ∨ c = '0' :=
    fun c hc => (List.mem_cons.1 hc).imp_right List.eq_of_mem_replicate
  have hsolid : Text.Solid zeros := by
    apply Text.Solid.of_all (List.cons_ne_nil _ _)
    intro c hc
    rcases hchars c hc with rfl | rfl <;> decide
  have hcomma : ',' ∉ zeros := fun hc => absurd (hchars ',' hc) (by decide)
  have hparse : Statement.parse line = .ok (.onTable "t".toList
      (.insert ["\"x\"".toList, zeros, "y".toList])) := by
    have hword : Text.IsWord "t".toList := Text.isWord_of_isValidName (by decide)
    apply Statement.parse_insert
    refine ⟨solid_of_isWord hword, Text.lacks_of_isWord hword (by decide),
      List.cons_ne_nil _ _, ?_⟩
    simp only [List.forall_mem_cons]
    exact ⟨by decide, ⟨hsolid.trim_eq, hcomma⟩, by decide, nofun⟩
  let cells : List (Column × Text) := [(⟨"a".toList, .string⟩, "\"x\"".toList)]
  have hsplit : t.columns.zip ["\"x\"".toList, zeros, "y".toList] =
      cells ++ (⟨"b".toList, .int⟩, zeros) :: [(⟨"c".toList, .int⟩, "y".toList)] := rfl
  have haccepted : ∀ cell ∈ cells, cell.1.Reads cell.2 := by
    rintro cell hm
    obtain rfl := List.mem_singleton.1 hm
    exact ⟨.text "x".toList, by decide⟩
  have hlong : 4300 < (List.replicate 4301 '0').length := by
    rw [List.length_replicate]
    decide
  have hoverlong : Overlong zeros :=
    ⟨['-'], List.replicate 4301 '0', by decide, rfl,
      fun c hc => by rw [List.eq_of_mem_replicate hc]; decide, hlong⟩
  exact (reachable_unforeseen_iff ⟨false⟩ _ _ _ line).2.1.2 ⟨_, t, _, hparse, hfound,
    .insert rfl hsplit haccepted rfl hoverlong⟩

end Session
end LineTables
