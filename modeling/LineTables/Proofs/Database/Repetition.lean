import LineTables.Proofs.Database.Actions
import LineTables.Proofs.Database.Closing
import LineTables.Proofs.Database.Standing
import LineTables.Proofs.Table.Numeral

/-!
# Lines repeated

A line that does not insert a row leaves, when it is repeated at once, memory and files as they are. An
update may find fewer rows the second time, since it may have changed what its condition asks for, but it
finds none that it had not found, and rewrites those as they are; its file is then written with the same
content, or as before cannot be written. A deletion finds none of its rows any more, and a creation finds its
table there. An insertion that succeeds enters its row once more.
-/

set_option autoImplicit false

namespace LineTables

namespace Change

theorem applied_applied {rows : List (Row Value)} (hrows : ∀ row ∈ rows, row.names.Nodup)
    {change : Change} (h : ∀ row, change ≠ .append row) :
    change.applied (change.applied rows) = change.applied rows := by
  cases change with
  | append row => exact absurd rfl (h row)
  | assign updates condition =>
    rw [applied, applied, List.map_map]
    apply List.map_congr_left
    intro row hm
    rw [Function.comp_apply]
    by_cases hrow : condition.holds row = true
    · rw [if_pos hrow, Record.putAll_putAll (hrows row hm), ite_self]
    · rw [if_neg hrow, if_neg hrow]
  | remove condition =>
    rw [applied, applied, List.filter_filter]
    simp only [Bool.and_self]

/-- A row that satisfies the condition after an update satisfied it before. -/
theorem holds_of_assigned {updates : List (Text × Value)} {condition : Condition} {row : Row Value}
    (h : condition.holds (if condition.holds row then row.putAll updates else row) = true) :
    condition.holds row = true := by
  by_contra hrow
  rw [if_neg hrow] at h
  exact hrow h

theorem forall_holds_of_assigned (updates : List (Text × Value)) (condition : Condition)
    (rows : List (Row Value)) :
    List.Forall₂ (fun row later => condition.holds later = true → condition.holds row = true) rows
      ((assign updates condition).applied rows) := by
  rw [applied, List.forall₂_map_right_iff, List.forall₂_same]
  intro row hm hlater
  exact holds_of_assigned hlater

theorem touched_assigned_le (updates : List (Text × Value)) (condition : Condition)
    (rows : List (Row Value)) :
    (assign updates condition).touched ((assign updates condition).applied rows) ≤
      (assign updates condition).touched rows := by
  rw [touched, touched, applied, List.countP_map]
  apply List.countP_mono_left
  intro row hm hlater
  exact holds_of_assigned hlater

theorem text_assigned (updates : List (Text × Value)) (condition : Condition) (count : Nat) :
    ((assign updates condition).reply count).text =
      if count = 0 then "NO_ROWS_UPDATED".toList else "UPDATED ".toList ++ Text.ofNat count := by
  rw [reply]
  split <;> rfl

theorem touched_removed (condition : Condition) (rows : List (Row Value)) :
    (remove condition).touched ((remove condition).applied rows) = 0 := by
  rw [touched, applied, List.countP_eq_zero]
  intro row hm
  simpa using (List.mem_filter.1 hm).2

end Change

namespace Database

variable (options : Options) {db : Database} {line name : Text} {action : Action} {t : Table Value}

theorem withTable_withTable (db : Database) (ht : t.WellFormed) :
    (db.withTable t).withTable t = db.withTable t := by
  have hcatalog : ((db.withTable t).withTable t).catalog = (db.withTable t).catalog := by
    rw [withTable_catalog, withTable_catalog, Catalog.update, Catalog.update,
      Record.put_of_get? (Record.get?_put_self t.name t db.catalog.entries)]
  have hdirectory : ((db.withTable t).withTable t).directory = (db.withTable t).directory := by
    apply Directory.ext
    intro path
    have hagain := get?_withTable (db.withTable t) ht path
    simp only [canWrite_withTable db ht] at hagain
    rw [hagain, get?_withTable db ht]
    split <;> rfl
  exact ext hcatalog hdirectory (withTable_location (db.withTable t) t)

/-- The same tables in the same order, and the same files. How often all tables were removed is not looked
at. -/
structure Same (db other : Database) : Prop where
  entries : other.catalog.entries = db.catalog.entries
  directory : other.directory = db.directory

theorem same_of_eq {other : Database} (h : other = db) : Same db other := by
  rw [h]
  exact ⟨rfl, rfl⟩

theorem same_purged (db : Database) : Same db.purged db.purged.purged := by
  refine ⟨rfl, ?_⟩
  by_cases hlist : db.Listable
  · have hdirectory := (purge_of_listable hlist).2
    have hagain : db.purged.Listable := by
      rw [Listable, hdirectory]
      exact Storage.canLoad_deleteAll hlist
    rw [(purge_of_listable hagain).2, hdirectory, Storage.deleteAll_deleteAll]
  · have hdirectory := (purge_of_not_listable hlist).2
    have hagain : ¬ db.purged.Listable := by
      rw [Listable, hdirectory]
      exact hlist
    exact (purge_of_not_listable hagain).2

theorem execute_twice (hs : db.catalog.Sound) (s : Statement)
    (h : ∀ name literals, s ≠ .onTable name (.insert literals)) :
    Same (db.execute options s).after ((db.execute options s).after.execute options s).after := by
  have heffect : db.Effect s (db.execute options s).after := execute_effect options hs.filed s
  generalize honce : (db.execute options s).after = once at heffect ⊢
  cases heffect with
  | kept => exact same_of_eq honce
  | @created table columns rejected =>
    have hfound : (db.withTable ⟨table, columns, []⟩).catalog.get? table =
        some ⟨table, columns, []⟩ := by
      rw [withTable_catalog]
      exact Catalog.get?_update_self db.catalog ⟨table, columns, []⟩
    obtain ⟨-, hkept⟩ := Prod.mk.inj (createTable_found options hfound columns rejected)
    exact same_of_eq hkept
  | @changed name action t change found checked touched =>
    have ht := hs.of_get? found
    have hname : t.name = name := hs.filed.name_of_get? found
    let u : Table Value := { t with rows := change.applied t.rows }
    have hu : u.WellFormed := Action.applied_wellFormed ht checked
    -- The second time, the change finds the table as it has left it.
    have happend : ∀ row, change ≠ .append row := by
      rintro row rfl
      cases Action.makes_of_check checked
      exact h name _ rfl
    have hrows : change.applied (change.applied t.rows) = change.applied t.rows :=
      Change.applied_applied (fun row hm => Row.fits_names (ht.rows row hm) ▸ ht.distinct) happend
    have hfound : (db.withTable u).catalog.get? name = some u := by
      simpa only [if_neg touched] using get?_changed hname found change
    have hchecked : action.check u = .ok (.change change) :=
      (Action.check_withRows t _ action).trans checked
    obtain ⟨-, hagain⟩ := Prod.mk.inj (execute_change options (t := u) hname hfound hchecked)
    have hsame : ({ u with rows := change.applied u.rows } : Table Value) = u :=
      congrArg (Table.mk t.name t.columns) hrows
    rw [hsame, withTable_withTable db hu, ite_self] at hagain
    exact same_of_eq hagain
  | flushed => exact same_of_eq (flush_flush hs)
  | purged =>
    rw [execute, purge_after]
    exact same_purged db

/-- A line with an action that asks for a change, and that is answered by none of the marks, makes this
change, and makes it again on what it left. -/
theorem change_of_answer (hs : db.catalog.Sound)
    (hparse : Statement.parse line = .ok (.onTable name action))
    (hselect : ∀ columns condition, action ≠ .select columns condition)
    (hanswer : (db.process options line).outcome ∉ Refusal.marks) :
    ∃ t change, db.catalog.get? name = some t ∧ action.check t = .ok (.change change) ∧
      (db.process options line).outcome = (change.reply (change.touched t.rows)).text ∧
      (db.process options line).after.catalog.get? name =
        some { t with rows := change.applied t.rows } ∧
      ((db.process options line).after.process options line).outcome =
        (change.reply (change.touched (change.applied t.rows))).text ∧
      ((db.process options line).after.process options line).after.catalog.get? name =
        some { t with rows := change.applied (change.applied t.rows) } := by
  cases hfound : db.catalog.get? name with
  | none =>
    have houtcome : (db.process options line).outcome = "TABLE_NOT_FOUND".toList :=
      congrArg Prod.fst (process_of_missing options hparse hfound)
    rw [houtcome] at hanswer
    exact absurd (by decide) hanswer
  | some t =>
    have hname : t.name = name := hs.filed.name_of_get? hfound
    rcases process_onTable options hs.filed hparse hfound with
      ⟨refusal, -, hseen⟩ | ⟨columns, condition, rfl, -⟩ | ⟨change, hcheck, hseen⟩
    · have houtcome : (db.process options line).outcome = refusal.mark := congrArg Prod.fst hseen
      rw [houtcome] at hanswer
      exact absurd refusal.mark_mem hanswer
    · exact absurd rfl (hselect columns condition)
    · obtain ⟨houtcome, hafter⟩ := Prod.mk.inj hseen
      have hlater := get?_changed hname hfound change
      rw [← hafter] at hlater
      let u : Table Value := { t with rows := change.applied t.rows }
      have hchecked : action.check u = .ok (.change change) :=
        (Action.check_withRows t _ action).trans hcheck
      have hagain := process_of_execute options hparse
        (execute_change options (t := u) hname hlater hchecked)
      obtain ⟨hanswered, hleft⟩ := Prod.mk.inj hagain
      have hlast := get?_changed (t := u) hname hlater change
      rw [← hleft] at hlast
      exact ⟨t, change, rfl, hcheck, houtcome, hlater, hanswered, hlast⟩

theorem process_twice (hs : db.catalog.Sound)
    (h : ∀ name literals, Statement.parse line ≠ .ok (.onTable name (.insert literals))) :
    Same (db.process options line).after
      ((db.process options line).after.process options line).after := by
  cases hparse : Statement.parse line with
  | error cause =>
    have hkept : ∀ other : Database, (other.process options line).after = other := by
      intro other
      rw [process, executeLine, hparse]
      rfl
    exact same_of_eq (hkept _)
  | ok s =>
    have hafter : ∀ other : Database,
        (other.process options line).after = (other.execute options s).after := by
      intro other
      rw [process_of_parse hparse]
      rfl
    have hother : ∀ name literals, s ≠ .onTable name (.insert literals) := by
      rintro name literals rfl
      exact h name literals hparse
    rw [hafter db, hafter]
    exact execute_twice options hs s hother

theorem not_mem_marks_of_head {answer : Text}
    (h : answer.head? = some 'U' ∨ answer.head? = some 'D') : answer ∉ Refusal.marks := by
  have hmarks : ∀ mark ∈ Refusal.marks, mark.head? ≠ some 'U' ∧ mark.head? ≠ some 'D' := by
    decide
  intro hm
  rcases h with h | h
  · exact (hmarks answer hm).1 h
  · exact (hmarks answer hm).2 h

theorem count_of_updated {count k : Nat}
    (h : (if count = 0 then "NO_ROWS_UPDATED".toList else "UPDATED ".toList ++ Text.ofNat count) =
      "UPDATED ".toList ++ Text.ofNat k) : count = k := by
  split at h
  · have hhead : "NO_ROWS_UPDATED".toList.head? = some 'U' := by
      rw [h]
      rfl
    exact absurd hhead (by decide)
  · exact Text.ofNat_injective (List.append_cancel_left h)

theorem update_twice (hs : db.catalog.Sound) {assignments : List (Text × Text)} {w : Text} {k : Nat}
    (hparse : Statement.parse line = .ok (.onTable name (.update assignments w)))
    (hanswer : (db.process options line).outcome = "UPDATED ".toList ++ Text.ofNat k) :
    ∃ t u j, db.catalog.get? name = some t ∧
      (db.process options line).after.catalog.get? name = some u ∧
      List.Forall₂ (fun row later => Condition.holdsFor w later = true →
        Condition.holdsFor w row = true) t.rows u.rows ∧
      t.rows.countP (Condition.holdsFor w) = k ∧ u.rows.countP (Condition.holdsFor w) = j ∧ j ≤ k ∧
      ((db.process options line).after.process options line).outcome =
        if j = 0 then "NO_ROWS_UPDATED".toList else "UPDATED ".toList ++ Text.ofNat j := by
  have hmarks : (db.process options line).outcome ∉ Refusal.marks :=
    not_mem_marks_of_head (Or.inl (by rw [hanswer]; rfl))
  obtain ⟨t, change, hfound, hcheck, houtcome, hlater, hagain, -⟩ :=
    change_of_answer options hs hparse nofun hmarks
  cases Action.makes_of_check hcheck with
  | @assign assignments updates condition values =>
    rw [Change.text_assigned] at houtcome hagain
    obtain rfl := count_of_updated (houtcome.symm.trans hanswer)
    exact ⟨t, _, _, hfound, hlater, Change.forall_holds_of_assigned _ _ t.rows, rfl, rfl,
      Change.touched_assigned_le updates (Condition.ofText w) t.rows, hagain⟩

theorem delete_twice (hs : db.catalog.Sound) {w : Text} {k : Nat}
    (hparse : Statement.parse line = .ok (.onTable name (.delete w)))
    (hanswer : (db.process options line).outcome = "DELETED ".toList ++ Text.ofNat k) :
    ((db.process options line).after.process options line).outcome = "NO_ROWS_DELETED".toList := by
  have hmarks : (db.process options line).outcome ∉ Refusal.marks :=
    not_mem_marks_of_head (Or.inr (by rw [hanswer]; rfl))
  obtain ⟨t, change, -, hcheck, -, -, hagain, -⟩ := change_of_answer options hs hparse nofun hmarks
  cases Action.makes_of_check hcheck with
  | remove condition =>
    rw [Change.touched_removed] at hagain
    exact hagain

theorem createTable_twice {columns : List Column} {rejected : List Text}
    (hparse : Statement.parse line = .ok (.createTable name columns rejected))
    (hanswer : (db.process options line).outcome = "SUCCESS".toList) :
    ((db.process options line).after.process options line).outcome = "TABLE_EXISTS".toList := by
  have hfound : ∃ t, (db.process options line).after.catalog.get? name = some t := by
    cases hget : db.catalog.get? name with
    | some t =>
      have hafter := congrArg Prod.snd (process_of_found options hparse hget)
      exact ⟨t, (congrArg (·.catalog.get? name) hafter).trans hget⟩
    | none =>
      rcases process_of_fresh options hparse hget with hrefused | hentered
      · have houtcome : (db.process options line).outcome = "INVALID_COMMAND".toList :=
          congrArg Prod.fst hrefused
        exact absurd (houtcome.symm.trans hanswer) (by decide)
      · have hafter := congrArg Prod.snd hentered
        refine ⟨⟨name, columns, []⟩, (congrArg (·.catalog.get? name) hafter).trans ?_⟩
        show (db.withTable ⟨name, columns, []⟩).catalog.get? name = _
        rw [withTable_catalog]
        exact Catalog.get?_update_self db.catalog ⟨name, columns, []⟩
  obtain ⟨t, ht⟩ := hfound
  exact congrArg Prod.fst (process_of_found options hparse ht)

theorem insert_twice (hs : db.catalog.Sound) {literals : List Text}
    (hparse : Statement.parse line = .ok (.onTable name (.insert literals)))
    (hanswer : (db.process options line).outcome = "SUCCESS".toList) :
    ¬ Same (db.process options line).after
      ((db.process options line).after.process options line).after := by
  have hmarks : (db.process options line).outcome ∉ Refusal.marks := by
    rw [hanswer]
    decide
  obtain ⟨t, change, -, hcheck, -, hlater, -, hlast⟩ :=
    change_of_answer options hs hparse nofun hmarks
  cases Action.makes_of_check hcheck with
  | append length cells =>
    intro hsame
    have hfound : ((db.process options line).after.process options line).after.catalog.get? name =
        (db.process options line).after.catalog.get? name :=
      congrArg (Record.get? name) hsame.entries
    rw [hlast, hlater, Option.some.injEq, Table.mk.injEq] at hfound
    have hlength := congrArg List.length hfound.2.2
    simp only [Change.applied, List.length_append, List.length_singleton] at hlength
    omega

end Database

namespace Session

/-- In every state that a session reaches, and for every line that is repeated at once: unless it inserts,
it leaves memory and files as they were after the first time. -/
theorem reachable_twice (options : Options) (location : Location) (directory : Directory)
    (happenings : List Happening) (line : Text) :
    let s := (opened options location directory).run happenings
    let once := s.db.process s.options line
    let twice := once.after.process s.options line
    ((∀ name literals, Statement.parse line ≠ .ok (.onTable name (.insert literals))) →
      Database.Same once.after twice.after) ∧
    (∀ name literals, Statement.parse line = .ok (.onTable name (.insert literals)) →
      once.outcome = "SUCCESS".toList → ¬ Database.Same once.after twice.after) ∧
    (∀ name assignments w k, Statement.parse line = .ok (.onTable name (.update assignments w)) →
      once.outcome = "UPDATED ".toList ++ Text.ofNat k →
      ∃ t u j, s.db.catalog.get? name = some t ∧ once.after.catalog.get? name = some u ∧
        List.Forall₂ (fun row later => Condition.holdsFor w later = true →
          Condition.holdsFor w row = true) t.rows u.rows ∧
        t.rows.countP (Condition.holdsFor w) = k ∧ u.rows.countP (Condition.holdsFor w) = j ∧
        j ≤ k ∧ twice.outcome =
          if j = 0 then "NO_ROWS_UPDATED".toList else "UPDATED ".toList ++ Text.ofNat j) ∧
    (∀ name w k, Statement.parse line = .ok (.onTable name (.delete w)) →
      once.outcome = "DELETED ".toList ++ Text.ofNat k →
      twice.outcome = "NO_ROWS_DELETED".toList) ∧
    ∀ name columns rejected, Statement.parse line = .ok (.createTable name columns rejected) →
      once.outcome = "SUCCESS".toList → twice.outcome = "TABLE_EXISTS".toList := by
  intro s once twice
  have hsound : s.db.catalog.Sound := reachable_sound options location directory happenings
  refine ⟨?_, ?_, ?_, ?_, ?_⟩
  · intro h
    exact Database.process_twice s.options hsound h
  · intro name literals hparse hanswer
    exact Database.insert_twice s.options hsound hparse hanswer
  · intro name assignments w k hparse hanswer
    exact Database.update_twice s.options hsound hparse hanswer
  · intro name w k hparse hanswer
    exact Database.delete_twice s.options hsound hparse hanswer
  · intro name columns rejected hparse hanswer
    exact Database.createTable_twice s.options hparse hanswer

theorem reachable_twice_fewer :
    let blocked := Directory.empty.insert "t.dat".toList .folder
    let happenings : List Happening := [.request (.line "CREATE_TABLE t (a INT, b INT)".toList),
      .request (.line "INSERT INTO t VALUES (1, 1)".toList),
      .request (.line "INSERT INTO t VALUES (3, 2)".toList)]
    let s := (opened ⟨false⟩ ⟨"data".toList, "/data".toList⟩ blocked).run happenings
    let update := "UPDATE t SET a=1, a=4 WHERE a=1 OR b=2".toList
    let updated := s.db.process s.options update
    let again := updated.after.process s.options update
    let deletion := "DELETE FROM t WHERE a=1".toList
    let creation := "CREATE_TABLE u (a INT)".toList
    let insertion := "INSERT INTO t VALUES (1, 1)".toList
    Database.Same updated.after again.after ∧
    updated.outcome = "UPDATED ".toList ++ Text.ofNat 2 ∧
    (∃ j ≤ 2, again.outcome =
      if j = 0 then "NO_ROWS_UPDATED".toList else "UPDATED ".toList ++ Text.ofNat j) ∧
    again.outcome = "UPDATED 1".toList ∧
    ((s.db.process s.options deletion).after.process s.options deletion).outcome =
      "NO_ROWS_DELETED".toList ∧
    ((s.db.process s.options creation).after.process s.options creation).outcome =
      "TABLE_EXISTS".toList ∧
    ¬ Database.Same (s.db.process s.options insertion).after
      ((s.db.process s.options insertion).after.process s.options insertion).after := by
  intro blocked happenings s update updated again deletion creation insertion
  have hupdate : Statement.parse update = .ok (.onTable "t".toList (.update
      [("a".toList, "1".toList), ("a".toList, "4".toList)] "a=1 OR b=2".toList)) := by
    decide +kernel
  have hdeletion : Statement.parse deletion = .ok (.onTable "t".toList (.delete "a=1".toList)) := by
    decide +kernel
  have hcreation : Statement.parse creation =
      .ok (.createTable "u".toList [⟨"a".toList, .int⟩] []) := by
    decide +kernel
  have hinsertion : Statement.parse insertion =
      .ok (.onTable "t".toList (.insert ["1".toList, "1".toList])) := by
    decide +kernel
  have hother : ∀ name literals,
      Statement.parse update ≠ .ok (.onTable name (.insert literals)) := by
    intro name literals h
    cases hupdate.symm.trans h
  have hupdated : updated.outcome = "UPDATED ".toList ++ Text.ofNat 2 := by decide +kernel
  have hdeleted : (s.db.process s.options deletion).outcome = "DELETED ".toList ++ Text.ofNat 1 := by decide +kernel
  have hcreated : (s.db.process s.options creation).outcome = "SUCCESS".toList := by decide +kernel
  have hinserted : (s.db.process s.options insertion).outcome = "SUCCESS".toList := by decide +kernel
  have hreach := reachable_twice ⟨false⟩ ⟨"data".toList, "/data".toList⟩ blocked happenings
  obtain ⟨hkept, -, hmatched, -⟩ := hreach update
  obtain ⟨-, hinsert, -⟩ := hreach insertion
  obtain ⟨-, -, -, hdelete, -⟩ := hreach deletion
  obtain ⟨-, -, -, -, hcreate⟩ := hreach creation
  obtain ⟨-, -, j, -, -, -, -, -, hle, hagain⟩ := hmatched _ _ _ 2 hupdate hupdated
  exact ⟨hkept hother, hupdated, ⟨j, hle, hagain⟩, by decide +kernel,
    hdelete _ _ 1 hdeletion hdeleted, hcreate _ _ _ hcreation hcreated,
    hinsert _ _ hinsertion hinserted⟩

end Session
end LineTables
