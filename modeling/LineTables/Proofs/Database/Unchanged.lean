import LineTables.Proofs.Database.Effect

/-!
# Lines that change nothing

Whatever changes the memory or a file says so: it succeeds, and its reply tells of a success, of rows
updated or deleted, or of an end. A line that is refused, at whichever check, a line that finds no row,
and a line that only reads therefore leave the database as it was. Only the removal of all tables can fail
halfway, where the table files cannot be listed.
-/

set_option autoImplicit false

namespace LineTables

/-- The reply of a statement that may have changed the database. -/
def Reply.TellsChange : Reply → Prop
  | .success => True
  | .updated _ => True
  | .deleted _ => True
  | .stopped => True
  | .purged => True
  | _ => False

/-- A step leaves the database as it was, or it succeeds with a reply that tells of a change, or it comes
upon a path that is too long to be looked at. -/
def Step.Announced (db : Database) (step : Step Outcome) : Prop :=
  step.after = db ∨ (∃ reply : Reply, step.outcome = .ok reply ∧ reply.TellsChange) ∨
    step.outcome = .error .pathTooLong

namespace Change

theorem reply_tellsChange {count : Nat} (h : count ≠ 0) (change : Change) :
    (change.reply count).TellsChange := by
  cases change with
  | append row => trivial
  | assign updates condition =>
    rw [reply, if_neg h]
    trivial
  | remove condition =>
    rw [reply, if_neg h]
    trivial

end Change

namespace Database

theorem createTable_announced (options : Options) (db : Database) (name : Text)
    (columns : List Column) (rejected : List Text) :
    (db.createTable options name columns rejected).Announced db := by
  rw [createTable]
  dsimp only
  split
  · exact Or.inl rfl
  · split
    · exact Or.inl rfl
    · split
      · exact Or.inl rfl
      · split
        · exact Or.inl rfl
        · exact Or.inr (Or.inl ⟨.success, rfl, trivial⟩)

theorem change_announced (db : Database) (held : Held) (change : Change) :
    (db.change held change).Announced db := by
  rw [Database.change]
  split
  · exact Or.inl rfl
  · dsimp only
    split
    · exact Or.inl rfl
    · rename_i hcount
      exact Or.inr (Or.inl ⟨_, rfl, Change.reply_tellsChange hcount change⟩)

theorem perform_announced (db : Database) (held : Held) (action : Action) :
    (db.perform held action).Announced db := by
  rw [perform]
  split
  · exact Or.inl rfl
  · exact Or.inl rfl
  · exact change_announced db held _

theorem execute_announced (options : Options) (db : Database) (s : Statement) :
    (db.execute options s).Announced db := by
  cases s with
  | createTable name columns rejected => exact createTable_announced options db name columns rejected
  | onTable name action =>
    rw [execute]
    split
    · exact perform_announced db _ action
    · exact Or.inl rfl
  | showTables => exact Or.inl rfl
  | stop => exact Or.inr (Or.inl ⟨.stopped, rfl, trivial⟩)
  | purgeAndStop =>
    by_cases hlist : db.Listable
    · exact Or.inr (Or.inl ⟨.purged, (purge_of_listable hlist).1, trivial⟩)
    · exact Or.inr (Or.inr (purge_of_not_listable hlist).1)

theorem executeLine_announced (options : Options) (db : Database) (line : Text) :
    (db.executeLine options line).Announced db := by
  rw [executeLine]
  split
  · exact execute_announced options db _
  · exact Or.inl rfl

def foundNothing : List Text :=
  [Reply.noRows.text, Reply.noneUpdated.text, Reply.noneDeleted.text]

theorem text_not_mem_foundNothing {reply : Reply} (h : reply.TellsChange) :
    reply.text ∉ foundNothing := by
  have hfirst : ∀ t ∈ foundNothing, t.head? = some 'N' := by decide
  intro hm
  have hhead := hfirst _ hm
  cases reply with
  | success => cases hhead
  | updated count => cases hhead
  | deleted count => cases hhead
  | stopped => cases hhead
  | purged => cases hhead
  | _ => exact h

def reads : Statement → Bool
  | .onTable _ (.select _ _) => true
  | .showTables => true
  | _ => false

theorem check_select {t : Table Value} {columns : Option (List Text)} {condition : Option Text}
    {task : Task} (h : Action.check t (.select columns condition) = .ok task) :
    ∃ names condition, task = .print names condition := by
  rw [Action.check] at h
  split at h
  · cases h
    exact ⟨_, _, rfl⟩
  · cases h

theorem execute_of_reads (options : Options) (db : Database) {s : Statement} (h : reads s = true) :
    (db.execute options s).after = db := by
  cases s with
  | onTable name action =>
    cases action with
    | select columns condition =>
      rw [execute]
      split
      · rename_i held _
        rw [perform]
        split
        · rfl
        · rfl
        · rename_i change hcheck
          obtain ⟨names, condition, htask⟩ := check_select hcheck
          cases htask
      · rfl
    | _ => cases h
  | showTables => rfl
  | _ => cases h

/-- The line only reads, or it is refused for what it says, or it is answered that no row was found. -/
def Idle (options : Options) (db : Database) (line : Text) : Prop :=
  (∃ s, Statement.parse line = .ok s ∧ reads s = true) ∨
    (∃ refusal ≠ .pathTooLong, (db.executeLine options line).outcome = .error refusal) ∨
    (db.process options line).outcome ∈ foundNothing

/-- Such a line leaves the memory and the files as they were, in every state: an action with many
literals also where only the last one is refused. -/
theorem unchanged_of_idle (options : Options) (db : Database) (line : Text)
    (h : db.Idle options line) :
    (db.executeLine options line).after = db ∧ (db.process options line).after = db := by
  have hafter : (db.executeLine options line).after = db := by
    rcases h with ⟨s, hs, hreads⟩ | ⟨refusal, hlists, hrefused⟩ | hnothing
    · rw [executeLine, hs]
      exact execute_of_reads options db hreads
    · rcases executeLine_announced options db line with hsame | ⟨reply, hreply, -⟩ | hfails
      · exact hsame
      · cases hrefused.symm.trans hreply
      · cases hrefused.symm.trans hfails
        exact absurd rfl hlists
    · rcases executeLine_announced options db line with hsame | ⟨reply, hreply, htells⟩ | hfails
      · exact hsame
      · have hanswer : (db.process options line).outcome = reply.text := by
          rw [process, answered, hreply]
          rfl
        exact absurd (hanswer ▸ hnothing) (text_not_mem_foundNothing htells)
      · have hanswer : (db.process options line).outcome = Refusal.pathTooLong.mark := by
          rw [process, answered, hfails]
          rfl
        rw [hanswer] at hnothing
        exact absurd hnothing (by decide)
  exact ⟨hafter, hafter⟩

theorem unchanged_of_idle_late_literal :
    let db := ((Session.opened ⟨false⟩ ⟨"data".toList, "/data".toList⟩ Directory.empty).run
      [.request (.line "CREATE_TABLE t (a INT, b STRING)".toList),
        .request (.line "INSERT INTO t VALUES (1, \"x\")".toList)]).db
    let line := "UPDATE t SET a=2, b=\"y\", a=9223372036854775808 WHERE a=1".toList
    (db.executeLine ⟨false⟩ line).outcome =
        .error (.literal (.outOfRange "a".toList "9223372036854775808".toList)) ∧
      (db.executeLine ⟨false⟩ line).after = db ∧ (db.process ⟨false⟩ line).after = db := by
  intro db line
  have hrefused : (db.executeLine ⟨false⟩ line).outcome =
      .error (.literal (.outOfRange "a".toList "9223372036854775808".toList)) := by
    decide +kernel
  have hlists : Refusal.literal (.outOfRange "a".toList "9223372036854775808".toList) ≠
      .pathTooLong := nofun
  exact ⟨hrefused, unchanged_of_idle ⟨false⟩ db line (Or.inr (Or.inl ⟨_, hlists, hrefused⟩))⟩

end Database
end LineTables
