import LineTables.Proofs.Database.Single

/-!
# Lines about different tables

Two statements about tables of different names do not meet: none sees what the other one does, and their
tables and files are put into different places. So their outcomes, and what they leave, are the same in
both orders, also where a write fails.
-/

set_option autoImplicit false

namespace LineTables

namespace Database

theorem withTable_comm (db : Database) {t u : Table Value} (ht : t.WellFormed) (hu : u.WellFormed)
    (hne : t.name ≠ u.name) :
    Alike ((db.withTable t).withTable u) ((db.withTable u).withTable t) := by
  constructor
  · intro name
    simp only [withTable_catalog]
    by_cases hfirst : name = t.name
    · have hsecond : name ≠ u.name := hfirst ▸ hne
      rw [Catalog.get?_update_of_ne _ hsecond, hfirst, Catalog.get?_update_self,
        Catalog.get?_update_self]
    · by_cases hsecond : name = u.name
      · rw [Catalog.get?_update_of_ne _ hfirst, hsecond, Catalog.get?_update_self,
          Catalog.get?_update_self]
      · simp only [Catalog.get?_update_of_ne _ hfirst, Catalog.get?_update_of_ne _ hsecond]
  · apply Directory.ext
    intro path
    simp only [get?_withTable _ ht, get?_withTable _ hu, canWrite_withTable _ ht,
      canWrite_withTable _ hu]
    by_cases hfirst : path = Storage.fileName t.name ∧
        Storage.CanWrite db.location db.directory t.name
    · have hsecond : ¬ (path = Storage.fileName u.name ∧
          Storage.CanWrite db.location db.directory u.name) := by
        rintro ⟨hpath, -⟩
        rw [hfirst.1] at hpath
        exact hne (Storage.fileName_inj.1 hpath)
      simp only [if_pos hfirst, if_neg hsecond]
    · simp only [if_neg hfirst]
  · simp only [withTable_location]

theorem settled_comm (db : Database) {entered more : Option (Table Value)}
    (he : ∀ t, entered = some t → t.WellFormed) (hm : ∀ t, more = some t → t.WellFormed)
    (hne : ∀ t u, entered = some t → more = some u → t.name ≠ u.name) :
    Alike ((db.settled entered).settled more) ((db.settled more).settled entered) := by
  have hsame : ∀ other : Database, Alike other other := fun _ => ⟨fun _ => rfl, rfl, rfl⟩
  cases entered with
  | none => exact hsame _
  | some t =>
    cases more with
    | none => exact hsame _
    | some u => exact withTable_comm db (he t rfl) (hm u rfl) (hne t u rfl rfl)

theorem execute_comm (options : Options) {db : Database} (hs : db.catalog.Sound)
    {s u : Statement} (hl : s.Legible) (hr : u.Legible) {name other : Text}
    (hn : s.table? = some name) (ho : u.table? = some other) (hne : name ≠ other) :
    let first := db.execute options s
    let second := db.execute options u
    (second.after.execute options s).outcome = first.outcome ∧
      (first.after.execute options u).outcome = second.outcome ∧
      Alike (first.after.execute options u).after (second.after.execute options s).after := by
  obtain ⟨outcome, entered, hfirst⟩ := execute_settles options hn
    (db.catalog.get? name) fun t ht => hs.filed.name_of_get? ht
  obtain ⟨result, more, hsecond⟩ := execute_settles options ho
    (db.catalog.get? other) fun t ht => hs.filed.name_of_get? ht
  have hname : ∀ t, entered = some t → t.name ≠ other := by
    intro t ht heq
    exact hne ((hfirst.own t ht).symm.trans heq)
  have hother : ∀ t, more = some t → t.name ≠ name := by
    intro t ht heq
    exact hne (heq.symm.trans (hsecond.own t ht))
  obtain ⟨hout, hafter⟩ := Prod.mk.inj (hfirst.step db rfl)
  obtain ⟨hresult, hrest⟩ := Prod.mk.inj (hsecond.step db rfl)
  obtain ⟨hagain, hboth⟩ := Prod.mk.inj (hsecond.step _ (get?_settled_of_ne db hname))
  obtain ⟨hsame, hback⟩ := Prod.mk.inj (hfirst.step _ (get?_settled_of_ne db hother))
  dsimp only
  rw [hafter, hrest, hboth, hback, hout, hresult]
  refine ⟨hsame, hagain, settled_comm db ?_ ?_ ?_⟩
  · intro t ht
    exact hfirst.wellFormed hs hl rfl ht
  · intro t ht
    exact hsecond.wellFormed hs hr rfl ht
  · intro t v ht hv heq
    exact hname t ht (heq.trans (hsecond.own v hv))

end Database

namespace Session

/-- In every state that a session reaches, two lines about different tables are each answered in the
same way whether they come first or second, and both orders leave the same tables in memory and the same
files. -/
theorem reachable_apart (options : Options) (location : Location) (directory : Directory)
    (happenings : List Happening) {line other : Text} {s u : Statement} {name table : Text}
    (hline : Statement.parse line = .ok s) (hother : Statement.parse other = .ok u)
    (hs : s.table? = some name) (hu : u.table? = some table) (hne : name ≠ table) :
    let reached := (opened options location directory).run happenings
    let first := reached.db.process reached.options line
    let second := reached.db.process reached.options other
    let secondAfter := first.after.process reached.options other
    let firstAfter := second.after.process reached.options line
    firstAfter.outcome = first.outcome ∧ secondAfter.outcome = second.outcome ∧
      (∀ found, secondAfter.after.catalog.get? found = firstAfter.after.catalog.get? found) ∧
      secondAfter.after.directory = firstAfter.after.directory := by
  intro reached first second secondAfter firstAfter
  have hsound : reached.db.catalog.Sound := run_sound (opened_sound options location directory) happenings
  obtain ⟨hfirst, hsecond, halike⟩ := Database.execute_comm reached.options hsound
    (Statement.parse_legible hline) (Statement.parse_legible hother) hs hu hne
  simp only [firstAfter, secondAfter, first, second, Database.process_of_parse hline,
    Database.process_of_parse hother]
  exact ⟨congrArg Database.answerOf hfirst, congrArg Database.answerOf hsecond, halike.tables,
    halike.directory⟩

theorem reachable_apart_blocked :
    let happenings := [.request (.line "CREATE_TABLE t (a INT)".toList),
      .exchange (Directory.empty.insert "u.dat".toList .folder)]
    let reached := (opened ⟨false⟩ ⟨"data".toList, "/data".toList⟩ Directory.empty).run happenings
    let first := reached.db.process reached.options "INSERT INTO t VALUES (1)".toList
    let second := reached.db.process reached.options "CREATE_TABLE u (b STRING)".toList
    first.outcome = "SUCCESS".toList ∧ second.outcome = "SUCCESS".toList ∧
      (first.after.process reached.options "CREATE_TABLE u (b STRING)".toList).after.directory =
        (second.after.process reached.options "INSERT INTO t VALUES (1)".toList).after.directory := by
  intro happenings
  have hinsert : Statement.parse "INSERT INTO t VALUES (1)".toList =
      .ok (.onTable "t".toList (.insert ["1".toList])) := by decide
  have hcreate : Statement.parse "CREATE_TABLE u (b STRING)".toList =
      .ok (.createTable "u".toList [⟨"b".toList, .string⟩] []) := by decide
  refine ⟨by decide +kernel, by decide +kernel, ?_⟩
  exact (reachable_apart ⟨false⟩ ⟨"data".toList, "/data".toList⟩ Directory.empty happenings hinsert
    hcreate rfl rfl (by decide)).2.2.2

end Session
end LineTables
