import LineTables.Proofs.Database.Alike

/-!
# Restarts

A session may be dropped between any two requests, with nothing written, and opened again on its files.
As long as the names of its tables and the path of its directory leave room for their files, no caller can
tell: the session that was dropped and the one that goes on stay alike, since what is opened is what was in
memory. Where the path leaves no room, the tables are gone after the restart.
-/

set_option autoImplicit false

namespace LineTables

namespace Database

/-- Every table in memory has a name with room for its file. -/
def Roomy (location : Location) (memory : Text → Option (Table Value)) : Prop :=
  ∀ name t, memory name = some t → Storage.HasRoom location name

/-- Every table in memory has a name that is short enough for that of a file. -/
def Short (memory : Text → Option (Table Value)) : Prop :=
  ∀ name t, memory name = some t → name.length ≤ 237

theorem forall_of_names {P : Text → Prop} {c : Catalog Value} (h : ∀ name ∈ c.entries.names, P name) :
    ∀ name t, c.get? name = some t → P name := by
  intro name t ht
  apply h
  rw [← Record.isSome_get?_iff, show c.entries.get? name = some t from ht]
  rfl

theorem Durable.tableUnder_eq {db : Database} (h : db.Durable)
    (hr : Roomy db.location db.catalog.get?) (name : Text) :
    Storage.tableUnder db.directory name = db.catalog.get? name := by
  rw [h.inStep name]
  by_cases hroom : Storage.HasRoom db.location name
  · rw [if_pos hroom]
  · rw [if_neg hroom]
    symm
    rw [Option.eq_none_iff_forall_ne_some]
    intro t ht
    exact hroom (hr name t ht)

theorem Durable.alike_load {db : Database} (h : db.Durable)
    (hr : Roomy db.location db.catalog.get?) :
    Alike db (load db.location db.directory).1 where
  tables := by
    intro name
    rw [load_get?, h.tableUnder_eq hr]
  directory := rfl
  location := rfl

end Database

structure View where
  answers : Text × List Text
  memory : Text → Option (Table Value)
  files : Directory

namespace View

/-- Each table in memory is the one that is read from its file, and each table file that can be read
gives a table in memory. -/
structure InStep (location : Location) (view : View) : Prop where
  stored : ∀ name t, view.memory name = some t →
    Storage.read location view.files (Storage.fileName name) = .ok t
  known : ∀ path t, Storage.isTablePath path = true →
    Storage.read location view.files path = .ok t →
      path = Storage.fileName t.name ∧ view.memory t.name = some t

end View

namespace Session

/-- What is seen after each request. Where there is none, the session is dropped as it is and opened
again with the same options. -/
def views (s : Session) : List (Option Request) → List View
  | [] => []
  | none :: steps => (s.step (.reopen s.options)).views steps
  | some request :: steps =>
    let answers := (s.db.respond s.options request).outcome
    let s := s.step (.request request)
    ⟨answers, s.db.catalog.get?, s.db.directory⟩ :: s.views steps

theorem views_of_alike {s other : Session} (h : s.db.Alike other.db)
    (hoptions : other.options = s.options) (hd : s.db.Durable) (ho : other.db.catalog.Sound)
    (steps : List (Option Request))
    (hr : Database.Roomy s.db.location s.db.catalog.get?)
    (hviews : ∀ view ∈ s.views (steps.filter Option.isSome),
      Database.Roomy s.db.location view.memory) :
    other.views steps = s.views (steps.filter Option.isSome) := by
  -- A restart puts what the files give in the place of `other`, so the two only stay alike.
  induction steps generalizing s other with
  | nil => rfl
  | cons step steps ih =>
    cases step with
    | none =>
      have hload := hd.alike_load hr
      rw [h.location, h.directory] at hload
      exact ih hload hoptions hd (Database.load_sound _ _) hr hviews
    | some request =>
      have hrespond := h.respond hd.sound ho s.options request
      rw [← hoptions] at hrespond
      have hlocation : (s.step (.request request)).db.location = s.db.location :=
        Database.respond_location s.options hd.sound.filed request
      have hfirst := hviews _ List.mem_cons_self
      have hnext : (s.step (.request request)).db.Alike (other.step (.request request)).db := by
        rw [step, step, ← hoptions]
        exact hrespond.after
      have hrest := ih hnext hoptions (Database.respond_durable s.options hd request)
        (Database.respond_sound other.options ho request)
      rw [hlocation] at hrest
      have htail := hrest hfirst (fun view hv => hviews view (List.mem_cons_of_mem _ hv))
      have hanswers : (other.db.respond other.options request).outcome =
          (s.db.respond s.options request).outcome := by
        rw [← hoptions]
        exact hrespond.outcome.symm
      have hmemory : (other.step (.request request)).db.catalog.get? =
          (s.step (.request request)).db.catalog.get? := by
        funext name
        exact (hnext.tables name).symm
      rw [views, hanswers, hmemory, ← hnext.directory, htail]
      rfl

theorem views_inStep {s : Session} (hd : s.db.Durable) (steps : List (Option Request))
    (hviews : ∀ view ∈ s.views (steps.filter Option.isSome),
      Database.Roomy s.db.location view.memory) :
    ∀ view ∈ s.views (steps.filter Option.isSome), view.InStep s.db.location := by
  induction steps generalizing s with
  | nil =>
    intro view hv
    cases hv
  | cons step steps ih =>
    cases step with
    | none => exact ih hd hviews
    | some request =>
      have hnext : (s.step (.request request)).db.Durable :=
        Database.respond_durable s.options hd request
      have hlocation : (s.step (.request request)).db.location = s.db.location :=
        Database.respond_location s.options hd.sound.filed request
      have hfirst := hviews _ List.mem_cons_self
      have hunder := hnext.tableUnder_eq (hlocation ▸ hfirst)
      have hrest := ih hnext
      rw [hlocation] at hrest
      intro view hv
      rcases List.mem_cons.1 hv with rfl | hv
      · constructor
        · intro name t ht
          exact Storage.read_of_tableUnder (hfirst name t ht) ((hunder name).trans ht)
        · intro path t hpath hread
          obtain ⟨hfile, htable⟩ := Storage.tableUnder_of_read hpath hread
          exact ⟨hfile, (hunder t.name).symm.trans htable⟩
      · exact hrest (fun v hm => hviews v (List.mem_cons_of_mem _ hm)) view hv

/-- A session shows the same with restarts and without, and after every request memory and files are in
step: provided that it can be opened, that no folder stands where the file of a table would, and that every
table that is loaded or created has a name with room for its file. -/
theorem restart_unobservable (options : Options) (location : Location) (directory : Directory)
    (steps : List (Option Request)) (hopens : Storage.canLoad location directory = true)
    (hfolder : Database.Unblocked directory)
    (hloaded : Database.Roomy location (opened options location directory).db.catalog.get?)
    (hcreated : ∀ view ∈ (opened options location directory).views (steps.filter Option.isSome),
      Database.Roomy location view.memory) :
    (opened options location directory).views steps =
        (opened options location directory).views (steps.filter Option.isSome) ∧
      ∀ view ∈ (opened options location directory).views steps, view.InStep location := by
  have hdurable : (opened options location directory).db.Durable :=
    Database.load_durable hopens hfolder hloaded
  have halike : (opened options location directory).db.Alike (opened options location directory).db :=
    ⟨fun _ => rfl, rfl, rfl⟩
  have hsame := views_of_alike halike rfl hdurable hdurable.sound steps hloaded hcreated
  constructor
  · exact hsame
  · rw [hsame]
    exact views_inStep hdurable steps hcreated

theorem restart_unobservable_insert :
    let location : Location := ⟨"data".toList, "/data".toList⟩
    let s := opened ⟨false⟩ location Directory.empty
    let create := Request.line "CREATE_TABLE t (a INT)".toList
    let insert := Request.interleaved "INSERT INTO t VALUES (1)".toList ["SHOW TABLES".toList]
    Database.Roomy location (s.step (.request create)).db.catalog.get? ∧
      s.views [some create, none, some insert, none] = s.views [some create, some insert] := by
  intro location s create insert
  have hcreate : Database.Roomy location (s.step (.request create)).db.catalog.get? :=
    Database.forall_of_names (by decide +kernel)
  have hinsert : Database.Roomy location
      ((s.step (.request create)).step (.request insert)).db.catalog.get? :=
    Database.forall_of_names (by decide +kernel)
  have hempty : Database.Unblocked Directory.empty := by
    intro name _ h
    cases h
  have hloaded : Database.Roomy location s.db.catalog.get? := by
    intro name t h
    cases h
  refine ⟨hcreate, (restart_unobservable ⟨false⟩ location Directory.empty
    [some create, none, some insert, none] rfl hempty hloaded ?_).1⟩
  intro view hv
  rcases List.mem_cons.1 hv with rfl | hv
  · exact hcreate
  · rw [List.mem_singleton.1 hv]
    exact hinsert

/-- Below a path of 4091 bytes a table with a name of one letter is created, and is gone after a restart. -/
theorem restart_observed_below_long_path :
    ¬ ∀ (options : Options) (location : Location) (directory : Directory)
        (steps : List (Option Request)),
      let s := opened options location directory
      Storage.canLoad location directory = true → Database.Unblocked directory →
      Database.Short s.db.catalog.get? →
      (∀ view ∈ s.views (steps.filter Option.isSome), Database.Short view.memory) →
      s.views steps = s.views (steps.filter Option.isSome) := by
  intro h
  let location : Location := ⟨(List.replicate 818 "d/../".toList).flatten ++ ['d'], "/data/d".toList⟩
  let s := opened ⟨false⟩ location Directory.empty
  let create := Request.line "CREATE_TABLE t (a INT)".toList
  let stop := Request.line "STOP".toList
  let list := Request.line "SHOW TABLES".toList
  have hempty : Database.Unblocked Directory.empty := by
    intro name _ hfolder
    cases hfolder
  have hloaded : Database.Short s.db.catalog.get? := by
    intro name t ht
    cases ht
  have hcreated : Database.Short (s.step (.request create)).db.catalog.get? :=
    Database.forall_of_names (by decide +kernel)
  have hstopped : Database.Short
      ((s.step (.request create)).step (.request stop)).db.catalog.get? :=
    Database.forall_of_names (by decide +kernel)
  have hlisted : Database.Short
      (((s.step (.request create)).step (.request stop)).step (.request list)).db.catalog.get? :=
    Database.forall_of_names (by decide +kernel)
  have hviews : ∀ view ∈ s.views [some create, some stop, some list],
      Database.Short view.memory := by
    simp only [views, List.forall_mem_cons]
    exact ⟨hcreated, hstopped, hlisted, nofun⟩
  have hsame := h ⟨false⟩ location Directory.empty [some create, some stop, none, some list] rfl
    hempty hloaded hviews
  have hanswers := congrArg (List.map fun view => view.answers.1) hsame
  exact absurd hanswers (by decide +kernel)

end Session
end LineTables
