import LineTables.Proofs.Database.Effect

/-!
# Interleaved lines in an order

A line between whose look-up and action other lines come is answered as if all lines came one after
the other. Which place it has among them depends on what it asks for and on the first line that
removes all tables: a held table stays live and under its name until then, and from then on it keeps
its rows and can no more be changed.
-/

set_option autoImplicit false

namespace LineTables

def Step.seen {α : Type} (step : Step α) : α × Database := (step.outcome, step.after)

namespace Database

theorem Effect.filed {db after : Database} {s : Statement} (hf : db.catalog.Filed)
    (h : db.Effect s after) : after.catalog.Filed := by
  cases h with
  | kept => exact hf
  | created =>
    rw [withTable_catalog]
    exact hf.update _
  | changed =>
    rw [withTable_catalog]
    exact hf.update _
  | flushed =>
    rw [flush_catalog]
    exact hf
  | purged =>
    intro entry he
    cases he

theorem executeLine_filed (options : Options) {db : Database} (hf : db.catalog.Filed)
    (line : Text) : (db.executeLine options line).after.catalog.Filed := by
  rcases executeLine_effect options hf line with h | ⟨s, -, h⟩
  · rw [h]
    exact hf
  · exact h.filed hf

theorem processAll_keeps {options : Options} {P : Database → Prop}
    (hline : ∀ db line, P db → P (db.executeLine options line).after) {db : Database} (h : P db)
    (lines : List Text) : P (db.processAll options lines).after := by
  induction lines generalizing db with
  | nil => exact h
  | cons line lines ih => exact ih (hline db line h)

theorem processAll_filed (options : Options) {db : Database} (hf : db.catalog.Filed)
    (lines : List Text) : (db.processAll options lines).after.catalog.Filed :=
  processAll_keeps (P := fun db => db.catalog.Filed)
    (fun _ line hd => executeLine_filed options hd line) hf lines

def purges (line : Text) : Bool :=
  match Statement.parse line with
  | .ok .purgeAndStop => true
  | _ => false

theorem purges_iff {line : Text} : purges line = true ↔ Statement.parse line = .ok .purgeAndStop := by
  rw [purges]
  split
  · rename_i h
    simp [h]
  · rename_i h
    constructor
    · intro hfalse
      cases hfalse
    · intro hp
      exact absurd hp h

theorem process_of_purges {line : Text} (h : purges line = true) (options : Options)
    (db : Database) : (db.process options line).after = db.purged := by
  rw [process, executeLine, purges_iff.1 h]
  exact purge_after db

theorem Effect.keeps {db after : Database} {s : Statement} (h : db.Effect s after)
    (hs : s ≠ .purgeAndStop) :
    after.catalog.generation = db.catalog.generation ∧
      ∀ name, (db.catalog.get? name).isSome → (after.catalog.get? name).isSome := by
  have hupdate : ∀ t : Table Value, ∀ name, (db.catalog.get? name).isSome →
      ((db.catalog.update t).get? name).isSome := by
    intro t name hn
    by_cases ht : name = t.name
    · rw [ht, Catalog.get?_update_self]
      rfl
    · rwa [Catalog.get?_update_of_ne _ ht]
  cases h with
  | kept => exact ⟨rfl, fun _ hn => hn⟩
  | created =>
    rw [withTable_catalog]
    exact ⟨rfl, hupdate _⟩
  | changed =>
    rw [withTable_catalog]
    exact ⟨rfl, hupdate _⟩
  | flushed =>
    rw [flush_catalog]
    exact ⟨rfl, fun _ hn => hn⟩
  | purged => exact absurd rfl hs

theorem process_keeps (options : Options) {db : Database} (hf : db.catalog.Filed) {line : Text}
    (hl : purges line = false) :
    (db.process options line).after.catalog.generation = db.catalog.generation ∧
      ∀ name, (db.catalog.get? name).isSome →
        ((db.process options line).after.catalog.get? name).isSome := by
  rcases executeLine_effect options hf line with h | ⟨s, hs, h⟩
  · rw [process, answered, h]
    exact ⟨rfl, fun _ hn => hn⟩
  · apply h.keeps
    rintro rfl
    rw [purges_iff.2 hs] at hl
    cases hl

theorem generation_process (options : Options) {db : Database} (hf : db.catalog.Filed)
    (line : Text) :
    (db.process options line).after.catalog.generation =
      db.catalog.generation + if purges line then 1 else 0 := by
  by_cases hp : purges line = true
  · rw [if_pos hp, process_of_purges hp options db]
    rfl
  · rw [if_neg hp, (process_keeps options hf (Bool.eq_false_iff.2 hp)).1]
    rfl

theorem processAll_append_after (options : Options) (db : Database) (lines more : List Text) :
    (db.processAll options (lines ++ more)).after =
      ((db.processAll options lines).after.processAll options more).after := by
  induction lines generalizing db with
  | nil => rfl
  | cons line lines ih => exact ih _

theorem processAll_append_outcome (options : Options) (db : Database) (lines more : List Text) :
    (db.processAll options (lines ++ more)).outcome =
      (db.processAll options lines).outcome ++
        ((db.processAll options lines).after.processAll options more).outcome := by
  induction lines generalizing db with
  | nil => rfl
  | cons line lines ih => exact congrArg (_ :: ·) (ih _)

theorem processHolding_snd (options : Options) (db : Database) (held : Held) (lines : List Text) :
    (db.processHolding options held lines).2 = db.processAll options lines := by
  induction lines generalizing db held with
  | nil => rfl
  | cons line lines ih => rw [processHolding, processAll, ← ih _ (held.followed _)]

theorem processHolding_append (options : Options) (db : Database) (held : Held)
    (lines more : List Text) :
    (db.processHolding options held (lines ++ more)).1 =
      ((db.processAll options lines).after.processHolding options
        (db.processHolding options held lines).1 more).1 := by
  induction lines generalizing db held with
  | nil => rfl
  | cons line lines ih => exact ih _ _

theorem hold_followed {db after : Database} {name : Text} {held : Held}
    (hf : db.catalog.Filed) (hh : db.hold name = .ok held)
    (hg : after.catalog.generation = db.catalog.generation)
    (hn : (after.catalog.get? name).isSome) : after.hold name = .ok (held.followed after) := by
  obtain ⟨hfound, hgeneration⟩ := hold_ok_iff.1 hh
  obtain ⟨t, ht⟩ := Option.isSome_iff_exists.1 hn
  have hlive : held.live? after = some t := by
    rw [Held.live?, if_pos (hg.trans hgeneration.symm), hf.name_of_get? hfound, ht]
  rw [hold_ok_iff, Held.followed, hlive]
  exact ⟨ht, hgeneration.trans hg.symm⟩

/-- Until the tables are removed, the held table is the one that would be found now. -/
theorem hold_processHolding (options : Options) {db : Database} (hf : db.catalog.Filed)
    {name : Text} {held : Held} (hh : db.hold name = .ok held) {lines : List Text}
    (hl : ∀ line ∈ lines, purges line = false) :
    (db.processAll options lines).after.hold name =
      .ok (db.processHolding options held lines).1 := by
  induction lines generalizing db held with
  | nil => exact hh
  | cons line lines ih =>
    obtain ⟨hg, hnames⟩ := process_keeps options hf (hl line List.mem_cons_self)
    have hn := hnames name (by rw [(hold_ok_iff.1 hh).1]; rfl)
    exact ih (executeLine_filed options hf line) (hold_followed hf hh hg hn)
      (fun l hm => hl l (List.mem_cons_of_mem line hm))

theorem followed_of_lt {db : Database} {held : Held}
    (h : held.generation < db.catalog.generation) :
    held.live? db = none ∧ held.followed db = held := by
  have hlive : held.live? db = none := by
    rw [Held.live?, if_neg (by omega)]
  rw [Held.followed, hlive]
  exact ⟨rfl, rfl⟩

theorem processHolding_stale (options : Options) {db : Database} (hf : db.catalog.Filed)
    {held : Held} (h : held.generation < db.catalog.generation) (lines : List Text) :
    (db.processHolding options held lines).1 = held ∧
      held.generation < (db.processAll options lines).after.catalog.generation := by
  induction lines generalizing db with
  | nil => exact ⟨rfl, h⟩
  | cons line lines ih =>
    have hlt : held.generation < (db.process options line).after.catalog.generation := by
      rw [generation_process options hf line]
      omega
    rw [processHolding, processAll]
    dsimp only
    rw [(followed_of_lt hlt).2]
    exact ih (executeLine_filed options hf line) hlt

/-- The lines that come between the look-up and the action of a line: none where nothing is found. -/
def admitted (db : Database) (line : Text) (between : List Text) : List Text :=
  match Statement.parse line with
  | .ok (.onTable name _) => if db.catalog.contains name then between else []
  | _ => []

/-- Answers a line after so many of the others and before the rest of them. -/
def inOrder (options : Options) (db : Database) (line : Text) (others : List Text) (place : Nat) :
    Step (Text × List Text) :=
  let first := db.processAll options (others.take place)
  let own := first.after.process options line
  let rest := own.after.processAll options (others.drop place)
  ⟨(own.outcome, first.outcome ++ rest.outcome), rest.after,
    first.events ++ own.events ++ rest.events⟩

theorem inOrder_after (options : Options) (db : Database) (line : Text) (others : List Text)
    (place : Nat) :
    (db.inOrder options line others place).after =
      (db.processAll options (others.take place ++ line :: others.drop place)).after := by
  rw [processAll_append_after]
  rfl

theorem inOrder_last (options : Options) (db : Database) (line : Text) (others : List Text) :
    (db.inOrder options line others others.length).seen =
      let own := (db.processAll options others).after.process options line
      ((own.outcome, (db.processAll options others).outcome), own.after) := by
  rw [inOrder, List.take_length, List.drop_length]
  simp only [Step.seen, processAll, List.append_nil]

theorem inOrder_of_kept {options : Options} {db between : Database} {line : Text}
    {before rest : List Text} {answer : Text}
    (hd : (db.processAll options before).after = between)
    (h : (between.process options line).seen = (answer, between)) :
    (db.inOrder options line (before ++ rest) before.length).seen =
      ((answer, (db.processAll options (before ++ rest)).outcome),
        (db.processAll options (before ++ rest)).after) := by
  simp only [Step.seen, Prod.mk.injEq] at h ⊢
  rw [inOrder, List.take_left, List.drop_left]
  dsimp only
  rw [processAll_append_outcome, processAll_append_after, hd, h.1, h.2]
  exact ⟨rfl, rfl⟩

theorem process_of_parse {options : Options} {line : Text} {s : Statement}
    (hparse : Statement.parse line = .ok s) (db : Database) :
    db.process options line = answered line (db.execute options s) := by
  rw [process, executeLine, hparse]

theorem process_held {options : Options} {db : Database} {line name : Text} {action : Action}
    {held : Held} (hparse : Statement.parse line = .ok (.onTable name action))
    (hh : db.hold name = .ok held) :
    db.process options line = answered line (db.perform held action) := by
  rw [process_of_parse hparse, execute, hh]

theorem process_purged {options : Options} {db : Database} {line name : Text} {action : Action}
    (hparse : Statement.parse line = .ok (.onTable name action)) :
    (db.purged.process options line).seen =
      ((Refusal.catalog (.tableNotFound name)).mark, db.purged) := by
  rw [process_of_parse hparse]
  rfl

theorem perform_last (options : Options) {db : Database} (hf : db.catalog.Filed) {line name : Text}
    {action : Action} {held : Held} {between : List Text}
    (hparse : Statement.parse line = .ok (.onTable name action)) (hh : db.hold name = .ok held)
    (hl : ∀ l ∈ between, purges l = false) :
    answered line ((db.processAll options between).after.perform
        (db.processHolding options held between).1 action) =
      (db.processAll options between).after.process options line := by
  rw [process_held hparse (hold_processHolding options hf hh hl)]

theorem processHolding_purge (options : Options) {db : Database} (hf : db.catalog.Filed)
    {held : Held} (hg : held.generation = db.catalog.generation) {purge : Text}
    (hp : purges purge = true) (rest : List Text) :
    (db.processHolding options held (purge :: rest)).1 = held ∧
      held.live? (db.processAll options (purge :: rest)).after = none := by
  have hlt : held.generation < (db.process options purge).after.catalog.generation := by
    rw [generation_process options hf purge, if_pos hp, hg]
    omega
  have hstale := processHolding_stale options (executeLine_filed options hf purge) hlt rest
  rw [processHolding, processAll]
  dsimp only
  rw [(followed_of_lt hlt).2]
  exact ⟨hstale.1, (followed_of_lt hstale.2).1⟩

theorem perform_stale (options : Options) {db : Database} (hf : db.catalog.Filed) {line name : Text}
    {action : Action} {held : Held} {before rest : List Text} {purge : Text}
    (hparse : Statement.parse line = .ok (.onTable name action)) (hh : db.hold name = .ok held)
    (hl : ∀ l ∈ before, purges l = false) (hp : purges purge = true) :
    let between := before ++ purge :: rest
    let performed := answered line ((db.processAll options between).after.perform
      (db.processHolding options held between).1 action)
    performed.after = (db.processAll options between).after ∧
      ∃ place ≤ between.length, (db.inOrder options line between place).seen =
        ((performed.outcome, (db.processAll options between).outcome), performed.after) := by
  intro between performed
  have hfound := hold_processHolding options hf hh hl
  have hfiled := processAll_filed options hf before
  have hlast := processAll_append_after options db before (purge :: rest)
  have hheld := processHolding_append options db held before (purge :: rest)
  -- Until the removal the held table is the one that `d` has, so a whole line in this place acts on it too.
  generalize hd : (db.processAll options before).after = d at hfound hfiled hlast hheld
  generalize (db.processHolding options held before).1 = h at hfound hheld
  obtain ⟨ht, hg⟩ := hold_ok_iff.1 hfound
  obtain ⟨hsame, hlive⟩ := processHolding_purge options hfiled hg hp rest
  have hperformed : performed =
      answered line ((db.processAll options between).after.perform h action) := by
    simp only [performed, between]
    rw [hheld, hsame]
  have hdead : h.live? (db.processAll options between).after = none := by
    rw [hlast, hlive]
  have hown : d.process options line = answered line (d.perform h action) :=
    process_held hparse hfound
  rw [hperformed]
  rw [perform] at hown ⊢
  -- A refusal and a print change nothing and come right before the removal; a change comes too late, and
  -- its place is right behind it, where the table is not found.
  cases hcheck : action.check h.table with
  | error refusal =>
    rw [hcheck] at hown
    refine ⟨rfl, before.length, by simp [between], ?_⟩
    exact inOrder_of_kept hd (by rw [hown]; rfl)
  | ok task =>
    rw [hcheck] at hown
    cases task with
    | print columns condition =>
      refine ⟨rfl, before.length, by simp [between], ?_⟩
      exact inOrder_of_kept hd (by rw [hown]; rfl)
    | change change =>
      have hpurged : (db.processAll options (before ++ [purge])).after = d.purged := by
        rw [processAll_append_after, hd]
        exact process_of_purges hp options d
      have hbetween : between = before ++ [purge] ++ rest := by simp [between]
      simp only [Database.change, hdead]
      refine ⟨rfl, (before ++ [purge]).length, by simp [between], ?_⟩
      rw [hbetween, inOrder_of_kept hpurged (process_purged hparse), hfiled.name_of_get? ht]
      rfl

theorem interleave_held {options : Options} {db : Database} {line name : Text} {action : Action}
    {held : Held} (hparse : Statement.parse line = .ok (.onTable name action))
    (hh : db.hold name = .ok held) (between : List Text) :
    (db.interleave options line between).seen =
      let performed := answered line ((db.processAll options between).after.perform
        (db.processHolding options held between).1 action)
      ((performed.outcome, (db.processAll options between).outcome), performed.after) := by
  rw [interleave]
  simp only [hparse, hh, Step.seen]
  rw [← processHolding_snd options db held between]

theorem interleave_alone {options : Options} {db : Database} {line : Text} {between : List Text}
    (h : ∀ name action held, Statement.parse line = .ok (.onTable name action) →
      db.hold name ≠ .ok held) :
    (db.interleave options line between).seen = (db.inOrder options line [] 0).seen := by
  rw [interleave]
  split
  · rename_i name action hparse
    split
    · rename_i held hh
      exact absurd hh (h name action held hparse)
    · rfl
  · rfl

theorem contains_iff_hold {db : Database} {name : Text} :
    db.catalog.contains name = true ↔ ∃ held, db.hold name = .ok held := by
  show (db.catalog.get? name).isSome = true ↔ _
  constructor
  · intro h
    obtain ⟨t, ht⟩ := Option.isSome_iff_exists.1 h
    exact ⟨⟨t, db.catalog.generation⟩, hold_ok_iff.2 ⟨ht, rfl⟩⟩
  · rintro ⟨held, hh⟩
    rw [(hold_ok_iff.1 hh).1]
    rfl

theorem admitted_held {db : Database} {line name : Text} {action : Action} {held : Held}
    (hparse : Statement.parse line = .ok (.onTable name action)) (hh : db.hold name = .ok held)
    (between : List Text) : db.admitted line between = between := by
  rw [admitted, hparse]
  exact if_pos (contains_iff_hold.2 ⟨held, hh⟩)

theorem admitted_alone {db : Database} {line : Text} {between : List Text}
    (h : ∀ name action held, Statement.parse line = .ok (.onTable name action) →
      db.hold name ≠ .ok held) : db.admitted line between = [] := by
  rw [admitted]
  split
  · rename_i name action hparse
    apply if_neg
    rw [contains_iff_hold]
    rintro ⟨held, hh⟩
    exact h name action held hparse hh
  · rfl

theorem held_or_alone (db : Database) (line : Text) :
    (∃ name action held, Statement.parse line = .ok (.onTable name action) ∧
      db.hold name = .ok held) ∨
    ∀ name action held, Statement.parse line = .ok (.onTable name action) →
      db.hold name ≠ .ok held := by
  by_cases hheld : ∃ name action held, Statement.parse line = .ok (.onTable name action) ∧
      db.hold name = .ok held
  · exact Or.inl hheld
  · refine Or.inr ?_
    intro name action held hparse hh
    exact hheld ⟨name, action, held, hparse, hh⟩

/-- Interleaved lines are answered, and leave the database, as in some order one after the other. A
removal of all tables among them makes the line on the held table leave no trace. -/
theorem interleave_serial (options : Options) {db : Database} (hf : db.catalog.Filed) (line : Text)
    (between : List Text) :
    (∃ place ≤ (db.admitted line between).length,
      (db.interleave options line between).seen =
        (db.inOrder options line (db.admitted line between) place).seen) ∧
    ((db.admitted line between).any purges = true →
      (db.interleave options line between).after =
        (db.processAll options (db.admitted line between)).after) := by
  rcases held_or_alone db line with ⟨name, action, held, hparse, hh⟩ | halone
  · rw [admitted_held hparse hh, interleave_held hparse hh]
    cases hfind : between.find? purges with
    | none =>
      have hl : ∀ l ∈ between, purges l = false := by simpa using hfind
      rw [perform_last options hf hparse hh hl]
      constructor
      · exact ⟨between.length, Nat.le_refl _, (inOrder_last options db line between).symm⟩
      · intro hany
        obtain ⟨l, hmem, hp⟩ := List.any_eq_true.1 hany
        rw [hl l hmem] at hp
        cases hp
    | some purge =>
      obtain ⟨hp, before, rest, rfl, hl⟩ := List.find?_eq_some_iff_append.1 hfind
      have hl' : ∀ l ∈ before, purges l = false := by simpa using hl
      obtain ⟨hafter, place, hle, hseen⟩ := perform_stale options hf hparse hh hl' hp
      constructor
      · exact ⟨place, hle, hseen.symm⟩
      · intro _
        exact (congrArg Prod.snd (interleave_held hparse hh _)).trans hafter
  · rw [admitted_alone halone]
    constructor
    · exact ⟨0, Nat.le_refl _, interleave_alone halone⟩
    · intro hany
      cases hany

theorem interleave_after (options : Options) {db : Database} (hf : db.catalog.Filed) (line : Text)
    (between : List Text) :
    ∃ lines, (db.interleave options line between).after = (db.processAll options lines).after := by
  obtain ⟨place, -, hseen⟩ := (interleave_serial options hf line between).1
  have hafter := congrArg Prod.snd hseen
  exact ⟨_, hafter.trans (inOrder_after options db line _ place)⟩

theorem respond_keeps {options : Options} {P : Database → Prop}
    (hfiled : ∀ db, P db → db.catalog.Filed)
    (hline : ∀ db line, P db → P (db.executeLine options line).after) {db : Database} (h : P db)
    (request : Request) : P (db.respond options request).after := by
  cases request with
  | line line => exact hline db line h
  | interleaved line between =>
    obtain ⟨lines, hafter⟩ := interleave_after options (hfiled db h) line between
    rw [respond, hafter]
    exact processAll_keeps hline h lines

end Database
end LineTables
