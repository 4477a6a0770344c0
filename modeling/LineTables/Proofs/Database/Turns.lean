import LineTables.Proofs.Database.Single

/-!
# Turns

The history of a session is told in turns: every line that is carried out, with its answer, in the order
in which they act. A line that waits between its look-up and its action has its turn after the lines
that come between. It is then answered as it would be alone at that place; only if its table was
removed meanwhile may the answer be another one, and then nothing changes.
-/

set_option autoImplicit false

namespace LineTables

structure Turn where
  line : Text
  answer : Text

namespace Request

def own : Request → Text
  | line own => own
  | interleaved own _ => own

def turns : Request → Text × List Text → List Turn
  | line own, answers => [⟨own, answers.1⟩]
  | interleaved own between, answers =>
    List.zipWith Turn.mk between answers.2 ++ [⟨own, answers.1⟩]

end Request

namespace Database

def turns (options : Options) (db : Database) (lines : List Text) : List Turn :=
  List.zipWith Turn.mk lines (db.processAll options lines).outcome

/-- What a turn does: a line is carried out as a whole, or it comes to a held table that was removed,
and changes nothing. -/
inductive Takes (options : Options) (db : Database) : Turn → Database → Prop
  | whole (line : Text) :
      Takes options db ⟨line, (db.process options line).outcome⟩ (db.process options line).after
  | stale {line name : Text} {action : Action} {outcome : Outcome}
      (parsed : Statement.parse line = .ok (.onTable name action))
      (idle : ¬ Outcome.Changes outcome) : Takes options db ⟨line, answerOf outcome⟩ db

inductive History (options : Options) (db : Database) : List Turn → Database → Prop
  | start : History options db [] db
  | turn {turns : List Turn} {turn : Turn} {before after : Database}
      (earlier : History options db turns before) (taken : before.Takes options turn after) :
      History options db (turns ++ [turn]) after

variable {options : Options} {db : Database}

theorem History.append {turns more : List Turn} {between after : Database}
    (h : db.History options turns between) (hmore : between.History options more after) :
    db.History options (turns ++ more) after := by
  induction hmore with
  | start => rwa [List.append_nil]
  | turn _ taken ih =>
    rw [← List.append_assoc]
    exact ih.turn taken

theorem Takes.history {turn : Turn} {after : Database} (h : db.Takes options turn after) :
    db.History options [turn] after :=
  History.start.turn h

theorem processAll_history (options : Options) (db : Database) (lines : List Text) :
    db.History options (db.turns options lines) (db.processAll options lines).after := by
  induction lines generalizing db with
  | nil => exact .start
  | cons line lines ih => exact (Takes.whole line).history.append (ih _)

theorem generation_processAll (options : Options) {db : Database} (hf : db.catalog.Filed)
    (lines : List Text) :
    (db.processAll options lines).after.catalog.generation =
      db.catalog.generation + lines.countP purges := by
  induction lines generalizing db with
  | nil => rfl
  | cons line lines ih =>
    have hfirst := generation_process options hf line
    have hrest : ((db.process options line).after.processAll options lines).after.catalog.generation =
        (db.process options line).after.catalog.generation + lines.countP purges :=
      ih (executeLine_filed options hf line)
    rw [processAll, List.countP_cons, hrest, hfirst, Nat.add_assoc, Nat.add_comm (lines.countP purges)]

theorem generation_processHolding (options : Options) (db : Database) (held : Held)
    (lines : List Text) :
    (db.processHolding options held lines).1.generation = held.generation := by
  induction lines generalizing db held with
  | nil => rfl
  | cons line lines ih => exact (ih _ _).trans (generation_followed held _)

theorem processHolding_dead (hf : db.catalog.Filed) {name : Text} {held : Held}
    (hh : db.hold name = .ok held) {lines : List Text} (hp : ∃ line ∈ lines, purges line = true) :
    (db.processHolding options held lines).1.live? (db.processAll options lines).after = none := by
  have hcount : 0 < lines.countP purges := List.countP_pos_iff.2 hp
  have hgeneration := (hold_ok_iff.1 hh).2
  rw [Held.live?, if_neg]
  rw [generation_processAll options hf, generation_processHolding]
  omega

theorem perform_dead {held : Held} (h : held.live? db = none) (action : Action) :
    ∃ outcome, (db.perform held action).seen = (outcome, db) ∧ ¬ Outcome.Changes outcome := by
  have hrefused : ∀ refusal : Refusal, ¬ Outcome.Changes (.error refusal) := by
    rintro refusal ⟨reply, hreply, -⟩
    cases hreply
  rw [perform]
  cases action.check held.table with
  | error refusal => exact ⟨_, rfl, hrefused refusal⟩
  | ok task =>
    cases task with
    | print columns condition => exact ⟨_, rfl, held.table.print_not_changes columns condition⟩
    | change change =>
      dsimp only
      rw [Database.change, h]
      exact ⟨_, rfl, hrefused _⟩

theorem perform_takes (hf : db.catalog.Filed) {line name : Text} {action : Action} {held : Held}
    (hparse : Statement.parse line = .ok (.onTable name action)) (hh : db.hold name = .ok held)
    (between : List Text) :
    let others := (db.processAll options between).after
    let performed := answered line
      (others.perform (db.processHolding options held between).1 action)
    others.Takes options ⟨line, performed.outcome⟩ performed.after := by
  intro others performed
  -- Only a removal of all tables can take the held table away.
  by_cases hp : ∃ l ∈ between, purges l = true
  · obtain ⟨outcome, hseen, hidle⟩ := perform_dead (processHolding_dead hf hh hp) action
    obtain ⟨houtcome, hafter⟩ := Prod.mk.inj hseen
    show others.Takes options ⟨line, answerOf _⟩ (others.perform _ action).after
    rw [houtcome, hafter]
    exact .stale hparse hidle
  · have hl : ∀ l ∈ between, purges l = false := by simpa using hp
    have hlast : performed = others.process options line :=
      perform_last options hf hparse hh hl
    rw [hlast]
    exact .whole line

theorem respond_of_alone {request : Request}
    (h : ∀ name action held, Statement.parse request.own = .ok (.onTable name action) →
      db.hold name ≠ .ok held) :
    (db.respond options request).seen =
      (((db.process options request.own).outcome, []), (db.process options request.own).after) := by
  cases request with
  | line own => rfl
  | interleaved own between => exact interleave_alone h

theorem respond_history (hf : db.catalog.Filed) (request : Request) :
    db.History options (request.turns (db.respond options request).outcome)
      (db.respond options request).after := by
  cases request with
  | line own => exact (Takes.whole own).history
  | interleaved own between =>
    rcases held_or_alone db own with ⟨name, action, held, hparse, hh⟩ | halone
    · have hseen : (db.interleave options own between).seen = _ := interleave_held hparse hh between
      obtain ⟨houtcome, hafter⟩ := Prod.mk.inj hseen
      rw [respond, houtcome, hafter]
      exact (processAll_history options db between).append (perform_takes hf hparse hh between).history
    · have hseen : (db.respond options (.interleaved own between)).seen = _ :=
        respond_of_alone halone
      obtain ⟨houtcome, hafter⟩ := Prod.mk.inj hseen
      rw [houtcome, hafter, Request.turns, List.zipWith_nil_right]
      exact (Takes.whole own).history

end Database

namespace Session

def turns (s : Session) : List Request → List Turn
  | [] => []
  | request :: requests =>
    request.turns (s.db.respond s.options request).outcome ++
      (s.step (.request request)).turns requests

theorem history {s : Session} (hs : s.db.catalog.Sound) (requests : List Request) :
    s.db.History s.options (s.turns requests) (s.run (requests.map .request)).db := by
  induction requests generalizing s with
  | nil => exact .start
  | cons request requests ih =>
    have hnext : (s.step (.request request)).db.catalog.Sound :=
      Database.respond_sound s.options hs request
    exact (Database.respond_history hs.filed request).append (ih hnext)

end Session
end LineTables
