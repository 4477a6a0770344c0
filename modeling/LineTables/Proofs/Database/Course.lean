import LineTables.Proofs.Database.Turns

/-!
# The course of a session

The course of a session tells its turns one after the other, each with the database that it leaves, those
of the lines included that come while another one waits. So a stretch of a session may begin and end
between any two lines. Each turn follows on the one before it: its line is carried out as a whole, or it
comes to a table that was removed while it waited, and then it only prints or is refused.
-/

set_option autoImplicit false

namespace LineTables

/-- A turn and the database that it leaves. -/
structure Moment where
  turn : Turn
  after : Database

namespace Database

def atEnd (db : Database) (moments : List Moment) : Database :=
  moments.foldl (fun _ moment => moment.after) db

theorem atEnd_append (db : Database) (moments more : List Moment) :
    db.atEnd (moments ++ more) = (db.atEnd moments).atEnd more :=
  List.foldl_append

def course (options : Options) (db : Database) : List Text → List Moment
  | [] => []
  | line :: lines =>
    let step := db.process options line
    ⟨⟨line, step.outcome⟩, step.after⟩ :: step.after.course options lines

def waitedFor (db : Database) : Request → List Text
  | .line _ => []
  | .interleaved own between => db.admitted own between

/-- The moments of a request: those of the lines that it waits for, and then its own. -/
def requestCourse (options : Options) (db : Database) (request : Request) : List Moment :=
  let step := db.respond options request
  db.course options (db.waitedFor request) ++ [⟨⟨request.own, step.outcome.1⟩, step.after⟩]

variable {options : Options} {db : Database}

theorem map_turn_course (options : Options) (db : Database) (lines : List Text) :
    (db.course options lines).map (·.turn) = db.turns options lines := by
  induction lines generalizing db with
  | nil => rfl
  | cons line lines ih => exact congrArg (_ :: ·) (ih _)

theorem atEnd_course (options : Options) (db : Database) (lines : List Text) :
    db.atEnd (db.course options lines) = (db.processAll options lines).after := by
  induction lines generalizing db with
  | nil => rfl
  | cons line lines ih => exact ih _

theorem map_turn_requestCourse (options : Options) (db : Database) (request : Request) :
    (db.requestCourse options request).map (·.turn) =
      request.turns (db.respond options request).outcome := by
  rw [requestCourse, List.map_append, map_turn_course]
  cases request with
  | line own => rfl
  | interleaved own between =>
    rcases held_or_alone db own with ⟨name, action, held, hparse, hh⟩ | halone
    · have hothers : (db.interleave options own between).outcome.2 =
          (db.processAll options between).outcome :=
        congrArg (·.1.2) (interleave_held hparse hh between)
      rw [waitedFor, admitted_held hparse hh, Request.turns, respond, hothers]
      rfl
    · have hseen : (db.respond options (.interleaved own between)).seen = _ :=
        respond_of_alone halone
      have hnone : (db.respond options (.interleaved own between)).outcome.2 = [] :=
        congrArg (·.1.2) hseen
      rw [waitedFor, admitted_alone halone, Request.turns, hnone, List.zipWith_nil_right]
      rfl

theorem atEnd_requestCourse (options : Options) (db : Database) (request : Request) :
    db.atEnd (db.requestCourse options request) = (db.respond options request).after := by
  rw [requestCourse, atEnd_append]
  rfl

/-- What a turn does: its line is carried out as a whole, or it comes to a held table that was removed;
then it prints or is refused, and changes nothing. -/
inductive Acts (options : Options) (db : Database) : Turn → Database → Prop
  | whole (line : Text) :
      Acts options db ⟨line, (db.process options line).outcome⟩ (db.process options line).after
  | printed {line name : Text} {columns : Option (List Text)} {condition : Option Text}
      (parsed : Statement.parse line = .ok (.onTable name (.select columns condition)))
      (answer : Text) : Acts options db ⟨line, answer⟩ db
  | refused (line : Text) {answer : Text} (mark : answer ∈ Refusal.marks) :
      Acts options db ⟨line, answer⟩ db

def Follows (options : Options) : Database → List Moment → Prop
  | _, [] => True
  | db, moment :: moments =>
    db.Acts options moment.turn moment.after ∧ Follows options moment.after moments

theorem follows_append {moments more : List Moment} :
    db.Follows options (moments ++ more) ↔
      db.Follows options moments ∧ (db.atEnd moments).Follows options more := by
  induction moments generalizing db with
  | nil => simp [Follows, atEnd]
  | cons moment moments ih =>
    rw [List.cons_append, Follows, Follows, ih, and_assoc]
    rfl

theorem Acts.sound (hs : db.catalog.Sound) {turn : Turn} {after : Database}
    (h : db.Acts options turn after) : after.catalog.Sound := by
  cases h with
  | whole line => exact executeLine_sound options hs line
  | printed => exact hs
  | refused => exact hs

theorem Follows.sound (hs : db.catalog.Sound) {moments : List Moment}
    (h : db.Follows options moments) : (db.atEnd moments).catalog.Sound := by
  induction moments generalizing db with
  | nil => exact hs
  | cons moment moments ih => exact ih (h.1.sound hs) h.2

theorem course_follows (options : Options) (db : Database) (lines : List Text) :
    db.Follows options (db.course options lines) := by
  induction lines generalizing db with
  | nil => trivial
  | cons line lines ih => exact ⟨.whole line, ih _⟩

theorem perform_dead_acts {line name : Text} {action : Action} {held : Held}
    (hparse : Statement.parse line = .ok (.onTable name action)) (h : held.live? db = none) :
    db.Acts options ⟨line, answerOf (db.perform held action).outcome⟩
      (db.perform held action).after := by
  rw [perform]
  cases hcheck : action.check held.table with
  | error refusal => exact .refused line refusal.mark_mem
  | ok task =>
    cases task with
    | print names printed =>
      obtain ⟨columns, condition, rfl, -⟩ := Action.check_print hcheck
      exact .printed hparse _
    | change change =>
      dsimp only
      rw [Database.change, h]
      exact .refused line (Refusal.mark_mem (.catalog (.tableNotFound held.table.name)))

theorem perform_acts (hf : db.catalog.Filed) {line name : Text} {action : Action} {held : Held}
    (hparse : Statement.parse line = .ok (.onTable name action)) (hh : db.hold name = .ok held)
    (between : List Text) :
    let others := (db.processAll options between).after
    let performed := answered line
      (others.perform (db.processHolding options held between).1 action)
    others.Acts options ⟨line, performed.outcome⟩ performed.after := by
  intro others performed
  by_cases hp : ∃ l ∈ between, purges l = true
  · exact perform_dead_acts hparse (processHolding_dead hf hh hp)
  · have hl : ∀ l ∈ between, purges l = false := by simpa using hp
    have hlast : performed = others.process options line :=
      perform_last options hf hparse hh hl
    rw [hlast]
    exact .whole line

theorem requestCourse_follows (hf : db.catalog.Filed) (request : Request) :
    db.Follows options (db.requestCourse options request) := by
  rw [requestCourse, follows_append, atEnd_course]
  refine ⟨course_follows options db _, ?_, trivial⟩
  cases request with
  | line own => exact .whole own
  | interleaved own between =>
    rcases held_or_alone db own with ⟨name, action, held, hparse, hh⟩ | halone
    · have hseen : (db.respond options (.interleaved own between)).seen = _ :=
        interleave_held hparse hh between
      obtain ⟨houtcome, hafter⟩ := Prod.mk.inj hseen
      rw [waitedFor, admitted_held hparse hh, houtcome, hafter]
      exact perform_acts hf hparse hh between
    · have hseen : (db.respond options (.interleaved own between)).seen = _ :=
        respond_of_alone halone
      obtain ⟨houtcome, hafter⟩ := Prod.mk.inj hseen
      rw [waitedFor, admitted_alone halone, houtcome, hafter]
      exact .whole own

end Database

namespace Session

def course (s : Session) : List Request → List Moment
  | [] => []
  | request :: requests =>
    s.db.requestCourse s.options request ++ (s.step (.request request)).course requests

theorem map_turn_course (s : Session) (requests : List Request) :
    (s.course requests).map (·.turn) = s.turns requests := by
  induction requests generalizing s with
  | nil => rfl
  | cons request requests ih =>
    rw [course, turns, List.map_append, Database.map_turn_requestCourse, ih]

theorem atEnd_course (s : Session) (requests : List Request) :
    s.db.atEnd (s.course requests) = (s.run (requests.map .request)).db := by
  induction requests generalizing s with
  | nil => rfl
  | cons request requests ih =>
    rw [course, Database.atEnd_append, Database.atEnd_requestCourse]
    exact ih (s.step (.request request))

theorem course_follows {s : Session} (hs : s.db.catalog.Sound) (requests : List Request) :
    s.db.Follows s.options (s.course requests) := by
  induction requests generalizing s with
  | nil => trivial
  | cons request requests ih =>
    have hnext : (s.step (.request request)).db.catalog.Sound :=
      Database.respond_sound s.options hs request
    rw [course, Database.follows_append, Database.atEnd_requestCourse]
    exact ⟨Database.requestCourse_follows hs.filed request, ih hnext⟩

end Session
end LineTables
