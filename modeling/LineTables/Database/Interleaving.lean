import LineTables.Database.Execution

/-!
# Lines between a look-up and its action

Between the moment at which a statement has found its table and the moment at which it acts on it,
other lines may be carried out in full. The action then works on the table as those lines left it, or,
if one of them emptied the catalogue, finds it gone when it changes rows and reads the last rows when
it only prints.
-/

set_option autoImplicit false

namespace LineTables.Database

/-- Answers lines one after the other while a table is held. -/
def processHolding (options : Options) (db : Database) (held : Held) :
    List Text → Held × Step (List Text)
  | [] => (held, ⟨[], db, []⟩)
  | line :: lines =>
    let step := db.process options line
    let (held, rest) := step.after.processHolding options (held.followed step.after) lines
    (held, ⟨step.outcome :: rest.outcome, rest.after, step.events ++ rest.events⟩)

/-- Answers a line between whose look-up and action other lines are answered; both answers are
given. The other lines wait for a look-up that finds a table, and without one they are not carried
out. -/
def interleave (options : Options) (db : Database) (line : Text) (between : List Text) :
    Step (Text × List Text) :=
  let alone : Step (Text × List Text) :=
    let step := db.process options line
    ⟨(step.outcome, []), step.after, step.events⟩
  match Statement.parse line with
  | .ok (.onTable name action) =>
    match db.hold name with
    | .ok held =>
      let (held, others) := db.processHolding options held between
      let step := answered line (others.after.perform held action)
      ⟨(step.outcome, others.outcome), step.after, others.events ++ step.events⟩
    | .error _ => alone
  | _ => alone

end LineTables.Database
