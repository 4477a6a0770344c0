import LineTables.Database.Interleaving

/-!
# Sessions

A session is a database in use. Callers send it requests; beside them it may be closed, opened again
on what its directory holds, or find that the files of the directory were changed from outside. Where the
table files cannot be listed a database is not opened. Such a session is taken to go on all the same, with
what it would load: what holds of all sessions holds of those that were opened.
-/

set_option autoImplicit false

namespace LineTables

inductive Request where
  | line (line : Text)
  /-- A line between whose look-up and action other lines come. -/
  | interleaved (line : Text) (between : List Text)

inductive Happening where
  | request (request : Request)
  | statement (line : Text)
  | kind (kind : Text)
  | close
  | reopen (options : Options)
  /-- The files of the directory are changed from outside, in any way. -/
  | exchange (directory : Directory)

namespace Database

def respond (options : Options) (db : Database) : Request → Step (Text × List Text)
  | .line line =>
    let step := db.process options line
    ⟨(step.outcome, []), step.after, step.events⟩
  | .interleaved line between => db.interleave options line between

end Database

structure Session where
  options : Options
  db : Database

namespace Session

def opened (options : Options) (location : Location) (directory : Directory) : Session :=
  ⟨options, (Database.load location directory).1⟩

def step (s : Session) : Happening → Session
  | .request request => { s with db := (s.db.respond s.options request).after }
  | .statement line => { s with db := (s.db.executeLine s.options line).after }
  | .kind kind => { s with db := (s.db.executeKind s.options kind).after }
  | .close => { s with db := s.db.flush.1 }
  | .reopen options => opened options s.db.location s.db.directory
  | .exchange directory => { s with db := { s.db with directory } }

def run (s : Session) : List Happening → Session
  | [] => s
  | happening :: happenings => (s.step happening).run happenings

end Session
end LineTables
