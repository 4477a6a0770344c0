import LineTables.Text.Numeral

/-!
# Events

Every step tells what happened as a list of events. An event has a level and comes from one part of
the program; a reader asks for the events from a level upwards. Events never influence a result.
-/

set_option autoImplicit false

namespace LineTables

inductive Level where
  | debug
  | info
  | warning
  | error
  deriving DecidableEq, Repr

namespace Level

def name : Level → Text
  | debug => "DEBUG".toList
  | info => "INFO".toList
  | warning => "WARNING".toList
  | error => "ERROR".toList

def all : List Level := [debug, info, warning, error]

def ofName? (t : Text) : Option Level := all.find? (fun level => level.name == t.map Char.toUpper)

def rank : Level → Nat
  | debug => 0
  | info => 1
  | warning => 2
  | error => 3

end Level

inductive Origin where
  | storage
  | executor
  | engine
  deriving DecidableEq, Repr

namespace Origin

def name : Origin → Text
  | storage => "tabledb.storage.file_storage".toList
  | executor => "tabledb.core.executor.command_executor".toList
  | engine => "tabledb.core.engine".toList

end Origin

structure Event where
  level : Level
  origin : Origin
  text : Text
  deriving DecidableEq, Repr

namespace Event

def atLeast (level : Level) (events : List Event) : List Event :=
  events.filter (fun event => level.rank ≤ event.level.rank)

end Event
end LineTables
