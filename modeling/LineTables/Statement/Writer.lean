import LineTables.Statement.Basic
import LineTables.Table.Literal

/-!
# Writing statements

The written form of a statement has its keywords in capitals, one blank between words, and a comma
and a blank between the parts of a list. Texts that a statement keeps as they came stand in it as
they are.
-/

set_option autoImplicit false

namespace LineTables

def commaSeparated (parts : List Text) : Text := Text.joined ", ".toList parts

namespace Column

def clause (c : Column) : Text := c.name ++ ' ' :: c.type.keyword

end Column

namespace Action

def writtenCondition (condition : Text) : Text := " WHERE ".toList ++ condition

def writtenAssignment (assignment : Text × Text) : Text := assignment.1 ++ '=' :: assignment.2

def written (table : Text) : Action → Text
  | insert literals =>
    "INSERT INTO ".toList ++ table ++ " VALUES (".toList ++ commaSeparated literals ++ [')']
  | select columns condition =>
    "SELECT ".toList ++ columns.elim ['*'] commaSeparated ++ " FROM ".toList ++ table ++
      condition.elim [] writtenCondition
  | update assignments condition =>
    "UPDATE ".toList ++ table ++ " SET ".toList ++
      commaSeparated (assignments.map writtenAssignment) ++ writtenCondition condition
  | delete condition => "DELETE FROM ".toList ++ table ++ writtenCondition condition

end Action

namespace Statement

/-- The line of a statement. The clauses of a new table are its columns and then the rejected
ones. -/
def written : Statement → Text
  | createTable table columns rejected =>
    "CREATE_TABLE ".toList ++ table ++ " (".toList ++
      commaSeparated (columns.map Column.clause ++ rejected) ++ [')']
  | onTable table action => action.written table
  | showTables => "SHOW TABLES".toList
  | stop => Verb.stop.text
  | purgeAndStop => Verb.purgeAndStop.text

end Statement
end LineTables
