import LineTables.Catalog
import LineTables.Statement.Basic
import LineTables.Table.Literal

/-!
# Outcomes of statements

A statement that is carried out has a reply; one that is not is refused for a cause. Both are answered
by a text: the replies say what was found or done, the refusals are answered by one of three fixed
marks and keep their cause in a message.
-/

set_option autoImplicit false

namespace LineTables

inductive Reply where
  | success
  | rows (lines : List Text)
  | noRows
  | updated (count : Nat)
  | noneUpdated
  | deleted (count : Nat)
  | noneDeleted
  | tables (names : List Text)
  | noTables
  | stopped
  | purged
  deriving DecidableEq, Repr

namespace Reply

def text : Reply → Text
  | success => "SUCCESS".toList
  | rows lines => Text.joined ['\n'] lines
  | noRows => "NO_ROWS_FOUND".toList
  | updated count => "UPDATED ".toList ++ Text.ofNat count
  | noneUpdated => "NO_ROWS_UPDATED".toList
  | deleted count => "DELETED ".toList ++ Text.ofNat count
  | noneDeleted => "NO_ROWS_DELETED".toList
  | tables names => Text.joined ['\n'] names
  | noTables => "NO_TABLES_AVAILABLE".toList
  | stopped => "Goodbye!".toList
  | purged => "PURGED, Goodbye!".toList

def isFinal (t : Text) : Bool := t == stopped.text || t == purged.text

end Reply

inductive Refusal where
  | malformed (cause : SyntaxError)
  | catalog (cause : CatalogError)
  | literal (cause : LiteralError)
  | rejectedColumns (clauses : List Text)
  | noValidColumn (table : Text)
  | repeatedColumn (names : List Text)
  | wrongCount (literals columns : Nat)
  | noSuchColumn (name : Text)
  | unknownKind (kind : Text)
  | missingCell (column : Text)
  /-- A table file has a path that is too long to be looked at. -/
  | pathTooLong
  deriving DecidableEq, Repr

namespace Refusal

def message : Refusal → Text
  | malformed cause => cause.message
  | catalog cause => cause.message
  | literal cause => cause.message
  | rejectedColumns clauses => "非法列定义: ".toList ++ Text.quotedList clauses
  | noValidColumn table => "表 ".toList ++ table ++ " 没有合法的列".toList
  | repeatedColumn names => "列名重复: ".toList ++ Text.quotedList names
  | wrongCount literals columns =>
    "值个数 ".toList ++ Text.ofNat literals ++ " 与列数 ".toList ++ Text.ofNat columns ++
      " 不符".toList
  | noSuchColumn name => "列不存在: ".toList ++ name
  | unknownKind kind => "未知操作类型: ".toList ++ kind
  | missingCell column => Text.quoted column
  | pathTooLong => "File name too long".toList

def mark : Refusal → Text
  | catalog (.tableExists _) => "TABLE_EXISTS".toList
  | catalog (.tableNotFound _) => "TABLE_NOT_FOUND".toList
  | _ => "INVALID_COMMAND".toList

/-- The refusal comes from a check of the statement; the others come up while it is carried out and
are not foreseen. -/
def isForeseen : Refusal → Bool
  | literal .tooManyDigits => false
  | missingCell _ => false
  | pathTooLong => false
  | _ => true

end Refusal

abbrev Outcome := Except Refusal Reply

end LineTables
