import LineTables.Table.Basic
import LineTables.Text.Quoted

/-!
# Statements

What a command line can ask for. Statements that read or change the rows of one table are an action
on the table of a name; conditions and literals are kept as they were written. The keywords after
the verb are written in capitals; only `TABLES` may have any case.
-/

set_option autoImplicit false

namespace LineTables

inductive Action where
  | insert (literals : List Text)
  | select (columns : Option (List Text)) (condition : Option Text)
  | update (assignments : List (Text × Text)) (condition : Text)
  | delete (condition : Text)
  deriving DecidableEq, Repr

inductive Statement where
  /-- A new table; `rejected` are the column clauses that are not well formed. -/
  | createTable (table : Text) (columns : List Column) (rejected : List Text)
  | onTable (table : Text) (action : Action)
  | showTables
  | stop
  | purgeAndStop
  deriving DecidableEq, Repr

inductive Verb where
  | createTable
  | insert
  | select
  | update
  | delete
  | showTables
  | stop
  | purgeAndStop
  deriving DecidableEq, Repr

namespace Verb

def text : Verb → Text
  | createTable => "CREATE_TABLE".toList
  | insert => "INSERT".toList
  | select => "SELECT".toList
  | update => "UPDATE".toList
  | delete => "DELETE".toList
  | showTables => "SHOW".toList
  | stop => "STOP".toList
  | purgeAndStop => "PURGE_AND_STOP".toList

def all : List Verb :=
  [createTable, insert, select, update, delete, showTables, stop, purgeAndStop]

def ofText? (t : Text) : Option Verb := all.find? (fun verb => verb.text == t.capitalized)

theorem ofText?_text (verb : Verb) : ofText? verb.text = some verb := by
  cases verb <;> decide

end Verb

namespace Keyword

def intoText : Text := "INTO".toList

def valuesText : Text := "VALUES".toList

def fromText : Text := "FROM".toList

def setText : Text := "SET".toList

def whereText : Text := "WHERE".toList

def tablesText : Text := "TABLES".toList

end Keyword

inductive SyntaxError where
  | emptyLine
  | unknownVerb (word : Text)
  | malformedCreate
  | invalidTableName (name : Text)
  | missingAfterVerb (verb : Verb) (keyword : Text)
  | missingKeyword (keyword : Text)
  | missingTable
  | valuesNotBracketed
  | noColumns
  | starWithColumns
  | malformedAssignment (clause : Text)
  | emptyCondition
  | unexpectedForShow (rest : Text)
  | unexpectedAfter (verb : Verb) (rest : Text)
  deriving DecidableEq, Repr

namespace SyntaxError

def message : SyntaxError → Text
  | emptyLine => "空命令".toList
  | unknownVerb word => "不支持的命令: ".toList ++ word
  | malformedCreate => "CREATE_TABLE 语法错误".toList
  | invalidTableName name => "非法表名: ".toList ++ Text.quoted name
  | missingAfterVerb verb keyword => verb.text ++ " 缺少 ".toList ++ keyword
  | missingKeyword keyword => "缺少 ".toList ++ keyword
  | missingTable => "缺少表名".toList
  | valuesNotBracketed => "VALUES 需要用括号包围".toList
  | noColumns => "SELECT 缺少列".toList
  | starWithColumns => "* 不能与其他列混用".toList
  | malformedAssignment clause => "赋值语法错误: ".toList ++ Text.quoted clause
  | emptyCondition => "WHERE 条件为空".toList
  | unexpectedForShow rest => "SHOW 不支持参数: ".toList ++ rest
  | unexpectedAfter verb rest => verb.text ++ " 不接受参数: ".toList ++ rest

end SyntaxError
end LineTables
