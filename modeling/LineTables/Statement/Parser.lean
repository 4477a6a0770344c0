import LineTables.Statement.Basic
import LineTables.Text.Pieces
import LineTables.Text.Word

/-!
# Reading statements

A line opens with a verb in any case. The rest is cut at the first whole-word keyword, then at commas
and equals signs; quotes do not protect anything from being cut. Only the form is checked here:
whether a table has the columns and the literals fit their types is seen when the statement is
carried out.
-/

set_option autoImplicit false

namespace LineTables

namespace Text

def cutAtKeyword (t keyword : Text) : Except SyntaxError (Text × Text) :=
  match cutAtWord? keyword t with
  | some parts => .ok parts
  | none => .error (.missingKeyword keyword)

def cutAtCondition (t : Text) : Except SyntaxError (Text × Option Text) :=
  match cutAtWord? Keyword.whereText t with
  | none => .ok (t, none)
  | some (before, after) =>
    let condition := after.trim
    if condition.isEmpty then .error .emptyCondition else .ok (before, some condition)

def cutAtRequiredCondition (t : Text) : Except SyntaxError (Text × Text) :=
  match cutAtCondition t with
  | .ok (before, some condition) => .ok (before, condition)
  | .ok (_, none) => .error (.missingKeyword Keyword.whereText)
  | .error e => .error e

/-- A table name, which may be anything but blank. -/
def tableName (t : Text) : Except SyntaxError Text :=
  let name := t.trim
  if name.isEmpty then .error .missingTable else .ok name

end Text

namespace Column

def ofClause? (clause : Text) : Option Column :=
  match clause.words with
  | [name, type] => if isValidName name then (DataType.ofKeyword? type).map (⟨name, ·⟩) else none
  | _ => none

end Column

namespace Statement

def ofClauses (table : Text) (clauses : List Text) : Statement :=
  .createTable table (clauses.filterMap Column.ofClause?)
    ((clauses.filter (fun clause => (Column.ofClause? clause).isNone)).map Text.trim)

def parseCreateTable (rest : Text) : Except SyntaxError Statement := do
  match rest.cutAt '(' with
  | [name, body] =>
    let name := name.trim
    if !isValidName name then throw (.invalidTableName name)
    return ofClauses name (Text.cutAt ',' (body.filter (· != ')')))
  | _ => throw .malformedCreate

def parseLiterals (t : Text) : Except SyntaxError (List Text) :=
  match t.trim with
  | '(' :: inner =>
    if inner.getLast? = some ')' then .ok ((Text.cutAt ',' inner.dropLast).map Text.trim)
    else .error .valuesNotBracketed
  | _ => .error .valuesNotBracketed

def parseInsert (rest : Text) : Except SyntaxError Statement := do
  let some rest := Text.after? (Keyword.intoText ++ [' ']) rest
    | throw (.missingAfterVerb .insert Keyword.intoText)
  let (table, values) ← rest.cutAtKeyword Keyword.valuesText
  let literals ← parseLiterals values
  let table ← table.tableName
  return .onTable table (.insert literals)

/-- The columns that a projection names, where a star alone stands for all. -/
def parseProjection (t : Text) : Except SyntaxError (Option (List Text)) :=
  let columns := t.runsOutside (fun c => Text.isBlank c || c == ',')
  if columns.isEmpty then .error .noColumns
  else if columns.contains ['*'] then
    if columns = [['*']] then .ok none else .error .starWithColumns
  else .ok (some columns)

def parseSelect (rest : Text) : Except SyntaxError Statement := do
  let (projection, source) ← rest.cutAtKeyword Keyword.fromText
  let columns ← parseProjection projection
  let (table, condition) ← source.cutAtCondition
  let table ← table.tableName
  return .onTable table (.select columns condition)

def parseAssignment (clause : Text) : Except SyntaxError (Text × Text) :=
  match clause.cutAt '=' with
  | [column, literal] => .ok (column.trim, literal.trim)
  | _ => .error (.malformedAssignment clause.trim)

def parseAssignments : List Text → Except SyntaxError (List (Text × Text))
  | [] => .ok []
  | clause :: clauses => do
    let assignment ← parseAssignment clause
    let assignments ← parseAssignments clauses
    return assignment :: assignments

def parseUpdate (rest : Text) : Except SyntaxError Statement := do
  let (table, tail) ← rest.cutAtKeyword Keyword.setText
  let (clauses, condition) ← tail.cutAtRequiredCondition
  let assignments ← parseAssignments (clauses.cutAt ',')
  let table ← table.tableName
  return .onTable table (.update assignments condition)

def parseDelete (rest : Text) : Except SyntaxError Statement := do
  let some rest := Text.after? (Keyword.fromText ++ [' ']) rest
    | throw (.missingAfterVerb .delete Keyword.fromText)
  let (table, condition) ← rest.cutAtRequiredCondition
  let table ← table.tableName
  return .onTable table (.delete condition)

def parseShow (rest : Text) : Except SyntaxError Statement :=
  if rest.isEmpty || rest.trim.capitalized == Keyword.tablesText then .ok .showTables
  else .error (.unexpectedForShow rest)

def parseBare (verb : Verb) (statement : Statement) (rest : Text) :
    Except SyntaxError Statement :=
  if rest.trim.isEmpty then .ok statement else .error (.unexpectedAfter verb rest)

def parseRest : Verb → Text → Except SyntaxError Statement
  | .createTable => parseCreateTable
  | .insert => parseInsert
  | .select => parseSelect
  | .update => parseUpdate
  | .delete => parseDelete
  | .showTables => parseShow
  | .stop => parseBare .stop .stop
  | .purgeAndStop => parseBare .purgeAndStop .purgeAndStop

def firstWord (line : Text) : Text × Text :=
  let t := line.trim
  (t.takeWhile (!Text.isBlank ·), Text.trimStart (t.dropWhile (!Text.isBlank ·)))

def parse (line : Text) : Except SyntaxError Statement :=
  let (word, rest) := firstWord line
  if word.isEmpty then .error .emptyLine
  else
    match Verb.ofText? word with
    | some verb => parseRest verb rest
    | none => .error (.unknownVerb word)

end Statement
end LineTables
