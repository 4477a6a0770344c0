import LineTables.Json.Basic
import LineTables.Table.Literal

/-!
# Tables as documents

A table is kept as a JSON object with its name, its columns and its rows. Every table gives a
document; a document gives a table only where its names are valid and its columns distinct, and
where each row has a cell of the right type for every column and no other field. Rows are taken
over in the order of the columns.
-/

set_option autoImplicit false

namespace LineTables

namespace Value

def toJson : Value → Json
  | int value => .int value
  | text value => .str value

end Value

namespace DataType

def value? : DataType → Json → Option Value
  | int, .int i => if inIntRange i then some (.int i) else none
  | string, .str t => some (.text t)
  | _, _ => none

def accepts (type : DataType) (value : Json) : Bool := (type.value? value).isSome

end DataType

inductive DocumentError where
  | invalidName (name : Json)
  | invalidColumn (column : Json)
  | noColumns (table : Text)
  | repeatedColumn (table : Text) (names : List Text)
  | wrongRow (table : Text) (row : Json)
  | wrongCell (table column : Text) (value : Json)
  | wrongShape
  deriving Repr

namespace DocumentError

/-- The text of the error. A document in which something else stands for a list or for the object of
a column gives none. -/
def message? : DocumentError → Option Text
  | invalidName name => some ("非法表名: ".toList ++ name.display)
  | invalidColumn column => some ("非法列定义: ".toList ++ column.display)
  | noColumns table => some ("表 ".toList ++ table ++ " 没有列".toList)
  | repeatedColumn table names =>
    some ("表 ".toList ++ table ++ " 列名重复: ".toList ++ Text.quotedList names)
  | wrongRow table row => some ("表 ".toList ++ table ++ " 行结构不符: ".toList ++ row.display)
  | wrongCell table column value =>
    some ("表 ".toList ++ table ++ " 列 ".toList ++ column ++ " 值类型不符: ".toList ++ value.display)
  | wrongShape => none

end DocumentError

def nameField : Text := "name".toList

def columnsField : Text := "columns".toList

def rowsField : Text := "rows".toList

def typeField : Text := "type".toList

namespace Column

def toDocument (c : Column) : Json :=
  .object [(nameField, .str c.name), (typeField, .str c.type.keyword)]

def ofFields? (fields : Record Json) : Option Column :=
  match fields.get? nameField, fields.get? typeField with
  | some (.str name), some (.str type) =>
    if isValidName name then (DataType.ofKeyword? type).map (⟨name, ·⟩) else none
  | _, _ => none

def ofDocument? : Json → Except DocumentError Column
  | .object fields =>
    match ofFields? fields with
    | some column => .ok column
    | none => .error (.invalidColumn (.object fields))
  | _ => .error .wrongShape

end Column

namespace Table

def toDocument (t : Table Json) : Json :=
  .object [(nameField, .str t.name),
    (columnsField, .array (t.columns.map Column.toDocument)),
    (rowsField, .array (t.rows.map Json.object))]

/-- The items of a field that should hold a list. An absent field, null, and anything zero or empty
stand for the empty list; a text gives its characters and an object its names. -/
def items? : Option Json → Option (List Json)
  | none => some []
  | some value =>
    if value.isBlankValue then some []
    else
      match value with
      | .array items => some items
      | .str t => some (t.map (fun c => .str [c]))
      | .object fields => some (fields.map (fun field => .str field.1))
      | _ => none

def columnsOf : List Json → Except DocumentError (List Column)
  | [] => .ok []
  | item :: items => do
    let column ← Column.ofDocument? item
    let columns ← columnsOf items
    return column :: columns

def cellsOf (table : Text) (fields : Record Json) : List Column → Except DocumentError (Row Value)
  | [] => .ok []
  | column :: columns => do
    let json := (fields.get? column.name).getD .null
    match column.type.value? json with
    | none => throw (.wrongCell table column.name json)
    | some value =>
      let cells ← cellsOf table fields columns
      return (column.name, value) :: cells

def sameNames (columns : List Column) (fields : Record Json) : Bool :=
  columns.all (fun column => fields.contains column.name) &&
    fields.names.all (fun name => columns.any (·.name == name))

def rowOf (table : Text) (columns : List Column) : Json → Except DocumentError (Row Value)
  | .object fields =>
    if sameNames columns fields then cellsOf table fields columns
    else .error (.wrongRow table (.object fields))
  | item => .error (.wrongRow table item)

def rowsOf (table : Text) (columns : List Column) :
    List Json → Except DocumentError (List (Row Value))
  | [] => .ok []
  | item :: items => do
    let row ← rowOf table columns item
    let rows ← rowsOf table columns items
    return row :: rows

def nameOf (fields : Record Json) : Except DocumentError Text :=
  match fields.get? nameField with
  | some (.str name) => if isValidName name then .ok name else .error (.invalidName (.str name))
  | other => .error (.invalidName (other.getD .null))

def ofDocument? (fields : Record Json) : Except DocumentError (Table Value) := do
  let name ← nameOf fields
  let some columnItems := items? (fields.get? columnsField) | throw .wrongShape
  let columns ← columnsOf columnItems
  if columns.isEmpty then throw (.noColumns name)
  let names := columns.map (·.name)
  if hasRepetition names then throw (.repeatedColumn name names)
  let some rowItems := items? (fields.get? rowsField) | throw .wrongShape
  let rows ← rowsOf name columns rowItems
  return ⟨name, columns, rows⟩

def document (t : Table Value) : Json := (t.mapCells Value.toJson).toDocument

end Table
end LineTables
