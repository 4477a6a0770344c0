import LineTables.Binary64
import LineTables.Record
import LineTables.Text.Quoted

/-!
# JSON values

A table file holds one JSON value. Integers are unbounded and differ from numbers with a fraction or
an exponent; the fields of an object keep the order of the file.

A value is written on one line: a comma and a blank between neighbours, a colon and a blank after a name.
In strings the quote, the backslash and the control characters below U+0020 are escaped, five of these by a
letter and the others by four hexadecimal digits; every other character stands for itself. Messages show a
value in full: texts in quoted display, the constants by their names, and the fields of an object in the
order of the document.
-/

set_option autoImplicit false

namespace LineTables

inductive Json where
  | null
  | bool (value : Bool)
  | int (value : Int)
  | float (value : Binary64)
  | str (value : Text)
  | array (items : List Json)
  | object (fields : List (Text × Json))
  deriving Repr

namespace Json

/-- Null, false, zero and whatever is empty count as absent. -/
def isBlankValue : Json → Bool
  | null => true
  | bool value => !value
  | int value => value == 0
  | float value => value.isZero
  | str value => value.isEmpty
  | array items => items.isEmpty
  | object fields => fields.isEmpty

mutual

def display : Json → Text
  | null => "None".toList
  | bool value => if value then "True".toList else "False".toList
  | int value => Text.ofInt value
  | float value => value.display
  | str value => Text.quoted value
  | array items => Text.bracketed (displayItems items)
  | object fields => '\x7b' :: Text.joined ", ".toList (displayFields fields) ++ ['\x7d']

def displayItems : List Json → List Text
  | [] => []
  | item :: items => display item :: displayItems items

def displayFields : List (Text × Json) → List Text
  | [] => []
  | (name, value) :: fields =>
    (Text.quoted name ++ ": ".toList ++ display value) :: displayFields fields

end

def writtenChar : Char → Text
  | '"' => ['\\', '"']
  | '\\' => ['\\', '\\']
  | '\n' => ['\\', 'n']
  | '\r' => ['\\', 'r']
  | '\t' => ['\\', 't']
  | '\x08' => ['\\', 'b']
  | '\x0c' => ['\\', 'f']
  | c => if c.toNat < 0x20 then '\\' :: 'u' :: Text.hexadecimal 4 c.toNat else [c]

def writtenString (t : Text) : Text := '"' :: t.flatMap writtenChar ++ ['"']

def writtenFloat : Binary64 → Text
  | .nan => "NaN".toList
  | .infinite negative => if negative then "-Infinity".toList else "Infinity".toList
  | f => f.display

mutual

def written : Json → Text
  | null => "null".toList
  | bool value => if value then "true".toList else "false".toList
  | int value => Text.ofInt value
  | float value => writtenFloat value
  | str value => writtenString value
  | array items => '[' :: Text.joined ", ".toList (writtenItems items) ++ [']']
  | object fields => '{' :: Text.joined ", ".toList (writtenFields fields) ++ ['}']

def writtenItems : List Json → List Text
  | [] => []
  | item :: items => written item :: writtenItems items

def writtenFields : List (Text × Json) → List Text
  | [] => []
  | (name, value) :: fields =>
    (writtenString name ++ ": ".toList ++ written value) :: writtenFields fields

end

end Json
end LineTables
