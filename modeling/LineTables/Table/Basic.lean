import LineTables.Record
import LineTables.Text.Word
import LineTables.Text.Numeral

/-!
# Tables

A table has a name, columns with a type each, and rows; a row is a record of cells. The cells of a
stored table are integers of 64 bits and texts; tables over other cells occur where a document is
put together that no table need accept.
-/

set_option autoImplicit false

namespace LineTables

inductive DataType where
  | int
  | string
  deriving DecidableEq, Repr

namespace DataType

def keyword : DataType → Text
  | int => "INT".toList
  | string => "STRING".toList

def ofKeyword? (t : Text) : Option DataType :=
  let capital := t.capitalized
  if capital = int.keyword then some int
  else if capital = string.keyword then some string
  else none

theorem ofKeyword?_keyword (type : DataType) : ofKeyword? type.keyword = some type := by
  cases type <;> decide

end DataType

def isNameChar (c : Char) : Bool := c.isAlphanum

theorem isNameChar_iff {c : Char} : isNameChar c = true ↔
    ((65 ≤ c.toNat ∧ c.toNat ≤ 90) ∨ (97 ≤ c.toNat ∧ c.toNat ≤ 122)) ∨
      (48 ≤ c.toNat ∧ c.toNat ≤ 57) := by
  change ((decide (c.val ≥ 65 ∧ c.val ≤ 90) || (c.val ≥ 97 && c.val ≤ 122)) ||
    (c.val ≥ 48 && c.val ≤ 57)) = true ↔ _
  simp only [Bool.or_eq_true, Bool.and_eq_true, decide_eq_true_eq, ge_iff_le, UInt32.le_iff_toNat_le]
  exact Iff.rfl

/-- Names of tables and columns are not empty and have ASCII letters and digits only. -/
def isValidName (t : Text) : Bool := !t.isEmpty && t.all isNameChar

structure Column where
  name : Text
  type : DataType
  deriving DecidableEq, Repr

inductive Value where
  | int (value : Int)
  | text (value : Text)
  deriving DecidableEq, Repr

namespace Value

/-- A value as rows print it and as conditions compare it. -/
def shown : Value → Text
  | int value => Text.ofInt value
  | text value => value

end Value

def inIntRange (i : Int) : Bool := -0x8000000000000000 ≤ i && i < 0x8000000000000000

abbrev Row (α : Type) := Record α

structure Table (α : Type) where
  name : Text
  columns : List Column
  rows : List (Row α)
  deriving DecidableEq, Repr

namespace Table

variable {α β : Type}

def columnNames (t : Table α) : List Text := t.columns.map (·.name)

def column? (t : Table α) (name : Text) : Option Column := t.columns.find? (·.name == name)

def mapCells (f : α → β) (t : Table α) : Table β :=
  ⟨t.name, t.columns, t.rows.map (Record.mapValues f)⟩

end Table

def hasRepetition : List Text → Bool
  | [] => false
  | name :: names => names.contains name || hasRepetition names

theorem hasRepetition_eq_false_iff {names : List Text} :
    hasRepetition names = false ↔ names.Nodup := by
  induction names with
  | nil => simp [hasRepetition]
  | cons name names ih => simp [hasRepetition, ih]

end LineTables
