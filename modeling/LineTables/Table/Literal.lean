import LineTables.Table.Basic
import LineTables.Text.Quoted

/-!
# Literals

What a statement gives for a cell is read by the type of its column: a numeral within 64 bits for an
integer, and the characters between a first and a last double quote for a text. There is no escape:
whatever stands between the two quotes is the text, further quotes included.
-/

set_option autoImplicit false

namespace LineTables

inductive LiteralError where
  | notInteger (column token : Text)
  | outOfRange (column token : Text)
  | notQuoted (column token : Text)
  | tooManyDigits
  deriving DecidableEq, Repr

namespace LiteralError

def message : LiteralError → Text
  | notInteger column token =>
    "列 ".toList ++ column ++ " 应为INT: ".toList ++ Text.quoted token
  | outOfRange column token => "列 ".toList ++ column ++ " 超出INT范围: ".toList ++ token
  | notQuoted column token =>
    "列 ".toList ++ column ++ " 应为带双引号的STRING: ".toList ++ Text.quoted token
  | tooManyDigits => "INT字面量位数过多".toList

end LiteralError

/-- The text between a first and a last double quote. -/
def unquoted? : Text → Option Text
  | '"' :: rest => if rest.getLast? = some '"' then some rest.dropLast else none
  | _ => none

def inQuotes (t : Text) : Text := '"' :: t ++ ['"']

theorem unquoted?_inQuotes (t : Text) : unquoted? (inQuotes t) = some t := by
  simp [unquoted?, inQuotes]

theorem eq_inQuotes_of_unquoted? {token t : Text} (h : unquoted? token = some t) :
    token = inQuotes t := by
  rw [unquoted?.eq_def] at h
  split at h
  case h_1 rest =>
    split at h
    case isTrue hlast =>
      obtain ⟨init, rfl⟩ := List.getLast?_eq_some_iff.1 hlast
      rw [List.dropLast_concat, Option.some.injEq] at h
      rw [h]
      rfl
    case isFalse => simp at h
  case h_2 => simp at h

namespace Column

def literal? (column : Column) (token : Text) : Except LiteralError Value :=
  match column.type with
  | .int =>
    match Text.numeral? token with
    | none => .error (.notInteger column.name token)
    | some numeral =>
      if numeral.tooLong then .error .tooManyDigits
      else if inIntRange numeral.value then .ok (.int numeral.value)
      else .error (.outOfRange column.name token)
  | .string =>
    match unquoted? token with
    | some t => .ok (.text t)
    | none => .error (.notQuoted column.name token)

end Column

namespace Value

def literal : Value → Text
  | int value => Text.ofInt value
  | text value => inQuotes value

end Value
end LineTables
