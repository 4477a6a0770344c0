import LineTables.Table.Basic
import LineTables.Text.Pieces

/-!
# Conditions

A condition compares columns with literals for equality. Comparisons are joined all by ` AND ` or all
by ` OR `; where both occur only ` AND ` joins. A value is compared by its shown text with the
literal freed of all double quotes. A comparison that is not well formed never holds, nor does one
with a column that the row has not.
-/

set_option autoImplicit false

namespace LineTables

namespace Condition

structure Term where
  column : Text
  literal : Text
  deriving DecidableEq, Repr

inductive Joint where
  | all
  | any
  | single
  deriving DecidableEq, Repr

namespace Joint

def andSeparator : Text := " AND ".toList

def orSeparator : Text := " OR ".toList

end Joint

namespace Term

def ofText? (t : Text) : Option Term :=
  match t.cutAt '=' with
  | [column, literal] =>
    let literal := literal.trim
    if literal.isEmpty then none else some ⟨column.trim, literal.filter (· != '"')⟩
  | _ => none

def holds (term : Term) (row : Row Value) : Bool :=
  match row.get? term.column with
  | some value => value.shown == term.literal
  | none => false

end Term
end Condition

/-- Comparisons under one joint; `none` is a comparison that is not well formed. -/
structure Condition where
  joint : Condition.Joint
  terms : List (Option Condition.Term)
  deriving DecidableEq, Repr

namespace Condition

def ofText (t : Text) : Condition :=
  if Text.occursIn Joint.andSeparator t then
    ⟨.all, (Text.pieces Joint.andSeparator t).map (fun piece => Term.ofText? piece.trim)⟩
  else if Text.occursIn Joint.orSeparator t then
    ⟨.any, (Text.pieces Joint.orSeparator t).map (fun piece => Term.ofText? piece.trim)⟩
  else ⟨.single, [Term.ofText? t.trim]⟩

def termHolds (row : Row Value) : Option Term → Bool
  | some term => term.holds row
  | none => false

def holds (condition : Condition) (row : Row Value) : Bool :=
  match condition.joint with
  | .any => condition.terms.any (termHolds row)
  | .all | .single => condition.terms.all (termHolds row)

def holdsFor (t : Text) (row : Row Value) : Bool := (ofText t).holds row

end Condition
end LineTables
