import LineTables.Proofs.Record
import LineTables.Proofs.Table.WellFormed
import LineTables.Proofs.Text.Cutting

/-!
# Printed rows

A row that fits its columns is printed with all its cells, in the order of the columns, and no cell of
columns that its table has is missing. Whatever columns are asked for, a line that is printed shows a cell,
and so has a colon in it.
-/

set_option autoImplicit false

namespace LineTables

namespace Row

theorem printedCells_total {row : Row Value} {names : List Text} (h : ∀ name ∈ names, name ∈ row.names) :
    ∃ cells, printedCells row names = .ok cells := by
  induction names with
  | nil => exact ⟨[], rfl⟩
  | cons name names ih =>
    obtain ⟨hname, hnames⟩ := List.forall_mem_cons.1 h
    obtain ⟨value, hvalue⟩ := Option.isSome_iff_exists.1 (Record.isSome_get?_iff.2 hname)
    obtain ⟨cells, hcells⟩ := ih hnames
    rw [printedCells, hvalue]
    dsimp only
    rw [hcells]
    exact ⟨_, rfl⟩

end Row

namespace Table

def matching (t : Table Value) : Option Condition → List (Row Value)
  | some condition => t.rows.filter condition.holds
  | none => t.rows

theorem mem_of_mem_matching {t : Table Value} {condition : Option Condition} {row : Row Value}
    (h : row ∈ t.matching condition) : row ∈ t.rows := by
  cases condition with
  | some condition => exact (List.mem_filter.1 h).1
  | none => exact h

theorem print_eq (t : Table Value) (columns : List Text) (condition : Option Condition) :
    t.print columns condition =
      if (t.matching condition).isEmpty then .ok .noRows
      else (printedRows columns (t.matching condition)).map .rows := by
  cases condition <;> rfl

theorem printedRows_total {columns : List Text} {rows : List (Row Value)}
    (h : ∀ row ∈ rows, ∀ name ∈ columns, name ∈ row.names) :
    ∃ lines, printedRows columns rows = .ok lines := by
  induction rows with
  | nil => exact ⟨[], rfl⟩
  | cons row rows ih =>
    obtain ⟨hrow, hrows⟩ := List.forall_mem_cons.1 h
    obtain ⟨cells, hcells⟩ := Row.printedCells_total hrow
    obtain ⟨lines, hlines⟩ := ih hrows
    rw [printedRows, hcells, hlines]
    exact ⟨_, rfl⟩

theorem print_total {t : Table Value} (ht : t.WellFormed) {columns : List Text}
    (h : ∀ name ∈ columns, name ∈ t.columnNames) (condition : Option Condition) :
    ∃ reply, t.print columns condition = .ok reply := by
  have hcells : ∀ row ∈ t.matching condition, ∀ name ∈ columns, name ∈ row.names := by
    intro row hrow name hname
    rw [Row.fits_names (ht.rows row (mem_of_mem_matching hrow))]
    exact h name hname
  obtain ⟨lines, hlines⟩ := printedRows_total hcells
  rw [print_eq, hlines]
  split
  · exact ⟨.noRows, rfl⟩
  · exact ⟨.rows lines, rfl⟩

end Table
end LineTables
