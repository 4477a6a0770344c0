import LineTables.Table.Basic

/-!
# The catalogue of tables

The catalogue keeps tables under their names, in the order in which the names came. A table enters
under a new name only, changes its rows in its place, and leaves together with all others: the
catalogue counts how often it was emptied, and a table found earlier is still the one under its name
exactly when that count is the same.
-/

set_option autoImplicit false

namespace LineTables

structure Catalog (α : Type) where
  entries : Record (Table α)
  generation : Nat

inductive CatalogError where
  | tableExists (name : Text)
  | tableNotFound (name : Text)
  deriving DecidableEq, Repr

namespace CatalogError

def message : CatalogError → Text
  | tableExists name => "表已存在: ".toList ++ name
  | tableNotFound name => "表不存在: ".toList ++ name

end CatalogError

namespace Catalog

variable {α : Type}

def empty : Catalog α := ⟨[], 0⟩

/-- Of two tables of one name the later one stays, in the place of the first. -/
def ofTables (tables : List (Table α)) : Catalog α :=
  ⟨Record.ofPairs (tables.map (fun t => (t.name, t))), 0⟩

def get? (c : Catalog α) (name : Text) : Option (Table α) := c.entries.get? name

def contains (c : Catalog α) (name : Text) : Bool := c.entries.contains name

def size (c : Catalog α) : Nat := c.entries.length

def tables (c : Catalog α) : List (Table α) := c.entries.values

def names (c : Catalog α) : List Text := Text.sorted c.entries.names

def require (c : Catalog α) (name : Text) : Except CatalogError (Table α) :=
  match c.get? name with
  | some t => .ok t
  | none => .error (.tableNotFound name)

def add (c : Catalog α) (t : Table α) : Except CatalogError (Catalog α) :=
  if c.contains t.name then .error (.tableExists t.name)
  else .ok { c with entries := c.entries.put t.name t }

def update (c : Catalog α) (t : Table α) : Catalog α :=
  { c with entries := c.entries.put t.name t }

def clear (c : Catalog α) : Catalog α := ⟨[], c.generation + 1⟩

theorem get?_update_self (c : Catalog α) (t : Table α) : (c.update t).get? t.name = some t :=
  Record.get?_put_self t.name t c.entries

theorem get?_update_of_ne (c : Catalog α) {t : Table α} {name : Text} (h : name ≠ t.name) :
    (c.update t).get? name = c.get? name :=
  Record.get?_put_of_ne h t c.entries

theorem names_perm (c : Catalog α) : c.names.Perm c.entries.names := Text.sorted_perm _

end Catalog
end LineTables
