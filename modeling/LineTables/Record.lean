import LineTables.Text.Basic

/-!
# Records

A record holds values under names, in the order in which the names first came. Writing under a name
that is there replaces the value in its place. JSON objects, rows and the catalogue of tables are
records; every operation is pinned down by what a look-up finds afterwards and by the names.
-/

set_option autoImplicit false

namespace LineTables

abbrev Record (α : Type) := List (Text × α)

namespace Record

variable {α β : Type}

def get? (name : Text) : Record α → Option α
  | [] => none
  | (key, value) :: rest => if key = name then some value else get? name rest

def names (r : Record α) : List Text := r.map (·.1)

def values (r : Record α) : List α := r.map (·.2)

def contains (r : Record α) (name : Text) : Bool := (r.get? name).isSome

/-- Replaces the value under a name that is there, and enters a new name at the end. -/
def put (name : Text) (value : α) : Record α → Record α
  | [] => [(name, value)]
  | (key, old) :: rest =>
    if key = name then (key, value) :: rest else (key, old) :: put name value rest

def putAll (r : Record α) (pairs : List (Text × α)) : Record α :=
  pairs.foldl (fun r pair => r.put pair.1 pair.2) r

/-- The record of the pairs: a name keeps the place of its first pair and has the value of its
last. -/
def ofPairs (pairs : List (Text × α)) : Record α := putAll [] pairs

def mapValues (f : α → β) (r : Record α) : Record β := r.map (fun pair => (pair.1, f pair.2))

theorem get?_put_self (name : Text) (value : α) (r : Record α) :
    (r.put name value).get? name = some value := by
  induction r with
  | nil => simp [put, get?]
  | cons pair rest ih =>
    obtain ⟨key, old⟩ := pair
    by_cases h : key = name <;> simp [put, get?, h, ih]

theorem get?_put_of_ne {name other : Text} (h : other ≠ name) (value : α) (r : Record α) :
    (r.put name value).get? other = r.get? other := by
  induction r with
  | nil => simp [put, get?, h.symm]
  | cons pair rest ih =>
    obtain ⟨key, old⟩ := pair
    by_cases hk : key = name
    · subst hk
      simp [put, get?, h.symm]
    · rw [put, if_neg hk, get?, get?, ih]

theorem get?_eq_none_iff {name : Text} {r : Record α} : r.get? name = none ↔ name ∉ r.names := by
  induction r with
  | nil => simp [get?, names]
  | cons pair rest ih =>
    obtain ⟨key, value⟩ := pair
    by_cases h : key = name
    · simp [get?, names, h]
    · simp only [get?, if_neg h, ih, names, List.map_cons, List.mem_cons, not_or]
      exact ⟨fun hn => ⟨Ne.symm h, hn⟩, And.right⟩

theorem isSome_get?_iff {name : Text} {r : Record α} :
    (r.get? name).isSome = true ↔ name ∈ r.names := by
  rw [← Decidable.not_iff_not, ← get?_eq_none_iff]
  simp

theorem names_put_of_mem {name : Text} {r : Record α} (h : name ∈ r.names) (value : α) :
    (r.put name value).names = r.names := by
  induction r with
  | nil => simp [names] at h
  | cons pair rest ih =>
    obtain ⟨key, old⟩ := pair
    by_cases hk : key = name
    · simp [put, names, hk]
    · have hr : name ∈ Record.names rest := by
        simpa [names, Ne.symm hk] using h
      simp only [put, if_neg hk, names, List.map_cons, List.cons.injEq, true_and]
      exact ih hr

theorem names_put_of_not_mem {name : Text} {r : Record α} (h : name ∉ r.names) (value : α) :
    (r.put name value).names = r.names ++ [name] := by
  induction r with
  | nil => rfl
  | cons pair rest ih =>
    obtain ⟨key, old⟩ := pair
    have hk : key ≠ name := by
      rintro rfl
      exact h (by simp [names])
    have hr : name ∉ Record.names rest := fun hm => h (by
      simp only [names, List.map_cons, List.mem_cons]
      exact Or.inr hm)
    simp only [put, if_neg hk, names, List.map_cons, List.cons_append, List.cons.injEq, true_and]
    exact ih hr

theorem nodup_names_put {name : Text} {r : Record α} (h : r.names.Nodup) (value : α) :
    (r.put name value).names.Nodup := by
  by_cases hm : name ∈ r.names
  · rwa [names_put_of_mem hm]
  · rw [names_put_of_not_mem hm, List.nodup_append]
    refine ⟨h, by simp, ?_⟩
    rintro a ha b hb rfl
    exact hm (by simpa [List.mem_singleton.1 hb] using ha)

theorem nodup_names_putAll {r : Record α} (h : r.names.Nodup) (pairs : List (Text × α)) :
    (r.putAll pairs).names.Nodup := by
  induction pairs generalizing r with
  | nil => exact h
  | cons pair pairs ih => exact ih (nodup_names_put h pair.2)

theorem nodup_names_ofPairs (pairs : List (Text × α)) : (ofPairs pairs).names.Nodup :=
  nodup_names_putAll (by simp [names]) pairs

end Record
end LineTables
