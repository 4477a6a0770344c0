import LineTables.Text.Basic

/-!
# Chains of checks

A reader that checks one thing after the other succeeds exactly if every check does. These rules take
such a chain apart from the front, with the result of each check named.
-/

set_option autoImplicit false

namespace LineTables.Checks

variable {ε α β : Type}

theorem bind_ok_iff {x : Except ε α} {f : α → Except ε β} {b : β} :
    (x >>= f) = .ok b ↔ ∃ a, x = .ok a ∧ f a = .ok b := by
  cases x with
  | error e =>
    constructor
    · intro h
      cases h
    · rintro ⟨a, ha, -⟩
      cases ha
  | ok a =>
    constructor
    · intro h
      exact ⟨a, rfl, h⟩
    · rintro ⟨a', ha, h⟩
      cases ha
      exact h

theorem pure_ok_iff {a b : α} : (pure a : Except ε α) = .ok b ↔ a = b := by
  constructor
  · intro h
    exact Except.ok.inj h
  · rintro rfl
    rfl

theorem mapError_ok_iff {δ : Type} {x : Except ε α} {f : ε → δ} {a : α} :
    x.mapError f = .ok a ↔ x = .ok a := by
  cases x with
  | error e => exact ⟨nofun, nofun⟩
  | ok b =>
    constructor
    · intro h
      cases h
      rfl
    · rintro ⟨⟩
      rfl

theorem mapError_error_iff {δ : Type} {x : Except ε α} {f : ε → δ} {e : δ} :
    x.mapError f = .error e ↔ ∃ cause, x = .error cause ∧ f cause = e := by
  cases x with
  | error cause =>
    constructor
    · rintro ⟨⟩
      exact ⟨cause, rfl, rfl⟩
    · rintro ⟨_, ⟨⟩, rfl⟩
      rfl
  | ok a =>
    constructor
    · intro h
      cases h
    · rintro ⟨_, ⟨⟩, -⟩

theorem map_ok_iff {x : Except ε α} {f : α → β} {b : β} :
    x.map f = .ok b ↔ ∃ a, x = .ok a ∧ f a = b := by
  cases x with
  | error e =>
    constructor
    · intro h
      cases h
    · rintro ⟨_, ⟨⟩, -⟩
  | ok a =>
    constructor
    · rintro ⟨⟩
      exact ⟨a, rfl, rfl⟩
    · rintro ⟨_, ⟨⟩, rfl⟩
      rfl

theorem map_error_iff {x : Except ε α} {f : α → β} {e : ε} :
    x.map f = .error e ↔ x = .error e := by
  cases x with
  | error cause =>
    constructor
    · rintro ⟨⟩
      rfl
    · rintro ⟨⟩
      rfl
  | ok a =>
    constructor
    · intro h
      cases h
    · intro h
      cases h

theorem guard_ok_iff {p : Prop} [Decidable p] {e : ε} {f : α → Except ε β}
    {g : Except ε β} {b : β} :
    (if p then (throw e >>= f) else g) = .ok b ↔ ¬p ∧ g = .ok b := by
  by_cases hp : p
  · rw [if_pos hp]
    constructor
    · intro h
      cases h
    · intro h
      exact absurd hp h.1
  · rw [if_neg hp]
    exact ⟨fun h => ⟨hp, h⟩, And.right⟩

theorem mapM_cons_ok_iff {f : α → Except ε β} {item : α} {items : List α} {results : List β} :
    (item :: items).mapM f = .ok results ↔
      ∃ result rest, f item = .ok result ∧ items.mapM f = .ok rest ∧ results = result :: rest := by
  simp only [List.mapM_cons, bind_ok_iff, pure_ok_iff]
  constructor
  · rintro ⟨result, hfirst, rest, hrest, rfl⟩
    exact ⟨result, rest, hfirst, hrest, rfl⟩
  · rintro ⟨result, rest, hfirst, hrest, rfl⟩
    exact ⟨result, hfirst, rest, hrest, rfl⟩

theorem mapM_append_ok_iff {f : α → Except ε β} {items more : List α} {results : List β} :
    (items ++ more).mapM f = .ok results ↔
      ∃ first rest, items.mapM f = .ok first ∧ more.mapM f = .ok rest ∧ results = first ++ rest := by
  simp only [List.mapM_append, bind_ok_iff, pure_ok_iff]
  constructor
  · rintro ⟨first, hfirst, rest, hrest, rfl⟩
    exact ⟨first, rest, hfirst, hrest, rfl⟩
  · rintro ⟨first, rest, hfirst, hrest, rfl⟩
    exact ⟨first, hfirst, rest, hrest, rfl⟩

theorem mapM_error_iff {f : α → Except ε β} {items : List α} {e : ε} :
    items.mapM f = .error e ↔ ∃ before item after, items = before ++ item :: after ∧
      (∀ earlier ∈ before, ∃ result, f earlier = .ok result) ∧ f item = .error e := by
  induction items with
  | nil =>
    constructor
    · intro h
      cases h
    · rintro ⟨before, item, after, hsplit, -⟩
      simp at hsplit
  | cons first items ih =>
    rw [List.mapM_cons]
    constructor
    · intro h
      cases hfirst : f first with
      | error cause =>
        rw [hfirst] at h
        cases h
        exact ⟨[], first, items, rfl, by simp, hfirst⟩
      | ok result =>
        cases hrest : items.mapM f with
        | ok results =>
          rw [hfirst, hrest] at h
          cases h
        | error cause =>
          rw [hfirst, hrest] at h
          cases h
          obtain ⟨before, item, after, rfl, haccepted, hfails⟩ := ih.1 hrest
          refine ⟨first :: before, item, after, rfl, ?_, hfails⟩
          exact List.forall_mem_cons.2 ⟨⟨result, hfirst⟩, haccepted⟩
    · rintro ⟨before, item, after, hsplit, haccepted, hfails⟩
      cases before with
      | nil =>
        cases hsplit
        rw [hfails]
        rfl
      | cons other before =>
        cases hsplit
        obtain ⟨⟨result, hfirst⟩, haccepted⟩ := List.forall_mem_cons.1 haccepted
        rw [hfirst, ih.2 ⟨before, item, after, rfl, haccepted, hfails⟩]
        rfl

end LineTables.Checks
