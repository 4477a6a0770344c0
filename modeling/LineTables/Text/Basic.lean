/-!
# Text

Commands, names, literals, files and answers are lists of characters. The functions here join texts
and compare their beginnings; order is by code point, as the order of lists of characters is. A class of
characters is given by an ascending list of ranges of code points, both ends included.
-/

set_option autoImplicit false

namespace LineTables

abbrev Text := List Char

namespace Text

def joined (separator : Text) : List Text → Text
  | [] => []
  | [part] => part
  | part :: next :: rest => part ++ separator ++ joined separator (next :: rest)

theorem joined_cons (separator part : Text) {rest : List Text} (h : rest ≠ []) :
    joined separator (part :: rest) = part ++ separator ++ joined separator rest := by
  cases rest with
  | nil => exact absurd rfl h
  | cons next rest => rfl

def after? : Text → Text → Option Text
  | [], t => some t
  | _ :: _, [] => none
  | a :: beginning, c :: t => if a = c then after? beginning t else none

theorem after?_append (beginning t : Text) : after? beginning (beginning ++ t) = some t := by
  induction beginning with
  | nil => rfl
  | cons a beginning ih => simp [after?, ih]

theorem eq_append_of_after? {beginning t rest : Text} (h : after? beginning t = some rest) :
    t = beginning ++ rest := by
  induction beginning generalizing t with
  | nil => simpa [after?] using h
  | cons a beginning ih =>
    cases t with
    | nil => simp [after?] at h
    | cons c t =>
      by_cases hac : a = c
      · rw [after?, if_pos hac] at h
        rw [hac, ih h, List.cons_append]
      · simp [after?, hac] at h

theorem after?_eq_some_iff {beginning t rest : Text} :
    after? beginning t = some rest ↔ t = beginning ++ rest :=
  ⟨eq_append_of_after?, fun h => h ▸ after?_append beginning rest⟩

theorem lt_of_append_lt {beginning t u : Text} (h : beginning ++ t < beginning ++ u) : t < u := by
  induction beginning with
  | nil => exact h
  | cons a beginning ih =>
    rcases List.cons_lt_cons_iff.1 h with h | ⟨-, h⟩
    · exact absurd h (Char.lt_irrefl a)
    · exact ih h

def occursIn (part : Text) : Text → Bool
  | [] => part.isEmpty
  | c :: t => (after? part (c :: t)).isSome || occursIn part t

theorem gt_of_not_lt_of_ne {t u : Text} (h : ¬t < u) (hne : t ≠ u) : u < t :=
  Decidable.not_not.1 fun hn => hne (List.le_antisymm (List.not_lt.1 hn) (List.not_lt.1 h))

def inRanges : List (Nat × Nat) → Nat → Bool
  | [], _ => false
  | (first, last) :: rest, n =>
    if n < first then false else if n ≤ last then true else inRanges rest n

def insertSorted (t : Text) : List Text → List Text
  | [] => [t]
  | u :: rest => if u < t then u :: insertSorted t rest else t :: u :: rest

def sorted : List Text → List Text
  | [] => []
  | t :: rest => insertSorted t (sorted rest)

theorem insertSorted_perm (t : Text) (ts : List Text) : (insertSorted t ts).Perm (t :: ts) := by
  induction ts with
  | nil => exact .refl _
  | cons u ts ih =>
    by_cases h : u < t
    · rw [insertSorted, if_pos h]
      exact (ih.cons u).trans (.swap t u ts)
    · rw [insertSorted, if_neg h]

theorem sorted_perm (ts : List Text) : (sorted ts).Perm ts := by
  induction ts with
  | nil => exact .refl _
  | cons t ts ih => exact (insertSorted_perm t (sorted ts)).trans (ih.cons t)

end Text
end LineTables
