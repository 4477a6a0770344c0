import LineTables.Text.Blank

/-!
# Blanks at the ends of a text

Trimming is determined by the first and the last character that is not blank. A solid text begins and
ends with such characters: trimming leaves it alone, also between blanks, and any text between two
solid ones is solid with them.
-/

set_option autoImplicit false

namespace LineTables.Text

theorem trimEnd_of_all_blank {t : Text} (h : t.all isBlank = true) : trimEnd t = [] :=
  trimEnd_eq_nil_iff.2 h

theorem trimEnd_append {t blanks : Text} (h : blanks.all isBlank = true) :
    trimEnd (t ++ blanks) = trimEnd t := by
  induction t with
  | nil => exact trimEnd_of_all_blank h
  | cons c t ih => rw [List.cons_append, trimEnd_cons, trimEnd_cons, ih]

theorem trimEnd_append_cons {c : Char} (h : isBlank c = false) (t u : Text) :
    trimEnd (t ++ c :: u) = t ++ c :: trimEnd u := by
  induction t with
  | nil =>
    rw [List.nil_append, trimEnd_cons, h]
    rfl
  | cons d t ih =>
    rw [List.cons_append, trimEnd_cons, ih]
    simp

theorem trimEnd_concat {t : Text} {c : Char} (h : isBlank c = false) :
    trimEnd (t ++ [c]) = t ++ [c] :=
  trimEnd_append_cons h t []

theorem trimStart_append {blanks t : Text} (h : blanks.all isBlank = true) :
    trimStart (blanks ++ t) = trimStart t := by
  induction blanks with
  | nil => rfl
  | cons c blanks ih =>
    simp only [List.all_cons, Bool.and_eq_true] at h
    rw [trimStart, List.cons_append, List.dropWhile_cons_of_pos h.1]
    exact ih h.2

theorem trimStart_cons {t : Text} {c : Char} (h : isBlank c = false) :
    trimStart (c :: t) = c :: t := by
  rw [trimStart, List.dropWhile_cons_of_neg (by simp [h])]

theorem trim_between_blanks (t : Text) :
    ∃ left right : Text, left.all isBlank = true ∧ right.all isBlank = true ∧
      t = left ++ trim t ++ right := by
  obtain ⟨left, hl, ht⟩ := trimStart_append_blanks t
  obtain ⟨right, hr, hs⟩ := trimEnd_append_blanks (trimStart t)
  refine ⟨left, right, hl, hr, ?_⟩
  rw [List.append_assoc, trim, ← hs]
  exact ht

/-- Neither the first nor the last character is blank, and there is one. -/
def Solid (t : Text) : Prop :=
  (∃ c rest, t = c :: rest ∧ isBlank c = false) ∧ ∃ rest c, t = rest ++ [c] ∧ isBlank c = false

namespace Solid

theorem ne_nil {t : Text} (h : Solid t) : t ≠ [] := by
  obtain ⟨⟨c, rest, rfl, -⟩, -⟩ := h
  simp

theorem trimStart_eq {t : Text} (h : Solid t) (rest : Text) :
    trimStart (t ++ rest) = t ++ rest := by
  obtain ⟨⟨c, u, rfl, hc⟩, -⟩ := h
  exact trimStart_cons hc

theorem trim_eq {t : Text} (h : Solid t) : trim t = t := by
  have hstart := h.trimStart_eq []
  rw [List.append_nil] at hstart
  rw [trim, hstart]
  obtain ⟨-, rest, c, rfl, hc⟩ := h
  exact trimEnd_concat hc

theorem append {t u : Text} (ht : Solid t) (between : Text) (hu : Solid u) :
    Solid (t ++ between ++ u) := by
  obtain ⟨⟨c, rest, rfl, hc⟩, -⟩ := ht
  obtain ⟨-, init, d, rfl, hd⟩ := hu
  exact ⟨⟨c, rest ++ between ++ (init ++ [d]), by simp, hc⟩,
    c :: rest ++ between ++ init, d, by simp, hd⟩

theorem of_all {t : Text} (hne : t ≠ []) (h : ∀ c ∈ t, isBlank c = false) : Solid t := by
  constructor
  · cases t with
    | nil => exact absurd rfl hne
    | cons c rest => exact ⟨c, rest, rfl, h c List.mem_cons_self⟩
  · refine ⟨t.dropLast, t.getLast hne, (List.dropLast_concat_getLast hne).symm, ?_⟩
    exact h _ (List.getLast_mem hne)

end Solid

theorem trimEnd_last {t : Text} (h : trimEnd t ≠ []) :
    ∃ rest c, trimEnd t = rest ++ [c] ∧ isBlank c = false := by
  induction t with
  | nil => exact absurd rfl h
  | cons d t ih =>
    rw [trimEnd_cons] at h ⊢
    by_cases ht : trimEnd t = []
    · cases hd : isBlank d with
      | true => simp [ht, hd] at h
      | false => exact ⟨[], d, by simp [ht], hd⟩
    · obtain ⟨rest, c, hrest, hc⟩ := ih ht
      exact ⟨d :: rest, c, by simp [hrest], hc⟩

theorem trim_solid {t : Text} (h : trim t ≠ []) : Solid (trim t) := by
  refine ⟨?_, trimEnd_last h⟩
  rw [trim] at h ⊢
  have hfirst := List.head?_dropWhile_not isBlank t
  rw [← trimStart] at hfirst
  cases hs : trimStart t with
  | nil => simp [hs, trimEnd] at h
  | cons c rest =>
    have hc : isBlank c = false := by simpa [hs] using hfirst
    refine ⟨c, trimEnd rest, ?_, hc⟩
    rw [trimEnd_cons, hc]
    rfl

theorem trim_append_left {left : Text} (h : left.all isBlank = true) (t : Text) :
    trim (left ++ t) = trim t := by
  rw [trim, trimStart_append h, trim]

theorem trim_append_right {right : Text} (h : right.all isBlank = true) (t : Text) :
    trim (t ++ right) = trim t := by
  induction t with
  | nil =>
    have hr := trimStart_append (t := []) h
    rw [List.append_nil] at hr
    rw [List.nil_append, trim, hr, trim]
  | cons c t ih =>
    cases hc : isBlank c with
    | true =>
      have hleft : [c].all isBlank = true := by simp [hc]
      have hwith := trim_append_left hleft (t ++ right)
      have halone := trim_append_left hleft t
      simp only [List.singleton_append] at hwith halone
      rw [List.cons_append, hwith, halone, ih]
    | false =>
      rw [trim, trim, List.cons_append, trimStart_cons hc, trimStart_cons hc, ← List.cons_append,
        trimEnd_append h]

theorem trim_trimEnd (t : Text) : trim (trimEnd t) = trim t := by
  obtain ⟨blanks, hblanks, ht⟩ := trimEnd_append_blanks t
  have happ := trim_append_right hblanks (trimEnd t)
  rwa [← ht, eq_comm] at happ

theorem trim_cons_blank (t : Text) : trim (' ' :: t) = trim t :=
  trim_append_left (by decide : [' '].all isBlank = true) t

theorem trim_concat_blank (t : Text) : trim (t ++ [' ']) = trim t :=
  trim_append_right (by decide) t

theorem trim_trim (t : Text) : trim (trim t) = trim t := by
  by_cases h : trim t = []
  · rw [h]
    rfl
  · exact (trim_solid h).trim_eq

theorem solid_of_trim_eq {t : Text} (h : trim t = t) (hne : t ≠ []) : Solid t := by
  rw [← h] at hne ⊢
  exact trim_solid hne

end LineTables.Text
