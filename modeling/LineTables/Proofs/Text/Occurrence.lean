import LineTables.Proofs.Text.WholeWord
import LineTables.Text.Pieces

/-!
# Occurrences of a separating text

A text is cut at the occurrences of a separator as they come from the left, so two texts with a separator
between them are cut like each of them alone, unless the end of the first one makes an occurrence together
with the beginning of the separator. A part that has not some character occurs on one side of it or on the
other.
-/

set_option autoImplicit false

namespace LineTables.Text

theorem after?_isSome_iff {part t : Text} : (after? part t).isSome = true ↔ part <+: t := by
  rw [Option.isSome_iff_exists]
  constructor
  · rintro ⟨rest, h⟩
    exact ⟨rest, (eq_append_of_after? h).symm⟩
  · rintro ⟨rest, rfl⟩
    exact ⟨rest, after?_append part rest⟩

theorem occursIn_iff {part t : Text} : occursIn part t = true ↔ part <:+: t := by
  induction t with
  | nil => simp [occursIn]
  | cons c t ih =>
    rw [occursIn, Bool.or_eq_true, after?_isSome_iff, ih, List.infix_cons_iff]

theorem occursIn_eq_false {part t : Text} (h : ¬ part <:+: t) : occursIn part t = false :=
  Bool.eq_false_iff.2 fun ho => h (occursIn_iff.1 ho)

theorem prefix_append_cons_iff {part : Text} {c : Char} (hc : c ∉ part) (t u : Text) :
    part <+: t ++ c :: u ↔ part <+: t := by
  rw [← after?_isSome_iff, after?_append_cons hc, Option.isSome_map, after?_isSome_iff]

theorem infix_append_cons_iff {part : Text} {c : Char} (hc : c ∉ part) (t u : Text) :
    part <:+: t ++ c :: u ↔ part <:+: t ∨ part <:+: u := by
  induction t with
  | nil =>
    have hhere : part <+: c :: u ↔ part = [] := by
      rw [← List.prefix_nil]
      exact prefix_append_cons_iff hc [] u
    rw [List.nil_append, List.infix_cons_iff, hhere, List.infix_nil]
  | cons d t ih =>
    have hhere : part <+: d :: (t ++ c :: u) ↔ part <+: d :: t :=
      prefix_append_cons_iff hc (d :: t) u
    rw [List.cons_append, List.infix_cons_iff, hhere, ih, List.infix_cons_iff, or_assoc]

theorem infix_append_left_iff {part left : Text} (hp : part.head? = some ' ') (hl : ' ' ∉ left)
    (t : Text) : part <:+: left ++ t ↔ part <:+: t := by
  obtain ⟨part, rfl⟩ := List.head?_eq_some_iff.1 hp
  induction left with
  | nil => exact Iff.rfl
  | cons c left ih =>
    rw [List.mem_cons, not_or] at hl
    rw [List.cons_append, List.infix_cons_iff, List.cons_prefix_cons, ih hl.2]
    simp [hl.1]

theorem infix_append_right_iff {part right : Text} (hp : part.getLast? = some ' ')
    (hr : ' ' ∉ right) (t : Text) : part <:+: t ++ right ↔ part <:+: t := by
  have hfirst : part.reverse.head? = some ' ' := by rw [List.head?_reverse, hp]
  have hreversed := infix_append_left_iff hfirst (mt List.mem_reverse.1 hr) t.reverse
  rwa [← List.reverse_append, List.reverse_infix, List.reverse_infix] at hreversed

/-- No occurrence begins in the text and reaches into a separator behind it. -/
def Clear (separator t : Text) : Prop :=
  ∀ u, u <:+ t → u ≠ [] → separator <+: u ++ separator → separator <+: u

/-- If a separator overlaps with itself in one character at most, a text has to end with all of it but the
last character to make an occurrence with it. -/
theorem clear_of_not_suffix {separator t : Text}
    (overlap : ∀ n < separator.length, 0 < n → separator.drop n <+: separator →
      n + 1 = separator.length)
    (h : ¬ separator.dropLast <:+ t) : Clear separator t := by
  intro u hu hne hover
  have hbegin : u <+: u ++ separator := List.prefix_append u separator
  rcases Nat.lt_or_ge u.length separator.length with hshort | hlong
  · obtain ⟨rest, rfl⟩ := List.prefix_of_prefix_length_le hbegin hover (Nat.le_of_lt hshort)
    have hrest : (u ++ rest).drop u.length <+: u ++ rest := by
      rw [List.drop_left]
      exact (List.prefix_append_right_inj u).1 hover
    have hlast : rest.length = 1 := by
      have hn := overlap u.length hshort (List.length_pos_iff.2 hne) hrest
      rw [List.length_append] at hn
      omega
    obtain ⟨c, rfl⟩ := List.length_eq_one_iff.1 hlast
    rw [List.dropLast_concat] at h
    exact absurd hu h
  · exact List.prefix_of_prefix_length_le hover hbegin hlong

theorem extendFirst_append (c : Char) {ps : List Text} (h : ps ≠ []) (qs : List Text) :
    extendFirst c (ps ++ qs) = extendFirst c ps ++ qs := by
  cases ps with
  | nil => exact absurd rfl h
  | cons p ps => rfl

theorem piecesSkipping_ne_nil (separator : Text) (skip : Nat) (t : Text) :
    piecesSkipping separator skip t ≠ [] := by
  induction t generalizing skip with
  | nil => cases skip <;> simp [piecesSkipping]
  | cons c t ih =>
    cases skip with
    | succ skip => exact ih skip
    | zero =>
      rw [piecesSkipping]
      split
      · simp
      · exact extendFirst_ne_nil c _

theorem piecesSkipping_length (separator part t : Text) :
    piecesSkipping separator part.length (part ++ t) = pieces separator t := by
  induction part with
  | nil => rfl
  | cons c part ih => exact ih

theorem pieces_separator {separator : Text} (hs : separator ≠ []) (t : Text) :
    pieces separator (separator ++ t) = [] :: pieces separator t := by
  obtain ⟨c, part, rfl⟩ := List.exists_cons_of_ne_nil hs
  have hhere : (after? (c :: part) (c :: (part ++ t))).isSome = true :=
    after?_isSome_iff.2 (List.prefix_append (c :: part) t)
  rw [List.cons_append, pieces, piecesSkipping, if_pos hhere]
  exact congrArg ([] :: ·) (piecesSkipping_length (c :: part) part t)

theorem piecesSkipping_append {separator t : Text} (hs : separator ≠ []) (ht : Clear separator t)
    {skip : Nat} (hskip : skip ≤ t.length) (u : Text) :
    piecesSkipping separator skip (t ++ (separator ++ u)) =
      piecesSkipping separator skip t ++ pieces separator u := by
  induction t generalizing skip with
  | nil =>
    obtain rfl : skip = 0 := Nat.le_zero.1 hskip
    exact pieces_separator hs u
  | cons c t ih =>
    have hrest : Clear separator t := fun v hv => ht v (hv.trans (List.suffix_cons c t))
    cases skip with
    | succ skip => exact ih hrest (Nat.le_of_succ_le_succ hskip)
    | zero =>
      -- An occurrence that begins here ends within the first text: it does not reach into the separator.
      have hhere : separator <+: c :: (t ++ (separator ++ u)) ↔ separator <+: c :: t := by
        constructor
        · intro h
          have hjoint : c :: t ++ separator <+: c :: (t ++ (separator ++ u)) :=
            ⟨u, by simp⟩
          exact ht _ (List.suffix_refl _) (List.cons_ne_nil c t)
            (List.prefix_of_prefix_length_le h hjoint (by simp; omega))
        · intro h
          exact h.trans (List.prefix_append (c :: t) (separator ++ u))
      rw [List.cons_append, piecesSkipping, piecesSkipping]
      by_cases h : separator <+: c :: t
      · have hlength : separator.length - 1 ≤ t.length := by
          have hle := h.length_le
          rw [List.length_cons] at hle
          omega
        rw [if_pos (after?_isSome_iff.2 (hhere.2 h)), if_pos (after?_isSome_iff.2 h),
          ih hrest hlength, List.cons_append]
      · rw [if_neg fun hs => h (hhere.1 (after?_isSome_iff.1 hs)),
          if_neg fun hs => h (after?_isSome_iff.1 hs), ih hrest (Nat.zero_le _),
          extendFirst_append c (piecesSkipping_ne_nil separator 0 t)]

theorem pieces_append {separator t : Text} (hs : separator ≠ []) (ht : Clear separator t) (u : Text) :
    pieces separator (t ++ separator ++ u) = pieces separator t ++ pieces separator u := by
  rw [List.append_assoc]
  exact piecesSkipping_append hs ht (Nat.zero_le _) u

theorem pieces_eq_singleton {separator t : Text} (h : ¬ separator <:+: t) :
    pieces separator t = [t] := by
  induction t with
  | nil => rfl
  | cons c t ih =>
    rw [List.infix_cons_iff, not_or] at h
    rw [pieces, piecesSkipping, if_neg fun hs => h.1 (after?_isSome_iff.1 hs), ← pieces, ih h.2,
      extendFirst]

theorem pieces_joined {separator : Text} {parts : List Text} (hs : separator ≠ [])
    (hne : parts ≠ []) (h : ∀ part ∈ parts, ¬ separator <:+: part ∧ Clear separator part) :
    pieces separator (joined separator parts) = parts := by
  induction parts with
  | nil => exact absurd rfl hne
  | cons part parts ih =>
    obtain ⟨hpart, hclear⟩ := h part List.mem_cons_self
    by_cases hp : parts = []
    · rw [hp]
      exact pieces_eq_singleton hpart
    · rw [joined_cons _ _ hp, pieces_append hs hclear, pieces_eq_singleton hpart,
        ih hp fun p hm => h p (List.mem_cons_of_mem part hm)]
      rfl

end LineTables.Text
