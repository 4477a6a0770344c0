import LineTables.Proofs.Text.Trimming
import LineTables.Statement.Writer
import LineTables.Text.Pieces

/-!
# Lists written with commas and blanks

A written list has a comma and a blank between its parts. Cutting it at commas leaves the blanks with
the parts, so a reader that does not mind a blank in front of a part reads back what was written. Runs
are read back without further ado, since the blanks part them too.
-/

set_option autoImplicit false

namespace LineTables.Text

theorem mem_of_mem_joined {separator : Text} {parts : List Text} {c : Char}
    (h : c ∈ joined separator parts) : c ∈ separator ∨ ∃ part ∈ parts, c ∈ part := by
  induction parts with
  | nil => cases h
  | cons first parts ih =>
    by_cases hnil : parts = []
    · rw [hnil] at h
      exact Or.inr ⟨first, List.mem_cons_self, h⟩
    · rw [joined_cons _ _ hnil, List.mem_append, List.mem_append] at h
      rcases h with (h | h) | h
      · exact Or.inr ⟨first, List.mem_cons_self, h⟩
      · exact Or.inl h
      · rcases ih h with h | ⟨part, hm, hc⟩
        · exact Or.inl h
        · exact Or.inr ⟨part, List.mem_cons_of_mem first hm, hc⟩

theorem commaSeparated_cons (part : Text) {parts : List Text} (h : parts ≠ []) :
    commaSeparated (part :: parts) = part ++ ',' :: ' ' :: commaSeparated parts := by
  rw [commaSeparated, joined_cons _ _ h, List.append_assoc]
  rfl

theorem cutWhere_cons {separates : Char → Bool} {c : Char} (h : separates c = false) (t : Text) :
    cutWhere separates (c :: t) = extendFirst c (cutWhere separates t) := by
  rw [cutWhere, if_neg (by simp [h])]

theorem not_separates {separator : Char} {t : Text} (h : separator ∉ t) :
    ∀ c ∈ t, (c == separator) = false := by
  intro c hc
  rw [beq_eq_false_iff_ne]
  rintro rfl
  exact h hc

theorem cutAt_commaSeparated {parts : List Text} (h : ∀ part ∈ parts, ',' ∉ part) :
    ∀ part, ',' ∉ part → cutAt ',' (commaSeparated (part :: parts)) =
      part :: parts.map (fun p => ' ' :: p) := by
  induction parts with
  | nil =>
    intro part hp
    exact cutWhere_eq_singleton (not_separates hp)
  | cons next parts ih =>
    intro part hp
    have hnext := ih (fun p hm => h p (List.mem_cons_of_mem next hm)) next (h next List.mem_cons_self)
    rw [commaSeparated_cons part (by simp), cutAt,
      cutWhere_append_cons (not_separates hp) rfl, cutWhere_cons rfl, ← cutAt, hnext]
    rfl

theorem map_cutAt_commaSeparated {β : Type} {parts : List Text} (hne : parts ≠ [])
    (h : ∀ part ∈ parts, ',' ∉ part) (f : Text → β) (hf : ∀ part, f (' ' :: part) = f part) :
    (cutAt ',' (commaSeparated parts)).map f = parts.map f := by
  cases parts with
  | nil => exact absurd rfl hne
  | cons part parts =>
    rw [cutAt_commaSeparated (fun p hm => h p (List.mem_cons_of_mem part hm)) part
      (h part List.mem_cons_self)]
    simp [hf]

theorem length_cutAt (separator : Char) (t : Text) :
    (cutAt separator t).length = t.count separator + 1 := by
  induction t with
  | nil => rfl
  | cons c t ih =>
    by_cases hc : c = separator
    · rw [hc, cutAt, cutWhere, if_pos (beq_self_eq_true separator), ← cutAt, List.length_cons, ih,
        List.count_cons_self]
    · rw [cutAt, cutWhere_cons (by simpa using hc), ← cutAt, List.count_cons_of_ne hc, ← ih]
      cases h : cutAt separator t with
      | nil => exact absurd h (cutWhere_ne_nil _ t)
      | cons piece pieces => rfl

theorem cutWhere_concat (separates : Char → Bool) {c : Char} (hc : separates c = false) (t : Text) :
    ∃ pieces piece, cutWhere separates t = pieces ++ [piece] ∧
      cutWhere separates (t ++ [c]) = pieces ++ [piece ++ [c]] := by
  induction t with
  | nil => exact ⟨[], [], rfl, by rw [List.nil_append, cutWhere_cons hc]; rfl⟩
  | cons d t ih =>
    obtain ⟨pieces, piece, ht, htc⟩ := ih
    rw [List.cons_append, cutWhere, cutWhere, ht, htc]
    split
    · exact ⟨[] :: pieces, piece, rfl, rfl⟩
    · cases pieces with
      | nil => exact ⟨[], d :: piece, rfl, rfl⟩
      | cons first pieces => exact ⟨(d :: first) :: pieces, piece, rfl, rfl⟩

theorem cutAt_ne_nil (separator : Char) (t : Text) : cutAt separator t ≠ [] := cutWhere_ne_nil _ t

theorem map_cutAt_cons {β : Type} {separator c : Char} (hc : c ≠ separator) (f : Text → β)
    (hf : ∀ part, f (c :: part) = f part) (t : Text) :
    (cutAt separator (c :: t)).map f = (cutAt separator t).map f := by
  rw [cutAt, cutWhere_cons (by simpa using hc), ← cutAt]
  cases h : cutAt separator t with
  | nil => exact absurd h (cutAt_ne_nil separator t)
  | cons piece pieces => simp [extendFirst, hf]

theorem map_cutAt_concat {β : Type} {separator c : Char} (hc : c ≠ separator) (f : Text → β)
    (hf : ∀ part, f (part ++ [c]) = f part) (t : Text) :
    (cutAt separator (t ++ [c])).map f = (cutAt separator t).map f := by
  obtain ⟨pieces, piece, ht, htc⟩ := cutWhere_concat (· == separator) (by simpa using hc) t
  rw [cutAt, cutAt, ht, htc]
  simp [hf]

theorem not_mem_cutWhere {separates : Char → Bool} {t piece : Text}
    (h : piece ∈ cutWhere separates t) : ∀ c ∈ piece, separates c = false ∧ c ∈ t := by
  induction t generalizing piece with
  | nil =>
    rw [cutWhere, List.mem_singleton] at h
    subst h
    simp
  | cons d t ih =>
    have hlift : ∀ p ∈ cutWhere separates t, ∀ c ∈ p, separates c = false ∧ c ∈ d :: t := by
      intro p hp c hc
      exact ⟨(ih hp c hc).1, List.mem_cons_of_mem d (ih hp c hc).2⟩
    rw [cutWhere] at h
    split at h
    · rcases List.mem_cons.1 h with rfl | h
      · simp
      · exact hlift piece h
    · rename_i hd
      cases hcut : cutWhere separates t with
      | nil => exact absurd hcut (cutWhere_ne_nil separates t)
      | cons first pieces =>
        rw [hcut, extendFirst] at h
        rcases List.mem_cons.1 h with rfl | h
        · intro c hc
          rcases List.mem_cons.1 hc with rfl | hc
          · exact ⟨by simpa using hd, List.mem_cons_self⟩
          · exact hlift first (by simp [hcut]) c hc
        · exact hlift piece (by simp [hcut, h])

theorem not_mem_of_mem_cutAt {separator : Char} {t piece : Text} (h : piece ∈ cutAt separator t) :
    separator ∉ piece := by
  intro hm
  have := (not_mem_cutWhere h separator hm).1
  simp at this

theorem mem_of_mem_trim {t : Text} {c : Char} (h : c ∈ trim t) : c ∈ t := by
  obtain ⟨left, right, -, -, ht⟩ := trim_between_blanks t
  rw [ht]
  simp [h]

theorem cutWhere_append {separates : Char → Bool} {s : Char} (hs : separates s = true)
    (t u : Text) : cutWhere separates (t ++ s :: u) = cutWhere separates t ++ cutWhere separates u := by
  induction t with
  | nil => simp [cutWhere, hs]
  | cons c t ih =>
    rw [List.cons_append, cutWhere, cutWhere, ih]
    split
    · rfl
    · cases h : cutWhere separates t with
      | nil => exact absurd h (cutWhere_ne_nil separates t)
      | cons piece pieces => rfl

theorem cutWhere_append_left {separates : Char → Bool} {t : Text} (ht : ∀ c ∈ t, separates c = false)
    {u first : Text} {more : List Text} (hu : cutWhere separates u = first :: more) :
    cutWhere separates (t ++ u) = (t ++ first) :: more := by
  induction t with
  | nil => exact hu
  | cons c t ih =>
    rw [List.cons_append, cutWhere_cons (ht c List.mem_cons_self),
      ih fun d hd => ht d (List.mem_cons_of_mem c hd)]
    rfl

theorem runsOutside_append {separates : Char → Bool} {s : Char} (hs : separates s = true)
    (t u : Text) :
    runsOutside separates (t ++ s :: u) = runsOutside separates t ++ runsOutside separates u := by
  rw [runsOutside, cutWhere_append hs, List.filter_append, runsOutside, runsOutside]

theorem runsOutside_eq_singleton {separates : Char → Bool} {t : Text} (hne : t ≠ [])
    (ht : ∀ c ∈ t, separates c = false) : runsOutside separates t = [t] := by
  rw [runsOutside, cutWhere_eq_singleton ht]
  simp [hne]

theorem runsOutside_cons {separates : Char → Bool} {s : Char} (hs : separates s = true)
    (t : Text) : runsOutside separates (s :: t) = runsOutside separates t := by
  have happ := runsOutside_append hs [] t
  rw [List.nil_append] at happ
  rw [happ]
  rfl

theorem runsOutside_commaSeparated {separates : Char → Bool} (hcomma : separates ',' = true)
    (hblank : separates ' ' = true) {parts : List Text}
    (h : ∀ part ∈ parts, part ≠ [] ∧ ∀ c ∈ part, separates c = false) :
    runsOutside separates (commaSeparated parts) = parts := by
  induction parts with
  | nil => rfl
  | cons part parts ih =>
    obtain ⟨hne, hchars⟩ := h part List.mem_cons_self
    by_cases hp : parts = []
    · rw [hp]
      exact runsOutside_eq_singleton hne hchars
    · rw [commaSeparated_cons part hp, runsOutside_append hcomma, runsOutside_cons hblank,
        runsOutside_eq_singleton hne hchars, ih (fun p hm => h p (List.mem_cons_of_mem part hm))]
      rfl

theorem runsOutside_append_left {separates : Char → Bool} {left : Text}
    (h : left.all separates = true) (t : Text) :
    runsOutside separates (left ++ t) = runsOutside separates t := by
  induction left with
  | nil => rfl
  | cons c left ih =>
    simp only [List.all_cons, Bool.and_eq_true] at h
    rw [List.cons_append, runsOutside_cons h.1, ih h.2]

theorem runsOutside_eq_nil {separates : Char → Bool} {t : Text} (h : t.all separates = true) :
    runsOutside separates t = [] := by
  have happ := runsOutside_append_left h []
  rw [List.append_nil] at happ
  rw [happ]
  rfl

def Parts (separates : Char → Bool) (rest : Text) : Prop :=
  rest = [] ∨ ∃ c t, rest = c :: t ∧ separates c = true

theorem parts_of_all {separates : Char → Bool} {rest : Text} (h : rest.all separates = true) :
    Parts separates rest := by
  cases rest with
  | nil => exact Or.inl rfl
  | cons c rest =>
    simp only [List.all_cons, Bool.and_eq_true] at h
    exact Or.inr ⟨c, rest, rfl, h.1⟩

theorem parts_append {separates : Char → Bool} {between : Text} (hne : between ≠ [])
    (h : between.all separates = true) (t : Text) : Parts separates (between ++ t) := by
  obtain ⟨c, between, rfl⟩ := List.exists_cons_of_ne_nil hne
  simp only [List.all_cons, Bool.and_eq_true] at h
  exact Or.inr ⟨c, between ++ t, rfl, h.1⟩

theorem runsOutside_append_right {separates : Char → Bool} {run rest : Text} (hne : run ≠ [])
    (hrun : ∀ c ∈ run, separates c = false) (hrest : Parts separates rest) :
    runsOutside separates (run ++ rest) = run :: runsOutside separates rest := by
  rcases hrest with rfl | ⟨c, t, rfl, hc⟩
  · rw [List.append_nil, runsOutside_eq_singleton hne hrun]
    rfl
  · rw [runsOutside_append hc, runsOutside_cons hc, runsOutside_eq_singleton hne hrun]
    rfl

theorem exists_first_run (separates : Char → Bool) (t : Text) :
    t.all separates = true ∨ ∃ left run rest, t = left ++ run ++ rest ∧
      left.all separates = true ∧ run ≠ [] ∧ (∀ c ∈ run, separates c = false) ∧
      Parts separates rest := by
  induction t with
  | nil => exact Or.inl rfl
  | cons c t ih =>
    cases hc : separates c with
    | true =>
      rcases ih with hall | ⟨left, run, rest, rfl, hleft, hrun⟩
      · exact Or.inl (by simp [hc, hall])
      · exact Or.inr ⟨c :: left, run, rest, rfl, by simp [hc, hleft], hrun⟩
    | false =>
      right
      refine ⟨[], c :: t.takeWhile (!separates ·), t.dropWhile (!separates ·), ?_, rfl, by simp, ?_, ?_⟩
      · simp
      · intro d hd
        rcases List.mem_cons.1 hd with rfl | hd
        · exact hc
        · have hall := List.all_eq_true.1 List.all_takeWhile d hd
          simpa using hall
      · cases hdrop : t.dropWhile (!separates ·) with
        | nil => exact Or.inl rfl
        | cons d rest =>
          have hfirst := List.head?_dropWhile_not (!separates ·) t
          rw [hdrop] at hfirst
          exact Or.inr ⟨d, rest, rfl, by simpa using hfirst⟩

theorem runsOutside_eq_nil_iff {separates : Char → Bool} {t : Text} :
    runsOutside separates t = [] ↔ t.all separates = true := by
  constructor
  · intro h
    rcases exists_first_run separates t with hall | ⟨left, run, rest, rfl, hleft, hne, hrun, hrest⟩
    · exact hall
    · rw [List.append_assoc, runsOutside_append_left hleft,
        runsOutside_append_right hne hrun hrest] at h
      cases h
  · exact runsOutside_eq_nil

theorem runsOutside_eq_cons_iff {separates : Char → Bool} {t run : Text} {runs : List Text} :
    runsOutside separates t = run :: runs ↔ ∃ left rest, t = left ++ run ++ rest ∧
      left.all separates = true ∧ run ≠ [] ∧ (∀ c ∈ run, separates c = false) ∧
      Parts separates rest ∧ runsOutside separates rest = runs := by
  constructor
  · intro h
    rcases exists_first_run separates t with hall | ⟨left, first, rest, rfl, hleft, hne, hfirst, hrest⟩
    · rw [runsOutside_eq_nil hall] at h
      cases h
    · rw [List.append_assoc, runsOutside_append_left hleft,
        runsOutside_append_right hne hfirst hrest] at h
      obtain ⟨rfl, rfl⟩ := List.cons.inj h
      exact ⟨left, rest, rfl, hleft, hne, hfirst, hrest, rfl⟩
  · rintro ⟨left, rest, rfl, hleft, hne, hrun, hrest, rfl⟩
    rw [List.append_assoc, runsOutside_append_left hleft, runsOutside_append_right hne hrun hrest]

theorem words_trim (t : Text) : words (trim t) = words t := by
  obtain ⟨left, right, hl, hr, ht⟩ := trim_between_blanks t
  have hright : words (trim t ++ right) = words (trim t) := by
    cases right with
    | nil => rw [List.append_nil]
    | cons c right =>
      simp only [List.all_cons, Bool.and_eq_true] at hr
      rw [words, runsOutside_append hr.1, runsOutside_eq_nil hr.2, List.append_nil, words]
  calc words (trim t) = words (trim t ++ right) := hright.symm
    _ = words (left ++ (trim t ++ right)) := (runsOutside_append_left hl _).symm
    _ = words t := by rw [← List.append_assoc, ← ht]

theorem words_eq_pair_iff {t first second : Text} :
    words t = [first, second] ↔
      first ≠ [] ∧ (∀ c ∈ first, isBlank c = false) ∧
      second ≠ [] ∧ (∀ c ∈ second, isBlank c = false) ∧
      ∃ left between right : Text, t = left ++ first ++ between ++ second ++ right ∧
        left.all isBlank = true ∧ between.all isBlank = true ∧ right.all isBlank = true ∧
        between ≠ [] := by
  constructor
  · intro h
    obtain ⟨left, rest, rfl, hleft, hne, hfirst, hparts, hrest⟩ := runsOutside_eq_cons_iff.1 h
    obtain ⟨between, right, rfl, hbetween, hne', hsecond, -, hright⟩ :=
      runsOutside_eq_cons_iff.1 hrest
    refine ⟨hne, hfirst, hne', hsecond, left, between, right, by simp, hleft, hbetween,
      runsOutside_eq_nil_iff.1 hright, ?_⟩
    rintro rfl
    obtain ⟨d, second, rfl⟩ := List.exists_cons_of_ne_nil hne'
    rcases hparts with hnil | ⟨c, t, heq, hc⟩
    · cases hnil
    · obtain ⟨rfl, -⟩ := List.cons.inj heq
      rw [hsecond d List.mem_cons_self] at hc
      cases hc
  · rintro ⟨hne, hfirst, hne', hsecond, left, between, right, rfl, hleft, hbetween, hright, hparts⟩
    apply runsOutside_eq_cons_iff.2
    refine ⟨left, between ++ second ++ right, by simp, hleft, hne, hfirst, ?_, ?_⟩
    · rw [List.append_assoc]
      exact parts_append hparts hbetween _
    · exact runsOutside_eq_cons_iff.2 ⟨between, right, rfl, hbetween, hne', hsecond,
        parts_of_all hright, runsOutside_eq_nil hright⟩

theorem words_pair {t u : Text} (ht : t ≠ []) (hu : u ≠ []) (htc : ∀ c ∈ t, isBlank c = false)
    (huc : ∀ c ∈ u, isBlank c = false) : words (t ++ ' ' :: u) = [t, u] :=
  words_eq_pair_iff.2 ⟨ht, htc, hu, huc, [], [' '], [], by simp, rfl, rfl, rfl, by simp⟩

end LineTables.Text
