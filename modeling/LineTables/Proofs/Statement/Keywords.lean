import LineTables.Proofs.Statement.Plain

/-!
# The first whole word

A line is cut at the first of the places where its keyword stands as a whole word: on either side the
text ends, or a character follows that is neither a letter nor a digit nor an underscore. The place is
found where there is one, and nothing that comes behind it moves it.
-/

set_option autoImplicit false

namespace LineTables

namespace Text

/-- No word goes on over either end of the place between the two texts. -/
structure Parted (before after : Text) : Prop where
  left : ∀ c, before.getLast? = some c → isAlphanumeric c = false ∧ c ≠ '_'
  right : ∀ c, after.head? = some c → isAlphanumeric c = false ∧ c ≠ '_'

/-- The word stands nowhere in the text as a whole one. -/
def NoWholeWord (word t : Text) : Prop :=
  ∀ before after, t = before ++ word ++ after → ¬ Parted before after

/-- Of the places where the word stands as a whole one, that between the two texts comes first. -/
structure FirstWord (word t before after : Text) : Prop where
  split : t = before ++ word ++ after
  parted : Parted before after
  first : ∀ left right, t = left ++ word ++ right → Parted left right → before.length ≤ left.length

theorem isWordChar_eq_false_iff {c : Char} :
    isWordChar c = false ↔ isAlphanumeric c = false ∧ c ≠ '_' := by
  rw [isWordChar, Bool.or_eq_false_iff, beq_eq_false_iff_ne]

theorem beginsInWord_eq_false_iff {t : Text} :
    beginsInWord t = false ↔ ∀ c, t.head? = some c → isAlphanumeric c = false ∧ c ≠ '_' := by
  cases t with
  | nil => simp [beginsInWord]
  | cons c t => simp [beginsInWord, isWordChar_eq_false_iff]

theorem endsInWord_concat (inWord : Bool) (t : Text) (c : Char) :
    endsInWord inWord (t ++ [c]) = isWordChar c := by
  induction t generalizing inWord with
  | nil => rfl
  | cons d t ih => exact ih (isWordChar d)

theorem endsInWord_eq_false_iff {t : Text} :
    endsInWord false t = false ↔
      ∀ c, t.getLast? = some c → isAlphanumeric c = false ∧ c ≠ '_' := by
  rcases List.eq_nil_or_concat t with rfl | ⟨t, c, rfl⟩
  · simp [endsInWord]
  · rw [List.concat_eq_append, endsInWord_concat, List.getLast?_concat]
    simp [isWordChar_eq_false_iff]

theorem parted_iff {before after : Text} :
    Parted before after ↔ endsInWord false before = false ∧ beginsInWord after = false := by
  rw [endsInWord_eq_false_iff, beginsInWord_eq_false_iff]
  exact ⟨fun h => ⟨h.left, h.right⟩, fun h => ⟨h.1, h.2⟩⟩

variable {word t before after : Text}

theorem FirstWord.length_eq (h : FirstWord word t before after) {left right : Text}
    (h' : FirstWord word t left right) : before.length = left.length :=
  Nat.le_antisymm (h.first left right h'.split h'.parted) (h'.first before after h.split h.parted)

theorem FirstWord.unique (h : FirstWord word t before after) {left right : Text}
    (h' : FirstWord word t left right) : before = left ∧ after = right := by
  have hsplit : before ++ (word ++ after) = left ++ (word ++ right) := by
    rw [← List.append_assoc, ← List.append_assoc, ← h.split, ← h'.split]
  obtain ⟨hbefore, hrest⟩ := List.append_inj hsplit (h.length_eq h')
  exact ⟨hbefore, List.append_cancel_left hrest⟩

theorem firstWord_of_cutAtWord? (hw : IsWord word) (h : cutAtWord? word t = some (before, after)) :
    FirstWord word t before after := by
  obtain ⟨-, hends, hbegins⟩ := cutAtWordFrom?_before hw h
  refine ⟨eq_of_cutAtWord? h, parted_iff.2 ⟨hends, hbegins⟩, ?_⟩
  rintro left right rfl hparted
  obtain ⟨hl, hr⟩ := parted_iff.1 hparted
  obtain ⟨before', after', hcut, hle⟩ := exists_cutAtWordFrom? hw hl hr
  cases hcut.symm.trans h
  exact hle

theorem cutAtWord?_eq_none_iff (hw : IsWord word) :
    cutAtWord? word t = none ↔ NoWholeWord word t := by
  refine (lacks_iff_not_hasWord hw t).trans ?_
  constructor
  · intro h before after hsplit hparted
    exact h ⟨before, after, hsplit, parted_iff.1 hparted⟩
  · rintro h ⟨before, after, hsplit, hends⟩
    exact h before after hsplit (parted_iff.2 hends)

theorem cutAtWord?_eq_some_iff (hw : IsWord word) :
    cutAtWord? word t = some (before, after) ↔ FirstWord word t before after := by
  refine ⟨firstWord_of_cutAtWord? hw, ?_⟩
  intro h
  cases hcut : cutAtWord? word t with
  | none => exact absurd h.parted ((cutAtWord?_eq_none_iff hw).1 hcut before after h.split)
  | some cut =>
    obtain ⟨rfl, rfl⟩ := h.unique (firstWord_of_cutAtWord? hw hcut)
    rfl

theorem FirstWord.append (hw : IsWord word) (h : FirstWord word t before after) (x : Text) :
    FirstWord word (t ++ ' ' :: x) before (after ++ ' ' :: x) := by
  have hblank : isWordChar ' ' = false := punctuation ' ' (by simp)
  rw [← cutAtWord?_eq_some_iff hw] at h ⊢
  exact cutAtWord?_append_cons_of_some hw hblank h x

theorem isWord_of_mem {keyword : Text}
    (h : keyword ∈ [Keyword.valuesText, Keyword.fromText, Keyword.setText, Keyword.whereText]) :
    IsWord keyword := by
  simp only [List.mem_cons, List.not_mem_nil, or_false] at h
  rcases h with rfl | rfl | rfl | rfl
  · exact isWord_values
  · exact isWord_from
  · exact isWord_set
  · exact isWord_where

theorem cutAtKeyword_error_iff {keyword : Text} {e : SyntaxError} :
    t.cutAtKeyword keyword = .error e ↔
      e = .missingKeyword keyword ∧ cutAtWord? keyword t = none := by
  rw [cutAtKeyword]
  cases cutAtWord? keyword t <;> simp [eq_comm]

def conditionBehind (before after : Text) : Except SyntaxError (Text × Option Text) :=
  if after.trim = [] then .error .emptyCondition else .ok (before, some after.trim)

theorem conditionBehind_ne_none (before after t : Text) : conditionBehind before after ≠ .ok (t, none) := by
  rw [conditionBehind]
  split <;> simp

theorem cutAtCondition_of_firstWord (h : FirstWord Keyword.whereText t before after) :
    t.cutAtCondition = conditionBehind before after := by
  rw [cutAtCondition, (cutAtWord?_eq_some_iff isWord_where).2 h, conditionBehind]
  simp only [List.isEmpty_iff]

theorem cutAtCondition_none_iff :
    t.cutAtCondition = .ok (before, none) ↔ before = t ∧ NoWholeWord Keyword.whereText t := by
  rw [← cutAtWord?_eq_none_iff isWord_where]
  constructor
  · intro h
    cases hcut : cutAtWord? Keyword.whereText t with
    | none =>
      rw [cutAtCondition, hcut] at h
      cases h
      exact ⟨rfl, rfl⟩
    | some cut =>
      rw [cutAtCondition_of_firstWord (firstWord_of_cutAtWord? isWord_where hcut)] at h
      exact absurd h (conditionBehind_ne_none cut.1 cut.2 before)
  · rintro ⟨rfl, hnone⟩
    rw [cutAtCondition, hnone]

theorem cutAtRequiredCondition_missing_iff :
    t.cutAtRequiredCondition = .error (.missingKeyword Keyword.whereText) ↔
      NoWholeWord Keyword.whereText t := by
  rw [← cutAtWord?_eq_none_iff isWord_where]
  cases hcut : cutAtWord? Keyword.whereText t with
  | none => simp [cutAtRequiredCondition, cutAtCondition, hcut]
  | some cut =>
    have hfirst := firstWord_of_cutAtWord? isWord_where hcut
    rw [cutAtRequiredCondition, cutAtCondition_of_firstWord hfirst, conditionBehind]
    by_cases hblank : cut.2.trim = [] <;> simp [hblank]

/-- A line is cut at the first whole word, if there is one, and the text behind it changes nothing. With
nothing but blanks behind its keyword, a condition is found and refused. -/
theorem cut_at_first_word (t : Text) :
    (∀ keyword ∈ [Keyword.valuesText, Keyword.fromText, Keyword.setText, Keyword.whereText],
      (∀ e, t.cutAtKeyword keyword = .error e ↔
        e = .missingKeyword keyword ∧ NoWholeWord keyword t) ∧
      (∀ before after, t.cutAtKeyword keyword = .ok (before, after) ↔
        FirstWord keyword t before after) ∧
      ∀ before after, t.cutAtKeyword keyword = .ok (before, after) →
        ∀ x, (t ++ ' ' :: x).cutAtKeyword keyword = .ok (before, after ++ ' ' :: x)) ∧
    (∀ before, t.cutAtCondition = .ok (before, none) ↔
      before = t ∧ NoWholeWord Keyword.whereText t) ∧
    (t.cutAtRequiredCondition = .error (.missingKeyword Keyword.whereText) ↔
      NoWholeWord Keyword.whereText t) ∧
    ∀ before after, FirstWord Keyword.whereText t before after →
      t.cutAtCondition = conditionBehind before after ∧
        ∀ x, (t ++ ' ' :: x).cutAtCondition = conditionBehind before (after ++ ' ' :: x) := by
  refine ⟨?_, fun before => cutAtCondition_none_iff, cutAtRequiredCondition_missing_iff, ?_⟩
  · intro keyword hkeyword
    have hw := isWord_of_mem hkeyword
    refine ⟨?_, ?_, ?_⟩
    · intro e
      rw [cutAtKeyword_error_iff, cutAtWord?_eq_none_iff hw]
    · intro before after
      rw [cutAtKeyword_ok_iff, cutAtWord?_eq_some_iff hw]
    · intro before after h x
      rw [cutAtKeyword_ok_iff, cutAtWord?_eq_some_iff hw] at h ⊢
      exact h.append hw x
  · intro before after h
    exact ⟨cutAtCondition_of_firstWord h,
      fun x => cutAtCondition_of_firstWord (h.append isWord_where x)⟩

theorem cut_at_first_word_longer :
    let t : Text := "FROMAGE, éFROM, FROM_, FROM t WHERE".toList
    let before : Text := "FROMAGE, éFROM, FROM_, ".toList
    let source : Text := "FROMAGE, éFROM, FROM_, FROM t ".toList
    Keyword.fromText ∈ [Keyword.valuesText, Keyword.fromText, Keyword.setText, Keyword.whereText] ∧
      FirstWord Keyword.fromText t before " t WHERE".toList ∧
      NoWholeWord Keyword.setText t ∧
      Text.cutAtKeyword (t ++ " FROM u".toList) Keyword.fromText =
        .ok (before, " t WHERE FROM u".toList) ∧
      FirstWord Keyword.whereText t source [] ∧
      t.cutAtCondition = .error .emptyCondition ∧
      Text.cutAtCondition (t ++ " FROM=1".toList) = .ok (source, some "FROM=1".toList) := by
  intro t before source
  obtain ⟨hkeywords, -, -, hcondition⟩ := cut_at_first_word t
  have hmem : Keyword.fromText ∈
      [Keyword.valuesText, Keyword.fromText, Keyword.setText, Keyword.whereText] := by decide
  have hcut : t.cutAtKeyword Keyword.fromText = .ok (before, " t WHERE".toList) :=
    cutAtKeyword_ok_iff.2 (by decide +kernel)
  have hset : t.cutAtKeyword Keyword.setText = .error (.missingKeyword Keyword.setText) :=
    cutAtKeyword_error_iff.2 ⟨rfl, by decide +kernel⟩
  have hwhere : t.cutAtKeyword Keyword.whereText = .ok (source, []) :=
    cutAtKeyword_ok_iff.2 (by decide +kernel)
  obtain ⟨-, hfirst, hbehind⟩ := hkeywords Keyword.fromText hmem
  have hsource := ((hkeywords Keyword.whereText (by decide)).2.1 source []).1 hwhere
  obtain ⟨halone, hmore⟩ := hcondition source [] hsource
  exact ⟨hmem, (hfirst before _).1 hcut, (((hkeywords Keyword.setText (by decide)).1 _).1 hset).2,
    hbehind before _ hcut "FROM u".toList, hsource, halone.trans rfl,
    (hmore "FROM=1".toList).trans rfl⟩

end Text

end LineTables
