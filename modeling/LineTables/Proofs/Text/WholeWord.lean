import LineTables.Proofs.Text.Cutting
import LineTables.Statement.Basic
import LineTables.Text.Word

/-!
# Whole words in a text put together

The cut at a keyword is followed through the texts from which a statement is written. A character that
belongs to no word parts a text for good: no whole word reaches over it, and what stands on one side of
it neither makes nor hides a whole word on the other.
-/

set_option autoImplicit false

namespace LineTables.Text

theorem isWordChar_of_isBlank {c : Char} (h : isBlank c = true) : isWordChar c = false := by
  have hcode : ∀ n ∈ [9, 10, 11, 12, 13, 28, 29, 30, 31, 32, 0x85, 0xA0, 0x1680, 0x2000, 0x2001,
      0x2002, 0x2003, 0x2004, 0x2005, 0x2006, 0x2007, 0x2008, 0x2009, 0x200A, 0x2028, 0x2029,
      0x202F, 0x205F, 0x3000], inRanges alphanumericRanges n = false := by
    decide +kernel
  have hc : c.toNat ∈ [9, 10, 11, 12, 13, 28, 29, 30, 31, 32, 0x85, 0xA0, 0x1680, 0x2000, 0x2001,
      0x2002, 0x2003, 0x2004, 0x2005, 0x2006, 0x2007, 0x2008, 0x2009, 0x200A, 0x2028, 0x2029,
      0x202F, 0x205F, 0x3000] := by
    simp only [isBlank, Bool.or_eq_true, Bool.and_eq_true, decide_eq_true_eq, beq_iff_eq] at h
    simp only [List.mem_cons, List.not_mem_nil, or_false]
    omega
  have hne : c ≠ '_' := by
    rintro rfl
    simp [isBlank] at h
  rw [isWordChar, isAlphanumeric, hcode _ hc]
  simp [hne]

theorem not_isBlank_of_isWordChar {c : Char} (h : isWordChar c = true) : isBlank c = false := by
  cases hb : isBlank c with
  | false => rfl
  | true =>
    rw [isWordChar_of_isBlank hb] at h
    cases h

theorem isWordChar_of_isNameChar {c : Char} (h : isNameChar c = true) : isWordChar c = true := by
  have hcode : (48 ≤ c.toNat ∧ c.toNat ≤ 57) ∨ (65 ≤ c.toNat ∧ c.toNat ≤ 90) ∨
      (97 ≤ c.toNat ∧ c.toNat ≤ 122) := by
    rcases isNameChar_iff.1 h with (h | h) | h
    · exact Or.inr (Or.inl h)
    · exact Or.inr (Or.inr h)
    · exact Or.inl h
  have hlow : inRanges alphanumericRanges c.toNat = true := by
    have hranges : alphanumericRanges =
        (0x30, 0x39) :: (0x41, 0x5A) :: (0x61, 0x7A) :: alphanumericRanges.drop 3 := rfl
    rw [hranges]
    generalize alphanumericRanges.drop 3 = rest
    rcases hcode with ⟨h1, h2⟩ | ⟨h1, h2⟩ | ⟨h1, h2⟩
    · rw [inRanges, if_neg (by omega), if_pos h2]
    · rw [inRanges, if_neg (by omega), if_neg (by omega), inRanges, if_neg (by omega), if_pos h2]
    · rw [inRanges, if_neg (by omega), if_neg (by omega), inRanges, if_neg (by omega),
        if_neg (by omega), inRanges, if_neg (by omega), if_pos h2]
  rw [isWordChar, isAlphanumeric, hlow]
  rfl

structure IsWord (word : Text) : Prop where
  ne_nil : word ≠ []
  all : ∀ c ∈ word, isWordChar c = true

theorem isWord_of_isValidName {t : Text} (h : isValidName t = true) : IsWord t := by
  simp only [isValidName, Bool.and_eq_true, Bool.not_eq_true', List.isEmpty_eq_false_iff,
    List.all_eq_true] at h
  exact ⟨h.1, fun c hc => isWordChar_of_isNameChar (h.2 c hc)⟩

theorem IsWord.not_mem {word : Text} (hw : IsWord word) {c : Char} (hc : isWordChar c = false) :
    c ∉ word := by
  intro hm
  rw [hw.all c hm] at hc
  cases hc

theorem after?_append_cons {word : Text} {c : Char} (hc : c ∉ word) (t u : Text) :
    after? word (t ++ c :: u) = (after? word t).map (· ++ c :: u) := by
  induction word generalizing t with
  | nil => rfl
  | cons a word ih =>
    have ha : a ≠ c := fun h => hc (h ▸ List.mem_cons_self)
    have hword : c ∉ word := fun h => hc (List.mem_cons_of_mem a h)
    cases t with
    | nil => simp [after?, ha]
    | cons d t =>
      rw [List.cons_append, after?, after?]
      by_cases had : a = d
      · rw [if_pos had, if_pos had]
        exact ih hword t
      · rw [if_neg had, if_neg had]
        rfl

theorem beginsInWord_append_cons {c : Char} (hc : isWordChar c = false) (t u : Text) :
    beginsInWord (t ++ c :: u) = beginsInWord t := by
  cases t with
  | nil => exact hc
  | cons d t => rfl

theorem afterWord?_append_cons {word : Text} (hw : IsWord word) {c : Char}
    (hc : isWordChar c = false) (t u : Text) :
    afterWord? word (t ++ c :: u) = (afterWord? word t).map (· ++ c :: u) := by
  rw [afterWord?, afterWord?, after?_append_cons (hw.not_mem hc)]
  cases after? word t with
  | none => rfl
  | some rest =>
    simp only [Option.map_some, beginsInWord_append_cons hc]
    cases beginsInWord rest <;> rfl

theorem afterWord?_nil {word : Text} (hw : IsWord word) : afterWord? word [] = none := by
  cases word with
  | nil => exact absurd rfl hw.ne_nil
  | cons a word => rfl

/-- The cut of a text in two parts with a character between them that belongs to no word: it is that
of the first part, and where this has no whole word that of the second. -/
theorem cutAtWordFrom?_append_cons {word : Text} (hw : IsWord word) {c : Char}
    (hc : isWordChar c = false) (inWord : Bool) (t u : Text) :
    cutAtWordFrom? word inWord (t ++ c :: u) =
      match cutAtWordFrom? word inWord t with
      | some (before, rest) => some (before, rest ++ c :: u)
      | none => (cutAtWordFrom? word false u).map (fun cut => (t ++ c :: cut.1, cut.2)) := by
  induction t generalizing inWord with
  | nil =>
    have hnone : afterWord? word (c :: u) = none := by
      have happ := afterWord?_append_cons hw hc [] u
      rwa [List.nil_append, afterWord?_nil hw] at happ
    have hstep : cutAtWordFrom? word inWord (c :: u) =
        (cutAtWordFrom? word false u).map (fun cut => (c :: cut.1, cut.2)) := by
      rw [cutAtWordFrom?, hnone, ite_self, hc]
      cases cutAtWordFrom? word false u <;> rfl
    exact hstep
  | cons d t ih =>
    have happ := afterWord?_append_cons hw hc (d :: t) u
    rw [List.cons_append] at happ
    rw [List.cons_append, cutAtWordFrom?, cutAtWordFrom?, happ, ih (isWordChar d)]
    cases inWord with
    | true =>
      cases cutAtWordFrom? word (isWordChar d) t with
      | some cut => rfl
      | none => cases cutAtWordFrom? word false u <;> rfl
    | false =>
      cases afterWord? word (d :: t) with
      | some rest => rfl
      | none =>
        cases cutAtWordFrom? word (isWordChar d) t with
        | some cut => rfl
        | none => cases cutAtWordFrom? word false u <;> rfl

def Lacks (word t : Text) : Prop := cutAtWord? word t = none

theorem lacks_nil (word : Text) : Lacks word [] := rfl

theorem lacks_append_cons_iff {word : Text} (hw : IsWord word) {c : Char}
    (hc : isWordChar c = false) (t u : Text) :
    Lacks word (t ++ c :: u) ↔ Lacks word t ∧ Lacks word u := by
  rw [Lacks, Lacks, Lacks, cutAtWord?, cutAtWord?, cutAtWord?, cutAtWordFrom?_append_cons hw hc]
  cases cutAtWordFrom? word false t with
  | some cut => simp
  | none => simp

theorem cutAtWord?_append_cons {word : Text} (hw : IsWord word) {c : Char}
    (hc : isWordChar c = false) {t : Text} (ht : Lacks word t) (u : Text) :
    cutAtWord? word (t ++ c :: u) =
      (cutAtWord? word u).map (fun cut => (t ++ c :: cut.1, cut.2)) := by
  have hnone : cutAtWordFrom? word false t = none := ht
  rw [cutAtWord?, cutAtWordFrom?_append_cons hw hc, hnone]
  rfl

theorem cutAtWord?_append_cons_of_some {word : Text} (hw : IsWord word) {c : Char}
    (hc : isWordChar c = false) {t before rest : Text} (ht : cutAtWord? word t = some (before, rest))
    (u : Text) : cutAtWord? word (t ++ c :: u) = some (before, rest ++ c :: u) := by
  have hsome : cutAtWordFrom? word false t = some (before, rest) := ht
  rw [cutAtWord?, cutAtWordFrom?_append_cons hw hc, hsome]

theorem lacks_append_iff {word : Text} (hw : IsWord word) {between : Text} (hne : between ≠ [])
    (hb : ∀ c ∈ between, isWordChar c = false) (t u : Text) :
    Lacks word (t ++ between ++ u) ↔ Lacks word t ∧ Lacks word u := by
  induction between generalizing t with
  | nil => exact absurd rfl hne
  | cons c between ih =>
    have hc := hb c List.mem_cons_self
    rw [List.append_assoc, List.cons_append, lacks_append_cons_iff hw hc]
    by_cases hnil : between = []
    · rw [hnil, List.nil_append]
    · have hrest := ih hnil (fun d hd => hb d (List.mem_cons_of_mem c hd)) []
      rw [List.nil_append] at hrest
      rw [hrest]
      simp [lacks_nil]

theorem lacks_trim_iff {word : Text} (hw : IsWord word) (t : Text) :
    Lacks word (trim t) ↔ Lacks word t := by
  have hblank : ∀ blanks : Text, blanks.all isBlank = true → ∀ c ∈ blanks, isWordChar c = false := by
    intro blanks hb c hc
    exact isWordChar_of_isBlank (List.all_eq_true.1 hb c hc)
  obtain ⟨left, right, hl, hr, ht⟩ := trim_between_blanks t
  rw [ht, trim_append_right hr, trim_append_left hl, trim_trim]
  generalize trim t = m
  have hleft : Lacks word (left ++ m) ↔ Lacks word m := by
    by_cases hnil : left = []
    · rw [hnil, List.nil_append]
    · have := lacks_append_iff hw hnil (hblank left hl) [] m
      simpa [lacks_nil] using this
  by_cases hnil : right = []
  · rw [hnil, List.append_nil, hleft]
  · have := lacks_append_iff hw hnil (hblank right hr) (left ++ m) []
    rw [List.append_nil] at this
    rw [this, hleft]
    simp [lacks_nil]

theorem lacks_joined_iff {word : Text} (hw : IsWord word) {separator : Text}
    (hne : separator ≠ []) (hs : ∀ c ∈ separator, isWordChar c = false) (parts : List Text) :
    Lacks word (joined separator parts) ↔ ∀ part ∈ parts, Lacks word part := by
  induction parts with
  | nil => simp [joined, lacks_nil]
  | cons part parts ih =>
    by_cases hp : parts = []
    · simp [hp, joined]
    · rw [joined_cons _ _ hp, lacks_append_iff hw hne hs, ih]
      simp

theorem isWordChar_of_eq_comma {c : Char} (h : (c == ',') = true) : isWordChar c = false := by
  rw [eq_of_beq h]
  decide +kernel

theorem lacks_of_mem_cutWhere {word : Text} (hw : IsWord word) {separates : Char → Bool}
    (hs : ∀ {c}, separates c = true → isWordChar c = false) {t piece : Text} (ht : Lacks word t)
    (h : piece ∈ cutWhere separates t) : Lacks word piece := by
  induction hn : t.length using Nat.strongRecOn generalizing t with
  | _ n ih =>
    by_cases hsep : ∃ c ∈ t, separates c = true
    · obtain ⟨c, hc, hcs⟩ := hsep
      obtain ⟨before, rest, rfl⟩ := List.append_of_mem hc
      rw [lacks_append_cons_iff hw (hs hcs)] at ht
      rw [cutWhere_append hcs] at h
      simp only [List.length_append, List.length_cons] at hn
      rcases List.mem_append.1 h with h | h
      · exact ih before.length (by omega) ht.1 h rfl
      · exact ih rest.length (by omega) ht.2 h rfl
    · have hnone : ∀ c ∈ t, separates c = false := by
        intro c hc
        cases hcs : separates c with
        | true => exact absurd ⟨c, hc, hcs⟩ hsep
        | false => rfl
      rw [cutWhere_eq_singleton hnone, List.mem_singleton] at h
      rwa [h]

theorem cutAtWordFrom?_inside {t : Text} (ht : ∀ c ∈ t, isWordChar c = true) (word : Text) :
    cutAtWordFrom? word true t = none := by
  induction t with
  | nil => rfl
  | cons c t ih =>
    rw [cutAtWordFrom?, if_pos rfl, ht c List.mem_cons_self]
    simp only [ih (fun d hd => ht d (List.mem_cons_of_mem c hd))]

theorem lacks_of_isWord {word t : Text} (ht : IsWord t) (hne : t ≠ word) : Lacks word t := by
  cases t with
  | nil => rfl
  | cons c t =>
    have hrest : cutAtWordFrom? word (isWordChar c) t = none := by
      rw [ht.all c List.mem_cons_self]
      exact cutAtWordFrom?_inside (fun d hd => ht.all d (List.mem_cons_of_mem c hd)) word
    have hafter : afterWord? word (c :: t) = none := by
      rw [Option.eq_none_iff_forall_ne_some]
      intro rest h
      obtain ⟨heq, hend⟩ := afterWord?_eq_some_iff.1 h
      cases rest with
      | nil => exact hne (by simpa using heq)
      | cons d rest =>
        have hd : isWordChar d = true := ht.all d (by rw [heq]; simp)
        rw [beginsInWord, hd] at hend
        cases hend
    rw [Lacks, cutAtWord?, cutAtWordFrom?, if_neg Bool.false_ne_true, hafter, hrest]

def endsInWord : Bool → Text → Bool
  | inWord, [] => inWord
  | _, c :: t => endsInWord (isWordChar c) t

theorem endsInWord_of_all {t : Text} (hne : t ≠ []) (ht : ∀ c ∈ t, isWordChar c = true)
    (inWord : Bool) : endsInWord inWord t = true := by
  induction t generalizing inWord with
  | nil => exact absurd rfl hne
  | cons c t ih =>
    rw [endsInWord, ht c List.mem_cons_self]
    by_cases hnil : t = []
    · rw [hnil, endsInWord]
    · exact ih hnil (fun d hd => ht d (List.mem_cons_of_mem c hd)) true

theorem cutAtWordFrom?_before {word : Text} (hw : IsWord word) {inWord : Bool} {t before rest : Text}
    (h : cutAtWordFrom? word inWord t = some (before, rest)) :
    cutAtWordFrom? word inWord before = none ∧ endsInWord inWord before = false ∧
      beginsInWord rest = false := by
  induction t generalizing inWord before with
  | nil => cases h
  | cons c t ih =>
    rw [cutAtWordFrom?] at h
    split at h
    · rename_i r hr
      cases h
      cases inWord with
      | true => cases hr
      | false => exact ⟨rfl, rfl, (afterWord?_eq_some_iff.1 hr).2⟩
    · rename_i hnone
      cases hc : cutAtWordFrom? word (isWordChar c) t with
      | none => rw [hc] at h; cases h
      | some cut =>
        obtain ⟨b, r⟩ := cut
        rw [hc] at h
        cases h
        obtain ⟨hlacks, hends, hbegins⟩ := ih hc
        refine ⟨?_, hends, hbegins⟩
        have hafter : (if inWord then none else afterWord? word (c :: b)) = none := by
          cases inWord with
          | true => rfl
          | false =>
            rw [if_neg Bool.false_ne_true] at hnone ⊢
            rw [Option.eq_none_iff_forall_ne_some]
            intro r' h'
            obtain ⟨heq, hend⟩ := afterWord?_eq_some_iff.1 h'
            have ht := eq_of_cutAtWordFrom? hc
            cases r' with
            | nil =>
              -- the keyword would end where the cut begins, inside a word
              rw [List.append_nil] at heq
              have hin := endsInWord_of_all hw.ne_nil hw.all false
              rw [← heq, endsInWord, hends] at hin
              cases hin
            | cons d r' =>
              have hsome : afterWord? word (c :: t) = some (d :: r' ++ word ++ rest) := by
                rw [afterWord?_eq_some_iff]
                refine ⟨?_, hend⟩
                rw [ht, ← List.cons_append, ← List.cons_append, heq]
                simp
              rw [hsome] at hnone
              cases hnone
        rw [cutAtWordFrom?, hafter, hlacks]

theorem lacks_before {word t before rest : Text} (hw : IsWord word)
    (h : cutAtWord? word t = some (before, rest)) : Lacks word before :=
  (cutAtWordFrom?_before hw h).1

theorem cutAtWordFrom?_word {word rest : Text} (hw : IsWord word) (hr : beginsInWord rest = false) :
    cutAtWordFrom? word false (word ++ rest) = some ([], rest) := by
  cases hword : word with
  | nil => exact absurd hword hw.ne_nil
  | cons a w =>
    have hafter : afterWord? (a :: w) (a :: w ++ rest) = some rest :=
      afterWord?_eq_some_iff.2 ⟨rfl, hr⟩
    rw [List.cons_append] at hafter ⊢
    rw [cutAtWordFrom?, if_neg Bool.false_ne_true, hafter]

theorem cutAtWord?_append {word : Text} (hw : IsWord word) {t rest : Text} (ht : Lacks word t)
    (hr : beginsInWord rest = false) {c : Char} (hc : isWordChar c = false) :
    cutAtWord? word (t ++ c :: (word ++ rest)) = some (t ++ [c], rest) := by
  rw [cutAtWord?_append_cons hw hc ht, cutAtWord?, cutAtWordFrom?_word hw hr]
  rfl

end LineTables.Text
