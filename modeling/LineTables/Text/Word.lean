import LineTables.Text.Alphanumeric
import LineTables.Text.Blank

/-!
# Keywords

Verbs and type names may be written in any case: what counts is the text in capitals. A few small letters
outside ASCII have capitals inside it, some of them two or three, and so can stand in a keyword. All other
characters are left alone here: their capitals are never ASCII letters, and no keyword has any.

A statement is cut at the first place where a keyword stands as a whole word: neither the character
before it nor the one after it belongs to a word. Keywords inside longer words do not count, and
what follows the first whole word is never looked at.
-/

set_option autoImplicit false

namespace LineTables.Text

/-- The capitals of a character, where they are ASCII letters. -/
def capitals : Char → Text
  | 'ı' => ['I']
  | 'ſ' => ['S']
  | 'ß' => ['S', 'S']
  | 'ﬀ' => ['F', 'F']
  | 'ﬁ' => ['F', 'I']
  | 'ﬂ' => ['F', 'L']
  | 'ﬃ' => ['F', 'F', 'I']
  | 'ﬄ' => ['F', 'F', 'L']
  | 'ﬅ' => ['S', 'T']
  | 'ﬆ' => ['S', 'T']
  | c => [c.toUpper]

def capitalized (t : Text) : Text := t.flatMap capitals

def beginsInWord : Text → Bool
  | [] => false
  | c :: _ => isWordChar c

def afterWord? (keyword t : Text) : Option Text :=
  match after? keyword t with
  | some rest => if beginsInWord rest then none else some rest
  | none => none

/-- The texts before and after the first whole word, where `inWord` says whether the character
before the text belongs to a word. -/
def cutAtWordFrom? (keyword : Text) : Bool → Text → Option (Text × Text)
  | _, [] => none
  | inWord, c :: t =>
    match if inWord then none else afterWord? keyword (c :: t) with
    | some rest => some ([], rest)
    | none =>
      match cutAtWordFrom? keyword (isWordChar c) t with
      | some (before, rest) => some (c :: before, rest)
      | none => none

def cutAtWord? (keyword t : Text) : Option (Text × Text) := cutAtWordFrom? keyword false t

theorem afterWord?_eq_some_iff {keyword t rest : Text} :
    afterWord? keyword t = some rest ↔ t = keyword ++ rest ∧ beginsInWord rest = false := by
  rw [afterWord?]
  cases h : after? keyword t with
  | none =>
    simp only [reduceCtorEq, false_iff, not_and]
    rintro rfl
    simp [after?_append] at h
  | some r =>
    rw [after?_eq_some_iff] at h
    subst h
    cases hb : beginsInWord r <;> simp <;> grind

theorem eq_of_cutAtWordFrom? {keyword before rest : Text} {inWord : Bool} {t : Text}
    (h : cutAtWordFrom? keyword inWord t = some (before, rest)) :
    t = before ++ keyword ++ rest := by
  induction t generalizing inWord before with
  | nil => simp [cutAtWordFrom?] at h
  | cons c t ih =>
    rw [cutAtWordFrom?] at h
    split at h
    case h_1 r hr =>
      obtain ⟨rfl, rfl⟩ := by simpa using h
      split at hr
      · simp at hr
      · simpa using (afterWord?_eq_some_iff.1 hr).1
    case h_2 =>
      split at h
      case h_1 b r hc =>
        obtain ⟨rfl, rfl⟩ := by simpa using h
        simp [ih hc]
      case h_2 => simp at h

theorem eq_of_cutAtWord? {keyword t before rest : Text}
    (h : cutAtWord? keyword t = some (before, rest)) : t = before ++ keyword ++ rest :=
  eq_of_cutAtWordFrom? h

end LineTables.Text
