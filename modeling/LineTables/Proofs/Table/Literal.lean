import LineTables.Proofs.Statement.Codec
import LineTables.Table.Literal

/-!
# Literals of values

The literal of a value begins and ends with no blank, so it can stand between the separators of a line.
It has a comma in it only if the value is a text that has one. A literal with one double quote denotes no
text, whatever blanks around it are lost.
-/

set_option autoImplicit false

namespace LineTables
open Text

theorem solid_inQuotes (t : Text) : Solid (inQuotes t) :=
  ⟨⟨'"', t ++ ['"'], rfl, rfl⟩, '"' :: t, '"', rfl, rfl⟩

theorem mem_inQuotes_iff {t : Text} {c : Char} (hc : c ≠ '"') : c ∈ inQuotes t ↔ c ∈ t := by
  simp [inQuotes, hc]

theorem lacks_inQuotes_iff {word : Text} (hw : IsWord word) (t : Text) :
    Lacks word (inQuotes t) ↔ Lacks word t := by
  have hquote := punctuation '"' (by simp)
  have hopening := lacks_append_cons_iff hw hquote [] (t ++ ['"'])
  have hclosing := lacks_append_cons_iff hw hquote t []
  simp only [List.nil_append, lacks_nil, true_and, and_true] at hopening hclosing
  exact hopening.trans hclosing

theorem unquoted?_trim_of_not_mem {t : Text} (h : '"' ∉ t) : unquoted? (trim ('"' :: t)) = none := by
  rw [Option.eq_none_iff_forall_ne_some]
  intro inner hinner
  obtain ⟨left, right, -, -, hsplit⟩ := trim_between_blanks ('"' :: t)
  rw [eq_inQuotes_of_unquoted? hinner] at hsplit
  have hcount := congrArg (List.count '"') hsplit
  simp only [inQuotes, List.count_append, List.count_cons_self, List.count_eq_zero.2 h,
    List.cons_append] at hcount
  omega

namespace Value

theorem isWordChar_of_isDigit {c : Char} (h : Text.isDigit c = true) : isWordChar c = true := by
  rw [Text.isDigit_eq] at h
  apply isWordChar_of_isNameChar
  rw [isNameChar, Char.isAlphanum, h, Bool.or_true]

theorem isWordChar_of_mem_ofNat {n : Nat} {c : Char} (h : c ∈ Text.ofNat n) :
    isWordChar c = true :=
  isWordChar_of_isDigit (List.all_eq_true.1 (Text.ofNat_all_digits n) c h)

theorem mem_ofInt {i : Int} {c : Char} (h : c ∈ Text.ofInt i) : isWordChar c = true ∨ c = '-' := by
  cases i with
  | ofNat n => exact Or.inl (isWordChar_of_mem_ofNat h)
  | negSucc n =>
    rcases List.mem_cons.1 h with rfl | h
    · exact Or.inr rfl
    · exact Or.inl (isWordChar_of_mem_ofNat h)

theorem solid_ofInt (i : Int) : Solid (Text.ofInt i) := by
  apply Solid.of_all
  · cases i with
    | ofNat n => exact Text.ofNat_ne_nil n
    | negSucc n => exact List.cons_ne_nil _ _
  · intro c hc
    rcases mem_ofInt hc with hword | rfl
    · exact not_isBlank_of_isWordChar hword
    · rfl

end Value

end LineTables
