import LineTables.Text.Blank

/-!
# Cutting a text into pieces

A text is cut at every separating character, or at every occurrence of a separating text read from
the left without overlaps. No piece is ever lost: neighbouring separators leave an empty piece
between them, and joining the pieces with the separator gives the text back.
-/

set_option autoImplicit false

namespace LineTables.Text

def extendFirst (c : Char) : List Text → List Text
  | [] => [[c]]
  | piece :: pieces => (c :: piece) :: pieces

def cutWhere (separates : Char → Bool) : Text → List Text
  | [] => [[]]
  | c :: t =>
    if separates c then [] :: cutWhere separates t else extendFirst c (cutWhere separates t)

def cutAt (separator : Char) (t : Text) : List Text := cutWhere (· == separator) t

def runsOutside (separates : Char → Bool) (t : Text) : List Text :=
  (cutWhere separates t).filter (!·.isEmpty)

def words (t : Text) : List Text := runsOutside isBlank t

/-- The pieces of a text whose first characters, as many as `skip` says, belong to a separator
found before. -/
def piecesSkipping (separator : Text) : Nat → Text → List Text
  | _, [] => [[]]
  | skip + 1, _ :: t => piecesSkipping separator skip t
  | 0, c :: t =>
    if (after? separator (c :: t)).isSome then
      [] :: piecesSkipping separator (separator.length - 1) t
    else
      extendFirst c (piecesSkipping separator 0 t)

def pieces (separator t : Text) : List Text := piecesSkipping separator 0 t

theorem extendFirst_ne_nil (c : Char) (ps : List Text) : extendFirst c ps ≠ [] := by
  cases ps <;> simp [extendFirst]

theorem cutWhere_ne_nil (separates : Char → Bool) (t : Text) : cutWhere separates t ≠ [] := by
  cases t with
  | nil => simp [cutWhere]
  | cons c t =>
    rw [cutWhere]
    split
    · simp
    · exact extendFirst_ne_nil c _

theorem joined_extendFirst (separator : Text) (c : Char) {ps : List Text} (h : ps ≠ []) :
    joined separator (extendFirst c ps) = c :: joined separator ps := by
  match ps, h with
  | [_], _ => rfl
  | _ :: _ :: _, _ => rfl

theorem joined_cutAt (separator : Char) (t : Text) :
    joined [separator] (cutAt separator t) = t := by
  induction t with
  | nil => rfl
  | cons c t ih =>
    rw [cutAt, cutWhere]
    split
    case isTrue h =>
      rw [joined_cons _ _ (cutWhere_ne_nil _ t)]
      rw [cutAt] at ih
      simp [ih, eq_of_beq h]
    case isFalse =>
      rw [joined_extendFirst _ _ (cutWhere_ne_nil _ t)]
      exact congrArg (c :: ·) ih

theorem cutWhere_eq_singleton {separates : Char → Bool} {t : Text}
    (h : ∀ c ∈ t, separates c = false) : cutWhere separates t = [t] := by
  induction t with
  | nil => rfl
  | cons c t ih =>
    rw [cutWhere, if_neg (by simp [h c List.mem_cons_self]),
      ih (fun d hd => h d (List.mem_cons_of_mem c hd)), extendFirst]

theorem cutWhere_append_cons {separates : Char → Bool} {t : Text} {s : Char}
    (h : ∀ c ∈ t, separates c = false) (hs : separates s = true) (rest : Text) :
    cutWhere separates (t ++ s :: rest) = t :: cutWhere separates rest := by
  induction t with
  | nil => simp [cutWhere, hs]
  | cons c t ih =>
    rw [List.cons_append, cutWhere, if_neg (by simp [h c List.mem_cons_self]),
      ih (fun d hd => h d (List.mem_cons_of_mem c hd)), extendFirst]

theorem cutAt_joined {separator : Char} {parts : List Text} (hne : parts ≠ [])
    (h : ∀ part ∈ parts, separator ∉ part) :
    cutAt separator (joined [separator] parts) = parts := by
  induction parts with
  | nil => exact absurd rfl hne
  | cons part parts ih =>
    have hpart : ∀ c ∈ part, (c == separator) = false := fun c hc => by
      simp only [beq_eq_false_iff_ne]
      rintro rfl
      exact h part List.mem_cons_self hc
    by_cases hp : parts = []
    · subst hp
      exact cutWhere_eq_singleton hpart
    · rw [joined_cons _ _ hp, List.append_assoc, List.singleton_append, cutAt,
        cutWhere_append_cons hpart (by simp)]
      exact congrArg (part :: ·) (ih hp (fun p hmem => h p (List.mem_cons_of_mem part hmem)))

end LineTables.Text
