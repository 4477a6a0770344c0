import LineTables.Proofs.Condition.Addressing

/-!
# The written form of a condition

Comparisons of columns with texts in double quotes are read back from the condition that joins them, as long
as no text holds a double quote or something at which a condition is cut. Blanks at the ends of a text are kept
by the quotes around it, and a column may be called like a joint, since no blank follows its name.
-/

set_option autoImplicit false

namespace LineTables
open Text

theorem Text.infix_joined {separator : Text} {parts : List Text} (h : 1 < parts.length) :
    separator <:+: joined separator parts := by
  match parts, h with
  | part :: next :: rest, _ => exact ⟨part, joined separator (next :: rest), rfl⟩

namespace Condition

def comparisons (joint : Text) (pairs : List (Text × Text)) : Text :=
  joined joint (pairs.map fun pair => equating pair.1 pair.2)

/-- The comparison can be read back: the column is a valid name, and the text has nothing at which a
condition is cut and no double quote. -/
structure Writable (pair : Text × Text) : Prop where
  column : isValidName pair.1 = true
  uncut : Uncut pair.2
  noQuote : '"' ∉ pair.2

theorem Writable.termOf_eq {pair : Text × Text} (h : Writable pair) :
    termOf (equating pair.1 pair.2) = some ⟨pair.1, pair.2⟩ := by
  rw [termOf_equating h.column h.uncut.noEquals, filter_quote_eq_iff.2 h.noQuote]

theorem Writable.noBlank {pair : Text × Text} (h : Writable pair) : ' ' ∉ pair.1 :=
  (isWord_of_isValidName h.column).not_mem (punctuation ' ' (by simp))

theorem clear_equating {joint : Text} (hjoint : joint = Joint.andSeparator ∨ joint = Joint.orSeparator)
    (column t : Text) : Clear joint (equating column t) := by
  have hends : ∀ part : Text, part.getLast? ≠ some '"' → part ≠ [] → ¬ part <:+ equating column t := by
    rintro part hlast hne ⟨before, hsuffix⟩
    have hquote : (equating column t).getLast? = some '"' := by
      rw [equating, inQuotes, ← List.cons_append, ← List.append_assoc, List.getLast?_concat]
    rw [← hsuffix, List.getLast?_append_of_ne_nil before hne] at hquote
    exact hlast hquote
  rcases hjoint with rfl | rfl
  · exact clear_of_not_suffix Joint.and_overlap (hends _ (by decide) (by decide))
  · exact clear_of_not_suffix Joint.or_overlap (hends _ (by decide) (by decide))

theorem pieces_comparisons {joint : Text}
    (hjoint : joint = Joint.andSeparator ∨ joint = Joint.orSeparator) {pairs : List (Text × Text)}
    (hne : pairs ≠ []) (h : ∀ pair ∈ pairs, Writable pair) :
    pieces joint (comparisons joint pairs) = pairs.map fun pair => equating pair.1 pair.2 := by
  have hnil : joint ≠ [] := by rcases hjoint with rfl | rfl <;> decide
  apply pieces_joined hnil (by simpa using hne)
  intro part hpart
  obtain ⟨pair, hm, rfl⟩ := List.mem_map.1 hpart
  refine ⟨?_, clear_equating hjoint pair.1 pair.2⟩
  rcases hjoint with rfl | rfl
  · exact not_infix_equating rfl rfl (h pair hm).noBlank (h pair hm).uncut.noAnd
  · exact not_infix_equating rfl rfl (h pair hm).noBlank (h pair hm).uncut.noOr

/-- No ` AND ` comes about where comparisons are joined by ` OR `: it would have to begin with the last
character of a joint, and a column has an equals sign right behind it. -/
theorem not_infix_comparisons {pairs : List (Text × Text)} (h : ∀ pair ∈ pairs, Writable pair) :
    ¬ Joint.andSeparator <:+: comparisons Joint.orSeparator pairs := by
  induction pairs with
  | nil => decide
  | cons pair pairs ih =>
    have hpair := h pair List.mem_cons_self
    have hfirst : ¬ Joint.andSeparator <:+: equating pair.1 pair.2 :=
      not_infix_equating rfl rfl hpair.noBlank hpair.uncut.noAnd
    cases pairs with
    | nil => exact hfirst
    | cons next pairs =>
      have hnext := h next (by simp)
      have hrest := ih fun p hm => h p (List.mem_cons_of_mem pair hm)
      obtain ⟨rest, heq⟩ : ∃ rest,
          comparisons Joint.orSeparator (next :: pairs) = next.1 ++ '=' :: rest := by
        cases pairs with
        | nil => exact ⟨_, rfl⟩
        | cons third pairs =>
          exact ⟨_, by simp [comparisons, joined, equating]; rfl⟩
      have hwhole : comparisons Joint.orSeparator (pair :: next :: pairs) =
          ((pair.1 ++ '=' :: '"' :: pair.2) ++ '"' :: (Joint.orSeparator ++ next.1)) ++ '=' :: rest := by
        show equating pair.1 pair.2 ++ Joint.orSeparator ++
          comparisons Joint.orSeparator (next :: pairs) = _
        rw [heq]
        simp [equating, inQuotes]
      have hbegin : pair.1 ++ '=' :: '"' :: pair.2 <:+: equating pair.1 pair.2 :=
        ⟨[], ['"'], by simp [equating, inQuotes]⟩
      have hend : rest <:+: comparisons Joint.orSeparator (next :: pairs) :=
        ⟨next.1 ++ ['='], [], by rw [heq]; simp⟩
      rw [hwhole, infix_append_cons_iff (by decide), infix_append_cons_iff (by decide),
        infix_append_right_iff rfl hnext.noBlank]
      rintro ((h | h) | h)
      · exact hfirst (h.trans hbegin)
      · exact absurd h (by decide)
      · exact hrest (h.trans hend)

variable {pairs : List (Text × Text)}

theorem map_termOf_equating (h : ∀ pair ∈ pairs, Writable pair) :
    (pairs.map fun pair => equating pair.1 pair.2).map termOf =
      pairs.map fun pair => some ⟨pair.1, pair.2⟩ := by
  rw [List.map_map]
  exact List.map_congr_left fun pair hm => (h pair hm).termOf_eq

theorem ofText_comparison (joint : Text) {pair : Text × Text} (h : Writable pair) :
    ofText (comparisons joint [pair]) = ⟨.single, [some ⟨pair.1, pair.2⟩]⟩ := by
  show ofText (equating pair.1 pair.2) = _
  rw [ofText_equating h.column h.uncut, filter_quote_eq_iff.2 h.noQuote]

theorem infix_comparisons (joint : Text) (h : 1 < pairs.length) :
    joint <:+: comparisons joint pairs :=
  infix_joined (by rwa [List.length_map])

theorem ofText_comparisons {joint : Text}
    (hjoint : joint = Joint.andSeparator ∨ joint = Joint.orSeparator) (kind : Joint)
    (hjoined : joint <:+: comparisons joint pairs → ofText (comparisons joint pairs) =
      ⟨kind, (pieces joint (comparisons joint pairs)).map termOf⟩)
    (hne : pairs ≠ []) (h : ∀ pair ∈ pairs, Writable pair) :
    ofText (comparisons joint pairs) =
      ⟨if pairs.length = 1 then .single else kind, pairs.map fun pair => some ⟨pair.1, pair.2⟩⟩ := by
  by_cases hlength : pairs.length = 1
  · obtain ⟨pair, rfl⟩ := List.length_eq_one_iff.1 hlength
    exact ofText_comparison _ (h pair List.mem_cons_self)
  · have hmore : 1 < pairs.length := by
      have hpos := List.length_pos_iff.2 hne
      omega
    rw [if_neg hlength, hjoined (infix_comparisons _ hmore), pieces_comparisons hjoint hne h,
      map_termOf_equating h]

theorem ofText_comparisons_and (hne : pairs ≠ []) (h : ∀ pair ∈ pairs, Writable pair) :
    ofText (comparisons Joint.andSeparator pairs) =
      ⟨if pairs.length = 1 then .single else .all, pairs.map fun pair => some ⟨pair.1, pair.2⟩⟩ :=
  ofText_comparisons (.inl rfl) .all ofText_of_and hne h

theorem ofText_comparisons_or (hne : pairs ≠ []) (h : ∀ pair ∈ pairs, Writable pair) :
    ofText (comparisons Joint.orSeparator pairs) =
      ⟨if pairs.length = 1 then .single else .any, pairs.map fun pair => some ⟨pair.1, pair.2⟩⟩ :=
  ofText_comparisons (.inr rfl) .any (ofText_of_or (not_infix_comparisons h)) hne h

/-- Comparisons with a joint between them are read back as they were written, and hold of a row where all
of its columns, or one of them, has a value with the text that was asked for. -/
theorem comparisons_read_back (hne : pairs ≠ []) (h : ∀ pair ∈ pairs, Writable pair) :
    ofText (comparisons " AND ".toList pairs) =
      ⟨if pairs.length = 1 then .single else .all, pairs.map fun pair => some ⟨pair.1, pair.2⟩⟩ ∧
    ofText (comparisons " OR ".toList pairs) =
      ⟨if pairs.length = 1 then .single else .any, pairs.map fun pair => some ⟨pair.1, pair.2⟩⟩ ∧
    ∀ row : Record (Option Value), row.names.Nodup →
      (holdsFor (comparisons " AND ".toList pairs) (Row.filled row) = true ↔
        ∀ pair ∈ pairs, ∃ value, row.get? pair.1 = some (some value) ∧ value.shown = pair.2) ∧
      (holdsFor (comparisons " OR ".toList pairs) (Row.filled row) = true ↔
        ∃ pair ∈ pairs, ∃ value, row.get? pair.1 = some (some value) ∧ value.shown = pair.2) := by
  have hand := ofText_comparisons_and hne h
  refine ⟨hand, ofText_comparisons_or hne h, ?_⟩
  intro row hn
  have hpair : ∀ pair ∈ pairs,
      (termHolds (Row.filled row) (termOf (equating pair.1 pair.2)) = true ↔
        ∃ value, row.get? pair.1 = some (some value) ∧ value.shown = pair.2) := by
    intro pair hm
    rw [(h pair hm).termOf_eq]
    exact term_holds_filled_iff hn
  have hjoint : (ofText (comparisons Joint.andSeparator pairs)).joint ≠ .any := by
    rw [hand]
    split <;> exact nofun
  constructor
  · show holdsFor (comparisons Joint.andSeparator pairs) (Row.filled row) = true ↔ _
    rw [holdsFor_eq_all _ hjoint, pieces_comparisons (.inl rfl) hne h, List.all_map, List.all_eq_true]
    exact forall₂_congr hpair
  · show holdsFor (comparisons Joint.orSeparator pairs) (Row.filled row) = true ↔ _
    rw [holdsFor_eq_any _ (not_infix_comparisons h), pieces_comparisons (.inr rfl) hne h, List.any_map,
      List.any_eq_true]
    exact exists_congr fun pair => and_congr_right fun hm => hpair pair hm

theorem comparisons_read_back_joints :
    let pairs := [("AND".toList, " x AND".toList), ("OR".toList, []), ("a".toList, "-7".toList)]
    let row : Record (Option Value) :=
      [("AND".toList, some (.text " x AND".toList)), ("OR".toList, none), ("a".toList, some (.int (-7)))]
    (∀ pair ∈ pairs, Writable pair) ∧ row.names.Nodup ∧
      (ofText "AND=\" x AND\" AND OR=\"\" AND a=\"-7\"".toList).terms =
        pairs.map (fun pair => some ⟨pair.1, pair.2⟩) ∧
      holdsFor "AND=\" x AND\" AND OR=\"\" AND a=\"-7\"".toList (Row.filled row) = false ∧
      holdsFor "AND=\" x AND\" OR OR=\"\" OR a=\"-7\"".toList (Row.filled row) = true := by
  intro pairs row
  have hwritable : ∀ pair ∈ pairs, Writable pair := by
    simp only [pairs, List.forall_mem_cons]
    exact ⟨⟨by decide, ⟨by decide, by decide, by decide⟩, by decide⟩,
      ⟨by decide, ⟨by decide, by decide, by decide⟩, by decide⟩,
      ⟨by decide, ⟨by decide, by decide, by decide⟩, by decide⟩, nofun⟩
  have hn : row.names.Nodup := by decide
  obtain ⟨hand, -, hrows⟩ := comparisons_read_back (by decide) hwritable
  obtain ⟨hall, hany⟩ := hrows row hn
  refine ⟨hwritable, hn, congrArg Condition.terms hand, ?_, ?_⟩
  · rw [Bool.eq_false_iff]
    intro hholds
    obtain ⟨value, hvalue, -⟩ := hall.1 hholds ("OR".toList, []) (by decide)
    cases hvalue
  · exact hany.2 ⟨("a".toList, "-7".toList), by decide, .int (-7), rfl, by decide⟩

end Condition
end LineTables
