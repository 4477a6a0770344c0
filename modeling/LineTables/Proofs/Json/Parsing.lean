import LineTables.Proofs.Json.Scanning

/-!
# Documents read from JSON

The reader of values and the grammar agree. What the reader takes is a value of the grammar, with the
text that it leaves behind it; and it takes every value of the grammar before anything that may follow
one. The number that bounds the nesting is never in the way: it is larger than the length of the text.
-/

set_option autoImplicit false

namespace LineTables.Json
open Text

variable {limit fuel : Nat}

theorem skipGap_append {g : Text} (hg : Gap g) (t : Text) : skipGap (g ++ t) = skipGap t := by
  rw [skipGap, List.dropWhile_append_of_pos (List.all_eq_true.1 hg), skipGap]

theorem skipGap_cons {c : Char} (h : isGap c = false) (t : Text) : skipGap (c :: t) = c :: t := by
  rw [skipGap, List.dropWhile_cons_of_neg (by simp [h])]

theorem skipGap_text {t rest : Text} (h : skipGap t = rest) : ∃ g, t = g ++ rest ∧ Gap g := by
  subst h
  exact ⟨_, List.takeWhile_append_dropWhile.symm, List.all_takeWhile⟩

theorem Gap.append {g h : Text} (hg : Gap g) (hh : Gap h) : Gap (g ++ h) := by
  rw [Gap, List.all_append, hg, hh]
  rfl

theorem Gap.follows {g : Text} (hg : Gap g) {rest : Text} (h : Follows rest) :
    Follows (g ++ rest) := by
  cases g with
  | nil => exact h
  | cons c g =>
    rw [Gap, List.all_cons, Bool.and_eq_true] at hg
    exact follows_cons (Or.inl hg.1) _

theorem ItemsText.gap {g t : Text} {items : List Json} (hg : Gap g) (h : ItemsText limit t items) :
    ItemsText limit (g ++ t) items := by
  cases h with
  | last h =>
    obtain ⟨hg', ht, hh⟩ := h
    rw [← List.append_assoc]
    exact .last (.between (hg.append hg') ht hh)
  | more h hu =>
    obtain ⟨hg', ht, hh⟩ := h
    rw [← List.append_assoc, ← List.append_assoc]
    exact .more (.between (hg.append hg') ht hh) hu

theorem NameText.gap {g n name : Text} (hg : Gap g) (h : NameText n name) :
    NameText (g ++ n) name := by
  obtain ⟨hg', ht, hh⟩ := h
  rw [← List.append_assoc]
  exact .between (hg.append hg') ht hh

theorem FieldsText.gap {g t : Text} {fields : List (Text × Json)} (hg : Gap g)
    (h : FieldsText limit t fields) : FieldsText limit (g ++ t) fields := by
  cases h with
  | last hn h =>
    rw [← List.append_assoc]
    exact .last (hn.gap hg) h
  | more hn h hu =>
    rw [← List.append_assoc]
    exact .more (hn.gap hg) h hu

theorem enclosed_append (a b : Char) (t rest : Text) :
    a :: (t ++ [b]) ++ rest = a :: (t ++ b :: rest) := by
  rw [List.cons_append, List.append_assoc, List.singleton_append]

/-- The text that was taken is one of the grammar, for each of the three readers. -/
structure Sound (limit fuel : Nat) : Prop where
  value : ∀ {t rest : Text} {v : Json}, value? limit fuel t = some (v, rest) →
    ∃ u, t = u ++ rest ∧ ValueText limit u v
  items : ∀ {t rest : Text} {items : List Json}, items? limit fuel t = some (items, rest) →
    ∃ u, t = u ++ ']' :: rest ∧ ItemsText limit u items
  fields : ∀ {t rest : Text} {fields : List (Text × Json)},
    fields? limit fuel t = some (fields, rest) →
      ∃ u, t = u ++ '}' :: rest ∧ FieldsText limit u fields

theorem value?_sound (ih : Sound limit fuel) {t rest : Text} {v : Json}
    (h : value? limit (fuel + 1) t = some (v, rest)) :
    ∃ u, t = u ++ rest ∧ ValueText limit u v := by
  rw [value?.eq_def] at h
  dsimp only at h
  split at h
  case h_1 r =>
    obtain ⟨⟨value, rest⟩, hread, heq⟩ := Option.map_eq_some_iff.1 h
    cases heq
    obtain ⟨u, rfl, hu⟩ := string?_text hread
    exact ⟨_, (enclosed_append _ _ _ _).symm, .string hu⟩
  case h_2 r =>
    split at h
    · rename_i hclose
      cases h
      obtain ⟨g, rfl, hg⟩ := skipGap_text hclose
      exact ⟨_, (enclosed_append _ _ _ _).symm, .emptyArray hg⟩
    · obtain ⟨⟨items, rest⟩, hread, heq⟩ := Option.map_eq_some_iff.1 h
      cases heq
      obtain ⟨u, hskip, hu⟩ := ih.items hread
      obtain ⟨g, rfl, hg⟩ := skipGap_text hskip
      exact ⟨'[' :: ((g ++ u) ++ [']']), by simp, .array (hu.gap hg)⟩
  case h_3 r =>
    split at h
    · rename_i hclose
      cases h
      obtain ⟨g, rfl, hg⟩ := skipGap_text hclose
      exact ⟨_, (enclosed_append _ _ _ _).symm, .emptyObject hg⟩
    · obtain ⟨⟨fields, rest⟩, hread, heq⟩ := Option.map_eq_some_iff.1 h
      cases heq
      obtain ⟨u, hskip, hu⟩ := ih.fields hread
      obtain ⟨g, rfl, hg⟩ := skipGap_text hskip
      exact ⟨'{' :: ((g ++ u) ++ ['}']), by simp, .object (hu.gap hg)⟩
  case h_4 => exact scalar?_text h

theorem items?_sound (ih : Sound limit fuel) {t rest : Text} {items : List Json}
    (h : items? limit (fuel + 1) t = some (items, rest)) :
    ∃ u, t = u ++ ']' :: rest ∧ ItemsText limit u items := by
  simp only [items?, Option.bind_eq_bind, Option.bind_eq_some_iff] at h
  obtain ⟨⟨item, r⟩, hitem, h⟩ := h
  obtain ⟨u, rfl, hu⟩ := ih.value hitem
  dsimp only at h
  split at h
  · rename_i r' hcomma
    simp only [Option.bind_eq_some_iff, Option.pure_def, Option.some.injEq, Prod.mk.injEq] at h
    obtain ⟨⟨more, rest⟩, hmore, rfl, rfl⟩ := h
    obtain ⟨w, hskip, hw⟩ := ih.items hmore
    obtain ⟨g, rfl, hg⟩ := skipGap_text hskip
    obtain ⟨g', rfl, hg'⟩ := skipGap_text hcomma
    exact ⟨(u ++ g') ++ ',' :: (g ++ w), by simp, .more (.between (g := []) rfl hu hg') (hw.gap hg)⟩
  · rename_i hclose
    cases h
    obtain ⟨g, rfl, hg⟩ := skipGap_text hclose
    exact ⟨u ++ g, by simp, .last (.between (g := []) rfl hu hg)⟩
  · cases h

theorem fields?_sound (ih : Sound limit fuel) {t rest : Text} {fields : List (Text × Json)}
    (h : fields? limit (fuel + 1) t = some (fields, rest)) :
    ∃ u, t = u ++ '}' :: rest ∧ FieldsText limit u fields := by
  rw [fields?.eq_def] at h
  dsimp only at h
  split at h
  case h_2 => cases h
  simp only [Option.bind_eq_bind, Option.bind_eq_some_iff] at h
  obtain ⟨⟨name, r⟩, hname, h⟩ := h
  obtain ⟨n, rfl, hn⟩ := string?_text hname
  dsimp only at h
  split at h
  case h_2 => cases h
  rename_i r' hcolon
  obtain ⟨g, rfl, hg⟩ := skipGap_text hcolon
  have hnamed : NameText ('"' :: (n ++ '"' :: g)) name := .between (g := []) rfl hn hg
  simp only [Option.bind_eq_some_iff] at h
  obtain ⟨⟨value, r⟩, hvalue, h⟩ := h
  obtain ⟨u, hskip, hu⟩ := ih.value hvalue
  obtain ⟨g₁, rfl, hg₁⟩ := skipGap_text hskip
  dsimp only at h
  split at h
  · rename_i r' hcomma
    simp only [Option.bind_eq_some_iff, Option.pure_def, Option.some.injEq, Prod.mk.injEq] at h
    obtain ⟨⟨more, rest⟩, hmore, rfl, rfl⟩ := h
    obtain ⟨w, hskip, hw⟩ := ih.fields hmore
    obtain ⟨g₂, rfl, hg₂⟩ := skipGap_text hskip
    obtain ⟨g₃, rfl, hg₃⟩ := skipGap_text hcomma
    exact ⟨_, by simp, .more hnamed (.between hg₁ hu hg₃) (hw.gap hg₂)⟩
  · rename_i hclose
    cases h
    obtain ⟨g₂, rfl, hg₂⟩ := skipGap_text hclose
    exact ⟨_, by simp, .last hnamed (.between hg₁ hu hg₂)⟩
  · cases h

theorem sound (limit fuel : Nat) : Sound limit fuel := by
  induction fuel with
  | zero => constructor <;> intro t rest result h <;> cases h
  | succ fuel ih => exact ⟨value?_sound ih, items?_sound ih, fields?_sound ih⟩

theorem valueText_head {t : Text} {v : Json} (h : ValueText limit t v) :
    ∃ c u, t = c :: u ∧ isGap c = false ∧ c ≠ ']' := by
  have hdigit : ∀ {d : Char}, isDigit d = true → isGap d = false ∧ d ≠ ']' := by
    intro d hd
    constructor
    · rw [← Bool.not_eq_true]
      intro hgap
      rw [(not_digit_of_gap hgap).1] at hd
      cases hd
    · rintro rfl
      cases hd
  cases h with
  | number h =>
    obtain ⟨d, u, rfl, hd⟩ := h.head
    exact ⟨d, u, rfl, hdigit hd⟩
  | null | true | false | nan | infinity | minusInfinity => exact ⟨_, _, rfl, rfl, by decide⟩
  | minus | string | emptyArray | array | emptyObject | object =>
    exact ⟨_, _, rfl, rfl, by decide⟩

theorem PaddedText.skipGap_append {t : Text} {v : Json} (h : PaddedText limit t v) :
    ∃ u g, ValueText limit u v ∧ Gap g ∧ u.length ≤ t.length ∧
      ∀ rest, skipGap (t ++ rest) = u ++ (g ++ rest) := by
  obtain @⟨g, u, g', _, hg, hu, hg'⟩ := h
  refine ⟨u, g', hu, hg', ?_, ?_⟩
  · simp only [List.length_append]
    omega
  · intro rest
    obtain ⟨c, t, rfl, hc, -⟩ := valueText_head hu
    rw [List.append_assoc, Json.skipGap_append hg, List.append_assoc, List.cons_append,
      skipGap_cons hc]

theorem NameText.skipGap_append {n name : Text} (h : NameText n name) :
    ∃ t g, StringText t name ∧ Gap g ∧
      ∀ rest, skipGap (n ++ rest) = '"' :: (t ++ '"' :: (g ++ rest)) := by
  obtain @⟨g, t, g', _, hg, ht, hg'⟩ := h
  refine ⟨t, g', ht, hg', ?_⟩
  intro rest
  rw [List.append_assoc, Json.skipGap_append hg, List.cons_append, skipGap_cons rfl,
    List.append_assoc, List.cons_append]

theorem ItemsText.head {t : Text} {items : List Json} (h : ItemsText limit t items) (rest : Text) :
    ∃ c w, skipGap (t ++ rest) = c :: w ∧ c ≠ ']' := by
  have hfirst : ∀ {t : Text} {v : Json}, PaddedText limit t v → ∀ rest,
      ∃ c w, skipGap (t ++ rest) = c :: w ∧ c ≠ ']' := by
    intro t v h rest
    obtain ⟨u, g, hu, -, -, hskip⟩ := h.skipGap_append
    obtain ⟨c, w, rfl, -, hc⟩ := valueText_head hu
    exact ⟨c, _, hskip rest, hc⟩
  cases h with
  | last h => exact hfirst h rest
  | more h hu =>
    rw [List.append_assoc]
    exact hfirst h _

theorem FieldsText.head {t : Text} {fields : List (Text × Json)} (h : FieldsText limit t fields)
    (rest : Text) : ∃ w, skipGap (t ++ rest) = '"' :: w := by
  cases h with
  | last hn _ =>
    obtain ⟨_, _, -, -, hskip⟩ := hn.skipGap_append
    rw [List.append_assoc]
    exact ⟨_, hskip _⟩
  | more hn _ _ =>
    obtain ⟨_, _, -, -, hskip⟩ := hn.skipGap_append
    rw [List.append_assoc]
    exact ⟨_, hskip _⟩

theorem value?_scalar {c : Char} (hquote : c ≠ '"') (hbracket : c ≠ '[') (hbrace : c ≠ '{')
    (t : Text) : value? limit (fuel + 1) (c :: t) = scalar? limit (c :: t) := by
  rw [value?.eq_def]
  dsimp only
  split
  · rename_i h
    exact absurd (List.cons.inj h).1 hquote
  · rename_i h
    exact absurd (List.cons.inj h).1 hbracket
  · rename_i h
    exact absurd (List.cons.inj h).1 hbrace
  · rfl

theorem value?_array {t rest : Text} {items : List Json}
    (hopen : ∀ w, skipGap t ≠ ']' :: w)
    (h : items? limit fuel (skipGap t) = some (items, rest)) :
    value? limit (fuel + 1) ('[' :: t) = some (array items, rest) := by
  rw [value?]
  split
  · rename_i hclose
    exact absurd hclose (hopen _)
  · rw [h]
    rfl

theorem value?_object {t rest : Text} {fields : List (Text × Json)}
    (hopen : ∀ w, skipGap t ≠ '}' :: w)
    (h : fields? limit fuel (skipGap t) = some (fields, rest)) :
    value? limit (fuel + 1) ('{' :: t) = some (object (Record.ofPairs fields), rest) := by
  rw [value?]
  split
  · rename_i hclose
    exact absurd hclose (hopen _)
  · rw [h]
    rfl

theorem items?_last {t r rest : Text} {item : Json}
    (h : value? limit fuel t = some (item, r)) (hr : skipGap r = ']' :: rest) :
    items? limit (fuel + 1) t = some ([item], rest) := by
  simp only [items?, h, Option.bind_eq_bind, Option.bind_some, hr]
  rfl

theorem items?_more {t r u rest : Text} {item : Json} {items : List Json}
    (h : value? limit fuel t = some (item, r)) (hr : skipGap r = ',' :: u)
    (hu : items? limit fuel (skipGap u) = some (items, rest)) :
    items? limit (fuel + 1) t = some (item :: items, rest) := by
  simp only [items?, h, Option.bind_eq_bind, Option.bind_some, hr, hu]
  rfl

theorem fields?_last {n name r t r' rest : Text} {v : Json} (hn : StringText n name)
    (hr : skipGap r = ':' :: t) (h : value? limit fuel (skipGap t) = some (v, r'))
    (hr' : skipGap r' = '}' :: rest) :
    fields? limit (fuel + 1) ('"' :: (n ++ '"' :: r)) = some ([(name, v)], rest) := by
  simp only [fields?, string?_of_text hn, Option.bind_eq_bind, Option.bind_some, hr, h, hr']
  rfl

theorem fields?_more {n name r t r' u rest : Text} {v : Json} {fields : List (Text × Json)}
    (hn : StringText n name) (hr : skipGap r = ':' :: t)
    (h : value? limit fuel (skipGap t) = some (v, r')) (hr' : skipGap r' = ',' :: u)
    (hu : fields? limit fuel (skipGap u) = some (fields, rest)) :
    fields? limit (fuel + 1) ('"' :: (n ++ '"' :: r)) = some ((name, v) :: fields, rest) := by
  simp only [fields?, string?_of_text hn, Option.bind_eq_bind, Option.bind_some, hr, h, hr', hu]
  rfl

/-- Each text of the grammar is taken by its reader, whatever may follow it. -/
structure Complete (limit fuel : Nat) : Prop where
  value : ∀ {u rest : Text} {v : Json}, ValueText limit u v → u.length ≤ fuel → Follows rest →
    value? limit fuel (u ++ rest) = some (v, rest)
  items : ∀ {u : Text} {items : List Json} (rest : Text), ItemsText limit u items →
    u.length < fuel → items? limit fuel (skipGap (u ++ ']' :: rest)) = some (items, rest)
  fields : ∀ {u : Text} {fields : List (Text × Json)} (rest : Text), FieldsText limit u fields →
    u.length < fuel → fields? limit fuel (skipGap (u ++ '}' :: rest)) = some (fields, rest)

theorem Complete.padded (ih : Complete limit fuel) {t : Text} {v : Json}
    (h : PaddedText limit t v) (hlength : t.length ≤ fuel) {rest : Text} (hr : Follows rest) :
    ∃ r, value? limit fuel (skipGap (t ++ rest)) = some (v, r) ∧ skipGap r = skipGap rest := by
  obtain ⟨u, g, hu, hg, hle, hskip⟩ := h.skipGap_append
  refine ⟨g ++ rest, ?_, Json.skipGap_append hg rest⟩
  rw [hskip]
  exact ih.value hu (Nat.le_trans hle hlength) (hg.follows hr)

theorem value?_complete (ih : Complete limit fuel) {u rest : Text} {v : Json}
    (h : ValueText limit u v) (hlength : u.length ≤ fuel + 1) (hr : Follows rest) :
    value? limit (fuel + 1) (u ++ rest) = some (v, rest) := by
  cases h with
  | null | true | false | nan | infinity | minusInfinity => rfl
  | number h =>
    have hread := (scalar?_of_magnitude hr).1 h
    obtain ⟨d, t, rfl, hd⟩ := h.head
    rw [List.cons_append] at hread ⊢
    rw [value?_scalar _ _ _, hread] <;> rintro rfl <;> cases hd
  | minus h =>
    have hread := (scalar?_of_magnitude hr).2 h
    rw [List.cons_append, value?_scalar (by decide) (by decide) (by decide), hread]
  | string h =>
    rw [enclosed_append, value?, string?_of_text h]
    rfl
  | emptyArray hg =>
    rw [enclosed_append, value?, skipGap_append hg]
    rfl
  | @array t _ h =>
    have hshort : t.length + 1 ≤ fuel := by simpa using hlength
    obtain ⟨c, w, hskip, hc⟩ := h.head (']' :: rest)
    rw [enclosed_append]
    apply value?_array _ (ih.items rest h hshort)
    intro w' hclose
    rw [hskip] at hclose
    exact hc (List.cons.inj hclose).1
  | emptyObject hg =>
    rw [enclosed_append, value?, skipGap_append hg]
    rfl
  | @object t _ h =>
    have hshort : t.length + 1 ≤ fuel := by simpa using hlength
    obtain ⟨w, hskip⟩ := h.head ('}' :: rest)
    rw [enclosed_append]
    apply value?_object _ (ih.fields rest h hshort)
    intro w' hclose
    rw [hskip] at hclose
    cases hclose

theorem items?_complete (ih : Complete limit fuel) {u : Text} {items : List Json} (rest : Text)
    (h : ItemsText limit u items) (hlength : u.length < fuel + 1) :
    items? limit (fuel + 1) (skipGap (u ++ ']' :: rest)) = some (items, rest) := by
  cases h with
  | last h =>
    obtain ⟨r, hread, hr⟩ := ih.padded h (by omega) (follows_cons (c := ']') (by simp) rest)
    exact items?_last hread (hr.trans (skipGap_cons rfl _))
  | @more t w v items h hu =>
    rw [List.length_append, List.length_cons] at hlength
    obtain ⟨r, hread, hr⟩ := ih.padded h (by omega)
      (follows_cons (c := ',') (by simp) (w ++ ']' :: rest))
    rw [List.append_assoc, List.cons_append]
    exact items?_more hread (hr.trans (skipGap_cons rfl _)) (ih.items rest hu (by omega))

theorem fields?_complete (ih : Complete limit fuel) {u : Text} {fields : List (Text × Json)}
    (rest : Text) (h : FieldsText limit u fields) (hlength : u.length < fuel + 1) :
    fields? limit (fuel + 1) (skipGap (u ++ '}' :: rest)) = some (fields, rest) := by
  cases h with
  | @last n t name v hn h =>
    rw [List.length_append, List.length_cons] at hlength
    obtain ⟨m, g, hm, hg, hskip⟩ := hn.skipGap_append
    obtain ⟨r, hread, hr⟩ := ih.padded h (by omega) (follows_cons (c := '}') (by simp) rest)
    rw [List.append_assoc, hskip]
    exact fields?_last hm (skipGap_append hg _) hread (hr.trans (skipGap_cons rfl _))
  | @more n t w name v fields hn h hu =>
    rw [List.length_append, List.length_cons, List.length_append, List.length_cons] at hlength
    obtain ⟨m, g, hm, hg, hskip⟩ := hn.skipGap_append
    obtain ⟨r, hread, hr⟩ := ih.padded h (by omega)
      (follows_cons (c := ',') (by simp) (w ++ '}' :: rest))
    rw [List.append_assoc, hskip]
    rw [← List.cons_append, ← List.append_assoc] at hread
    exact fields?_more hm (skipGap_append hg _) hread (hr.trans (skipGap_cons rfl _))
      (ih.fields rest hu (by omega))

theorem complete (limit fuel : Nat) : Complete limit fuel := by
  induction fuel with
  | zero =>
    constructor
    · intro u rest v h hlength _
      obtain ⟨c, t, rfl, -, -⟩ := valueText_head h
      cases hlength
    · intro u items rest _ hlength
      cases hlength
    · intro u fields rest _ hlength
      cases hlength
  | succ fuel ih =>
    exact ⟨value?_complete ih, fun rest => items?_complete ih rest,
      fun rest => fields?_complete ih rest⟩

/-- The reader gives a value for exactly the texts of the grammar that stand for it. -/
theorem read?_eq_some_iff {t : Text} {v : Json} :
    read? limit t = some v ↔ PaddedText limit t v := by
  constructor
  · intro h
    rw [read?] at h
    split at h
    · rename_i value rest hread
      split at h
      · rename_i hend
        cases h
        obtain ⟨u, hskip, hu⟩ := (sound limit _).value hread
        obtain ⟨g, rfl, hg⟩ := skipGap_text hskip
        obtain ⟨g', rfl, hg'⟩ := skipGap_text (List.isEmpty_iff.1 hend)
        rw [List.append_nil]
        exact .between hg hu hg'
      · cases h
    · cases h
  · intro h
    obtain ⟨r, hread, hr⟩ := (complete limit (t.length + 1)).padded h (Nat.le_succ _) follows_nil
    rw [List.append_nil] at hread
    rw [read?, hread]
    dsimp only
    rw [hr]
    rfl

end LineTables.Json
