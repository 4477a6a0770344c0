import LineTables.Proofs.Json.Grammar

/-!
# Strings, numbers and words read from JSON

The reader of each kind of token takes the tokens of the grammar and nothing else. A string ends at its
quote, whatever follows; a number is read whole only where what follows does not go on with it.
-/

set_option autoImplicit false

namespace LineTables.Json
open Text

inductive UnitsText : Text → List Nat → Prop
  | nil : UnitsText [] []
  | cons {t u : Text} {n : Nat} {units : List Nat} (h : UnitText t n) (hu : UnitsText u units) :
      UnitsText (t ++ u) (n :: units)

theorem units?_text {t rest : Text} {units : List Nat} (h : units? t = some (units, rest)) :
    ∃ u, t = u ++ '"' :: rest ∧ UnitsText u units := by
  fun_induction units? t generalizing units rest with
  | case1 => cases h
  | case2 t =>
    cases h
    exact ⟨[], rfl, .nil⟩
  | case3 a b c d t ih =>
    simp only [Option.bind_eq_bind, Option.bind_eq_some_iff, Option.pure_def, Option.some.injEq,
      Prod.mk.injEq] at h
    obtain ⟨unit, hunit, ⟨more, rest⟩, hmore, rfl, rfl⟩ := h
    obtain ⟨u, rfl, hu⟩ := ih hmore
    exact ⟨_, rfl, .cons (.code hunit) hu⟩
  | case4 c t hnocode ih =>
    simp only [Option.bind_eq_bind, Option.bind_eq_some_iff, Option.pure_def, Option.some.injEq,
      Prod.mk.injEq] at h
    obtain ⟨unit, hunit, ⟨more, rest⟩, hmore, rfl, rfl⟩ := h
    obtain ⟨u, rfl, hu⟩ := ih hmore
    exact ⟨_, rfl, .cons (.escape hunit) hu⟩
  | case5 => cases h
  | case6 c t hquote _ _ go hplain =>
    rename_i ih
    simp only [Bool.or_eq_true, beq_iff_eq, decide_eq_true_eq, not_or, Nat.not_lt] at hplain
    simp only [go, Option.bind_eq_bind, Option.bind_eq_some_iff, Option.pure_def, Option.some.injEq,
      Prod.mk.injEq] at h
    obtain ⟨⟨more, rest⟩, hmore, rfl, rfl⟩ := h
    obtain ⟨u, rfl, hu⟩ := ih hmore
    exact ⟨_, rfl, .cons (.plain hquote hplain.1 hplain.2) hu⟩

theorem paired?_text {units : List Nat} {value t : Text} (h : paired? units = some value)
    (ht : UnitsText t units) : StringText t value := by
  fun_induction paired? units generalizing value t with
  | case1 =>
    cases h
    cases ht
    exact .nil
  | case2 high low units hpair ih =>
    rw [Bool.and_eq_true] at hpair
    obtain ⟨more, hmore, rfl⟩ := Option.map_eq_some_iff.1 h
    obtain _ | ⟨hhigh, ht⟩ := ht
    obtain _ | ⟨hlow, ht⟩ := ht
    rw [← List.append_assoc]
    exact .cons (.pair hhigh hpair.1 hlow hpair.2) (ih hmore ht)
  | case3 => cases h
  | case4 high low units hpair hsingle ih =>
    rw [Bool.or_eq_true, not_or] at hsingle
    obtain ⟨more, hmore, rfl⟩ := Option.map_eq_some_iff.1 h
    obtain _ | ⟨hhigh, ht⟩ := ht
    exact .cons (.single hhigh (Bool.eq_false_iff.2 hsingle.1) (Bool.eq_false_iff.2 hsingle.2)) (ih hmore ht)
  | case5 => cases h
  | case6 unit hsingle =>
    rw [Bool.or_eq_true, not_or] at hsingle
    cases h
    obtain _ | ⟨hunit, ht⟩ := ht
    cases ht
    exact .cons (.single hunit (Bool.eq_false_iff.2 hsingle.1) (Bool.eq_false_iff.2 hsingle.2)) .nil

theorem string?_text {t rest value : Text} (h : string? t = some (value, rest)) :
    ∃ u, t = u ++ '"' :: rest ∧ StringText u value := by
  simp only [string?, Option.bind_eq_bind, Option.bind_eq_some_iff, Option.pure_def,
    Option.some.injEq, Prod.mk.injEq] at h
  obtain ⟨⟨units, rest⟩, hunits, value, hvalue, rfl, rfl⟩ := h
  obtain ⟨u, ht, hu⟩ := units?_text hunits
  exact ⟨u, ht, paired?_text hvalue hu⟩

theorem units?_cons {c : Char} (hquote : c ≠ '"') (hslash : c ≠ '\\') (hc : 0x20 ≤ c.toNat)
    (t : Text) : units? (c :: t) = (units? t).map fun read => (c.toNat :: read.1, read.2) := by
  have hpass : (c == '\\' || decide (c.toNat < 0x20)) = false := by
    simp [hslash, hc]
  rw [units?.eq_def]
  split
  · rename_i h
    cases h
  · rename_i h
    exact absurd (List.cons.inj h).1 hquote
  · rename_i h
    exact absurd (List.cons.inj h).1 hslash
  · rename_i h
    exact absurd (List.cons.inj h).1 hslash
  · rename_i h
    obtain ⟨rfl, rfl⟩ := List.cons.inj h
    rw [hpass]
    cases units? t <;> rfl

theorem units?_of_text {t : Text} {n : Nat} (h : UnitText t n) (rest : Text) :
    units? (t ++ rest) = (units? rest).map fun read => (n :: read.1, read.2) := by
  cases h with
  | plain hquote hslash hc => exact units?_cons hquote hslash hc rest
  | @escape letter c h =>
    have hu : letter ≠ 'u' := by
      rintro rfl
      cases h
    rw [List.cons_append, List.cons_append, List.nil_append, units?]
    · rw [h]
      cases units? rest <;> rfl
    · intro a b c d t hletter
      exact absurd hletter hu
  | @code a b c d n h =>
    show units? ('\\' :: 'u' :: a :: b :: c :: d :: rest) = _
    rw [units?, h]
    cases units? rest <;> rfl

theorem paired?_single {n : Nat} (hhigh : isHigh n = false) (hlow : isLow n = false)
    (units : List Nat) : paired? (n :: units) = (paired? units).map (Char.ofNat n :: ·) := by
  cases units with
  | nil => simp [paired?, hhigh, hlow]
  | cons low units => simp [paired?, hhigh, hlow]

theorem paired?_pair {high low : Nat} (hhigh : isHigh high = true) (hlow : isLow low = true)
    (units : List Nat) : paired? (high :: low :: units) = (paired? units).map
      (Char.ofNat (0x10000 + (high - 0xD800) * 0x400 + (low - 0xDC00)) :: ·) := by
  rw [paired?, hhigh, hlow]
  rfl

theorem units?_of_stringText {t value : Text} (h : StringText t value) (rest : Text) :
    ∃ units, units? (t ++ '"' :: rest) = some (units, rest) ∧ paired? units = some value := by
  induction h with
  | nil => exact ⟨[], rfl, rfl⟩
  | cons h _ ih =>
    obtain ⟨units, hunits, hpaired⟩ := ih
    cases h with
    | @single _ n h hhigh hlow =>
      refine ⟨n :: units, ?_, ?_⟩
      · rw [List.append_assoc, units?_of_text h, hunits]
        rfl
      · rw [paired?_single hhigh hlow, hpaired]
        rfl
    | @pair _ _ high low h hhigh h' hlow =>
      refine ⟨high :: low :: units, ?_, ?_⟩
      · rw [List.append_assoc, List.append_assoc, units?_of_text h, units?_of_text h', hunits]
        rfl
      · rw [paired?_pair hhigh hlow, hpaired]
        rfl

theorem string?_of_text {t value : Text} (h : StringText t value) (rest : Text) :
    string? (t ++ '"' :: rest) = some (value, rest) := by
  obtain ⟨units, hunits, hpaired⟩ := units?_of_stringText h rest
  rw [string?, hunits]
  show (paired? units).bind _ = _
  rw [hpaired]
  rfl

def NoDigit (rest : Text) : Prop := ∀ c t, rest = c :: t → isDigit c = false

theorem digits_append {ds rest : Text} (h : ds.all isDigit = true) (hr : NoDigit rest) :
    digits (ds ++ rest) = (ds, rest) := by
  have hall : ∀ c ∈ ds, isDigit c = true := List.all_eq_true.1 h
  rw [digits, List.takeWhile_append_of_pos hall, List.dropWhile_append_of_pos hall]
  cases rest with
  | nil => simp
  | cons c t =>
    have hc := hr c t rfl
    rw [List.takeWhile_cons_of_neg (by simp [hc]), List.dropWhile_cons_of_neg (by simp [hc]),
      List.append_nil]

theorem digits_text {t ds rest : Text} (h : digits t = (ds, rest)) :
    t = ds ++ rest ∧ ds.all isDigit = true := by
  cases h
  exact ⟨List.takeWhile_append_dropWhile.symm, List.all_takeWhile⟩

theorem fraction_text {t places rest : Text} (h : fraction t = (places, rest)) :
    ∃ point, t = point ++ rest ∧ FractionText point places ∧ (places = [] → point = []) := by
  rw [fraction.eq_def] at h
  split at h
  · rename_i r
    split at h
    · cases h
      exact ⟨[], rfl, .missing, fun _ => rfl⟩
    · rename_i hne
      rw [h] at hne
      obtain ⟨rfl, hall⟩ := digits_text h
      have hds : DigitsText places := ⟨by simpa using hne, hall⟩
      exact ⟨'.' :: places, rfl, .digits hds, fun hnil => absurd hnil hds.1⟩
  · cases h
    exact ⟨[], rfl, .missing, fun _ => rfl⟩

theorem signed_text {t rest : Text} {negative : Bool} (h : signed t = (negative, rest)) :
    ∃ sign, t = sign ++ rest ∧ SignText sign negative := by
  rw [signed.eq_def] at h
  split at h
  · cases h
    exact ⟨['-'], rfl, .minus⟩
  · cases h
    exact ⟨['+'], rfl, .plus⟩
  · cases h
    exact ⟨[], rfl, .missing⟩

theorem exponent?_text {t rest : Text} {size : Int} (h : exponent? t = some (size, rest)) :
    ∃ exponent, t = exponent ++ rest ∧ exponent ≠ [] ∧ ExponentText exponent (some size) := by
  rw [exponent?.eq_def] at h
  split at h
  · rename_i e r
    split at h
    · rename_i hc
      rw [Bool.or_eq_true, beq_iff_eq, beq_iff_eq] at hc
      cases hsigned : signed r with
      | mk negative more =>
      cases hdigits : digits more with
      | mk ds after =>
      obtain ⟨sign, rfl, hsign⟩ := signed_text hsigned
      obtain ⟨rfl, hall⟩ := digits_text hdigits
      rw [hsigned] at h
      dsimp only at h
      rw [hdigits] at h
      dsimp only at h
      split at h
      · cases h
      · rename_i hne
        cases h
        have hds : DigitsText ds := ⟨by simpa using hne, hall⟩
        exact ⟨e :: (sign ++ ds), by simp, List.cons_ne_nil _ _, .digits hc hsign hds⟩
    · cases h
  · cases h

theorem exponent?_getD_text (t : Text) :
    ∃ exponent e rest, (exponent? t).getD (0, t) = (e.getD 0, rest) ∧ t = exponent ++ rest ∧
      ExponentText exponent e ∧ (exponent? t ≠ none → exponent ≠ []) := by
  cases h : exponent? t with
  | none => exact ⟨[], none, t, rfl, rfl, .missing, fun hne => absurd rfl hne⟩
  | some read =>
    obtain ⟨size, rest⟩ := read
    obtain ⟨exponent, ht, hne, he⟩ := exponent?_text h
    exact ⟨exponent, some size, rest, rfl, ht, he, fun _ => hne⟩

theorem wholePart_text {t whole rest : Text} (h : wholePart t = (whole, rest)) (hne : whole ≠ []) :
    t = whole ++ rest ∧ WholeText whole := by
  rw [wholePart.eq_def] at h
  split at h
  · cases h
    exact ⟨rfl, Or.inl rfl⟩
  · rename_i hzero
    obtain ⟨rfl, hall⟩ := digits_text h
    refine ⟨rfl, Or.inr ⟨⟨hne, hall⟩, ?_⟩⟩
    rintro u rfl
    exact hzero _ rfl

variable {limit : Nat} {negative : Bool}

theorem magnitude?_int {t whole rest : Text} (hwhole : wholePart t = (whole, rest))
    (hne : whole ≠ []) (hfraction : fraction rest = ([], rest)) (hexponent : exponent? rest = none) :
    magnitude? limit negative t =
      if limit < whole.length then none
      else some (int (Numeral.value ⟨negative, whole⟩), rest) := by
  have hempty : whole.isEmpty = false := by simpa using hne
  rw [magnitude?, hwhole]
  simp only [hempty, hfraction, hexponent]
  rfl

theorem magnitude?_float {t whole afterWhole places afterPlaces : Text}
    (hwhole : wholePart t = (whole, afterWhole)) (hne : whole ≠ [])
    (hfraction : fraction afterWhole = (places, afterPlaces))
    (h : places ≠ [] ∨ exponent? afterPlaces ≠ none) :
    magnitude? limit negative t =
      some (float (Binary64.ofDecimal negative (Nat.ofDigitChars 10 (whole ++ places) 0)
          (((exponent? afterPlaces).getD (0, afterPlaces)).1 - places.length)),
        ((exponent? afterPlaces).getD (0, afterPlaces)).2) := by
  have hempty : whole.isEmpty = false := by simpa using hne
  rw [magnitude?, hwhole]
  simp only [hempty, hfraction]
  cases places with
  | nil =>
    cases hexponent : exponent? afterPlaces with
    | none => exact absurd hexponent (h.resolve_left (absurd rfl))
    | some e => rfl
  | cons c places => cases exponent? afterPlaces <;> rfl

theorem magnitude?_text {t rest : Text} {v : Json}
    (h : magnitude? limit negative t = some (v, rest)) :
    ∃ u, t = u ++ rest ∧ MagnitudeText limit negative u v := by
  cases hwhole : wholePart t with
  | mk whole afterWhole =>
  cases hfraction : fraction afterWhole with
  | mk places afterPlaces =>
  have hne : whole ≠ [] := by
    rintro rfl
    rw [magnitude?, hwhole] at h
    cases h
  obtain ⟨rfl, hw⟩ := wholePart_text hwhole hne
  obtain ⟨point, rfl, hpoint, hnil⟩ := fraction_text hfraction
  by_cases hint : places = [] ∧ exponent? afterPlaces = none
  · obtain ⟨rfl, hexponent⟩ := hint
    obtain rfl : point = [] := hnil rfl
    rw [magnitude?_int hwhole hne hfraction hexponent] at h
    split at h
    · cases h
    · rename_i hlimit
      cases h
      exact ⟨whole, rfl, .int hw (Nat.not_lt.1 hlimit)⟩
  · have hfloat : places ≠ [] ∨ exponent? afterPlaces ≠ none := Decidable.not_and_iff_or_not.1 hint
    obtain ⟨exponent, e, after, hget, rfl, he, hsome⟩ := exponent?_getD_text afterPlaces
    rw [magnitude?_float hwhole hne hfraction hfloat, hget] at h
    cases h
    have hparts : point ≠ [] ∨ exponent ≠ [] := by
      apply hfloat.imp _ hsome
      rintro hplaces rfl
      cases hpoint
      exact hplaces rfl
    exact ⟨_, by simp, .float hw hpoint he hparts⟩

structure NumberEnds (rest : Text) : Prop where
  noDigit : NoDigit rest
  noPoint : ∀ t, rest ≠ '.' :: t
  noExponent : ∀ c t, rest = c :: t → c ≠ 'e' ∧ c ≠ 'E'

theorem noDigit_cons {c : Char} (h : isDigit c = false) (t : Text) : NoDigit (c :: t) := by
  intro d u heq
  cases heq
  exact h

theorem wholePart_append {whole rest : Text} (h : WholeText whole) (hr : NoDigit rest) :
    wholePart (whole ++ rest) = (whole, rest) ∧ whole ≠ [] := by
  rcases h with rfl | ⟨⟨hne, hall⟩, hzero⟩
  · exact ⟨rfl, List.cons_ne_nil _ _⟩
  · refine ⟨?_, hne⟩
    rw [wholePart, digits_append hall hr]
    intro r heq
    cases whole with
    | nil => exact hne rfl
    | cons c whole => exact hzero whole (by rw [(List.cons.inj heq).1])

theorem fraction_none {rest : Text} (h : ∀ t, rest ≠ '.' :: t) : fraction rest = ([], rest) := by
  rw [fraction]
  exact h

theorem fraction_append {point places rest : Text} (h : FractionText point places)
    (hr : NoDigit rest) (hpoint : ∀ t, rest ≠ '.' :: t) :
    fraction (point ++ rest) = (places, rest) := by
  cases h with
  | missing => exact fraction_none hpoint
  | digits h =>
    have hne : places.isEmpty = false := by simpa using h.1
    rw [List.cons_append, fraction, digits_append h.2 hr]
    dsimp only
    rw [hne]
    rfl

theorem signed_append {sign ds rest : Text} {negative : Bool} (h : SignText sign negative)
    (hds : DigitsText ds) : signed (sign ++ (ds ++ rest)) = (negative, ds ++ rest) := by
  cases h with
  | missing =>
    obtain ⟨hne, hall⟩ := hds
    cases ds with
    | nil => exact absurd rfl hne
    | cons d ds =>
      rw [List.all_cons, Bool.and_eq_true] at hall
      rw [List.nil_append, List.cons_append, signed]
      · rintro r heq
        rw [(List.cons.inj heq).1] at hall
        cases hall.1
      · rintro r heq
        rw [(List.cons.inj heq).1] at hall
        cases hall.1
  | plus => rfl
  | minus => rfl

theorem exponent?_none {rest : Text} (h : ∀ c t, rest = c :: t → c ≠ 'e' ∧ c ≠ 'E') :
    exponent? rest = none := by
  cases rest with
  | nil => rfl
  | cons c t =>
    obtain ⟨he, hE⟩ := h c t rfl
    simp [exponent?, he, hE]

theorem exponent?_append {exponent rest : Text} {size : Int} (h : ExponentText exponent (some size))
    (hr : NoDigit rest) : exponent? (exponent ++ rest) = some (size, rest) := by
  cases h with
  | @digits e sign ds negative he hs h =>
    have hne : ds.isEmpty = false := by simpa using h.1
    have hletter : (e == 'e' || e == 'E') = true := by simpa using he
    rw [List.cons_append, List.append_assoc, exponent?, signed_append hs h, hletter, if_pos rfl]
    dsimp only
    rw [digits_append h.2 hr]
    dsimp only
    rw [hne]
    rfl

theorem floatEnds {point places exponent rest : Text} {e : Option Int}
    (hf : FractionText point places) (he : ExponentText exponent e) (hr : NumberEnds rest) :
    NoDigit (point ++ (exponent ++ rest)) ∧ NoDigit (exponent ++ rest) ∧
      ∀ t, exponent ++ rest ≠ '.' :: t := by
  have hexponent : NoDigit (exponent ++ rest) ∧ ∀ t, exponent ++ rest ≠ '.' :: t := by
    cases he with
    | missing => exact ⟨hr.noDigit, hr.noPoint⟩
    | @digits c _ _ _ hc _ _ =>
      constructor
      · apply noDigit_cons
        rcases hc with rfl | rfl <;> rfl
      · intro t heq
        have hpoint := (List.cons.inj heq).1
        rcases hc with rfl | rfl <;> cases hpoint
  refine ⟨?_, hexponent⟩
  cases hf with
  | missing => exact hexponent.1
  | digits _ => exact noDigit_cons rfl _

theorem exponent?_getD {exponent rest : Text} {e : Option Int} (h : ExponentText exponent e)
    (hr : NumberEnds rest) :
    (exponent? (exponent ++ rest)).getD (0, exponent ++ rest) = (e.getD 0, rest) ∧
      (exponent ≠ [] → exponent? (exponent ++ rest) ≠ none) := by
  cases e with
  | none =>
    cases h
    rw [List.nil_append, exponent?_none hr.noExponent]
    exact ⟨rfl, fun hne => absurd rfl hne⟩
  | some size =>
    rw [exponent?_append h hr.noDigit]
    exact ⟨rfl, fun _ => Option.some_ne_none _⟩

theorem magnitude?_of_text {t : Text} {v : Json} (h : MagnitudeText limit negative t v) {rest : Text}
    (hr : NumberEnds rest) : magnitude? limit negative (t ++ rest) = some (v, rest) := by
  cases h with
  | int h hlimit =>
    obtain ⟨hwhole, hne⟩ := wholePart_append h hr.noDigit
    rw [magnitude?_int hwhole hne (fraction_none hr.noPoint) (exponent?_none hr.noExponent)]
    exact if_neg (Nat.not_lt.2 hlimit)
  | @float whole point places exponent e h hf he hne =>
    have hends := floatEnds hf he hr
    obtain ⟨hwhole, hwne⟩ := wholePart_append h hends.1
    obtain ⟨hexponent, hnone⟩ := exponent?_getD he hr
    rw [List.append_assoc, List.append_assoc,
      magnitude?_float hwhole hwne (fraction_append hf hends.2.1 hends.2.2), hexponent]
    rcases hne with hpoint | hexp
    · left
      rintro rfl
      cases hf with
      | missing => exact hpoint rfl
      | digits h => exact h.1 rfl
    · exact Or.inr (hnone hexp)

def Follows (rest : Text) : Prop :=
  ∀ c t, rest = c :: t → isGap c = true ∨ c = ',' ∨ c = ']' ∨ c = '}'

theorem follows_nil : Follows [] := by
  intro c t h
  cases h

theorem follows_cons {c : Char} (h : isGap c = true ∨ c = ',' ∨ c = ']' ∨ c = '}') (t : Text) :
    Follows (c :: t) := by
  intro d u heq
  cases heq
  exact h

theorem not_digit_of_gap {c : Char} (h : isGap c = true) :
    isDigit c = false ∧ c ≠ '.' ∧ c ≠ 'e' ∧ c ≠ 'E' := by
  simp only [isGap, Bool.or_eq_true, beq_iff_eq] at h
  rcases h with ((rfl | rfl) | rfl) | rfl <;> decide

theorem Follows.numberEnds {rest : Text} (h : Follows rest) : NumberEnds rest := by
  have hhead : ∀ c t, rest = c :: t → isDigit c = false ∧ c ≠ '.' ∧ c ≠ 'e' ∧ c ≠ 'E' := by
    intro c t heq
    rcases h c t heq with hgap | rfl | rfl | rfl
    · exact not_digit_of_gap hgap
    all_goals decide
  constructor
  · intro c t heq
    exact (hhead c t heq).1
  · rintro t rfl
    exact (hhead _ t rfl).2.1 rfl
  · intro c t heq
    exact (hhead c t heq).2.2

theorem MagnitudeText.head {t : Text} {v : Json} (h : MagnitudeText limit negative t v) :
    ∃ d u, t = d :: u ∧ isDigit d = true := by
  have hwhole : ∀ whole : Text, WholeText whole → ∃ d u, whole = d :: u ∧ isDigit d = true := by
    rintro whole (rfl | ⟨⟨hne, hall⟩, -⟩)
    · exact ⟨'0', [], rfl, rfl⟩
    · cases whole with
      | nil => exact absurd rfl hne
      | cons d u =>
        rw [List.all_cons, Bool.and_eq_true] at hall
        exact ⟨d, u, rfl, hall.1⟩
  cases h with
  | int h _ => exact hwhole t h
  | float h _ _ _ =>
    obtain ⟨d, u, rfl, hd⟩ := hwhole _ h
    exact ⟨d, _, rfl, hd⟩

theorem scalar?_text {t rest : Text} {v : Json} (h : scalar? limit t = some (v, rest)) :
    ∃ u, t = u ++ rest ∧ ValueText limit u v := by
  rw [scalar?.eq_def] at h
  split at h
  case h_1 =>
    cases h
    exact ⟨_, rfl, .null⟩
  case h_2 =>
    cases h
    exact ⟨_, rfl, .true⟩
  case h_3 =>
    cases h
    exact ⟨_, rfl, .false⟩
  case h_4 =>
    cases h
    exact ⟨_, rfl, .nan⟩
  case h_5 =>
    obtain ⟨more, hafter, heq⟩ := Option.map_eq_some_iff.1 h
    cases heq
    have hword : "Infinity".toList = 'I' :: "nfinity".toList := rfl
    exact ⟨_, by rw [hword, eq_append_of_after? hafter, List.cons_append], .infinity⟩
  case h_6 =>
    obtain ⟨more, hafter, heq⟩ := Option.map_eq_some_iff.1 h
    cases heq
    have hword : "-Infinity".toList = '-' :: 'I' :: "nfinity".toList := rfl
    exact ⟨_, by rw [hword, eq_append_of_after? hafter, List.cons_append, List.cons_append],
      .minusInfinity⟩
  case h_7 =>
    obtain ⟨u, rfl, hu⟩ := magnitude?_text h
    exact ⟨_, rfl, .minus hu⟩
  case h_8 =>
    obtain ⟨u, rfl, hu⟩ := magnitude?_text h
    exact ⟨_, rfl, .number hu⟩

theorem scalar?_of_digit {d : Char} (hd : isDigit d = true) (t : Text) :
    scalar? limit (d :: t) = magnitude? limit false (d :: t) ∧
      scalar? limit ('-' :: d :: t) = magnitude? limit true (d :: t) := by
  constructor
  · rw [scalar?.eq_def]
    split
    case h_8 => rfl
    all_goals
      rename_i h
      rw [(List.cons.inj h).1] at hd
      cases hd
  · rw [scalar?.eq_def]
    split
    case h_6 h =>
      rw [(List.cons.inj (List.cons.inj h).2).1] at hd
      cases hd
    case h_7 h => rw [(List.cons.inj h).2]
    case h_8 h => exact absurd rfl (h _)
    all_goals
      rename_i h
      cases (List.cons.inj h).1

theorem scalar?_of_magnitude {t rest : Text} {v : Json} (hr : Follows rest) :
    (MagnitudeText limit false t v → scalar? limit (t ++ rest) = some (v, rest)) ∧
      (MagnitudeText limit true t v → scalar? limit ('-' :: (t ++ rest)) = some (v, rest)) := by
  constructor
  · intro h
    have hread := magnitude?_of_text h hr.numberEnds
    obtain ⟨d, u, rfl, hd⟩ := h.head
    exact (scalar?_of_digit hd _).1.trans hread
  · intro h
    have hread := magnitude?_of_text h hr.numberEnds
    obtain ⟨d, u, rfl, hd⟩ := h.head
    exact (scalar?_of_digit hd _).2.trans hread

end LineTables.Json
