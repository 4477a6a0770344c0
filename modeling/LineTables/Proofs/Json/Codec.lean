import LineTables.Json.Basic
import LineTables.Proofs.Json.Parsing
import LineTables.Proofs.Record
import LineTables.Proofs.Text.Cutting
import LineTables.Proofs.Text.Numeral

/-!
# Written JSON is read back

The written form of a value that holds no floating point number, no integer over the limit and no
object with a name twice belongs to the grammar and stands for the value, so that it is read back. Every
text is, with every character in it.
-/

set_option autoImplicit false

namespace LineTables
open Text

namespace Json

variable {limit : Nat}

theorem hexDigit?_digitChar : ∀ n < 16, hexDigit? (Nat.digitChar n) = some n := by
  decide

theorem hexQuad?_hexadecimal {n : Nat} (h : n < 0x20) :
    ∃ a b c d, hexadecimal 4 n = [a, b, c, d] ∧ hexQuad? a b c d = some n := by
  refine ⟨_, _, _, _, rfl, ?_⟩
  rw [hexQuad?, hexDigit?_digitChar _ (by omega), hexDigit?_digitChar _ (by omega),
    hexDigit?_digitChar _ (by omega), hexDigit?_digitChar _ (by omega)]
  show some (((n / 16 / 16 / 16 % 16 * 16 + n / 16 / 16 % 16) * 16 + n / 16 % 16) * 16 + n % 16) = _
  congr 1
  omega

theorem unitText_written (c : Char) : UnitText (writtenChar c) c.toNat := by
  rw [writtenChar.eq_def]
  split
  case h_8 hquote hslash _ _ _ _ _ =>
    by_cases hc : c.toNat < 0x20
    · obtain ⟨d3, d2, d1, d0, hdigits, hquad⟩ := hexQuad?_hexadecimal hc
      rw [if_pos hc, hdigits]
      exact .code hquad
    · rw [if_neg hc]
      exact .plain hquote hslash (Nat.not_lt.1 hc)
  all_goals exact .escape rfl

theorem not_surrogate (c : Char) : isHigh c.toNat = false ∧ isLow c.toNat = false := by
  have hvalid : c.toNat < 0xD800 ∨ 0xDFFF < c.toNat := by
    rcases c.valid with h | ⟨h, -⟩
    · exact Or.inl h
    · exact Or.inr h
  simp only [isHigh, isLow, Bool.and_eq_false_iff, decide_eq_false_iff_not]
  omega

theorem stringText_written (value : Text) : StringText (value.flatMap writtenChar) value := by
  induction value with
  | nil => exact .nil
  | cons c value ih =>
    obtain ⟨hhigh, hlow⟩ := not_surrogate c
    have hchar := CharText.single (unitText_written c) hhigh hlow
    rw [Char.ofNat_toNat] at hchar
    rw [List.flatMap_cons]
    exact .cons hchar ih

theorem magnitudeText_ofNat {n : Nat} (hlimit : (Text.ofNat n).length ≤ limit) (negative : Bool) :
    MagnitudeText limit negative (Text.ofNat n) (int (if negative then -(n : Int) else n)) := by
  have hwhole : WholeText (Text.ofNat n) := by
    by_cases hn : n = 0
    · subst hn
      exact Or.inl rfl
    · exact Or.inr ⟨⟨ofNat_ne_nil n, ofNat_all_digits n⟩, ofNat_ne_zero_cons hn⟩
  rw [← value_ofNat n negative]
  exact .int hwhole hlimit

theorem valueText_ofInt {i : Int} (hlimit : (Text.ofNat i.natAbs).length ≤ limit) :
    ValueText limit (Text.ofInt i) (int i) := by
  cases i with
  | ofNat n => exact .number (magnitudeText_ofNat hlimit false)
  | negSucc n => exact .minus (magnitudeText_ofNat hlimit true)

mutual

def Readable (limit : Nat) : Json → Prop
  | null => True
  | bool _ => True
  | int i => (Text.ofNat i.natAbs).length ≤ limit
  | float _ => False
  | str _ => True
  | array items => ReadableItems limit items
  | object fields => (Record.names fields).Nodup ∧ ReadableFields limit fields

def ReadableItems (limit : Nat) : List Json → Prop
  | [] => True
  | item :: items => Readable limit item ∧ ReadableItems limit items

def ReadableFields (limit : Nat) : List (Text × Json) → Prop
  | [] => True
  | (_, value) :: fields => Readable limit value ∧ ReadableFields limit fields

end

theorem readableItems_iff {items : List Json} :
    ReadableItems limit items ↔ ∀ item ∈ items, Readable limit item := by
  induction items with
  | nil => simp [ReadableItems]
  | cons item items ih => simp [ReadableItems, ih]

theorem readableFields_iff {fields : List (Text × Json)} :
    ReadableFields limit fields ↔ ∀ field ∈ fields, Readable limit field.2 := by
  induction fields with
  | nil => simp [ReadableFields]
  | cons field fields ih => simp [ReadableFields, ih]

theorem written_array (items : List Json) :
    written (array items) = '[' :: (commaSeparated (writtenItems items) ++ [']']) := by
  rw [written]
  rfl

theorem written_object (fields : List (Text × Json)) :
    written (object fields) = '{' :: (commaSeparated (writtenFields fields) ++ ['}']) := by
  rw [written]
  rfl

theorem writtenField_eq (name : Text) (value : Json) :
    writtenString name ++ ": ".toList ++ written value =
      '"' :: (name.flatMap writtenChar ++ ['"']) ++ ':' :: (' ' :: written value) := by
  show '"' :: name.flatMap writtenChar ++ ['"'] ++ [':', ' '] ++ written value = _
  simp

theorem ValueText.padded {t : Text} {v : Json} (h : ValueText limit t v) :
    PaddedText limit t v := by
  have hpadded : PaddedText limit ([] ++ (t ++ [])) v := .between rfl h rfl
  rwa [List.append_nil] at hpadded

theorem nameText_written (name : Text) :
    NameText ('"' :: (name.flatMap writtenChar ++ ['"'])) name :=
  .between (g := []) rfl (stringText_written name) rfl

theorem paddedText_blank {t : Text} {v : Json} (h : ValueText limit t v) :
    PaddedText limit (' ' :: t) v := by
  have hpadded : PaddedText limit ([' '] ++ (t ++ [])) v := .between rfl h rfl
  rwa [List.append_nil] at hpadded

mutual

theorem valueText_written : ∀ (value : Json), Readable limit value →
    ValueText limit (written value) value
  | .null, _ => by
    rw [written]
    exact .null
  | .bool value, _ => by
    rw [written]
    cases value
    · exact .false
    · exact .true
  | .int i, h => by
    rw [written]
    exact valueText_ofInt h
  | .float _, h => h.elim
  | .str value, _ => by
    rw [written]
    exact .string (stringText_written value)
  | .array [], _ => by
    rw [written_array]
    exact .emptyArray (g := []) rfl
  | .array (item :: items), h => by
    rw [written_array]
    exact .array (itemsText_written (item :: items) (by simp) h)
  | .object [], _ => by
    rw [written_object]
    exact .emptyObject (g := []) rfl
  | .object (field :: fields), h => by
    have hobject := ValueText.object (fieldsText_written (field :: fields) (by simp) h.2)
    rw [Record.ofPairs_of_nodup h.1] at hobject
    rw [written_object]
    exact hobject

theorem itemsText_written : ∀ (items : List Json), items ≠ [] → ReadableItems limit items →
    ItemsText limit (commaSeparated (writtenItems items)) items
  | [], hne, _ => absurd rfl hne
  | [item], _, h => .last (valueText_written item h.1).padded
  | item :: next :: items, _, h => by
    have hlist : commaSeparated (writtenItems (item :: next :: items)) =
        written item ++ ',' :: ([' '] ++ commaSeparated (writtenItems (next :: items))) :=
      commaSeparated_cons _ (by simp [writtenItems])
    rw [hlist]
    exact .more (valueText_written item h.1).padded
      ((itemsText_written (next :: items) (by simp) h.2).gap rfl)

theorem fieldsText_written : ∀ (fields : List (Text × Json)), fields ≠ [] →
    ReadableFields limit fields → FieldsText limit (commaSeparated (writtenFields fields)) fields
  | [], hne, _ => absurd rfl hne
  | [(name, value)], _, h => by
    have hfield : commaSeparated (writtenFields [(name, value)]) = _ :=
      writtenField_eq name value
    rw [hfield]
    exact .last (nameText_written name) (paddedText_blank (valueText_written value h.1))
  | (name, value) :: next :: fields, _, h => by
    have hlist : commaSeparated (writtenFields ((name, value) :: next :: fields)) =
        '"' :: (name.flatMap writtenChar ++ ['"']) ++ ':' :: (' ' :: written value ++
          ',' :: ([' '] ++ commaSeparated (writtenFields (next :: fields)))) := by
      rw [writtenFields, commaSeparated_cons _ (by simp [writtenFields]), writtenField_eq]
      simp
    rw [hlist]
    exact .more (nameText_written name) (paddedText_blank (valueText_written value h.1))
      ((fieldsText_written (next :: fields) (by simp) h.2).gap rfl)

end

/-- What was written is read back as it was. -/
theorem read?_written {value : Json} (h : Readable limit value) :
    read? limit (written value) = some value :=
  read?_eq_some_iff.2 (valueText_written value h).padded

end Json
end LineTables
