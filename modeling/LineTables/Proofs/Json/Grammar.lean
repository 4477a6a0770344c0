import LineTables.Json.Reader

/-!
# What JSON texts stand for

The grammar of documents relates a text to the value for which it stands: JSON with the three words
`NaN`, `Infinity` and `-Infinity`, the last field of a name in the place of its first, and no integer
with more digits than the limit. The reader gives a value for exactly the texts of the grammar, and no
other value than theirs.
-/

set_option autoImplicit false

namespace LineTables.Json
open Text

inductive UnitText : Text → Nat → Prop
  | plain {c : Char} (hquote : c ≠ '"') (hslash : c ≠ '\\') (hc : 0x20 ≤ c.toNat) :
      UnitText [c] c.toNat
  | escape {letter c : Char} (h : escaped? letter = some c) : UnitText ['\\', letter] c.toNat
  | code {a b c d : Char} {n : Nat} (h : hexQuad? a b c d = some n) :
      UnitText ['\\', 'u', a, b, c, d] n

inductive CharText : Text → Char → Prop
  | single {t : Text} {n : Nat} (h : UnitText t n) (hhigh : isHigh n = false)
      (hlow : isLow n = false) : CharText t (Char.ofNat n)
  | pair {t u : Text} {high low : Nat} (h : UnitText t high) (hhigh : isHigh high = true)
      (h' : UnitText u low) (hlow : isLow low = true) :
      CharText (t ++ u) (Char.ofNat (0x10000 + (high - 0xD800) * 0x400 + (low - 0xDC00)))

inductive StringText : Text → Text → Prop
  | nil : StringText [] []
  | cons {t u value : Text} {c : Char} (h : CharText t c) (hu : StringText u value) :
      StringText (t ++ u) (c :: value)

def DigitsText (t : Text) : Prop := t ≠ [] ∧ t.all isDigit = true

def WholeText (t : Text) : Prop := t = ['0'] ∨ DigitsText t ∧ ∀ u, t ≠ '0' :: u

inductive FractionText : Text → Text → Prop
  | missing : FractionText [] []
  | digits {ds : Text} (h : DigitsText ds) : FractionText ('.' :: ds) ds

inductive SignText : Text → Bool → Prop
  | missing : SignText [] false
  | plus : SignText ['+'] false
  | minus : SignText ['-'] true

inductive ExponentText : Text → Option Int → Prop
  | missing : ExponentText [] none
  | digits {e : Char} {sign ds : Text} {negative : Bool} (he : e = 'e' ∨ e = 'E')
      (hs : SignText sign negative) (h : DigitsText ds) :
      ExponentText (e :: (sign ++ ds)) (some (Numeral.value ⟨negative, ds⟩))

inductive MagnitudeText (limit : Nat) (negative : Bool) : Text → Json → Prop
  | int {whole : Text} (h : WholeText whole) (hlimit : whole.length ≤ limit) :
      MagnitudeText limit negative whole (int (Numeral.value ⟨negative, whole⟩))
  | float {whole point places exponent : Text} {e : Option Int} (h : WholeText whole)
      (hf : FractionText point places) (he : ExponentText exponent e)
      (hne : point ≠ [] ∨ exponent ≠ []) :
      MagnitudeText limit negative (whole ++ (point ++ exponent))
        (float (Binary64.ofDecimal negative (Nat.ofDigitChars 10 (whole ++ places) 0)
          (e.getD 0 - places.length)))

def Gap (t : Text) : Prop := t.all isGap = true

inductive NameText : Text → Text → Prop
  | between {g t h name : Text} (hg : Gap g) (ht : StringText t name) (hh : Gap h) :
      NameText (g ++ '"' :: (t ++ '"' :: h)) name

mutual

inductive ValueText (limit : Nat) : Text → Json → Prop
  | null : ValueText limit "null".toList null
  | true : ValueText limit "true".toList (bool true)
  | false : ValueText limit "false".toList (bool false)
  | nan : ValueText limit "NaN".toList (float .nan)
  | infinity : ValueText limit "Infinity".toList (float (.infinite false))
  | minusInfinity : ValueText limit "-Infinity".toList (float (.infinite true))
  | number {t : Text} {v : Json} (h : MagnitudeText limit false t v) : ValueText limit t v
  | minus {t : Text} {v : Json} (h : MagnitudeText limit true t v) : ValueText limit ('-' :: t) v
  | string {t value : Text} (h : StringText t value) : ValueText limit ('"' :: (t ++ ['"'])) (str value)
  | emptyArray {g : Text} (h : Gap g) : ValueText limit ('[' :: (g ++ [']'])) (array [])
  | array {t : Text} {items : List Json} (h : ItemsText limit t items) :
      ValueText limit ('[' :: (t ++ [']'])) (array items)
  | emptyObject {g : Text} (h : Gap g) : ValueText limit ('{' :: (g ++ ['}'])) (object [])
  | object {t : Text} {fields : List (Text × Json)} (h : FieldsText limit t fields) :
      ValueText limit ('{' :: (t ++ ['}'])) (object (Record.ofPairs fields))

/-- A value with blanks around it. A document is no more than that. -/
inductive PaddedText (limit : Nat) : Text → Json → Prop
  | between {g t h : Text} {v : Json} (hg : Gap g) (ht : ValueText limit t v) (hh : Gap h) :
      PaddedText limit (g ++ (t ++ h)) v

inductive ItemsText (limit : Nat) : Text → List Json → Prop
  | last {t : Text} {v : Json} (h : PaddedText limit t v) : ItemsText limit t [v]
  | more {t u : Text} {v : Json} {items : List Json} (h : PaddedText limit t v)
      (hu : ItemsText limit u items) : ItemsText limit (t ++ ',' :: u) (v :: items)

inductive FieldsText (limit : Nat) : Text → List (Text × Json) → Prop
  | last {n t name : Text} {v : Json} (hn : NameText n name) (h : PaddedText limit t v) :
      FieldsText limit (n ++ ':' :: t) [(name, v)]
  | more {n t u name : Text} {v : Json} {fields : List (Text × Json)} (hn : NameText n name)
      (h : PaddedText limit t v) (hu : FieldsText limit u fields) :
      FieldsText limit (n ++ ':' :: (t ++ ',' :: u)) ((name, v) :: fields)

end

end LineTables.Json
