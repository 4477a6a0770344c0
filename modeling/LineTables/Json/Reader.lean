import LineTables.Json.Basic
import LineTables.Text.Numeral

/-!
# Reading JSON

The reader takes the JSON grammar and, as values, the three words `NaN`, `Infinity` and `-Infinity`.
A number without a fraction and an exponent is an integer. In strings no control character below
U+0020 stands for itself, and two escapes that form a surrogate pair make one character. Of the
fields of one name in an object the last one counts, at the place of the first. An integer with
more digits than the limit is refused.
-/

set_option autoImplicit false

namespace LineTables.Json

def isGap (c : Char) : Bool := c == ' ' || c == '\t' || c == '\n' || c == '\r'

def skipGap (t : Text) : Text := t.dropWhile isGap

def hexDigit? (c : Char) : Option Nat :=
  if '0' ≤ c ∧ c ≤ '9' then some (c.toNat - 48)
  else if 'a' ≤ c ∧ c ≤ 'f' then some (c.toNat - 87)
  else if 'A' ≤ c ∧ c ≤ 'F' then some (c.toNat - 55)
  else none

def hexQuad? (a b c d : Char) : Option Nat := do
  let a ← hexDigit? a
  let b ← hexDigit? b
  let c ← hexDigit? c
  let d ← hexDigit? d
  return ((a * 16 + b) * 16 + c) * 16 + d

def escaped? : Char → Option Char
  | '"' => some '"'
  | '\\' => some '\\'
  | '/' => some '/'
  | 'b' => some '\x08'
  | 'f' => some '\x0c'
  | 'n' => some '\n'
  | 'r' => some '\r'
  | 't' => some '\t'
  | _ => none

def units? : Text → Option (List Nat × Text)
  | [] => none
  | '"' :: t => some ([], t)
  | '\\' :: 'u' :: a :: b :: c :: d :: t => do
    let unit ← hexQuad? a b c d
    let (units, rest) ← units? t
    return (unit :: units, rest)
  | '\\' :: c :: t => do
    let unit ← escaped? c
    let (units, rest) ← units? t
    return (unit.toNat :: units, rest)
  | c :: t => do
    if c == '\\' || c.toNat < 0x20 then none
    let (units, rest) ← units? t
    return (c.toNat :: units, rest)

def isHigh (n : Nat) : Bool := 0xD800 ≤ n && n < 0xDC00

def isLow (n : Nat) : Bool := 0xDC00 ≤ n && n < 0xE000

/-- The characters of code units. JSON admits the escape of a surrogate outside a pair; a text is made of
characters here, so a document with such an escape is refused, which is a limit of this reader. -/
def paired? : List Nat → Option Text
  | [] => some []
  | high :: low :: units =>
    if isHigh high && isLow low then
      (paired? units).map (Char.ofNat (0x10000 + (high - 0xD800) * 0x400 + (low - 0xDC00)) :: ·)
    else if isHigh high || isLow high then none
    else (paired? (low :: units)).map (Char.ofNat high :: ·)
  | [unit] => if isHigh unit || isLow unit then none else some [Char.ofNat unit]

def string? (t : Text) : Option (Text × Text) := do
  let (units, rest) ← units? t
  let value ← paired? units
  return (value, rest)

def digits (t : Text) : Text × Text := (t.takeWhile Text.isDigit, t.dropWhile Text.isDigit)

/-- The digits before a point or an exponent and the rest. A leading zero stands alone. -/
def wholePart (t : Text) : Text × Text :=
  match t with
  | '0' :: r => (['0'], r)
  | _ => digits t

def fraction (t : Text) : Text × Text :=
  match t with
  | '.' :: r => if (digits r).1.isEmpty then ([], t) else digits r
  | _ => ([], t)

def exponent? (t : Text) : Option (Int × Text) :=
  match t with
  | c :: r =>
    if c == 'e' || c == 'E' then
      let (negative, r) := Text.signed r
      let (ds, rest) := digits r
      if ds.isEmpty then none
      else
        let size : Int := Nat.ofDigitChars 10 ds 0
        some (if negative then -size else size, rest)
    else none
  | [] => none

def magnitude? (limit : Nat) (negative : Bool) (t : Text) : Option (Json × Text) :=
  let (whole, afterWhole) := wholePart t
  if whole.isEmpty then none
  else
    let (places, afterPlaces) := fraction afterWhole
    match places.isEmpty, exponent? afterPlaces with
    | true, none =>
      if limit < whole.length then none
      else some (int (Text.Numeral.value ⟨negative, whole⟩), afterPlaces)
    | _, e =>
      let (e, rest) := e.getD (0, afterPlaces)
      let m := Nat.ofDigitChars 10 (whole ++ places) 0
      some (float (Binary64.ofDecimal negative m (e - places.length)), rest)

def scalar? (limit : Nat) (t : Text) : Option (Json × Text) :=
  match t with
  | 'n' :: 'u' :: 'l' :: 'l' :: r => some (null, r)
  | 't' :: 'r' :: 'u' :: 'e' :: r => some (bool true, r)
  | 'f' :: 'a' :: 'l' :: 's' :: 'e' :: r => some (bool false, r)
  | 'N' :: 'a' :: 'N' :: r => some (float .nan, r)
  | 'I' :: r => (Text.after? "nfinity".toList r).map ((float (.infinite false), ·))
  | '-' :: 'I' :: r => (Text.after? "nfinity".toList r).map ((float (.infinite true), ·))
  | '-' :: r => magnitude? limit true r
  | _ => magnitude? limit false t

mutual

/-- A value and the text after it. The first number bounds the nesting and the lengths together; a
text with fewer characters is never refused for it. -/
def value? (limit : Nat) : Nat → Text → Option (Json × Text)
  | 0, _ => none
  | fuel + 1, t =>
    match t with
    | '"' :: r => (string? r).map (fun (s, rest) => (str s, rest))
    | '[' :: r =>
      match skipGap r with
      | ']' :: rest => some (array [], rest)
      | r => (items? limit fuel r).map (fun (items, rest) => (array items, rest))
    | '{' :: r =>
      match skipGap r with
      | '}' :: rest => some (object [], rest)
      | r => (fields? limit fuel r).map (fun (fs, rest) => (object (Record.ofPairs fs), rest))
    | _ => scalar? limit t

def items? (limit : Nat) : Nat → Text → Option (List Json × Text)
  | 0, _ => none
  | fuel + 1, t => do
    let (item, r) ← value? limit fuel t
    match skipGap r with
    | ',' :: r =>
      let (items, rest) ← items? limit fuel (skipGap r)
      return (item :: items, rest)
    | ']' :: rest => return ([item], rest)
    | _ => none

def fields? (limit : Nat) : Nat → Text → Option (List (Text × Json) × Text)
  | 0, _ => none
  | fuel + 1, t =>
    match t with
    | '"' :: r => do
      let (name, r) ← string? r
      match skipGap r with
      | ':' :: r =>
        let (value, r) ← value? limit fuel (skipGap r)
        match skipGap r with
        | ',' :: r =>
          let (fields, rest) ← fields? limit fuel (skipGap r)
          return ((name, value) :: fields, rest)
        | '}' :: rest => return ([(name, value)], rest)
        | _ => none
      | _ => none
    | _ => none

end

/-- The value that a whole text stands for, in which no integer has more digits than the limit. -/
def read? (limit : Nat) (t : Text) : Option Json :=
  match value? limit (t.length + 1) (skipGap t) with
  | some (value, rest) => if (skipGap rest).isEmpty then some value else none
  | none => none

end LineTables.Json
