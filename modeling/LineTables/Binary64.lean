import LineTables.Text.Numeral

/-!
# Binary floating point numbers

A document may hold numbers with a fraction or an exponent. They are kept as the nearest double
precision number, a tie going to the even significand, and are shown by the fewest digits that read
back as the same number; of two such decimals the nearer one is taken. All arithmetic is exact, on
natural numbers.
-/

set_option autoImplicit false

namespace LineTables

/-- A double precision number; a finite one is its significand times a power of two. -/
inductive Binary64 where
  | nan
  | infinite (negative : Bool)
  | finite (negative : Bool) (significand : Nat) (exponent : Int)
  deriving DecidableEq, Repr

namespace Binary64

def roundedQuotient (num den : Nat) : Nat :=
  let q := num / den
  let r := num % den
  if den < 2 * r || (2 * r == den && q % 2 == 1) then q + 1 else q

def floorLog2 (num den : Nat) : Int :=
  let e : Int := (num.log2 : Int) - den.log2
  if den <<< e.toNat ≤ num <<< (-e).toNat then e else e - 1

def ofQuotient (negative : Bool) (num den : Nat) : Binary64 :=
  let e := max (floorLog2 num den - 52) (-1074)
  let m := roundedQuotient (num <<< (-e).toNat) (den <<< e.toNat)
  let (m, e) := if m = 1 <<< 53 then (1 <<< 52, e + 1) else (m, e)
  if 971 < e then infinite negative else finite negative m e

/-- The number nearest to `m` times ten to the power `e`. Beyond the reach of the exponents the
size of the decimal decides, so that no large power is formed. -/
def ofDecimal (negative : Bool) (m : Nat) (e : Int) : Binary64 :=
  let size := (Text.ofNat m).length + e
  if m = 0 ∨ size < -330 then finite negative 0 (-1074)
  else if 310 < size then infinite negative
  else ofQuotient negative (m * Nat.pow 10 e.toNat) (Nat.pow 10 (-e).toNat)

def isZero : Binary64 → Bool
  | finite _ m _ => m == 0
  | _ => false

/-- The multiple of ten to the power `k` that is nearest to `m * 2 ^ e` and reads back as it, if
there is one: it lies between the midpoints to the two neighbouring numbers, which themselves read
back where `m` is even. Lengths are in quarters of the last binary place. -/
def onGrid? (m : Nat) (e k : Int) : Option Nat :=
  let unit := Nat.pow 10 (-k).toNat <<< (e - 2).toNat
  let step := Nat.pow 10 k.toNat <<< (2 - e).toNat
  let below := if m = 1 <<< 52 ∧ -1074 < e then 1 else 2
  let value := 4 * m * unit
  let low := (4 * m - below) * unit
  let high := (4 * m + 2) * unit
  let inside (d : Nat) : Bool :=
    if m % 2 = 0 then low ≤ d * step && d * step ≤ high else low < d * step && d * step < high
  let d := value / step
  let left := value - d * step
  let right := (d + 1) * step - value
  match inside d, inside (d + 1) with
  | true, true => if left < right || (left == right && d % 2 == 0) then some d else some (d + 1)
  | true, false => some d
  | false, true => some (d + 1)
  | false, false => none

def firstHit (m : Nat) (e : Int) : Nat → Int → Nat × Int
  | 0, k => (0, k)
  | fuel + 1, k =>
    match onGrid? m e k with
    | some d => (d, k)
    | none => firstHit m e fuel (k - 1)

def shortest (m : Nat) (e : Int) : Nat × Int := firstHit m e 700 310

/-- The layout of a decimal `d * 10 ^ k`: positional while the exponent of its first digit is from
-4 to 15, with at least one place after the point, and otherwise with an exponent of two digits or
more and no point after a single digit. -/
def layout (d : Nat) (k : Int) : Text :=
  let digits := Text.ofNat d
  let first := (digits.length : Int) + k - 1
  if first < -4 ∨ 15 < first then
    let mantissa := match digits with
      | c :: [] => [c]
      | c :: rest => c :: '.' :: rest
      | [] => []
    let size := Text.ofNat first.natAbs
    let sign := if first < 0 then '-' else '+'
    mantissa ++ 'e' :: sign :: List.replicate (2 - size.length) '0' ++ size
  else if 0 ≤ k then digits ++ List.replicate k.toNat '0' ++ ['.', '0']
  else if 0 ≤ first then digits.take (first.toNat + 1) ++ '.' :: digits.drop (first.toNat + 1)
  else '0' :: '.' :: List.replicate (-first - 1).toNat '0' ++ digits

def display : Binary64 → Text
  | nan => "nan".toList
  | infinite negative => if negative then "-inf".toList else "inf".toList
  | finite negative m e =>
    let magnitude := if m = 0 then "0.0".toList else (fun (d, k) => layout d k) (shortest m e)
    if negative then '-' :: magnitude else magnitude

end Binary64
end LineTables
