import Scribe.Text.Basic

set_option autoImplicit false

/-! # Reading numbers

Whole numbers are digits with an optional sign and must fit their type. Decimal numbers may also
carry a fraction, an exponent or one of the special names, and are rounded to the nearest
double. -/

namespace Scribe.Decimal

/-! ## Whole numbers -/

/-- The value of a digit sequence, most significant digit first. -/
def digitsValue (digits : Text) : Nat :=
  digits.foldl (fun n c => 10 * n + (c.toNat - '0'.toNat)) 0

/-- A nonempty sequence of ASCII digits. -/
def digits? (s : Text) : Option Nat :=
  if !s.isEmpty && s.all Char.isDigit then some (digitsValue s) else none

/-- The value of a digit of up to sixteen. -/
def digit? (c : Char) : Option Nat :=
  if c.isDigit then some (c.toNat - '0'.toNat)
  else if 'a' ≤ c ∧ c ≤ 'f' then some (c.toNat - 'a'.toNat + 10)
  else if 'A' ≤ c ∧ c ≤ 'F' then some (c.toNat - 'A'.toNat + 10)
  else none

/-- The number that digits write in a base of at most sixteen. -/
def digitsIn? (base : Nat) (digits : Text) : Option Nat :=
  digits.foldlM (fun n c => ((digit? c).filter (· < base)).map (base * n + ·)) 0

/-- A natural number of at most `bound`, with an optional plus sign. -/
def natUpTo? (bound : Nat) (s : Text) : Option Nat :=
  let digits := match s with
    | '+' :: r => r
    | _ => s
  (digits? digits).filter (· ≤ bound)

/-- A 64-bit integer: digits behind an optional minus sign. -/
def int64? (s : Text) : Option Int64 :=
  let value := match s with
    | '-' :: r => (digits? r).map fun n => -(n : Int)
    | _ => (digits? s).map fun n => (n : Int)
  (value.filter fun n => Int64.minValue.toInt ≤ n ∧ n ≤ Int64.maxValue.toInt).map Int64.ofInt

/-! ## Doubles -/

/-- The double nearest to `m · 10 ^ e`. Exponents far outside the range of doubles are decided by
    the position of the first digit alone. -/
def nearest (m : Nat) (e : Int) : Float :=
  let point := ((Nat.toDigits 10 m).length : Int) + e
  if m = 0 then 0.0
  else if 310 < point then 1.0 / 0.0
  else if point < -330 then 0.0
  else Float.ofScientific m (e < 0) e.natAbs

/-- A sign, if there is one, and what follows it. -/
def sign (s : Text) : Bool × Text :=
  match s with
  | '-' :: r => (true, r)
  | '+' :: r => (false, r)
  | _ => (false, s)

/-- An exponent: nothing, or a letter `e`, an optional sign and digits. -/
def exponent? : Text → Option Int
  | [] => some 0
  | c :: r =>
    if c = 'e' ∨ c = 'E' then
      let (negative, r) := sign r
      (digits? r).map fun n => if negative then -(n : Int) else (n : Int)
    else none

/-- An unsigned decimal number: digits with at most one point among them and an exponent. -/
def unsigned? (s : Text) : Option Float :=
  let whole := s.takeWhile Char.isDigit
  let rest := s.dropWhile Char.isDigit
  let (fraction, rest) := match rest with
    | '.' :: r => (r.takeWhile Char.isDigit, r.dropWhile Char.isDigit)
    | _ => ([], rest)
  if whole.isEmpty && fraction.isEmpty then none
  else (exponent? rest).map fun e =>
    nearest (digitsValue (whole ++ fraction)) (e - (fraction.length : Int))

/-- A decimal number, an infinity or the name of the value that is no number. -/
def float? (s : Text) : Option Float :=
  let (negative, r) := sign s
  let name := r.toLower
  let magnitude :=
    if name = "inf".toList ∨ name = "infinity".toList then some (1.0 / 0.0)
    else if name = "nan".toList then some (0.0 / 0.0)
    else unsigned? r
  magnitude.map fun x => if negative then -x else x

end Scribe.Decimal
