import Scribe.Text.Basic
import Scribe.Decimal.Shortest

set_option autoImplicit false

/-! # Writing doubles

Numbers are written with the fewest digits that read back. In positional notation they always have
a fractional part. Where that notation ends, how an exponent is signed and which way a tie goes
depend on the document that the number is written into, so they are parameters. -/

namespace Scribe.Decimal

/-! ## Layout -/

/-- How a document writes its numbers. Point positions are relative to the first digit: `0` for
    `0.1`, `1` for `1.0`, `-4` for `0.00001`. -/
structure Layout where
  /-- The least point position written without an exponent. -/
  leastPoint : Int
  /-- The greatest point position written without an exponent. -/
  greatestPoint : Int
  /-- Does a positive exponent carry a plus sign? -/
  isExplicit : Bool
  /-- Which of two decimals at the same distance is written. -/
  tie : Tie
  deriving Repr

/-- Numbers in scripts and diagnostics are positional from `0.0001` up to sixteen digits, as in
    `1e16`, and a tie goes up. -/
def Layout.script : Layout := ⟨-3, 16, false, .up⟩

/-- Numbers in reports are positional from `0.00001` up to sixteen digits, their exponents are
    signed, as in `1e+16`, and a tie goes to the even digit. -/
def Layout.report : Layout := ⟨-4, 16, true, .even⟩

/-- The decimal digits of a natural number. -/
def natText (n : Nat) : Text := (Nat.toDigits 10 n)

/-- The decimal digits of an integer, with a minus sign if it is negative. -/
def intText : Int → Text
  | .ofNat n => natText n
  | .negSucc n => '-' :: natText (n + 1)

/-- The exponent `n` behind its mark. -/
def Layout.exponent (layout : Layout) (n : Int) : Text :=
  'e' :: if layout.isExplicit && 0 < n then '+' :: intText n else intText n

/-- Writes the decimal `d · 10 ^ k`. -/
def Layout.write (layout : Layout) (d : Nat) (k : Int) : Text :=
  let digits := natText d
  let point := (digits.length : Int) + k
  if layout.leastPoint ≤ point ∧ point ≤ layout.greatestPoint then
    if point ≤ 0 then
      '0' :: '.' :: List.replicate (-point).toNat '0' ++ digits
    else if (digits.length : Int) ≤ point then
      digits ++ List.replicate (point - digits.length).toNat '0' ++ ['.', '0']
    else digits.take point.toNat ++ '.' :: digits.drop point.toNat
  else
    match digits with
    | [] => []
    | first :: [] => first :: layout.exponent (point - 1)
    | first :: more => first :: '.' :: more ++ layout.exponent (point - 1)

/-! ## Doubles -/

/-- The text of a finite double; none for the others. -/
def Layout.finiteText? (layout : Layout) (x : Float) : Option Text :=
  let signed (negative : Bool) (s : Text) : Text := if negative then '-' :: s else s
  match decode x with
  | .nan => none
  | .infinite _ => none
  | .zero negative => some (signed negative "0.0".toList)
  | .finite negative b =>
    let (d, k) := b.shortest layout.tie
    some (signed negative (layout.write d k))

/-- The text of a double, the special ones included. -/
def Layout.text (layout : Layout) (x : Float) : Text :=
  match decode x with
  | .nan => "NaN".toList
  | .infinite true => "-inf".toList
  | .infinite false => "inf".toList
  | _ => (layout.finiteText? x).getD []

end Scribe.Decimal
