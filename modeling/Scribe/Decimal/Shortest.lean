set_option autoImplicit false

/-! # The shortest decimal of a double

A finite double is `m · 2 ^ q`. The decimals that read back as it are those in the interval of
reals that round to it; among them the shortest one lies on the coarsest grid `10 ^ k · ℕ` that
meets the interval. On every grid only the two neighbours of the value need to be tried, and a
rule for ties decides between two at the same distance. -/

namespace Scribe.Decimal

/-! ## Decoding -/

/-- A positive finite double, as an exact product of a natural number and a power of two. -/
structure Binary where
  /-- The significand, at least one. -/
  significand : Nat
  /-- The power of two it is scaled by. -/
  exponent : Int
  /-- Is the next smaller double only half a unit away? -/
  isStep : Bool
  deriving Repr

/-- What the bits of a double say. -/
inductive Decoded where
  | nan
  | infinite (negative : Bool)
  | zero (negative : Bool)
  | finite (negative : Bool) (magnitude : Binary)
  deriving Repr

/-- Reads the sign, the exponent field and the fraction of a double. -/
def decode (x : Float) : Decoded :=
  let bits : Nat := x.toBits.toNat
  let negative := 1 <<< 63 ≤ bits
  let field : Nat := bits >>> 52 % 1 <<< 11
  let fraction : Nat := bits % 1 <<< 52
  if field = 2047 then if fraction = 0 then .infinite negative else .nan
  else if field = 0 then
    if fraction = 0 then .zero negative else .finite negative ⟨fraction, -1074, false⟩
  else .finite negative ⟨1 <<< 52 + fraction, (field : Int) - 1075, fraction = 0 && 1 < field⟩

/-! ## The search -/

/-- Which of the two neighbours stands for a value exactly between them. -/
inductive Tie where
  /-- The upper one. -/
  | up
  /-- The one with an even last digit. -/
  | even
  deriving Repr, DecidableEq

/-- Does a tie between `below` and the number after it go to `below`? -/
def Tie.keeps (tie : Tie) (below : Nat) : Bool :=
  match tie with
  | .up => false
  | .even => below % 2 == 0

/-- Compares `v · 2 ^ s` with `d · 10 ^ k`, both sides scaled to natural numbers. -/
def scaled (s k : Int) (v d : Nat) : Nat × Nat :=
  (v <<< s.toNat * Nat.pow 10 (-k).toNat, (d * Nat.pow 10 k.toNat) <<< (-s).toNat)

/-- Does `d · 10 ^ k` round to the double? The ends of the interval belong to it exactly when the
    significand is even. -/
def Binary.roundsFrom (b : Binary) (k : Int) (d : Nat) : Bool :=
  let s := b.exponent - 2
  let low := 4 * b.significand - (if b.isStep then 1 else 2)
  let high := 4 * b.significand + 2
  let (l, x) := scaled s k low d
  let (h, _) := scaled s k high d
  if b.significand % 2 = 0 then l ≤ x && x ≤ h else l < x && x < h

/-- The better of the value's two neighbours on the grid of `10 ^ k`, if one of them rounds to the
    double; of two at the same distance the one that `tie` names. -/
def Binary.onGrid? (b : Binary) (tie : Tie) (k : Int) : Option Nat :=
  let (x, unit) := scaled (b.exponent - 2) k (4 * b.significand) 1
  let below := x / unit
  let above := below + 1
  match 0 < below && b.roundsFrom k below, b.roundsFrom k above with
  | true, true =>
    let twice := 2 * (x % unit)
    if twice < unit || (twice == unit && tie.keeps below) then some below else some above
  | true, false => some below
  | false, true => some above
  | false, false => none

/-- An exponent whose power of ten is above the value. -/
def Binary.ceilingExponent (b : Binary) : Int :=
  ((b.significand.log2 : Int) + 1 + b.exponent) * 30103 / 100000 + 2

/-- The digits `d` and the exponent `k` of the shortest decimal `d · 10 ^ k` that reads back as
    the double; among several the nearest, and of two at the same distance the one that `tie`
    names. -/
def Binary.shortest (b : Binary) (tie : Tie) : Nat × Int :=
  let grids := (List.range 40).map fun (i : Nat) => b.ceilingExponent - (i : Int)
  (grids.findSome? fun k => (b.onGrid? tie k).map fun d => (d, k)).getD (b.significand, 0)

end Scribe.Decimal
