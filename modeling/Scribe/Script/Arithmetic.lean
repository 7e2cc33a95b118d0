import Scribe.Script.Value

set_option autoImplicit false

/-! # Pure helpers

The few functions that a script may call where a value is expected. -/

namespace Scribe.Helper

/-- The double nearest to an integer. -/
def ofInteger (n : Int64) : Float := .ofModel (.ofInt64 n)

/-- A double without its fraction, as the integer nearest to it; a value that is no number is
    zero. -/
def toInteger (x : Float) : Int64 := x.toModel.toInt64

/-- A value as a double; truth values count as zero and one. -/
def number? : Value → Option Float
  | .int n => some (ofInteger n)
  | .float x => some x
  | .bool b => some (if b then 1.0 else 0.0)
  | _ => none

/-- Is this an integer or a truth value? -/
def isIntegral : Value → Bool
  | .int _ | .bool _ => true
  | _ => false

/-- The lesser of two doubles; a value that is no number gives way to the other one. -/
def lesser (x y : Float) : Float :=
  if x != x then y else if y != y then x else if y < x then y else x

/-- The greater of two doubles; a value that is no number gives way to the other one. -/
def greater (x y : Float) : Float :=
  if x != x then y else if y != y then x else if x < y then y else x

/-- The values an extremum is taken of: the arguments, or the items of a single list. -/
def operands : List Value → List Value
  | [.list items] => items
  | args => args

/-- The first value equal to the extremum of all. -/
def extremum? (pick : Float → Float → Float) (args : List Value) : Option Value := do
  let values := operands args
  let numbers ← values.mapM number?
  match numbers with
  | [] => none
  | x :: xs =>
    let best := xs.foldl pick x
    ((values.zip numbers).find? fun (_, n) => n == best).map Prod.fst

/-- The sum of a list, an integer if every item is. -/
def sum? (items : List Value) : Option Value := do
  let numbers ← items.mapM number?
  let total := numbers.foldl (· + ·) (-0.0)
  return if items.all isIntegral then .int (toInteger total) else .float total

/-- The most values that a range may hold. -/
def rangeLimit : Int := 10000

/-- The integers from `start` up to but not including `stop`, if they are not too many. -/
def range? (start stop : Int64) : Option Value :=
  let count := stop.toInt - start.toInt
  if rangeLimit < count then none
  else some (.list ((List.range count.toNat).map fun (i : Nat) =>
    .int (Int64.ofInt (start.toInt + i))))

/-- The value of a helper call, if the helper exists and takes such arguments. -/
def eval? (name : Text) (args : List Value) : Option Value :=
  if name = "len".toList then
    match args with
    | [.str s] => some (.int (Int64.ofNat s.length))
    | [.list items] => some (.int (Int64.ofNat items.length))
    | _ => none
  else if name = "abs".toList then
    match args with
    | [.int n] => if n = Int64.minValue then none else some (.int n.abs)
    | [.float x] => some (.float x.abs)
    | _ => none
  else if name = "min".toList then extremum? lesser args
  else if name = "max".toList then extremum? greater args
  else if name = "sum".toList then
    match args with
    | [.list items] => sum? items
    | _ => none
  else if name = "range".toList then
    match args with
    | [.int stop] => range? 0 stop
    | [.int start, .int stop] => range? start stop
    | _ => none
  else none

end Scribe.Helper
