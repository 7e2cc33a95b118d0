import Scribe.Decimal.Layout
import Scribe.Script.Literal

set_option autoImplicit false

/-! # Argument values

The literal values that a script can pass, and how each is written. -/

namespace Scribe

/-- A literal argument value. -/
inductive Value where
  | none
  | bool (b : Bool)
  | int (n : Int64)
  | float (x : Float)
  | str (s : Text)
  | list (items : List Value)

namespace Value

/-- The word for the type of a value in error messages. -/
def typeName : Value → Text
  | .none => "NoneType".toList
  | .bool _ => "bool".toList
  | .int _ => "int".toList
  | .float _ => "float".toList
  | .str _ => "str".toList
  | .list _ => "list".toList

/-- Is this the absent value? -/
def isNone : Value → Bool
  | .none => true
  | _ => false

/-- Is this a list? -/
def isList : Value → Bool
  | .list _ => true
  | _ => false

/-- A truth value as written in scripts. -/
def boolText : Bool → Text
  | true => "True".toList
  | false => "False".toList

mutual

/-- A value as written in scripts. -/
def text : Value → Text
  | .none => "None".toList
  | .bool b => boolText b
  | .int n => Decimal.intText n.toInt
  | .float x => Decimal.Layout.script.text x
  | .str s => Literal.quote s
  | .list items => '[' :: itemsText items ++ [']']

/-- Values as written in scripts, with a comma between them. -/
def itemsText : List Value → Text
  | [] => []
  | v :: vs => text v ++ moreText vs

/-- Values behind another one, each after a comma. -/
def moreText : List Value → Text
  | [] => []
  | v :: vs => ',' :: ' ' :: text v ++ moreText vs

end

end Value

end Scribe
