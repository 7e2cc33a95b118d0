import Scribe.Text.Classes

set_option autoImplicit false

/-! # Quoted diagnostic text

How a text is shown inside a message: between double quotes, with short escapes for the common
controls and a numeric escape for every other character that does not stand for itself. -/

namespace Scribe.Text

/-- A character as it stands between the double quotes. -/
def quotedChar (c : Char) : Text :=
  match c with
  | '\x00' => ['\\', '0']
  | '\t' => ['\\', 't']
  | '\r' => ['\\', 'r']
  | '\n' => ['\\', 'n']
  | '\\' => ['\\', '\\']
  | '"' => ['\\', '"']
  | _ =>
    if isEscaped c then
      "\\u\x7b".toList ++ Nat.toDigits 16 c.toNat ++ "\x7d".toList
    else [c]

/-- The text between double quotes, with what cannot stand for itself escaped. -/
def quoted (s : Text) : Text := '"' :: s.flatMap quotedChar ++ ['"']

end Scribe.Text
