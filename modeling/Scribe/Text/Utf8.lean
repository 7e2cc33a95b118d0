import Scribe.Text.Basic

set_option autoImplicit false

/-! # Text as bytes

Programs exchange bytes. A text is written in UTF-8; what comes back need not be UTF-8, so reading
puts the replacement character in place of every longest run of bytes that begins a character but
does not complete it, and of every byte that begins none. -/

namespace Scribe.Utf8

/-- A sequence of bytes. -/
abbrev Bytes := List UInt8

/-- The bytes of a text. -/
def encode (s : Text) : Bytes := s.flatMap String.utf8EncodeChar

/-! ## Reading bytes -/

/-- What stands in place of bytes that are no character. -/
def replacement : Char := '\ufffd'

/-- How far bytes were read: the characters so far, the latest first, and the character that was
    begun. -/
structure Reading where
  written : Text := []
  /-- The bits of the character that was begun. -/
  bits : Nat := 0
  /-- How many bytes the character still needs. -/
  needed : Nat := 0
  /-- The least and the greatest byte that may come next in the character. -/
  next : Nat × Nat := (0x80, 0xBF)
  deriving DecidableEq, Repr

namespace Reading

/-- The reading with one more character, and none begun. -/
def write (r : Reading) (c : Char) : Reading := { written := c :: r.written }

/-- The first byte of a character. -/
def start (r : Reading) (byte : Nat) : Reading :=
  if byte < 0x80 then r.write (Char.ofNat byte)
  else if 0xC2 ≤ byte ∧ byte < 0xE0 then { r with bits := byte % 0x20, needed := 1 }
  else if 0xE0 ≤ byte ∧ byte < 0xF0 then
    { r with
      bits := byte % 0x10
      needed := 2
      next := (if byte = 0xE0 then 0xA0 else 0x80, if byte = 0xED then 0x9F else 0xBF) }
  else if 0xF0 ≤ byte ∧ byte < 0xF5 then
    { r with
      bits := byte % 0x08
      needed := 3
      next := (if byte = 0xF0 then 0x90 else 0x80, if byte = 0xF4 then 0x8F else 0xBF) }
  else r.write replacement

/-- Reads a byte; one that does not go on with a character begins another. -/
def step (r : Reading) (byte : UInt8) : Reading :=
  let n := byte.toNat
  match r.needed with
  | 0 => r.start n
  | more + 1 =>
    if r.next.1 ≤ n ∧ n ≤ r.next.2 then
      let bits := 0x40 * r.bits + n % 0x40
      if more = 0 then r.write (Char.ofNat bits)
      else { written := r.written, bits, needed := more }
    else (r.write replacement).start n

/-- The text that was read, when there are no more bytes. -/
def finish (r : Reading) : Text :=
  (if r.needed = 0 then r else r.write replacement).written.reverse

end Reading

/-- The text that bytes stand for. -/
def decode (bytes : Bytes) : Text := (bytes.foldl Reading.step {}).finish

end Scribe.Utf8
