import Waymark.Text.Printable

/-!
# Quoted texts

A quoted text stands between single quotes, or between double quotes if it holds a single quote and
no double one. Inside, a backslash and the quote in use have a backslash before them, the line feed,
the carriage return and the tab are `\n`, `\r` and `\t`, and any other character that is not
printable is written by its code in hexadecimal digits. Octets are quoted in the same way, and all
of them from 128 on by their codes.
-/

namespace Waymark.Text

/-- The quote that a text is put between. -/
def quoteFor (s : Text) : Char := if '\'' ∈ s ∧ '"' ∉ s then '"' else '\''

/-- The last `width` hexadecimal digits of a number. -/
def hex (width n : Nat) : Text :=
  let digits := Nat.toDigits 16 n
  List.replicate (width - digits.length) '0' ++ digits

/-- A character by its code: two, four or eight digits, as many as it takes. -/
def escapeCode (c : Char) : Text :=
  let n := c.toNat
  if n < 0x100 then '\\' :: 'x' :: hex 2 n
  else if n < 0x10000 then '\\' :: 'u' :: hex 4 n
  else '\\' :: 'U' :: hex 8 n

/-- A character inside quotes, where `plain` are the characters that are written as they are. -/
def quoteChar (plain : Char → Bool) (quote c : Char) : Text :=
  if c = '\\' ∨ c = quote then ['\\', c]
  else if c = '\n' then ['\\', 'n']
  else if c = '\r' then ['\\', 'r']
  else if c = '\t' then ['\\', 't']
  else if plain c then [c]
  else escapeCode c

/-- A text in quotes. -/
def quoted (s : Text) : Text :=
  let quote := quoteFor s
  quote :: (s.flatMap (quoteChar isPrintable quote) ++ [quote])

/-- Octets in quotes, marked by a `b`. -/
def quotedOctets (octets : List UInt8) : Text :=
  let s := octets.map fun octet => Char.ofNat octet.toNat
  let quote := quoteFor s
  let plain (c : Char) : Bool := isPrintable c && c.toNat < 0x80
  'b' :: quote :: (s.flatMap (quoteChar plain quote) ++ [quote])

end Waymark.Text
