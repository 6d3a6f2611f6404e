import FormatHost.Text.Printable

/-! # Quoted text

Text inside messages is put between double quotes. Quote, backslash and the common control
characters get a two-character form, other characters without a glyph their hexadecimal number
in braces.
-/

namespace FormatHost.Text

/-- The hexadecimal digits of a number, in lower case. -/
def hexDigits (n : Nat) : Text :=
  Nat.toDigits 16 n

def quoteChar (c : Char) : Text :=
  if c = '\x00' then ['\\', '0']
  else if c = '\t' then ['\\', 't']
  else if c = '\r' then ['\\', 'r']
  else if c = '\n' then ['\\', 'n']
  else if c = '"' then ['\\', '"']
  else if c = '\\' then ['\\', '\\']
  else if isPrintable c then [c]
  else "\\u\x7b".toList ++ hexDigits c.toNat ++ "\x7d".toList

def quoted (s : Text) : Text :=
  '"' :: s.flatMap quoteChar ++ ['"']

def quote (s : String) : String :=
  String.ofList (quoted s.toList)

end FormatHost.Text
