import ConnectionPool.Text.Printable

/-!
# Quoted text

A text between double quotes. The quote and the backslash take a backslash before them, four
controls have a letter of their own, and every other character that is not printable is written
as its code point in hexadecimal between braces. All else stands for itself.
-/

set_option autoImplicit false

namespace ConnectionPool.Text

def hexadecimal (n : Nat) : List Char := Nat.toDigits 16 n

def quoteChar (c : Char) : List Char :=
  if c = '"' then ['\\', '"']
  else if c = '\\' then ['\\', '\\']
  else if c = '\n' then ['\\', 'n']
  else if c = '\r' then ['\\', 'r']
  else if c = '\t' then ['\\', 't']
  else if c = '\x00' then ['\\', '0']
  else if isPrintable c then [c]
  else ['\\', 'u', '\x7b'] ++ hexadecimal c.toNat ++ ['\x7d']

def quoted (text : String) : String :=
  String.ofList ('"' :: text.toList.flatMap quoteChar ++ ['"'])

end ConnectionPool.Text
