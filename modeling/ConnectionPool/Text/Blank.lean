/-!
# Blank characters

The blank characters are those with the Unicode property White_Space: the controls from tab to
carriage return, the next-line control and the space separators. The zero-width space, the
Mongolian vowel separator and the byte order mark are not among them.
-/

set_option autoImplicit false

namespace ConnectionPool.Text

def isBlank (c : Char) : Bool :=
  let n := c.toNat
  (0x9 ≤ n && n ≤ 0xD) || n == 0x20 || n == 0x85 || n == 0xA0 || n == 0x1680 ||
    (0x2000 ≤ n && n ≤ 0x200A) || n == 0x2028 || n == 0x2029 || n == 0x202F || n == 0x205F ||
    n == 0x3000

def trimLeft (text : List Char) : List Char := text.dropWhile isBlank

def trimRight (text : List Char) : List Char := (text.reverse.dropWhile isBlank).reverse

def trim (text : List Char) : List Char := trimRight (trimLeft text)

def allBlank (text : List Char) : Bool := text.all isBlank

end ConnectionPool.Text
