/-!
# Decimal numerals of 64-bit words

A numeral is an optional plus sign and one or more ASCII digits, with any number of leading zeros.
A number that a 64-bit word does not hold has no numeral.
-/

set_option autoImplicit false

namespace ConnectionPool.Text

def digit? (c : Char) : Option Nat :=
  if '0' ≤ c ∧ c ≤ '9' then some (c.toNat - '0'.toNat) else none

/-- The number that `n` becomes when the digits of the text are written after it. -/
def digitsFrom? : Nat → List Char → Option Nat
  | n, [] => some n
  | n, c :: rest => (digit? c).bind fun d => digitsFrom? (10 * n + d) rest

def natural? : List Char → Option Nat
  | [] => none
  | text => digitsFrom? 0 text

def dropPlus : List Char → List Char
  | '+' :: rest => rest
  | text => text

def word? (text : List Char) : Option UInt64 :=
  (natural? (dropPlus text)).bind fun n =>
    if n < UInt64.size then some (UInt64.ofNat n) else none

example : word? ['+', '0', '7'] = some 7 ∧ word? ['+'] = none ∧ word? ['+', '+', '1'] = none := by
  decide

end ConnectionPool.Text
