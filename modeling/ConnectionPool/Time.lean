/-!
# Instants and lengths of time

Both are natural numbers of nanoseconds. The pool's clock starts at zero when the pool is created,
so an instant is the length of time since then. A length is written in the largest of the units
second, millisecond and microsecond that it fills, with the exact fraction that remains.
-/

set_option autoImplicit false

namespace ConnectionPool.Nanos

def ofSeconds (n : Nat) : Nat := n * Nat.pow 10 9

def ofMillis (n : Nat) : Nat := n * Nat.pow 10 6

def lastDigits : Nat → Nat → List Char
  | 0, _ => []
  | width+1, n => lastDigits width (n / 10) ++ [Nat.digitChar (n % 10)]

def dropZerosRight (digits : List Char) : List Char :=
  (digits.reverse.dropWhile (· == '0')).reverse

/-- `n` over `10 ^ width`, exactly: no zero ends the fraction, and a whole number has no point. -/
def fixedPoint (width n : Nat) : String :=
  let whole := toString (n / Nat.pow 10 width)
  match dropZerosRight (lastDigits width (n % Nat.pow 10 width)) with
  | [] => whole
  | fraction => whole ++ "." ++ String.ofList fraction

def text (n : Nat) : String :=
  if Nat.pow 10 9 ≤ n then fixedPoint 9 n ++ "s"
  else if Nat.pow 10 6 ≤ n then fixedPoint 6 n ++ "ms"
  else if Nat.pow 10 3 ≤ n then fixedPoint 3 n ++ "µs"
  else toString n ++ "ns"

example : text 20000000000 = "20s" ∧ text 1000000001 = "1.000000001s" ∧ text 1010 = "1.01µs"
    ∧ text 0 = "0ns" := by decide +kernel

end ConnectionPool.Nanos
