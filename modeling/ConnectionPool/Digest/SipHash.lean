/-!
# SipHash-1-3

The keyed hash with one round per eight-byte block and three closing rounds, here with both key
words zero. Blocks are read with the least significant byte first; the last block holds the bytes
left over and, in its top byte, the length of the text modulo 256.
-/

set_option autoImplicit false

namespace ConnectionPool.SipHash

structure State where
  v0 : UInt64
  v1 : UInt64
  v2 : UInt64
  v3 : UInt64
  deriving DecidableEq, Repr

def State.start : State :=
  ⟨0x736f6d6570736575, 0x646f72616e646f6d, 0x6c7967656e657261, 0x7465646279746573⟩

def rotateLeft (x : UInt64) (n : UInt64) : UInt64 := (x <<< n) ||| (x >>> (64 - n))

def State.round (s : State) : State :=
  let v0 := s.v0 + s.v1
  let v1 := rotateLeft s.v1 13 ^^^ v0
  let v0 := rotateLeft v0 32
  let v2 := s.v2 + s.v3
  let v3 := rotateLeft s.v3 16 ^^^ v2
  let v0 := v0 + v3
  let v3 := rotateLeft v3 21 ^^^ v0
  let v2 := v2 + v1
  let v1 := rotateLeft v1 17 ^^^ v2
  let v2 := rotateLeft v2 32
  ⟨v0, v1, v2, v3⟩

def State.absorb (block : UInt64) (s : State) : State :=
  let s := { s with v3 := s.v3 ^^^ block }.round
  { s with v0 := s.v0 ^^^ block }

def word : List UInt8 → UInt64
  | [] => 0
  | b :: rest => b.toUInt64 ||| (word rest <<< 8)

/-- Absorbs the whole blocks of a text and then the last one, whose top byte is `length`. -/
def State.absorbText (length : UInt64) : List UInt8 → State → State
  | a :: b :: c :: d :: e :: f :: g :: h :: rest, s =>
    absorbText length rest (s.absorb (word [a, b, c, d, e, f, g, h]))
  | rest, s => s.absorb (word rest ||| (length <<< 56))

def State.finish (s : State) : UInt64 :=
  let s := { s with v2 := s.v2 ^^^ 0xff }.round.round.round
  s.v0 ^^^ s.v1 ^^^ s.v2 ^^^ s.v3

def hash (text : List UInt8) : UInt64 :=
  (State.start.absorbText (UInt64.ofNat text.length) text).finish

end ConnectionPool.SipHash
