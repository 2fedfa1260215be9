/-!
# Lines of a text

A line ends at a line feed or at the end of the text. A carriage return before the end of a line
belongs to the line's end. The text after the last line feed is a line unless it is empty.
-/

set_option autoImplicit false

namespace ConnectionPool.Text

def dropReturn (line : List Char) : List Char :=
  match line.reverse with
  | '\r' :: rest => rest.reverse
  | _ => line

/-- Splits at every line feed; `line` holds, reversed, what has been read of the current line. -/
def linesFrom : List Char → List Char → List (List Char)
  | line, [] => if line.isEmpty then [] else [dropReturn line.reverse]
  | line, '\n' :: rest => dropReturn line.reverse :: linesFrom [] rest
  | line, c :: rest => linesFrom (c :: line) rest

def lines (text : List Char) : List (List Char) := linesFrom [] text

example : lines ['a', '\r', '\n', '\n', 'b'] = [['a'], [], ['b']] := by decide

end ConnectionPool.Text
