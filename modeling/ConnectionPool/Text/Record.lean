/-!
# Record notation

A record is written on one line as its name and its named fields between braces. An open record
ends in two points, which stand for fields that are not shown.
-/

set_option autoImplicit false

namespace ConnectionPool.Text

structure Field where
  name : String
  value : String

def Field.text (f : Field) : String := f.name ++ ": " ++ f.value

def braced (name : String) (items : List String) : String :=
  name ++ " \x7b " ++ String.intercalate ", " items ++ " \x7d"

def record (name : String) (fields : List Field) : String :=
  braced name (fields.map Field.text)

def openRecord (name : String) (fields : List Field) : String :=
  braced name (fields.map Field.text ++ [".."])

end ConnectionPool.Text
