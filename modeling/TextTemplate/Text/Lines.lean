/-!
# Lines of a text

A line ends before a line feed, together with one carriage return directly before that.  The
text behind the last line feed is a line only if it is not empty.
-/

namespace TextTemplate

namespace Lines

/-- A line, latest character first, without a carriage return at its end. -/
def dropReturn : List Char → List Char
  | '\r' :: line => line
  | line => line

/-- The lines of a text behind the part of a line already read, latest character first. -/
def linesFrom (line : List Char) : List Char → List (List Char)
  | [] => if line.isEmpty then [] else [line.reverse]
  | '\n' :: rest => (dropReturn line).reverse :: linesFrom [] rest
  | character :: rest => linesFrom (character :: line) rest

end Lines

/-- The lines of a text. -/
def lines (text : List Char) : List (List Char) := Lines.linesFrom [] text

end TextTemplate
