/-!
# Ends of lines

A line ends with a line feed, a carriage return, or both; text is held with a line feed for each.
-/

namespace GrammarConflict.Text

/-- Goes on with one line feed for each end of a line.  `done` holds the text so far, its last
character first. -/
def unifyNewlinesFrom (done : List Char) : List Char → List Char
  | [] => done.reverse
  | '\r' :: '\n' :: rest => unifyNewlinesFrom ('\n' :: done) rest
  | '\r' :: rest => unifyNewlinesFrom ('\n' :: done) rest
  | c :: rest => unifyNewlinesFrom (c :: done) rest

/-- The text with one line feed for each end of a line. -/
def unifyNewlines (text : List Char) : List Char :=
  unifyNewlinesFrom [] text

end GrammarConflict.Text
