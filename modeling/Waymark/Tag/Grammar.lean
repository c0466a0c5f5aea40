import Waymark.Pattern
import Waymark.Tag.Basic

/-!
# The grammar of tags

`Tag.pattern` states what a tag is as a pattern with ordered choice, and `Tag.ofMatch` reads the
parts of a tag off a match of it. It is the declarative side of the scan: the branches take as many
units as they can, and give some back only if the tag could not end otherwise.
-/

namespace Waymark

/-- The captured parts of a tag. -/
inductive Tag.Part where
  | identifier
  | trueBranch
  | falseBranch
deriving Repr, DecidableEq

namespace Tag

open Pattern

/-- A character that is in none of the given ones and does not end a line. -/
def plainBut (delimiters : List Char) (c : Char) : Bool :=
  !delimiters.contains c && !Text.isLineBreak c

/-- A delimiter that is written twice. -/
def pair (c : Char) : Pattern Part := sequence (char c) (char c)

/-- A unit of a true branch: `||`, `>>`, or a character that is neither `|` nor `>`. -/
def trueUnit : Pattern Part :=
  choice (pair '|') (choice (pair '>') (one (plainBut ['|', '>'])))

/-- A unit of a false branch: `>>`, or a character that is not `>`. -/
def falseUnit : Pattern Part := choice (pair '>') (one (plainBut ['>']))

/-- The opener of a tag, `<x:` or `<X:`. -/
def opener : Pattern Part :=
  sequence (char '<') (sequence (one fun c => c == 'x' || c == 'X') (char ':'))

/-- One or more digits. -/
def digits : Pattern Part := sequence (one Char.isDigit) (many (one Char.isDigit))

/-- The branches of a tag with the `?` before them. -/
def branches : Pattern Part :=
  sequence (char '?') (sequence (capture .trueBranch (many trueUnit))
    (optional (sequence (char '|') (capture .falseBranch (many falseUnit)))))

/-- A tag. -/
def pattern : Pattern Part :=
  sequence opener (sequence (capture .identifier digits)
    (sequence (optional branches) (char '>')))

/-- The tag that a match in a text stands for. -/
def ofMatch (s : Text) (found : Match Part) : Tag where
  identifier := (found.captures.lookup .identifier).getD []
  trueBranch := (found.captures.lookup .trueBranch).bind branch?
  falseBranch := (found.captures.lookup .falseBranch).bind branch?
  start := found.start
  stop := found.stop
  raw := (s.drop found.start).take (found.stop - found.start)

end Tag

end Waymark
