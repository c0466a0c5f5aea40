import Waymark.Tag.Branches

/-!
# Walks along the branches

`Walk.read?` reads the branches of a tag by going from one offset of the text to the next, up to the
last `>` of the line. It looks at one character after another, and a look at an offset where the
text has no character fails. What it finds is told by offsets in the text, together with how the
two loops came to their ends.
-/

namespace Waymark

/-- A look at an offset where the text has no character. -/
structure Outside where
  offset : Nat
deriving Repr, DecidableEq

/-- The character at an offset, if the offset is in the text. -/
def Text.look (s : Text) (offset : Nat) : Except Outside Char :=
  match s[offset]? with
  | some c => .ok c
  | none => .error ⟨offset⟩

/-- What a walk along the branches has found. -/
structure Walk where
  /-- Where the branches end, as offsets in the text. -/
  branches : Branches
  /-- No single delimiter ended the true branch: the walk along it went past the last `>`. -/
  ranOut : Bool
  /-- No single `>` ended the false branch, so the first `>` of the last pair ends it. -/
  backedOff : Bool
deriving Repr, DecidableEq

namespace Walk

/-- How a walk along a true branch ended. -/
structure TrueEnd where
  /-- Offset of the last unit that the walk came to. -/
  stop : Nat
  /-- That unit did not end the true branch, and there was none behind it. -/
  ranOut : Bool
deriving Repr, DecidableEq

/-- Goes along the true branch from `offset` on, where `stop` is the offset of the unit before. The
walk goes on as long as there are whole units, and ends at a single delimiter, or past `last`. -/
def alongTrue (s : Text) (last offset stop : Nat) : Except Outside TrueEnd :=
  if _ahead : offset ≤ last then
    let pair := (s.drop offset).take 2
    if pair = ['|', '|'] ∨ pair = ['>', '>'] then alongTrue s last (offset + 2) offset
    else do
      let c ← s.look offset
      if c = '|' ∨ c = '>' then pure ⟨offset, false⟩ else alongTrue s last (offset + 1) offset
  else pure ⟨stop, true⟩
termination_by last + 1 - offset

/-- How many `>` stand one after another from `offset` on, as far as `last`. -/
def countRun (s : Text) (last offset : Nat) : Except Outside Nat :=
  if _ahead : offset ≤ last then do
    if (← s.look offset) = '>' then return (← countRun s last (offset + 1)) + 1 else return 0
  else return 0
termination_by last + 1 - offset

/-- Goes along the false branch from `offset` on, run by run, and finds the last `>` of the first
run of odd length. -/
def alongFalse (s : Text) (last offset : Nat) : Except Outside (Option Nat) :=
  if _ahead : offset ≤ last then do
    if (← s.look offset) = '>' then
      let more ← countRun s last (offset + 1)
      if (more + 1) % 2 = 1 then return some (offset + more)
      else alongFalse s last (offset + (more + 1))
    else alongFalse s last (offset + 1)
  else return none
termination_by last + 1 - offset

/-- What is found where the true branch ends at `trueEnd` and the false branch begins at
`falseStart`. Without a single `>` the first one of the last pair ends the tag. -/
def ofEnds (last : Nat) (trueEnd : TrueEnd) (falseStart : Nat) : Option Nat → Walk
  | some bracket =>
      { branches := { trueStop := trueEnd.stop, falseStart, bracket },
        ranOut := trueEnd.ranOut, backedOff := false }
  | none =>
      { branches := { trueStop := trueEnd.stop, falseStart, bracket := last - 1 },
        ranOut := trueEnd.ranOut, backedOff := true }

/-- Reads the branches that begin at `start`, where `last` is the offset of the last `>` of the
line; if it stands before `start`, there are none. -/
def read? (s : Text) (start last : Nat) : Except Outside (Option Walk) :=
  if last < start then return none
  else do
    let trueEnd ← alongTrue s last start start
    let falseStart := if (← s.look trueEnd.stop) = '|' then trueEnd.stop + 1 else trueEnd.stop
    return some (ofEnds last trueEnd falseStart (← alongFalse s last falseStart))

end Walk

end Waymark
