import Waymark.Tag.Scan

/-!
# Scans by how lines are measured

`tagsBy measure` scans a text with the measuring of lines left open: before branches are read,
`measure` is asked for the line ahead of their position, and whatever else it does happens along
the way. `Line.keep` is the measuring that keeps the line that was measured last, `Line.noting`
notes the positions that a measuring is asked for.
-/

namespace Waymark

variable {m : Type → Type} [Monad m]

namespace Line

/-- The line ahead of `pos`, where the line that was measured last is kept as long as `pos` has not
passed its end; `s` is the text from `pos` on. -/
def keep (pos : Nat) (s : Text) : StateM (Option Line) Line := do
  let line := refresh (← get) pos s
  set (some line)
  pure line

/-- As `measure`, and notes the position that it is asked for. -/
def noting (measure : Nat → Text → m Line) (pos : Nat) (s : Text) : StateT (List Nat) m Line := do
  modify (· ++ [pos])
  measure pos s

end Line

/-- The tag at the beginning of `s`, the text from `pos` on, if there is one. -/
def Tag.readBy? (measure : Nat → Text → m Line) (pos : Nat) (s : Text) : m (Option Tag) :=
  match Head.read? s with
  | none => pure none
  | some (.closed identifier) => pure (some (ofClosed pos s identifier))
  | some (.branched identifier body) => do
      let bodyStart := pos + (identifier.length + 4)
      let line ← measure bodyStart body
      let branches := Branches.read? (line.reach bodyStart) body
      pure (branches.map (ofBranches pos s identifier body))

/-- The tags of the text from `pos` on, its first `skip` characters left out. -/
def tagsBy (measure : Nat → Text → m Line) (pos : Nat) : Nat → Text → m (List Tag)
  | _, [] => pure []
  | skip + 1, _ :: rest => tagsBy measure (pos + 1) skip rest
  | 0, c :: rest => do
      match ← Tag.readBy? measure pos (c :: rest) with
      | some tag =>
          let later ← tagsBy measure (pos + 1) (tag.stop - (pos + 1)) rest
          pure (tag :: later)
      | none => tagsBy measure (pos + 1) 0 rest

end Waymark
