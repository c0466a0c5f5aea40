import Waymark.Options
import Waymark.Tag.Splice

/-!
# Rendering by a choice of identifiers

`renderBy selects options s` is the text `s` with each tag exchanged for the text that stands for
it, where `selects` tells whether an identifier is selected. The choice has no memory and cannot
fail.
-/

namespace Waymark

/-- A text with each tag exchanged for the text that stands for it. -/
def renderBy (selects : Text → Bool) (options : Options) (s : Text) : Text :=
  Id.run (substitute (fun tag => pure (options.textFor (selects tag.identifier) tag)) s)

/-- To render is to weave the texts that stand for the tags into the text. -/
theorem renderBy_eq_weave (selects : Text → Bool) (options : Options) (s : Text) :
    renderBy selects options s =
      weave 0 s (tags s) ((tags s).map fun tag => options.textFor (selects tag.identifier) tag) := by
  rw [renderBy, substitute_eq_weave, List.mapM_pure]
  rfl

/-- A text without tags renders to itself. -/
theorem renderBy_of_tags_eq_nil {s : Text} (none : tags s = []) (selects : Text → Bool)
    (options : Options) : renderBy selects options s = s := by
  rw [renderBy, substitute_of_tags_eq_nil _ none]
  rfl

end Waymark
