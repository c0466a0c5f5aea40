import Waymark.Proofs.Session.Asking
import Waymark.Proofs.Weaving

/-!
# Splitting a text

A text may be split at any offset that is not inside a tag. Each part is then read and rendered by
itself, although the reading of the whole looks ahead to the end of the line: the tags of the parts,
and what the parts render to, make up those of the whole (`tags_split`). The smallest part of this
kind is the raw text of a single tag.
-/

namespace Waymark

variable {κ σ : Type} [Rules κ σ]

/-- A rendering in two parts, with a criterion that always gives the same answers. -/
theorem renders_append {criterion : Criterion κ} {selects : Text → Bool}
    (answers : criterion.Answers selects) (options : Options) {s after : Text}
    (whole : ∀ tag ∈ tags (s ++ after), ¬ (tag.start < s.length ∧ s.length < tag.stop)) :
    ∃ front back, (Marker.mk s options criterion).Renders front ∧
      (Marker.mk after options criterion).Renders back ∧
      (Marker.mk (s ++ after) options criterion).Renders (front ++ back) := by
  refine ⟨renderBy selects options s, renderBy selects options after, ?_, ?_, ?_⟩
  · exact Marker.renders_of_answers answers
  · exact Marker.renders_of_answers answers
  · rw [← renderBy_append selects options whole]
    exact Marker.renders_of_answers answers

/-- **Splitting.** At an offset that is not inside a tag a text is split into two parts that have
the tags of the whole between them, those of the second part moved by the offset. With a criterion
that always gives the same answer for an identifier the parts render to the two parts of what the
whole renders to. And the raw text of a tag has that tag, at its beginning, and no other. -/
theorem tags_split (s : Text) :
    (∀ k ≤ s.length, (∀ tag ∈ tags s, ¬ (tag.start < k ∧ k < tag.stop)) →
      tags s = tags (s.take k) ++ (tags (s.drop k)).map (Tag.shift k) ∧
      ∀ (options : Options) (criterion : Criterion κ) (selects : Text → Bool),
        criterion.Answers selects →
          ∃ front back, (Marker.mk (s.take k) options criterion).Renders front ∧
            (Marker.mk (s.drop k) options criterion).Renders back ∧
            (Marker.mk s options criterion).Renders (front ++ back)) ∧
    ∀ tag ∈ tags s, tags tag.raw = [{ tag with start := 0, stop := tag.stop - tag.start }] := by
  refine ⟨?_, fun tag member => tags_raw member⟩
  intro k inside whole
  have length : (s.take k).length = k := List.length_take_of_le inside
  have joined : s.take k ++ s.drop k = s := List.take_append_drop k s
  have uncut : ∀ tag ∈ tags (s.take k ++ s.drop k),
      ¬ (tag.start < (s.take k).length ∧ (s.take k).length < tag.stop) := by
    rwa [joined, length]
  refine ⟨?_, ?_⟩
  · have split := tags_append uncut
    rwa [joined, length] at split
  · intro options criterion selects answers
    have rendered := renders_append answers options uncut
    rwa [joined] at rendered

/-- A cut before a `>` that the whole text reads as half of a pair, and backs off from. The first
part by itself has no such pair. -/
theorem tags_split_before_bracket :
    let s := "<x:1?a>> b\n<x:2>".toList
    let tag : Tag := ⟨['1'], some ['a'], none, 0, 7, "<x:1?a>".toList⟩
    7 ≤ s.length ∧ (∀ tag ∈ tags s, ¬ (tag.start < 7 ∧ 7 < tag.stop)) ∧
      tags s = tags "<x:1?a>".toList ++ (tags "> b\n<x:2>".toList).map (Tag.shift 7) ∧
      (∃ front back,
        (Marker.mk "<x:1?a>".toList {} (.ident ['2'] : Criterion Empty)).Renders front ∧
        (Marker.mk "> b\n<x:2>".toList {} (.ident ['2'] : Criterion Empty)).Renders back ∧
        (Marker.mk s {} (.ident ['2'] : Criterion Empty)).Renders (front ++ back)) ∧
      tag ∈ tags s ∧ tags tag.raw = [tag] := by
  intro s tag
  have inside : 7 ≤ s.length := by decide
  have whole : ∀ tag ∈ tags s, ¬ (tag.start < 7 ∧ 7 < tag.stop) := by decide
  have member : tag ∈ tags s := by decide
  have split := (@tags_split Empty Unit _ s).1 7 inside whole
  have rendered := split.2 {} (.ident ['2']) _ (Criterion.answers_ident ['2'])
  exact ⟨inside, whole, split.1, rendered, member, (@tags_split Empty Unit _ s).2 tag member⟩

end Waymark
