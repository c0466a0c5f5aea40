import Mathlib.Data.List.Induction
import Mathlib.Data.List.Nodup
import Waymark.Marker
import Waymark.Proofs.Weaving

/-!
# The identifiers of a text

Any digits are the identifier of a tag somewhere, and nothing else is (`exists_tag_iff`). The
identifiers of a text's tags are listed once each, and a tag adds its identifier behind the ones
before it unless it is there already (`identifiers_concat`). From this step follows by induction on
the tags, from the last one back, what the list is:

* **no repetition** (`nodup_identifiers`), and **membership** (`mem_identifiers`);
* **order** — identifiers stand in the order of the first tags that carry them
  (`pairwise_identifiers`);
* **composition** — tags behind other tags add the identifiers that are new
  (`identifiers_append`), and so a text that is cut where no tag is cut has those of its two parts.

Taken together: `identifiers_in_order`.
-/

namespace Waymark

/-! ## Which identifiers there are -/

/-- The identifier of a tag is made of digits, of one at least. -/
theorem Tag.digits_of_mem {s : Text} {tag : Tag} (member : tag ∈ tags s) :
    tag.identifier ≠ [] ∧ ∀ c ∈ tag.identifier, c.isDigit := by
  obtain ⟨before, rest, -, found⟩ := exists_of_mem_tagsFrom member
  unfold at? at found
  split at found
  · cases found
  · rename_i head
    obtain rfl := Option.some.inj found
    obtain ⟨letter, after, front, -⟩ := Head.front_of_closed head
    exact ⟨front.nonempty, front.digits⟩
  · rename_i head
    obtain ⟨branches, -, rfl⟩ := Option.map_eq_some_iff.1 found
    obtain ⟨letter, front, -⟩ := Head.front_of_branched head
    exact ⟨front.nonempty, front.digits⟩

theorem mem_identifiers {found : List Tag} {identifier : Text} :
    identifier ∈ identifiers found ↔ ∃ tag ∈ found, tag.identifier = identifier := by
  rw [identifiers, List.mem_eraseDups, List.mem_map]

/-- A tag behind the others adds its identifier, unless it is there already. -/
theorem identifiers_concat (found : List Tag) (tag : Tag) :
    identifiers (found ++ [tag]) =
      if tag.identifier ∈ identifiers found then identifiers found
      else identifiers found ++ [tag.identifier] := by
  have left (old : List Text) (new : Text) :
      [new].removeAll old = if new ∈ old then [] else [new] := by
    by_cases member : new ∈ old <;> simp [List.removeAll, member]
  have member : tag.identifier ∈ identifiers found ↔
      tag.identifier ∈ found.map (·.identifier) := List.mem_eraseDups
  rw [identifiers, List.map_append, List.eraseDups_append, List.map_singleton, left]
  by_cases old : tag.identifier ∈ identifiers found
  · rw [if_pos old, if_pos (member.1 old), List.eraseDups_nil, List.append_nil]
    rfl
  · rw [if_neg old, if_neg (mt member.2 old)]
    rfl

/-- No identifier is listed twice. -/
theorem nodup_identifiers (found : List Tag) : (identifiers found).Nodup := by
  induction found using List.reverseRecOn with
  | nil => exact List.nodup_nil
  | append_singleton found tag ih =>
    rw [identifiers_concat]
    split
    · exact ih
    · rename_i new
      rw [← List.concat_eq_append]
      exact ih.concat new

/-- **Composition.** Tags behind other tags add the identifiers that are new, in their order. -/
theorem identifiers_append (front back : List Tag) :
    identifiers (front ++ back) =
      identifiers front ++ (identifiers back).filter (· ∉ identifiers front) := by
  induction back using List.reverseRecOn with
  | nil => simp [identifiers]
  | append_singleton back tag ih =>
    rw [← List.append_assoc, identifiers_concat, identifiers_concat, ih]
    by_cases front : tag.identifier ∈ identifiers front
    · by_cases back : tag.identifier ∈ identifiers back <;> simp [front, back]
    · by_cases back : tag.identifier ∈ identifiers back <;> simp [front, back]

/-- The identifiers do not depend on where the tags stand. -/
theorem identifiers_shift (amount : Nat) (found : List Tag) :
    identifiers (found.map (Tag.shift amount)) = identifiers found := by
  rw [identifiers, List.map_map]
  rfl

/-! ## Order -/

/-- The first of the tags that carries an identifier. -/
def firstWith? (identifier : Text) (found : List Tag) : Option Tag :=
  found.find? (·.identifier == identifier)

theorem firstWith?_concat_of_some {identifier : Text} {found : List Tag} {first : Tag}
    (held : firstWith? identifier found = some first) (tag : Tag) :
    firstWith? identifier (found ++ [tag]) = some first := by
  rw [firstWith?, List.find?_append]
  exact congrArg (Option.or · _) held

theorem firstWith?_concat_of_new {found : List Tag} {tag : Tag}
    (new : tag.identifier ∉ identifiers found) :
    firstWith? tag.identifier (found ++ [tag]) = some tag := by
  have none : found.find? (·.identifier == tag.identifier) = none := by
    rw [List.find?_eq_none]
    intro other member same
    exact new (mem_identifiers.2 ⟨other, member, beq_iff_eq.1 same⟩)
  rw [firstWith?, List.find?_append, none]
  simp

theorem exists_firstWith? {identifier : Text} {found : List Tag}
    (listed : identifier ∈ identifiers found) :
    ∃ first ∈ found, firstWith? identifier found = some first := by
  obtain ⟨tag, member, rfl⟩ := mem_identifiers.1 listed
  cases held : firstWith? tag.identifier found with
  | none => exact absurd (beq_self_eq_true _) (List.find?_eq_none.1 held tag member)
  | some first => exact ⟨first, List.mem_of_find?_eq_some held, rfl⟩

/-- **Order.** Of two identifiers the one that is listed first has the first tag of the two. -/
theorem pairwise_identifiers {found : List Tag} (forward : found.Pairwise (·.start < ·.start)) :
    (identifiers found).Pairwise fun i j => ∃ first second,
      firstWith? i found = some first ∧ firstWith? j found = some second ∧
        first.start < second.start := by
  induction found using List.reverseRecOn with
  | nil => exact List.Pairwise.nil
  | append_singleton found tag ih =>
    obtain ⟨earlier, -, before⟩ := List.pairwise_append.1 forward
    -- the first tags of the identifiers so far are the same
    have kept : (identifiers found).Pairwise fun i j => ∃ first second,
        firstWith? i (found ++ [tag]) = some first ∧ firstWith? j (found ++ [tag]) = some second ∧
          first.start < second.start := by
      refine (ih earlier).imp ?_
      rintro i j ⟨first, second, left, right, ordered⟩
      exact ⟨first, second, firstWith?_concat_of_some left tag,
        firstWith?_concat_of_some right tag, ordered⟩
    rw [identifiers_concat]
    split
    · exact kept
    · rename_i new
      refine List.pairwise_append.2 ⟨kept, List.pairwise_singleton _ _, ?_⟩
      intro i listed j last
      obtain rfl := List.mem_singleton.1 last
      obtain ⟨first, member, held⟩ := exists_firstWith? listed
      exact ⟨first, tag, firstWith?_concat_of_some held tag, firstWith?_concat_of_new new,
        before first member tag List.mem_cons_self⟩

/-- Tags that stand one after another begin one after another. -/
theorem Tag.Between.pairwise {stop pos : Nat} {found : List Tag}
    (between : Between stop pos found) : found.Pairwise (·.start < ·.start) := by
  induction found generalizing pos with
  | nil => exact List.Pairwise.nil
  | cons tag later ih =>
    obtain ⟨-, wide, after⟩ := between
    refine List.pairwise_cons.2 ⟨?_, ih after⟩
    intro other member
    exact Nat.lt_of_lt_of_le wide (after.le_start member)

/-! ## The identifiers of a marker -/

/-- Identifiers are compared as texts: where tags carry one and another one that has more zeros in
front, both are listed. -/
theorem exists_listed_apart {found : List Tag} {first second : Tag} (left : first ∈ found)
    (right : second ∈ found) {zeros : Nat} (more : 0 < zeros)
    (padded : second.identifier = List.replicate zeros '0' ++ first.identifier) :
    ∃ a b : Nat, a ≠ b ∧ (identifiers found)[a]? = some first.identifier ∧
      (identifiers found)[b]? = some second.identifier := by
  obtain ⟨a, here⟩ := List.mem_iff_getElem?.1 (mem_identifiers.2 ⟨first, left, rfl⟩)
  obtain ⟨b, there⟩ := List.mem_iff_getElem?.1 (mem_identifiers.2 ⟨second, right, rfl⟩)
  refine ⟨a, b, ?_, here, there⟩
  rintro rfl
  have same : first.identifier = second.identifier := Option.some.inj (here.symm.trans there)
  have lengths := congrArg List.length (same.trans padded)
  rw [List.length_append, List.length_replicate] at lengths
  omega

/-- **Identifiers in order.** A marker lists the identifiers that its tags carry, each once and in
the order of the first tags that carry them. If its text is cut where no tag is cut, these are the
identifiers of the first part, and then those of the second part that are not among them. One that
another tag carries with more zeros in front is listed beside that. -/
theorem identifiers_in_order {κ : Type} (marker : Marker κ) :
    marker.identifiers.Nodup ∧
    (∀ identifier, identifier ∈ marker.identifiers ↔
      ∃ tag ∈ marker.tags, tag.identifier = identifier) ∧
    (marker.identifiers.Pairwise fun i j => ∃ first second,
      firstWith? i marker.tags = some first ∧ firstWith? j marker.tags = some second ∧
        first.start < second.start) ∧
    (∀ k ≤ marker.source.length, (∀ tag ∈ marker.tags, ¬ (tag.start < k ∧ k < tag.stop)) →
      marker.identifiers =
        ({ marker with source := marker.source.take k } : Marker κ).identifiers ++
          ({ marker with source := marker.source.drop k } : Marker κ).identifiers.filter
            (· ∉ ({ marker with source := marker.source.take k } : Marker κ).identifiers)) ∧
    ∀ first ∈ marker.tags, ∀ second ∈ marker.tags, ∀ zeros : Nat, 0 < zeros →
      second.identifier = List.replicate zeros '0' ++ first.identifier →
        ∃ a b : Nat, a ≠ b ∧ marker.identifiers[a]? = some first.identifier ∧
          marker.identifiers[b]? = some second.identifier := by
  refine ⟨nodup_identifiers _, fun identifier => mem_identifiers,
    pairwise_identifiers (tags_between marker.source).pairwise, ?_, ?_⟩
  · intro k inside whole
    have length : (marker.source.take k).length = k := List.length_take_of_le inside
    have joined : marker.source.take k ++ marker.source.drop k = marker.source :=
      List.take_append_drop k marker.source
    have cut := @tags_append (marker.source.take k) (marker.source.drop k)
      (by rwa [joined, length])
    rw [joined, length] at cut
    show identifiers (tags marker.source) = _
    rw [cut, identifiers_append, identifiers_shift]
    rfl
  · intro first left second right zeros more padded
    exact exists_listed_apart left right more padded

/-- A text that is cut right behind a tag that has backed off, and has an identifier on both sides
of the cut, once with a zero in front. -/
theorem identifiers_in_order_backed_off :
    let s := "<x:1?a>> b\n<x:01><x:1><x:2>".toList
    let marker : Marker Empty := ⟨s, {}, .nothing⟩
    (7 ≤ s.length ∧ (∀ tag ∈ marker.tags, ¬ (tag.start < 7 ∧ 7 < tag.stop)) ∧
      marker.identifiers =
        (Marker.mk "<x:1?a>".toList {} .nothing : Marker Empty).identifiers ++
          (Marker.mk "> b\n<x:01><x:1><x:2>".toList {} .nothing : Marker Empty).identifiers.filter
            (· ∉ (Marker.mk "<x:1?a>".toList {} .nothing : Marker Empty).identifiers)) ∧
    ∃ a b : Nat, a ≠ b ∧ marker.identifiers[a]? = some ['1'] ∧
      marker.identifiers[b]? = some ['0', '1'] := by
  intro s marker
  have inside : 7 ≤ s.length := by decide
  have whole : ∀ tag ∈ marker.tags, ¬ (tag.start < 7 ∧ 7 < tag.stop) := by decide
  obtain ⟨-, -, -, cut, zeros⟩ := identifiers_in_order marker
  refine ⟨⟨inside, whole, cut 7 inside whole⟩, ?_⟩
  exact zeros ⟨['1'], some ['a'], none, 0, 7, "<x:1?a>".toList⟩ (by decide)
    ⟨['0', '1'], none, none, 11, 17, "<x:01>".toList⟩ (by decide) 1 Nat.one_pos rfl

end Waymark
