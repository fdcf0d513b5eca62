import Mathlib.Data.List.DropRight
import SegmentedText.Proofs.Flat.Questions
import SegmentedText.Proofs.Flat.Replacement
import SegmentedText.Proofs.Flat.Substitution
import SegmentedText.Proofs.Streams.Readings

/-!
# Renaming the units of a flat text

What is looked for in a flat text, cut off it or exchanged in it depends on the units only
through which of them are the same.  So a renaming that keeps different units different
carries each of these functions along: places, counts and spans are the same in the renamed
text, and texts are the renamed ones.
-/

set_option autoImplicit false

namespace SegmentedText

variable {α β : Type} {f : α → β}

/-! ## Cutting at units that are told by a test -/

theorem rdropWhile_map (p : β → Bool) (text : List α) :
    (text.map f).rdropWhile p = (text.rdropWhile (p ∘ f)).map f := by
  rw [List.rdropWhile, List.rdropWhile, ← List.map_reverse, List.dropWhile_map, List.map_reverse]

theorem splitOnP_map (p : β → Bool) (text : List α) :
    (text.map f).splitOnP p = (text.splitOnP (p ∘ f)).map (List.map f) := by
  induction text with
  | nil => rfl
  | cons u us ih =>
      rw [List.map_cons, List.splitOnP_cons_eq_if_modifyHead,
        List.splitOnP_cons_eq_if_modifyHead, ih, Function.comp_apply]
      by_cases cut : p (f u) = true
      · rw [if_pos cut, if_pos cut]
        rfl
      · rw [if_neg cut, if_neg cut]
        cases us.splitOnP (p ∘ f) <;> rfl

/-! ## Exchanging spans -/

theorem exchanged_map (whole : List α) (found : List Span) (values : List (List α)) :
    exchanged (whole.map f) found (values.map (List.map f)) =
      (exchanged whole found values).map f := by
  induction found generalizing whole values with
  | nil => rfl
  | cons span found ih =>
      cases values with
      | nil => rfl
      | cons value values =>
          rw [List.map_cons, exchanged, exchanged, ← List.map_drop, ih, ← List.map_take,
            List.map_append, List.map_append]

theorem enclosedBy_map (found : List Span) (whole : List α) :
    enclosedBy found (whole.map f) = (enclosedBy found whole).map (List.map f) := by
  induction found generalizing whole with
  | nil => rfl
  | cons span found ih =>
      rw [enclosedBy, enclosedBy, List.map_cons, ← List.map_drop, ih, ← List.map_take,
        ← List.map_drop]

/-- Values that are renamed along with the texts that they are for. -/
theorem valuesFor_map {value : Nat → List α → List α} {value' : Nat → List β → List β}
    (renamed : ∀ n text, value' n (text.map f) = (value n text).map f) (n : Nat)
    (texts : List (List α)) :
    valuesFor value' n (texts.map (List.map f)) = (valuesFor value n texts).map (List.map f) := by
  induction texts generalizing n with
  | nil => rfl
  | cons text texts ih => rw [List.map_cons, valuesFor, valuesFor, List.map_cons, renamed, ih]

/-! ## Looking for given units -/

section

variable [DecidableEq α] [DecidableEq β] (inj : Function.Injective f)
include inj

theorem beq_map (u v : α) : (f u == f v) = (u == v) :=
  decide_eq_decide.2 inj.eq_iff

theorem findIdx?_map (u : α) (text : List α) :
    (text.map f).findIdx? (· == f u) = text.findIdx? (· == u) := by
  rw [List.findIdx?_map]
  exact congrArg text.findIdx? (funext fun v => beq_map inj v u)

theorem isPrefixOf_map (pattern text : List α) :
    (pattern.map f).isPrefixOf (text.map f) = pattern.isPrefixOf text := by
  induction pattern generalizing text with
  | nil => cases text <;> rfl
  | cons u us ih =>
      cases text with
      | nil => rfl
      | cons v vs => rw [List.map_cons, List.map_cons, List.isPrefixOf, List.isPrefixOf,
          beq_map inj, ih]

theorem isSuffixOf_map (pattern text : List α) :
    (pattern.map f).isSuffixOf (text.map f) = pattern.isSuffixOf text := by
  rw [List.isSuffixOf, List.isSuffixOf, ← List.map_reverse, ← List.map_reverse,
    isPrefixOf_map inj]

theorem firstOccurrence_map (pattern text : List α) :
    firstOccurrence (pattern.map f) (text.map f) = firstOccurrence pattern text := by
  induction text with
  | nil => rw [List.map_nil, firstOccurrence, firstOccurrence, List.isEmpty_map]
  | cons u us ih =>
      rw [List.map_cons, firstOccurrence, firstOccurrence, ← List.map_cons, isPrefixOf_map inj, ih]

theorem placeOf_map (pattern : List α) (start : Nat) (text : List α) :
    placeOf (pattern.map f) start (text.map f) = placeOf pattern start text := by
  rw [placeOf, placeOf, List.length_map, ← List.map_drop, firstOccurrence_map inj]

theorem splitOn_map (separator : α) (text : List α) :
    (text.map f).splitOn (f separator) = (text.splitOn separator).map (List.map f) := by
  rw [List.splitOn, List.splitOn, splitOnP_map]
  exact congrArg (fun p => (text.splitOnP p).map _) (funext fun u => beq_map inj u separator)

theorem replaceOccurrences_map (search replacement text : List α) :
    replaceOccurrences (search.map f) (replacement.map f) (text.map f) =
      ((replaceOccurrences search replacement text).1.map f,
        (replaceOccurrences search replacement text).2) := by
  -- The induction is on the search: what is found in the renamed text is found at the same places.
  fun_induction replaceOccurrences search replacement text with
  | case1 text none =>
      refine replaceOccurrences_of_absent fun some => absurd ?_ some
      rw [List.isEmpty_iff.1 none, List.map_nil]
  | case2 text some absent =>
      exact replaceOccurrences_of_absent fun _ => (firstOccurrence_map inj search text).trans absent
  | case3 text some lead found rest count later ih =>
      have some_search : search.map f ≠ [] := fun none => some (by simpa using none)
      have found' := (firstOccurrence_map inj search text).trans found
      rw [replaceOccurrences_of_found some_search found', List.length_map, ← List.map_drop, ih,
        later, ← List.map_take]
      simp only [List.map_append]

theorem spans_map (opening closing text : List α) :
    spans (opening.map f) (closing.map f) (text.map f) = spans opening closing text := by
  fun_induction spans opening closing text with
  | case1 text empty => exact spans_of_isEmpty (by simpa using empty)
  | case2 text some absent =>
      exact spans_of_not_opened ((firstOccurrence_map inj opening text).trans absent)
  | case3 text some lead opened absent =>
      refine spans_of_not_closed ((firstOccurrence_map inj opening text).trans opened) ?_
      rw [List.length_map, ← List.map_drop, firstOccurrence_map inj, absent]
  | case4 text some lead opened inner closed last ih =>
      have markers : opening.map f ≠ [] ∧ closing.map f ≠ [] := by simpa using some
      have inside : firstOccurrence (closing.map f)
          ((text.map f).drop (lead + (opening.map f).length)) = Option.some inner := by
        rw [List.length_map, ← List.map_drop, firstOccurrence_map inj, closed]
      rw [spans_eq_cons markers.1 markers.2
        ((firstOccurrence_map inj opening text).trans opened) inside]
      simp only [List.length_map, ← List.map_drop]
      exact congrArg (_ :: ·) ih

end

section

variable [TextUnit α] [TextUnit β] (inj : Function.Injective f)
include inj

theorem replacing_map (old new u : α) :
    replacing (f old) (f new) (f u) = f (replacing old new u) := by
  unfold replacing
  by_cases same : u = old
  · rw [if_pos same, if_pos (congrArg f same)]
  · rw [if_neg same, if_neg (inj.ne same)]

theorem lineOf_map (delimiter : α) (unread : List α) :
    lineOf (f delimiter) (unread.map f) = (lineOf delimiter unread).map f := by
  rw [lineOf, lineOf, List.takeWhile_map]
  refine congrArg (fun p => (unread.takeWhile p).map f) (funext fun u => ?_)
  exact congrArg not (beq_map inj u delimiter)

theorem fromDelimiter_map (delimiter : α) (unread : List α) :
    fromDelimiter (f delimiter) (unread.map f) = (fromDelimiter delimiter unread).map f := by
  rw [fromDelimiter, fromDelimiter, List.dropWhile_map]
  refine congrArg (fun p => (unread.dropWhile p).map f) (funext fun u => ?_)
  exact congrArg not (beq_map inj u delimiter)

end

end SegmentedText
