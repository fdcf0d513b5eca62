import SegmentedText.Buffer.Cut
import SegmentedText.Buffer.Splice
import SegmentedText.Edited

/-!
# Substitution

Two scans that change a buffer from front to back.  One replaces every
occurrence of a pattern by its own copy of a text.  The other replaces every
span between an opening and a closing marker, the markers included, by a value
that is asked for with the enclosed text.

Both go on behind what they have put in, so inserted text is never searched.
What lies behind the scan shrinks with every round, by at least the length of
what was found, and so the scans end: the measure is the number of units behind
the cursor (`Buffer.length_splice`, `Cursor.findPattern_position`).
-/

set_option autoImplicit false

namespace SegmentedText

/-- The source of values: from the number of texts asked for so far and the enclosed text, the
value that takes its place. -/
def Provider (α : Type) : Type := Nat → Buffer → Store α → Buffer × Store α

namespace Buffer

variable {α : Type} [TextUnit α]

/-! ## Every occurrence -/

/-- Goes on replacing from a cursor, with `count` occurrences behind it. -/
def replaceFrom (search replacement : List α) (b : Buffer) (c : Cursor) (count : Nat)
    (st : Store α) : Edited Buffer α Nat :=
  match _found : Cursor.findPattern b.segments search st c with
  | none => ⟨b, st, .ok count⟩
  | some (found, after) =>
      match ofUnits replacement st with
      | (value, st) =>
          match _done : b.splice found.position after.position value with
          | .error fault => ⟨b, st, .error fault⟩
          | .ok (b, c) => replaceFrom search replacement b c (count + 1) st
  termination_by b.length - c.position
  decreasing_by
    have := Cursor.findPattern_position _found
    have := le_of_splice _done
    have := length_splice _done
    have := position_splice _done
    omega

/-- Replaces every occurrence of `search`, each by its own copy of `replacement`.  The answer is
the number of occurrences; the empty text has none. -/
def replaceAll (b : Buffer) (search replacement : List α) (st : Store α) : Edited Buffer α Nat :=
  replaceFrom search replacement b (Cursor.locate b.segments 0) 0 st

/-! ## Every span between markers -/

/-- Goes on substituting from a cursor, with the texts in `enclosed` asked for so far. -/
def substituteFrom (opening closing : List α) (provider : Provider α) (b : Buffer) (c : Cursor)
    (enclosed : List Buffer) (st : Store α) : Edited Buffer α (List Buffer) :=
  match _opened : Cursor.findPattern b.segments opening st c with
  | none => ⟨b, st, .ok enclosed⟩
  | some (first, body) =>
      match _closed : Cursor.findPattern b.segments closing st body with
      | none => ⟨b, st, .ok enclosed⟩
      | some (last, after) =>
          match b.substring body.position last.position with
          | .error fault => ⟨b, st, .error fault⟩
          | .ok inner =>
              match provider enclosed.length inner st with
              | (value, st) =>
                  match _done : b.splice first.position after.position value with
                  | .error fault => ⟨b, st, .error fault⟩
                  | .ok (b, c) =>
                      substituteFrom opening closing provider b c (enclosed ++ [inner]) st
  termination_by b.length - c.position
  decreasing_by
    have := Cursor.findPattern_position _opened
    have := Cursor.findPattern_position _closed
    have := le_of_splice _done
    have := length_splice _done
    have := position_splice _done
    omega

/-- Replaces every span from an opening marker to the next closing marker by the value for the
text between them.  The answer lists the enclosed texts in the order of asking.  An opening marker
that is never closed ends the scan, and an empty marker marks nothing. -/
def substitute (b : Buffer) (opening closing : List α) (provider : Provider α) (st : Store α) :
    Edited Buffer α (List Buffer) :=
  if opening.isEmpty || closing.isEmpty then ⟨b, st, .ok []⟩
  else substituteFrom opening closing provider b (Cursor.locate b.segments 0) [] st

end Buffer
end SegmentedText
