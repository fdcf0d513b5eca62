import SegmentedText.Text.CodeRange

/-!
# White space

The characters with the Unicode property `White_Space`: the blanks and line ends of ASCII, the
next-line and no-break space of Latin-1, and the wider spaces and separators beyond.
-/

set_option autoImplicit false

namespace SegmentedText

/-- The ranges of the property `White_Space`. -/
def whiteSpaceTable : List CodeRange :=
  [⟨0x0009, 0x000d⟩, ⟨0x0020, 0x0020⟩, ⟨0x0085, 0x0085⟩, ⟨0x00a0, 0x00a0⟩, ⟨0x1680, 0x1680⟩,
   ⟨0x2000, 0x200a⟩, ⟨0x2028, 0x2029⟩, ⟨0x202f, 0x202f⟩, ⟨0x205f, 0x205f⟩, ⟨0x3000, 0x3000⟩]

theorem whiteSpaceTable_ascending : CodeRange.Ascending whiteSpaceTable := by
  simp [whiteSpaceTable, CodeRange.Ascending]

/-- Whether a character is white space. -/
def isWhiteSpace (c : Char) : Bool := CodeRange.holds whiteSpaceTable c.toNat

/-- What the core library calls white space is white space here too. -/
theorem isWhiteSpace_of_isWhitespace {c : Char} (h : c.isWhitespace = true) :
    isWhiteSpace c = true := by
  simp only [Char.isWhitespace, Bool.or_eq_true, decide_eq_true_eq] at h
  rcases h with ((rfl | rfl) | rfl) | rfl <;> decide

end SegmentedText
