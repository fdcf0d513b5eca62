/-!
# Tables of code points

A property of characters is kept as an ascending list of ranges of code points,
and a mapping of characters as an ascending list of runs that are shifted as a
whole.  A look-up walks such a table and stops at the first entry that begins
beyond the code point, so characters near the front of Unicode are answered
after a few comparisons.

The main statement is that stopping early loses nothing on an ascending table:
`CodeRange.holds` is membership in one of the ranges (`CodeRange.holds_iff`).
-/

set_option autoImplicit false

namespace SegmentedText

/-! ## Sets of code points -/

/-- The code points from `first` to `last`, both included. -/
structure CodeRange where
  first : Nat
  last : Nat
  deriving Repr, DecidableEq

namespace CodeRange

/-- Each range begins after the one before it ends. -/
def Ascending : List CodeRange → Prop
  | [] => True
  | [range] => range.first ≤ range.last
  | range :: next :: rest =>
      range.first ≤ range.last ∧ range.last < next.first ∧ Ascending (next :: rest)

/-- Whether a range of the table holds the code point; ranges beyond it are not looked at. -/
def holds : List CodeRange → Nat → Bool
  | [], _ => false
  | range :: rest, code =>
      if code < range.first then false
      else if code ≤ range.last then true
      else holds rest code

/-- The ranges behind the head of an ascending table begin after the head ends. -/
theorem Ascending.lt_first {range : CodeRange} {table : List CodeRange}
    (ascending : Ascending (range :: table)) :
    ∀ other ∈ table, range.last < other.first := by
  induction table generalizing range with
  | nil => intro other member; cases member
  | cons next rest ih =>
      obtain ⟨_, gap, tail⟩ := ascending
      intro other member
      rcases List.mem_cons.1 member with rfl | member
      · exact gap
      · have beyond := ih tail other member
        have proper : next.first ≤ next.last := by
          cases rest with
          | nil => exact tail
          | cons _ _ => exact tail.1
        omega

theorem Ascending.tail {range : CodeRange} {table : List CodeRange}
    (ascending : Ascending (range :: table)) : Ascending table := by
  cases table with
  | nil => trivial
  | cons next rest => exact ascending.2.2

/-- On an ascending table the look-up is membership in one of the ranges. -/
theorem holds_iff {table : List CodeRange} (ascending : Ascending table) (code : Nat) :
    holds table code = true ↔ ∃ range ∈ table, range.first ≤ code ∧ code ≤ range.last := by
  induction table with
  | nil => simp [holds]
  | cons range rest ih =>
      have beyond := ascending.lt_first
      have proper : range.first ≤ range.last := by
        cases rest with
        | nil => exact ascending
        | cons _ _ => exact ascending.1
      rw [holds]
      split
      next before =>
        simp only [Bool.false_eq_true, false_iff, not_exists, not_and]
        intro other member
        rcases List.mem_cons.1 member with rfl | member
        · omega
        · have := beyond other member
          omega
      next reached =>
        split
        next inside =>
          simp only [true_iff]
          exact ⟨range, List.mem_cons_self, by omega, inside⟩
        next passed =>
          rw [ih ascending.tail]
          constructor
          · rintro ⟨other, member, bounds⟩
            exact ⟨other, List.mem_cons_of_mem _ member, bounds⟩
          · rintro ⟨other, member, bounds⟩
            rcases List.mem_cons.1 member with rfl | member
            · omega
            · exact ⟨other, member, bounds⟩

end CodeRange

/-! ## Shifted runs -/

/-- Every `stride`-th code point from `first` to `last`, the first of which goes to `image`
and the others to code points at the same distance. -/
structure ShiftedRun where
  first : Nat
  last : Nat
  stride : Nat
  image : Nat
  deriving Repr, DecidableEq

namespace ShiftedRun

/-- The image of a code point under a table of runs; a code point of no run is its own image. -/
def apply : List ShiftedRun → Nat → Nat
  | [], code => code
  | run :: rest, code =>
      if code < run.first then code
      else if code ≤ run.last then
        if (code - run.first) % run.stride = 0 then run.image + (code - run.first) else code
      else apply rest code

end ShiftedRun

end SegmentedText
