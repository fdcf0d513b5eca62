import SegmentedText.World.Object

/-!
# The world

A world is a store and a table of named registers, each of which holds one
object.  Objects in different registers may show the same cells, so a change of
one can be seen in others.

While a step runs, the object that it works on is out of the table.  What is alive
besides it are the windows in the table and those set aside by the steps around
it; which arrays are lent out is recorded with the world.
-/

set_option autoImplicit false

namespace SegmentedText

/-- A store, the registers, and what the steps under way have set aside. -/
structure World (α : Type) where
  store : Store α := {}
  /-- The registers in the order of their making. -/
  registers : List (String × Object) := []
  /-- Windows that are alive although no register holds them. -/
  aside : List Segment := []
  /-- Arrays over which a window is lent out. -/
  lent : List StorageId := []

namespace World

variable {α : Type}

/-- The object in a register. -/
def get? (w : World α) (name : String) : Option Object := w.registers.lookup name

/-- The world without a register. -/
def erase (w : World α) (name : String) : World α :=
  { w with registers := w.registers.filter (·.1 != name) }

/-- Takes the object out of a register. -/
def take? (w : World α) (name : String) : Option (Object × World α) :=
  (w.get? name).map fun object => (object, w.erase name)

/-- Puts an object into a register.  What was there before is gone. -/
def put (w : World α) (name : String) (object : Object) : World α :=
  { w with registers := (w.registers.filter (·.1 != name)) ++ [(name, object)] }

/-- The world with another store. -/
def withStore (w : World α) (st : Store α) : World α := { w with store := st }

/-- The windows that are alive in the registers and aside. -/
def alive (w : World α) : List Segment :=
  w.registers.flatMap (fun entry => entry.2.segments) ++ w.aside

/-- The surroundings of an operation on an object that is out of the table. -/
def surroundings (w : World α) : Surroundings := ⟨w.alive, w.lent⟩

/-- The object in a register as a segment, taken out of it or aliased. -/
def takeSegment? (w : World α) (name : String) (move : Bool) : Option (Segment × World α) := do
  let s ← (← w.get? name).segment?
  return if move then (s, w.erase name) else (s.shared, w)

/-- The buffer in a register, taken out of it or aliased.  What a bounded buffer holds can only be
aliased. -/
def takeBuffer? (w : World α) (name : String) (move : Bool) : Option (Buffer × World α) := do
  let object ← w.get? name
  if move then
    let b ← object.plainBuffer?
    return (b, w.erase name)
  else
    let b ← object.buffer?
    return (b.shared, w)

/-- The dumps of all registers. -/
def dump [TextUnit α] (w : World α) : List (String × Dump) :=
  w.registers.map fun entry => (entry.1, entry.2.dump w.store)

end World

/-- The registers whose dump differs from an earlier one, and those that are gone. -/
def dumpChanges (before after : List (String × Dump)) : List (String × Option Dump) :=
  (after.filter fun entry => before.lookup entry.1 != some entry.2).map
      (fun entry => (entry.1, some entry.2))
    ++ (before.filter fun entry => (after.lookup entry.1).isNone).map (fun entry => (entry.1, none))

end SegmentedText
