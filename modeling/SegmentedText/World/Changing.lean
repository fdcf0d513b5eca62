import SegmentedText.World.Query

/-!
# Changing objects

A change is made in three moves.  The names in the change are resolved, which may
take objects out of the table; the object that is changed is taken out; and the
resulting edit is applied in the surroundings that are left.  Whatever came of it,
the object goes back.  So an object may be put into a copy of itself.

An argument that was taken out of its register does not go back, even when the
edit is refused.
-/

set_option autoImplicit false

namespace SegmentedText

variable {α : Type} [TextUnit α]

/-! ## Values of a substitution -/

/-- A pattern with every pair of empty braces replaced by a text. -/
def fillBraces (inner : List Char) : List Char → List Char
  | [] => []
  | [c] => [c]
  | c :: d :: rest =>
      if c = '\x7b' ∧ d = '\x7d' then inner ++ fillBraces inner rest
      else c :: fillBraces inner (d :: rest)

/-- A text as a buffer. -/
def TextForm.buffer (form : TextForm) (text : String) (st : Store α) : Buffer × Store α :=
  match form with
  | .text => Buffer.ofText text st
  | .units => Buffer.ofUnits (TextUnit.unitsOf text) st

/-- The provider that looks the enclosed text up in a table. -/
def tableProvider (entries : List (String × String)) (fallback : String) (form : TextForm) :
    Provider α :=
  fun _ inner st =>
    let text := inner.display st
    let value := (entries.lookup text).getD
      (String.ofList (fillBraces text.toList fallback.toList))
    form.buffer value st

namespace World

/-- The provider for values that come from a world.  The one for the buffer of a register keeps
that buffer alive. -/
def provider? (w : World α) : Values → Option (Provider α × World α)
  | .table entries fallback form => some (tableProvider entries fallback form, w)
  | .same => some (fun _ inner st => (inner.shared, st), w)
  | .register name => do
      let b ← (← w.get? name).buffer?
      return (fun _ _ st => (b.shared, st), { w with aside := b.shared.segments ++ w.aside })

/-! ## Resolving a change -/

/-- The buffer that is put into a range. -/
def replacement? (w : World α) : Replacement → Option (Buffer × World α)
  | .register name move => w.takeBuffer? name move
  | .text text form =>
      let (b, st) := form.buffer text w.store
      some (b, w.withStore st)

/-- The window of a segment in a register, lent out for the change. -/
def lentWindow? (w : World α) (source : String) (i : Nat) : Option (List α × World α) := do
  let s ← (← w.get? source).segmentAt? i
  return (s.content w.store, { w with lent := s.storage :: w.lent })

/-- The edit of a change, and the world without the arguments that it uses up. -/
def edit? (w : World α) : Change → Option (Edit α × World α)
  | .append c => some (.append (TextUnit.ofChar c), w)
  | .appendSlice text => some (.appendSlice (TextUnit.unitsOf text), w)
  | .appendText text => some (.appendText text, w)
  | .extend text => some (.extend (TextUnit.unitsOf text), w)
  | .appendSegment source move => do
      let (s, w) ← w.takeSegment? source move
      return (.appendSegment s, w)
  | .appendBuffer source => do
      let b ← (← w.get? source).buffer?
      return (.appendBuffer b, w)
  | .appendWindow source i => do
      let (units, w) ← w.lentWindow? source i
      return (.appendSlice units, w)
  | .prepend c => some (.prepend (TextUnit.ofChar c), w)
  | .prependSegment source move => do
      let (s, w) ← w.takeSegment? source move
      return (.prependSegment s, w)
  | .setAt i c => some (.setAt i (TextUnit.ofChar c), w)
  | .replaceUnit old new => some (.replaceUnit (TextUnit.ofChar old) (TextUnit.ofChar new), w)
  | .lowerCase => some (.lowerCase, w)
  | .upperCase => some (.upperCase, w)
  | .removeStart count => some (.removeStart count, w)
  | .removeEnd count => some (.removeEnd count, w)
  | .trimStart => some (.trimStart, w)
  | .trimEnd => some (.trimEnd, w)
  | .trim => some (.trim, w)
  | .compact => some (.compact, w)
  | .clear => some (.clear, w)
  | .replaceRange start stop replacement => do
      let (b, w) ← w.replacement? replacement
      return (.replaceRange start stop b, w)
  | .replaceAll search text =>
      some (.replaceAll (TextUnit.unitsOf search) (TextUnit.unitsOf text), w)
  | .substitute opening closing values => do
      let (provider, w) ← w.provider? values
      return (.substitute (TextUnit.unitsOf opening) (TextUnit.unitsOf closing) provider, w)
  | .appendOwned _ | .moveForward _ | .reserve _ => none

end World

/-! ## Applying an edit -/

/-- Applies an edit to a segment, if it is one that segments have. -/
def Segment.apply (s : Segment) (around : Surroundings) (st : Store α) :
    Edit α → Option (Edited Segment α Reply)
  | .append u => some (s.append around u st).silent
  | .appendSlice units => some (s.appendSlice around units st).silent
  | .appendText text => some (s.appendText around text st).silent
  | .setAt i u => some (.written s st (s.setAt around i u st))
  | .replaceUnit old new => some (.written s st (s.mapUnits around (replacing old new) st))
  | .lowerCase => some (.written s st (s.mapUnits around TextUnit.toLower st))
  | .upperCase => some (.written s st (s.mapUnits around TextUnit.toUpper st))
  | .removeStart count => some (.moved (s.removeStart count) st)
  | .removeEnd count => some (.moved (s.removeEnd around count) st)
  | .trimStart => some (.moved (s.trimStart st) st)
  | .trimEnd => some (.moved (s.trimEnd around st) st)
  | .trim => some (.moved (s.trim around st) st)
  | .compact => some (.stored (s.compact st))
  | _ => none

/-- Applies an edit to an object, if it is one that the object has. -/
def Object.apply (o : Object) (around : Surroundings) (st : Store α) (edit : Edit α) :
    Option (Edited Object α Reply) :=
  match o with
  | .segment s => (s.apply around st edit).map fun r => r.mapObject .segment
  | .buffer b => some ((b.apply around st edit).mapObject .buffer)
  | .bounded b => some ((b.apply around st edit).mapObject .bounded)

/-- The answer that an edit gives. -/
def Reply.answer (st : Store α) : Reply → Answer
  | .done => .done
  | .count n => .number n
  | .enclosed texts => .dumps (texts.map (·.dump st))

namespace World

/-- Puts the result of an edit back into its register. -/
def putEdited (w : World α) (target : String) (r : Edited Object α Reply) : World α × Answer :=
  ((w.withStore r.store).put target r.object, .ofExcept (Reply.answer r.store) r.answer)

/-- Applies a change that only some objects have; the others are put back as they are. -/
def changeSpecial (w : World α) (target : String) (o : Object) (change : Change) :
    World α × Answer :=
  match change, o with
  | .moveForward count, .segment s =>
      match s.moveForward count with
      | .ok s => (w.put target (.segment s), .done)
      | .error fault => (w.put target o, .fault fault)
  | .reserve additional, .segment s =>
      match s.reserve w.surroundings additional w.store with
      | .ok (s, st) => ((w.withStore st).put target (.segment s), .done)
      | .error fault => (w.put target o, .fault fault)
  | .appendOwned source, .buffer b =>
      match w.takeBuffer? source true with
      | none => (w.put target o, .malformed)
      | some (other, w) =>
          match b.appendOwned other with
          | .ok b => (w.put target (.buffer b), .done)
          | .error fault => (w.put target o, .fault fault)
  | _, _ => (w.put target o, .malformed)

/-- Applies an edit to the object in a register. -/
def applyEdit (w : World α) (target : String) (edit : Edit α) : Option (World α × Answer) := do
  let (object, rest) ← w.take? target
  let r ← object.apply rest.surroundings rest.store edit
  return rest.putEdited target r

/-- Changes the object in a register.  What was lent out or set aside for the change is so no
longer. -/
def change (w : World α) (target : String) (change : Change) : World α × Answer :=
  match w.take? target with
  | none => (w, .malformed)
  | some (object, rest) =>
      match w.edit? change with
      | none => rest.changeSpecial target object change
      | some (edit, resolved) =>
          match resolved.applyEdit target edit with
          | none => (w, .malformed)
          | some (after, answer) => ({ after with aside := w.aside, lent := w.lent }, answer)

end World
end SegmentedText
