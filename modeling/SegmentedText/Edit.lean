import SegmentedText.Buffer.InPlace
import SegmentedText.Buffer.Shorten
import SegmentedText.Buffer.Substitution

/-!
# Edits

An edit is one change of a text as data: what to append, remove or exchange, with
its arguments already resolved to units, segments and buffers.  The same edit can
be applied to an unbounded buffer and to a bounded one, and to buffers that are
cut differently, which is how their behaviour is compared.

`Buffer.apply` applies an edit to an unbounded buffer.
-/

set_option autoImplicit false

namespace SegmentedText

/-- A change of a text. -/
inductive Edit (α : Type) where
  | append (u : α)
  | appendSlice (units : List α)
  | appendText (text : String)
  | extend (units : List α)
  | appendSegment (s : Segment)
  | appendBuffer (other : Buffer)
  | prepend (u : α)
  | prependSegment (s : Segment)
  | setAt (i : Nat) (u : α)
  | replaceUnit (old new : α)
  | lowerCase
  | upperCase
  | removeStart (count : Nat)
  | removeEnd (count : Nat)
  | trimStart
  | trimEnd
  | trim
  | compact
  | clear
  | replaceRange (start stop : Nat) (replacement : Buffer)
  | replaceAll (search replacement : List α)
  | substitute (opening closing : List α) (provider : Provider α)

/-- What an edit answers. -/
inductive Reply where
  /-- The edit only changes the text. -/
  | done
  /-- The number of occurrences replaced. -/
  | count (n : Nat)
  /-- The texts between markers, in the order in which values for them were asked for. -/
  | enclosed (texts : List Buffer)
  deriving Repr, DecidableEq

variable {α : Type}

/-- The result of an edit that cannot be refused and leaves the store alone. -/
def Edited.moved {ω : Type} (object : ω) (st : Store α) : Edited ω α Reply :=
  ⟨object, st, .ok .done⟩

/-- The result of an edit that cannot be refused. -/
def Edited.stored {ω : Type} (r : ω × Store α) : Edited ω α Reply := ⟨r.1, r.2, .ok .done⟩

/-- The result of an edit that only changes the text. -/
def Edited.silent {ω : Type} (r : Edited ω α Unit) : Edited ω α Reply := r.mapAnswer fun _ => .done

/-- The result of a write that is refused as a whole or done as a whole. -/
def Edited.written {ω : Type} (object : ω) (st : Store α) (r : Except Fault (Store α)) :
    Edited ω α Reply :=
  match r with
  | .ok st => ⟨object, st, .ok .done⟩
  | .error fault => ⟨object, st, .error fault⟩

/-- The result of a mapping that may have been stopped on its way. -/
def Edited.mapped {ω : Type} (object : ω) (r : Store α × Option Fault) : Edited ω α Reply :=
  match r with
  | (st, none) => ⟨object, st, .ok .done⟩
  | (st, some fault) => ⟨object, st, .error fault⟩

/-- A write leaves the object as it is, whether it is done or refused. -/
theorem Edited.object_written {ω : Type} (object : ω) (st : Store α)
    (r : Except Fault (Store α)) : (Edited.written object st r).object = object := by
  cases r <;> rfl

theorem Edited.object_mapped {ω : Type} (object : ω) (r : Store α × Option Fault) :
    (Edited.mapped object r).object = object := by
  obtain ⟨st, _ | fault⟩ := r <;> rfl

namespace Buffer

variable [TextUnit α]

/-- Prepends one unit in a segment of its own. -/
def prepend (b : Buffer) (u : α) (st : Store α) : Except Fault (Buffer × Store α) :=
  let (s, st) := Segment.ofUnits [u] st
  (b.prependSegment s).map fun b => (b, st)

/-- Exchanges the range from `start` up to `stop`. -/
def replaceRange (b : Buffer) (start stop : Nat) (replacement : Buffer) (st : Store α) :
    Edited Buffer α Unit :=
  match b.splice start stop replacement with
  | .ok (b, _) => ⟨b, st, .ok ()⟩
  | .error fault => ⟨b, st, .error fault⟩

/-- Applies an edit. -/
def apply (b : Buffer) (around : Surroundings) (st : Store α) :
    Edit α → Edited Buffer α Reply
  | .append u => (Edited.whole b st (b.append around u st)).silent
  | .appendSlice units => (b.appendSlice around units st).silent
  | .appendText text => (b.appendText around text st).silent
  | .extend units => (b.extend around units st).silent
  | .appendSegment s => (Edited.wholeObject b st (b.appendSegment s)).silent
  | .appendBuffer other => (Edited.wholeObject b st (b.appendBuffer other)).silent
  | .prepend u => (Edited.whole b st (b.prepend u st)).silent
  | .prependSegment s => (Edited.wholeObject b st (b.prependSegment s)).silent
  | .setAt i u => .written b st (b.setAt around i u st)
  | .replaceUnit old new => .mapped b (b.mapUnits around (replacing old new) st)
  | .lowerCase => .mapped b (b.mapUnits around TextUnit.toLower st)
  | .upperCase => .mapped b (b.mapUnits around TextUnit.toUpper st)
  | .removeStart count => .moved (b.removeStart count) st
  | .removeEnd count => .moved (b.removeEnd around count) st
  | .trimStart => .moved (b.trimStart st) st
  | .trimEnd => .moved (b.trimEnd around st) st
  | .trim => .moved (b.trim around st) st
  | .compact => .stored (b.compact st)
  | .clear => .moved b.clear st
  | .replaceRange start stop replacement => (b.replaceRange start stop replacement st).silent
  | .replaceAll search replacement => (b.replaceAll search replacement st).mapAnswer .count
  | .substitute opening closing provider =>
      (b.substitute opening closing provider st).mapAnswer .enclosed

end Buffer
end SegmentedText
