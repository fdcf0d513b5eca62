import SegmentedText.Proofs.Bounded.Refinement
import SegmentedText.Proofs.Flat.Allotments
import SegmentedText.Proofs.Flat.Distinct
import SegmentedText.Proofs.Flat.Questions
import SegmentedText.World.Making

/-!
# Bounds of single operations

Few operations can be refused for what they are asked: those that name an index, a range or
a number of units, and the copy into a destination.  Each has one bound, which goes by the
length of the object and by nothing else, and `refusal?` tells the fault of a request that
violates it.

An operation keeps to its bound if it is refused just for that, with that fault, and then
leaves everything as it was (`Edited.KeepsTo`).  Every edit does so on every kind of object,
where no array is lent out that is to be overwritten, and no more room is asked for than
there can be (`Object.keepsTo_apply`).  So the checks further inside, of a segment's own
index or of the count of a bounded buffer, never come to bear.
-/

set_option autoImplicit false

namespace SegmentedText

/-! ## Bounds -/

/-- The number of units that an object shows. -/
def Object.length : Object → Nat
  | .segment s => s.length
  | .buffer b => b.length
  | .bounded b => b.inner.length

/-- The refusal of an index that the object does not have. -/
def Object.indexRefusal? (o : Object) (i : Nat) : Option Fault :=
  if o.length ≤ i then
    match o with
    | .segment _ => some (.segmentIndex i o.length)
    | .buffer _ | .bounded _ => some (.bufferIndex i o.length)
  else none

/-- The refusal of a question. -/
def Query.refusal? (o : Object) : Query → Option Fault
  | .unitAt i => o.indexRefusal? i
  | .fill size => if size < o.length then some .destinationTooShort else none
  | _ => none

/-- The refusal to derive an object from another. -/
def Derive.refusal? (o : Object) : Derive → Option Fault
  | .substring start stop =>
      if start < stop ∧ o.length < stop then some (.substringEnd stop o.length) else none
  | .substringFrom start =>
      if o.length < start then some (.substringStart start o.length) else none
  | _ => none

/-- The refusal to exchange a range. -/
def rangeRefusal? (length start stop : Nat) : Option Fault :=
  if start ≤ stop ∧ stop ≤ length then none else some (.replaceRange start stop length)

/-- The refusal of an edit.  A segment has no ranges to be exchanged. -/
def Edit.refusal? {α : Type} (o : Object) : Edit α → Option Fault
  | .setAt i _ => o.indexRefusal? i
  | .replaceRange start stop _ =>
      match o with
      | .segment _ => none
      | .buffer _ | .bounded _ => rangeRefusal? o.length start stop
  | _ => none

/-- There can be room for `pending` more units behind those of an object: in the segment, or in the
last segment of the buffer and in a new one. -/
def Object.Admits (α : Type) [TextUnit α] (o : Object) (around : Surroundings) (pending : Nat) :
    Prop :=
  match o with
  | .segment s => s.canReserve α around pending = true
  | .buffer b => b.Admits α around pending
  | .bounded b => b.inner.Admits α around pending

/-- The room that an edit asks for can be had. -/
def Edit.Allots {α : Type} [TextUnit α] (o : Object) (around : Surroundings) : Edit α → Prop
  | .append _ | .extend _ => o.Admits α around 1
  | .appendSlice units => units ≠ [] → o.Admits α around units.length
  | .appendText text => o.Admits α around text.toList.length
  | .appendSegment _ | .appendBuffer _ | .prepend _ | .prependSegment _ | .replaceRange _ _ _ =>
      ∀ b, o.buffer? = some b → b.layout.opensList = true
  | _ => True

section

variable {α : Type} [TextUnit α] {o : Object} {around around' : Surroundings}
  (same : around'.lent = around.lent)
include same

theorem Object.Admits.congr {pending : Nat} (admits : o.Admits α around pending) :
    o.Admits α around' pending := by
  cases o with
  | segment s => exact (Segment.canReserve_congr same pending).trans admits
  | buffer b | bounded b => exact Buffer.Admits.congr admits same

/-- The room that an edit asks for goes by what is lent out, and by nothing else around it. -/
theorem Edit.Allots.congr {edit : Edit α} (allots : edit.Allots o around) :
    edit.Allots o around' := by
  cases edit with
  | append | extend | appendText => exact Object.Admits.congr same allots
  | appendSlice units => exact fun some => Object.Admits.congr same (allots some)
  | _ => exact allots

end

/-! ## Keeping to a bound -/

/-- Why something was refused, if it was. -/
def refused? {β : Type} : Except Fault β → Option Fault
  | .ok _ => none
  | .error fault => some fault

@[simp] theorem refused?_map {β γ : Type} (f : β → γ) (r : Except Fault β) :
    refused? (r.map f) = refused? r := by
  cases r <;> rfl

/-- What is refused for its bound leaves everything as it was, and nothing else is refused. -/
def Edited.KeepsTo {ω α ρ : Type} (object : ω) (st : Store α) (r : Edited ω α ρ) :
    Option Fault → Prop
  | some fault => r = ⟨object, st, .error fault⟩
  | none => refused? r.answer = none

namespace Edited

variable {ω ω' α ρ ρ' : Type} {object : ω} {st : Store α} {r : Edited ω α ρ} {bound? : Option Fault}

theorem KeepsTo.refused?_eq (keeps : r.KeepsTo object st bound?) : refused? r.answer = bound? := by
  cases bound? with
  | none => exact keeps
  | some fault =>
      obtain rfl : r = _ := keeps
      rfl

theorem KeepsTo.mapAnswer (keeps : r.KeepsTo object st bound?) (f : ρ → ρ') :
    (r.mapAnswer f).KeepsTo object st bound? := by
  cases bound? with
  | none => exact (refused?_map f r.answer).trans keeps
  | some fault =>
      obtain rfl : r = _ := keeps
      rfl

theorem KeepsTo.mapObject (keeps : r.KeepsTo object st bound?) (f : ω → ω') :
    (r.mapObject f).KeepsTo (f object) st bound? := by
  cases bound? with
  | none => exact keeps
  | some fault =>
      obtain rfl : r = _ := keeps
      rfl

theorem keepsTo_silent {r : Edited ω α Unit} (done : r.answer = .ok ()) :
    r.silent.KeepsTo object st none := by
  have answered : refused? r.answer = none := congrArg refused? done
  exact (refused?_map _ r.answer).trans answered

/-- A write keeps to a bound if it is refused just for that. -/
theorem keepsTo_written {r : Except Fault (Store α)} (judged : refused? r = bound?) :
    (written object st r).KeepsTo object st bound? := by
  subst judged
  cases r <;> rfl

theorem keepsTo_mapped {r : Store α × Option Fault} (done : r.2 = none) :
    (mapped object r).KeepsTo object st none := by
  obtain ⟨st', none | fault⟩ := r
  · rfl
  · cases done

end Edited

/-! ## Edits -/

variable {α : Type} [TextUnit α] {st : Store α} {around : Surroundings} {others : List Segment}
  {edit : Edit α}

/-- An edit of a segment, whose array is not lent out if it is to be written. -/
theorem Segment.keepsTo_apply {s : Segment} {r : Edited Segment α Reply}
    (hosts : st.Hosts (s :: others)) (made : around.LendsMade st)
    (free : edit.inPlace = true → around.lends s.storage = false)
    (allots : edit.Allots (.segment s) around) (done : s.apply around st edit = some r) :
    r.KeepsTo s st (edit.refusal? (.segment s)) := by
  have added : ∀ call : Addition α,
      (∀ n, call.room? = some n → s.canReserve α around n = true) →
        (s.add around st call).silent.KeepsTo s st none :=
    fun call can => Edited.keepsTo_silent (add_of_canReserve hosts made can)
  have mapped : ∀ f : α → α, edit.inPlace = true →
      refused? (s.mapUnits around f st) = none := by
    intro f calm
    rw [mapUnits, free calm]
    rfl
  cases edit <;> simp only [Segment.apply, reduceCtorEq, Option.some.injEq] at done <;> subst done
  case append u => exact added (.unit u) fun n asks => Option.some.inj asks ▸ allots
  case appendSlice units =>
    refine added (.slice units) fun n asks => ?_
    rw [Addition.room?] at asks
    split at asks
    next => cases asks
    next some => exact Option.some.inj asks ▸ allots fun none => some (List.isEmpty_iff.2 none)
  case appendText text => exact added (.text text) fun n asks => Option.some.inj asks ▸ allots
  case setAt i u =>
    refine Edited.keepsTo_written ?_
    rw [Edit.refusal?, Object.indexRefusal?, Object.length, setAt, free rfl]
    split <;> rfl
  case replaceUnit old new => exact Edited.keepsTo_written (mapped _ rfl)
  case lowerCase => exact Edited.keepsTo_written (mapped _ rfl)
  case upperCase => exact Edited.keepsTo_written (mapped _ rfl)
  all_goals rfl

namespace Buffer

variable {b : Buffer}

omit [TextUnit α] in
theorem refused?_setAt (free : ∀ id, around.lends id = false) (i : Nat) (u : α) :
    refused? (b.setAt around i u st) = (Object.buffer b).indexRefusal? i := by
  rw [Object.indexRefusal?, Object.length]
  split
  next behind => rw [setAt_of_le behind u]; rfl
  next inside =>
    obtain ⟨st', done⟩ : ∃ st', b.setAt around i u st = .ok st' :=
      setAt_of_lt (fun s _ => free s.storage) (Nat.lt_of_not_le inside) u
    rw [done]
    rfl

omit [TextUnit α] in
theorem keepsTo_replaceRange (there : b.layout.opensList = true) (start stop : Nat) (r : Buffer) :
    (b.replaceRange start stop r st).silent.KeepsTo b st (rangeRefusal? b.length start stop) := by
  rw [rangeRefusal?]
  split
  next inside =>
    obtain ⟨spliced, done⟩ := splice_of_inside (r := r) (canHold_of_opensList there) inside
    refine Edited.keepsTo_silent ?_
    rw [replaceRange, done]
  next outside =>
    rw [replaceRange, splice_of_outside outside]
    rfl

/-- An edit of a buffer. -/
theorem keepsTo_apply (hosts : st.Hosts (edit.windows ++ (b.segments ++ others)))
    (fits : edit.Fits b.segments others) (made : around.LendsMade st)
    (free : edit.inPlace = true → ∀ id, around.lends id = false)
    (allots : edit.Allots (.buffer b) around) :
    (b.apply around st edit).KeepsTo b st (edit.refusal? (.buffer b)) := by
  have own : st.Hosts (b.segments ++ others) := hosts.right
  have taken : ∀ {nothing : Bool} {changed : Buffer}, b.layout.opensList = true →
      (Edited.wholeObject b st (b.taking nothing changed)).silent.KeepsTo b st none := by
    intro nothing changed there
    rw [taking_of_opensList there]
    rfl
  have mapped : ∀ f : α → α, edit.inPlace = true → (b.mapUnits around f st).2 = none :=
    fun f calm => mapEachSegment_of_free f fun s _ => free calm s.storage
  cases edit with
  | append u =>
      obtain ⟨appended, done⟩ := append_of_admits own made allots u
      rw [Buffer.apply, done]
      rfl
  | appendSlice units =>
      refine Edited.keepsTo_silent ?_
      by_cases none : units = []
      · exact (answer_appendBy (writesBehind_appendSlice around) own made units).2
          (.inl (List.length_eq_zero_iff.2 none))
      · exact appendSlice_of_admits own made (allots none)
  | appendText text =>
      have width : (TextUnit.unitsOf text : List α).length = text.toList.length := List.length_map _
      refine Edited.keepsTo_silent (appendText_of_admits own made ?_)
      rw [width]
      exact allots
  | extend units => exact Edited.keepsTo_silent (extend_of_admits own made allots units)
  | appendSegment s => exact taken (allots b rfl)
  | appendBuffer other => exact taken (allots b rfl)
  | prepend u =>
      have prepended : b.prepend u st = (b.prependSegment (Segment.ofUnits [u] st).1).map
          fun b => (b, (Segment.ofUnits [u] st).2) := rfl
      rw [Buffer.apply, prepended, prependSegment, taking_of_opensList (allots b rfl)]
      rfl
  | prependSegment s => exact taken (allots b rfl)
  | setAt i u => exact Edited.keepsTo_written (refused?_setAt (free rfl) i u)
  | replaceUnit old new => exact Edited.keepsTo_mapped (mapped _ rfl)
  | lowerCase => exact Edited.keepsTo_mapped (mapped _ rfl)
  | upperCase => exact Edited.keepsTo_mapped (mapped _ rfl)
  | replaceRange start stop r => exact keepsTo_replaceRange (allots b rfl) start stop r
  | replaceAll search replacement =>
      obtain ⟨rounds, answer, -⟩ := length_replaceAll search replacement own
      have answered : (b.replaceAll search replacement st).KeepsTo b st none :=
        congrArg refused? answer
      exact answered.mapAnswer _
  | substitute opening closing provider =>
      obtain ⟨relied, alive, fair⟩ := fits
      obtain ⟨asked, answer⟩ := answer_substitute opening closing fair alive own
      have answered : (b.substitute opening closing provider st).KeepsTo b st none :=
        congrArg refused? answer
      exact answered.mapAnswer _
  | removeStart | removeEnd | trimStart | trimEnd | trim | compact | clear => rfl

end Buffer

/-- An edit of a bounded buffer is refused where the edit of the buffer that it holds is, and then
it is not counted. -/
theorem Bounded.keepsTo_apply {b : Bounded}
    (hosts : st.Hosts (edit.windows ++ (b.inner.segments ++ others)))
    (fits : edit.Fits b.inner.segments others) (covers : around.Covers others)
    (made : around.LendsMade st) (free : edit.inPlace = true → ∀ id, around.lends id = false)
    (allots : edit.Allots (.bounded b) around) (counted : b.Counted) :
    (b.apply around st edit).KeepsTo b st (edit.refusal? (.bounded b)) := by
  have inner_allots : edit.Allots (.buffer b.inner) around := by cases edit <;> exact allots
  have inner := Buffer.keepsTo_apply hosts fits made free inner_allots
  have refines := refines_apply hosts fits covers made counted
  have same : edit.refusal? (.bounded b) = edit.refusal? (.buffer b.inner) := by cases edit <;> rfl
  rw [same]
  cases bound : edit.refusal? (.buffer b.inner) with
  | none =>
      rw [bound] at inner
      have room : (b.inner.apply around st edit).answer ≠ .error .roomExceeded := by
        intro full
        cases inner.symm.trans (congrArg refused? full)
      exact (congrArg refused? (refines.answer room)).trans inner
  | some fault =>
      cases edit
      case setAt i u =>
        rw [← bound]
        exact Edited.keepsTo_written (Buffer.refused?_setAt (free rfl) i u)
      case replaceRange start stop r =>
        have range : rangeRefusal? b.inner.length start stop = some fault := bound
        rw [rangeRefusal?] at range
        split at range
        next => cases range
        next outside =>
          obtain rfl := Option.some.inj range
          rw [Bounded.apply, replaceRange, Buffer.replaceRange, Buffer.splice_of_outside outside]
          rfl
      all_goals cases bound

/-- **An edit keeps to its bound**, on every kind of object. -/
theorem Object.keepsTo_apply {o : Object} {r : Edited Object α Reply}
    (hosts : st.Hosts (edit.windows ++ (o.segments ++ others)))
    (fits : edit.Fits o.segments others) (covers : around.Covers others)
    (made : around.LendsMade st) (free : edit.inPlace = true → around.lent = [])
    (allots : edit.Allots o around)
    (counted : ∀ b, o = .bounded b → b.Counted) (done : o.apply around st edit = some r) :
    r.KeepsTo o st (edit.refusal? o) := by
  have unlent : edit.inPlace = true → ∀ id, around.lends id = false := by
    intro calm id
    rw [Surroundings.lends, free calm]
    rfl
  cases o with
  | segment s =>
      obtain ⟨r, applied, rfl⟩ := Option.map_eq_some_iff.1 done
      have own : st.Hosts (s :: others) := hosts.right
      exact (Segment.keepsTo_apply own made (fun calm => unlent calm s.storage) allots
        applied).mapObject _
  | buffer b =>
      obtain rfl := Option.some.inj done
      exact (Buffer.keepsTo_apply hosts fits made unlent allots).mapObject _
  | bounded b =>
      obtain rfl := Option.some.inj done
      exact (Bounded.keepsTo_apply hosts fits covers made unlent allots (counted b rfl)).mapObject _

end SegmentedText
