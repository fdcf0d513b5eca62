import SegmentedText.Proofs.Bounded.Counts
import SegmentedText.Proofs.Refusals.Bounds
import SegmentedText.Proofs.Streams.Reads
import SegmentedText.Proofs.Streams.Writings

/-!
# Steps that keep to their bounds

The bound of a step is that of the question, the derivation or the edit that it asks for,
judged by the object that it meets (`Step.refusal?`).  All other steps have none.

A step keeps to its bound if its answer tells just that fault, and a refused step leaves
every object as it was; only an argument that was taken out of its register for the step is
gone (`World.Unchanged`).  Here are the steps that make, ask, derive and stream.
-/

set_option autoImplicit false

namespace SegmentedText

/-! ## Bounds and room of steps -/

variable {α : Type} [TextUnit α]

/-- The refusal of a change, judged by the object that it meets when its arguments are out of the
table. -/
def Change.refusal? (w : World α) (target : String) : Change → Option Fault
  | .moveForward count =>
      match w.get? target with
      | some (.segment s) =>
          if s.length < count then some (.moveForward count s.length) else none
      | _ => none
  | what => do
      let (edit, resolved) ← w.edit? what
      edit.refusal? (← resolved.get? target)

/-- The refusal of a step.  A step that runs while a window is lent out is not judged. -/
def Step.refusal? (w : World α) : Step → Option Fault
  | .ask source query => (w.get? source).bind query.refusal?
  | .derive source _ what => (w.get? source).bind what.refusal?
  | .change target what => what.refusal? w target
  | _ => none

/-- The refusal of an action. -/
def Action.refusal? (w : World α) : Action α → Option Fault
  | .step request => request.refusal? w
  | .edit target what _ => (w.get? target).bind what.refusal?

/-- The room that a new object asks for can be had. -/
def Make.Allots (α : Type) [TextUnit α] : Make → Prop
  | .segmentWithCapacity capacity | .bufferWithCapacity capacity =>
      fitsMemory (TextUnit.kind α).width capacity = true
  | .segmentOfArray text capacity | .bufferOfArray text capacity =>
      fitsMemory (TextUnit.kind α).width (max capacity text.toList.length) = true
  | .bufferOfParts _ layout => layout.opensList = true
  | _ => True

/-- The room that the answer to a question asks for can be had. -/
def Query.Allots (α : Type) [TextUnit α] : Query → Prop
  | .fill size => fitsMemory (TextUnit.kind α).width size = true
  | _ => True

/-- The room that a change asks for can be had. -/
def Change.Allots (w : World α) (target : String) : Change → Prop
  | .moveForward _ => True
  | .reserve additional =>
      ∀ s, w.get? target = some (.segment s) →
        s.hasRoom (w.erase target).surroundings additional = true ∨
          fitsMemory (TextUnit.kind α).width (s.nextCapacity additional) = true
  | .appendOwned _ => ∀ b, w.get? target = some (.buffer b) → b.layout.opensList = true
  | what =>
      ∀ edit resolved o, w.edit? what = some (edit, resolved) → w.get? target = some o →
        edit.Allots o resolved.surroundings

/-- The room that a step asks for can be had. -/
def Step.Allots (w : World α) : Step → Prop
  | .make _ what => what.Allots α
  | .ask _ query => query.Allots α
  | .change target what => what.Allots w target
  | .read source actions =>
      ∀ o b, w.get? source = some o → o.buffer? = some b →
        ∀ action ∈ actions, action.Roomy (w.settingAside source o w.lent) (b.length + 1)
  | .write target actions =>
      ∀ b, w.get? target = some (.buffer b) →
        ∀ action ∈ actions, action.Admits (w.erase target) b
  | _ => True

/-- The room that an action asks for can be had. -/
def Action.Allots (w : World α) : Action α → Prop
  | .step request => request.Allots w
  | .edit target what _ => ∀ o, w.get? target = some o → what.Allots o w.surroundings

/-- The registers whose object is an argument that is taken out for a step. -/
def Step.Uses (request : Step) (name : String) : Prop :=
  match request with
  | .change _ what => what.Uses name
  | _ => False

/-- The registers whose object is an argument that is taken out for an action. -/
def Action.Uses {α : Type} (action : Action α) (name : String) : Prop :=
  match action with
  | .step request => request.Uses name
  | .edit _ _ _ => False

/-- No window is lent out while an action runs. -/
def Action.Unlent {α : Type} (w : World α) : Action α → Prop
  | .step (.lend _ _ _) => False
  | _ => w.lent = []

/-! ## Faults of answers -/

/-- The fault that an answer tells. -/
def Answer.fault? : Answer → Option Fault
  | .fault refusal => some refusal
  | _ => none

theorem Answer.fault?_ofExcept {β : Type} {answer : β → Answer}
    (plain : ∀ value, (answer value).fault? = none) (r : Except Fault β) :
    (Answer.ofExcept answer r).fault? = refused? r := by
  cases r with
  | ok value => exact plain value
  | error fault => rfl

theorem Reply.fault?_answer (st : Store α) (reply : Reply) : (reply.answer st).fault? = none := by
  cases reply <;> rfl

namespace World

variable {w w' : World α}

/-! ## Worlds that are as they were -/

/-- Nothing has changed, but that the objects in `used` are gone: the other registers hold what they
held, no cell that one of their windows reaches is different, and the same is set aside and lent
out. -/
structure Unchanged (used : String → Prop) (w w' : World α) : Prop where
  same : ∀ name, ¬used name → w'.get? name = w.get? name
  gone : ∀ name, used name → w'.get? name = none
  keeps : ∀ s, w.Bystander used s → ∀ c, s.Reaches c → w'.store.unit? c = w.store.unit? c
  aside : w'.aside = w.aside
  lent : w'.lent = w.lent

namespace Unchanged

variable {used : String → Prop}

omit [TextUnit α] in
theorem refl (w : World α) : Unchanged (fun _ => False) w w :=
  ⟨fun _ _ => rfl, fun _ none => none.elim, fun _ _ _ _ => rfl, rfl, rfl⟩

omit [TextUnit α] in
/-- The windows of an object that is still there show what they showed. -/
theorem content_window_eq (unchanged : Unchanged used w w') (sound : w.Sound) {name : String}
    {o : Object} (unused : ¬used name) (there : w.get? name = some o) {s : Segment}
    (here : s ∈ o.segments) : s.content w'.store = s.content w.store := by
  have keeps : w.store.Keeps w'.store [s] := fun t shown c reached => by
    obtain rfl := List.mem_singleton.1 shown
    exact unchanged.keeps t (.inr ⟨name, o, unused, there, here⟩) c reached
  exact keeps.content_eq List.mem_cons_self
    (sound.placed s (subset_alive_of_get? there here)).valid.stop_le_limit

end Unchanged

/-- An action keeps to a bound: its answer tells just that fault, and a refusal changes nothing. -/
structure KeepsTo (w : World α) (used : String → Prop) (bound? : Option Fault)
    (r : World α × Answer) : Prop where
  fault_eq : r.2.fault? = bound?
  unchanged : r.2.fault? ≠ none → Unchanged used w r.1

variable {used : String → Prop} {bound? : Option Fault}

omit [TextUnit α] in
/-- What is never refused keeps to no bound. -/
theorem keepsTo_none {r : World α × Answer} (answered : r.2.fault? = none) :
    KeepsTo w used none r :=
  ⟨answered, fun refused => absurd answered refused⟩

omit [TextUnit α] in
/-- What leaves the world as it is keeps to its bound by its answer. -/
theorem keepsTo_still {answer : Answer} (judged : answer.fault? = bound?) :
    KeepsTo w (fun _ => False) bound? (w, answer) :=
  ⟨judged, fun _ => .refl w⟩

/-! ## Questions -/

omit [TextUnit α] in
/-- A unit that is looked up in a list is refused where the list has none. -/
theorem refused?_getElem? (units : List α) (i : Nat) (fault : Fault) :
    refused? (match units[i]? with
      | some u => .ok u
      | none => .error fault) = if units.length ≤ i then some fault else none := by
  by_cases behind : units.length ≤ i
  · rw [if_pos behind, List.getElem?_eq_none behind]
    rfl
  · rw [if_neg behind, List.getElem?_eq_getElem (Nat.lt_of_not_le behind)]
    rfl

theorem fault?_fillAnswer {size length : Nat} {fill : List α → Except Fault (List α × Nat)}
    (fits : fitsMemory (TextUnit.kind α).width size = true)
    (filled : ∀ destination : List α, refused? (fill destination) =
      if destination.length < length then some .destinationTooShort else none) :
    (fillAnswer size fill).fault? = if size < length then some .destinationTooShort else none := by
  have made : (emptyDestination size : Except Fault (List α)) =
      .ok (List.replicate size (TextUnit.ofChar '-')) := if_pos fits
  have judged := filled (List.replicate size (TextUnit.ofChar '-'))
  rw [List.length_replicate] at judged
  rw [fillAnswer, made, Answer.fault?_ofExcept fun _ => rfl]
  exact judged

omit [TextUnit α] in
/-- A question about one of the segments is answered, or there is none. -/
theorem fault?_askPlace (w : World α) (o : Object) (query : Query) :
    (w.askPlace o query).fault? = none := by
  unfold askPlace
  split
  · split <;> rfl
  · split <;> rfl
  · split <;> rfl
  · rfl

theorem fault?_askSegment {s : Segment} (valid : s.Valid w.store) {query : Query}
    (allots : query.Allots α) :
    (w.askSegment s query).fault? = query.refusal? (.segment s) := by
  cases query with
  | unitAt i =>
      refine (Answer.fault?_ofExcept (fun _ => rfl) _).trans ?_
      have judged := refused?_getElem? (s.content w.store) i (.segmentIndex i s.length)
      rw [valid.length_content] at judged
      exact judged
  | fill size =>
      refine fault?_fillAnswer allots fun destination => ?_
      rw [Segment.fill]
      exact apply_ite refused? _ _ _
  | equals other =>
      simp only [askSegment]
      split <;> rfl
  | sharesStorage i other j => exact fault?_askPlace w (.segment s) (.sharesStorage i other j)
  | capacity i => exact fault?_askPlace w (.segment s) (.capacity i)
  | spare i => exact fault?_askPlace w (.segment s) (.spare i)
  | _ => rfl

theorem fault?_askBuffer {b : Buffer} (valid : b.Valid w.store) {query : Query}
    (allots : query.Allots α) :
    (w.askBuffer b query).fault? = query.refusal? (.buffer b) := by
  cases query with
  | unitAt i =>
      refine (Answer.fault?_ofExcept (fun _ => rfl) _).trans ?_
      have judged := refused?_getElem? (b.content w.store) i (.bufferIndex i b.length)
      rw [valid.length_content] at judged
      rw [Buffer.unitAt_eq valid, valid.length_content]
      exact judged
  | fill size =>
      refine fault?_fillAnswer allots fun destination => ?_
      rw [Buffer.fill_eq valid]
      exact apply_ite refused? _ _ _
  | equals other =>
      simp only [askBuffer]
      split <;> rfl
  | sharesStorage i other j => exact fault?_askPlace w (.buffer b) (.sharesStorage i other j)
  | capacity i => exact fault?_askPlace w (.buffer b) (.capacity i)
  | spare i => exact fault?_askPlace w (.buffer b) (.spare i)
  | _ => rfl

/-- A bounded buffer that is counted has a budget to tell. -/
theorem fault?_askBounded {b : Bounded} (valid : b.inner.Valid w.store) (counted : b.Counted)
    {query : Query} (allots : query.Allots α) :
    (w.askBounded b query).fault? = query.refusal? (.bounded b) := by
  have inner := fault?_askBuffer valid allots
  cases query with
  | inspect tall => rfl
  | budget =>
      rw [askBounded, counted.remaining]
      rfl
  | _ => exact inner

theorem fault?_ask (sound : w.Sound) (counted : w.Counted) {source : String} {query : Query}
    (allots : query.Allots α) :
    (w.ask source query).fault? = (w.get? source).bind query.refusal? := by
  rw [ask]
  cases there : w.get? source with
  | none => rfl
  | some o =>
      have valid := valid_of_alive sound (subset_alive_of_get? there)
      cases o with
      | segment s => exact fault?_askSegment (valid s List.mem_cons_self) allots
      | buffer b => exact fault?_askBuffer valid allots
      | bounded b => exact fault?_askBounded valid (counted source b there) allots

/-! ## Deriving -/

theorem refused?_run {what : Derive} {st : Store α} {o : Object} {r : Except Fault (Object × Store α)}
    (derived : what.run st o = some r) : refused? r = what.refusal? o := by
  have segment : ∀ (s : Segment) (start stop : Nat), refused? (s.substring start stop st) =
      (Derive.substring start stop).refusal? (.segment s) := by
    intro s start stop
    rw [Segment.substring, Derive.refusal?, Object.length]
    split
    next reversed => rw [if_neg (by omega)]; rfl
    next => split <;> split <;> first | rfl | omega
  have buffer : ∀ (b : Buffer) (start stop : Nat), refused? (b.substring start stop) =
      (Derive.substring start stop).refusal? (.buffer b) := by
    intro b start stop
    rw [Buffer.substring]
    exact apply_ite refused? _ _ _
  have segmentFrom : ∀ (s : Segment) (start : Nat), refused? (s.substringFrom start st) =
      (Derive.substringFrom start).refusal? (.segment s) := by
    intro s start
    rw [Segment.substringFrom, apply_ite refused?, segment]
    simp only [Derive.refusal?, Object.length, Nat.lt_irrefl, and_false, if_false]
    rfl
  have bufferFrom : ∀ (b : Buffer) (start : Nat), refused? (b.substringFrom start) =
      (Derive.substringFrom start).refusal? (.buffer b) := by
    intro b start
    rw [Buffer.substringFrom, apply_ite refused?, buffer]
    simp only [Derive.refusal?, Object.length, Nat.lt_irrefl, and_false, if_false]
    rfl
  cases what with
  | substring start stop =>
      cases o with
      | segment s =>
          obtain rfl := Option.some.inj derived
          exact (refused?_map _ _).trans (segment s start stop)
      | buffer b | bounded b =>
          obtain rfl := Option.some.inj derived
          exact (refused?_map _ _).trans (buffer _ start stop)
  | substringFrom start =>
      cases o with
      | segment s =>
          obtain rfl := Option.some.inj derived
          exact (refused?_map _ _).trans (segmentFrom s start)
      | buffer b | bounded b =>
          obtain rfl := Option.some.inj derived
          exact (refused?_map _ _).trans (bufferFrom _ start)
  | copy => cases o <;> obtain rfl := Option.some.inj derived <;> rfl
  | shared =>
      obtain rfl := Option.some.inj derived
      rfl
  | segmentAt i =>
      obtain ⟨s, -, rfl⟩ := Option.map_eq_some_iff.1 derived
      rfl

theorem keepsTo_derive (w : World α) (source dest : String) (what : Derive) :
    w.KeepsTo (fun _ => False) ((w.get? source).bind what.refusal?) (w.derive source dest what) := by
  have none : (w.get? source).bind (what.run w.store) = none →
      (w.get? source).bind what.refusal? = Option.none := by
    intro absent
    cases there : w.get? source with
    | none => rfl
    | some o =>
        rw [there] at absent
        cases what <;> first | rfl | (cases o <;> cases absent)
  have judged : ∀ r, (w.get? source).bind (what.run w.store) = some r →
      (w.get? source).bind what.refusal? = refused? r := by
    intro r done
    obtain ⟨o, there, derived⟩ := Option.bind_eq_some_iff.1 done
    rw [there]
    exact (refused?_run derived).symm
  unfold derive
  split
  next object st done =>
    rw [judged _ done]
    exact keepsTo_none rfl
  next fault done =>
    rw [judged _ done]
    exact keepsTo_still rfl
  next absent =>
    rw [none absent]
    exact keepsTo_none rfl

/-! ## Making -/

theorem refused?_appendParts {b : Buffer} (there : b.layout.opensList = true)
    (parts : List String) (st : Store α) : refused? (appendParts b parts st) = none := by
  induction parts generalizing b st with
  | nil => rfl
  | cons part rest ih =>
      obtain ⟨s, st', made⟩ : ∃ s st', Segment.ofUnits (TextUnit.unitsOf part) st = (s, st') :=
        ⟨_, _, rfl⟩
      simp only [appendParts, made, Buffer.appendSegment, Buffer.taking_of_opensList there]
      exact ih ((Buffer.layout_push s).symm ▸ there) st'

theorem refused?_withRoom {units : List α} {capacity : Nat} {st : Store α}
    (fits : fitsMemory (TextUnit.kind α).width (max capacity units.length) = true) :
    refused? (Segment.withRoom units capacity st) = none := by
  rw [Segment.withRoom, if_pos fits]
  rfl

theorem refused?_make {what : Make} (allots : what.Allots α) (st : Store α) :
    refused? (what.run st) = none := by
  cases what with
  | segmentWithCapacity capacity =>
      exact (refused?_map _ _).trans (refused?_withRoom ((Nat.max_zero capacity).symm ▸ allots))
  | bufferWithCapacity capacity =>
      refine (refused?_map _ _).trans ((refused?_map _ _).trans ?_)
      exact refused?_withRoom ((Nat.max_zero capacity).symm ▸ allots)
  | segmentOfArray text capacity =>
      refine (refused?_map _ _).trans (refused?_withRoom ?_)
      rw [TextUnit.unitsOf, List.length_map]
      exact allots
  | bufferOfArray text capacity =>
      refine (refused?_map _ _).trans ((refused?_map _ _).trans (refused?_withRoom ?_))
      rw [TextUnit.unitsOf, List.length_map]
      exact allots
  | bufferOfEach text =>
      have plain : ({} : Layout).Allots α 1 := by
        constructor
        · decide
        · cases TextUnit.kind α <;> decide
      have made : ({} : Surroundings).LendsMade st := fun _ none => absurd none List.not_mem_nil
      have hosts : st.Hosts (({} : Buffer).segments ++ []) := .nil st
      have done : (Buffer.ofEach (TextUnit.unitsOf text) st).answer = .ok () :=
        Buffer.extend_of_admits hosts made ⟨rfl, plain⟩ _
      exact (refused?_map _ _).trans (congrArg refused? done)
  | bufferOfParts parts layout =>
      have there : (Buffer.ofLayout layout).layout.opensList = true := allots
      exact (refused?_map _ _).trans (refused?_appendParts there parts st)
  | _ => rfl

theorem keepsTo_make {what : Make} (allots : what.Allots α) (w : World α) (dest : String) :
    w.KeepsTo used none (w.make dest what) := by
  have made := refused?_make allots w.store
  refine keepsTo_none ?_
  unfold make
  split
  next => rfl
  next fault done =>
    rw [done] at made
    cases made

omit [TextUnit α] in
/-- A text that cannot be read as a buffer is no fault of the operation. -/
theorem fault?_putRead {ε : Type} {dest : String} {refuse : ε → Answer}
    (plain : ∀ e, (refuse e).fault? = none) (r : Except ε (Buffer × Store α)) :
    (w.putRead dest refuse r).2.fault? = none := by
  cases r with
  | ok made => rfl
  | error e => exact plain e

/-! ## Streams -/

theorem keepsTo_read (sound : w.Sound) (made : w.LendsMade) {source : String}
    {actions : List ReadAction} (allots : (Step.read source actions).Allots w) :
    w.KeepsTo used none (w.read source actions) := by
  refine keepsTo_none ?_
  cases there : w.get? source with
  | none =>
      rw [read, take?, there]
      rfl
  | some o =>
      cases shown : o.buffer? with
      | none =>
          rw [read, take?_of_get? there]
          dsimp only
          rw [shown]
          rfl
      | some b =>
          have tapes := tapes_settingAside sound made there shown
          have long : totalLength b.segments < b.length + 1 := Nat.lt_succ_self _
          have tells := tells_of_roomy tapes long (allots o b there shown)
          rw [read_of_get? there shown, afterReading, tells.1]
          rfl

end World

namespace Writer

variable {writer : Writer} {live : List Segment} {st : Store α}

/-- A write that is done: the units that it has counted have gone into a buffer of the same layout,
beside which the windows `live` are hosted. -/
structure Wrote (writer : Writer) (live : List Segment) (st : Store α) (r : Edited Writer α Unit) :
    Prop where
  answer : r.answer = .ok ()
  layout : r.object.buffer.layout = writer.buffer.layout
  hosts : r.store.Hosts (r.object.buffer.segments ++ live)
  written_le : writer.written ≤ r.object.written
  grows : r.object.written + (writer.buffer.content st).length =
    writer.written + (r.object.buffer.content r.store).length

omit [TextUnit α] in
/-- A use of a writer that is not refused is done. -/
theorem Puts.wrote {units : List α} {r : Edited Writer α Unit} (puts : writer.Puts units st r)
    (done : r.answer = .ok ())
    (undisturbed : Undisturbed live st r.object.buffer.segments r.store) :
    writer.Wrote live st r := by
  obtain ⟨-, count, text, layout⟩ := puts.resolve_left fun full => nomatch done.symm.trans full
  refine ⟨done, layout, undisturbed.hosts, count ▸ Nat.le_add_right _ _, ?_⟩
  rw [count, text, List.length_append]
  omega

end Writer

namespace World

variable {w : World α} {used : String → Prop} {writer : Writer} {st : Store α}

/-- A use of a writer that can have the room for what it writes is done. -/
theorem wrote_writeOne {action : WriteAction} {r : Edited Writer α Unit}
    (made : w.surroundings.LendsMade st) (hosts : st.Hosts (writer.buffer.segments ++ w.alive))
    (admits : action.Admits w writer.buffer) (done : w.writeOne writer st action = some r) :
    writer.Wrote w.alive st r := by
  cases put : (w.withStore st).written? action with
  | none => cases ((writeOne_eq_none_iff action).2 put).symm.trans done
  | some units =>
      have well := writeOne_of_finds made hosts put done (finds_of_admits put admits)
      exact (puts_writeOne hosts put done).wrote well (undisturbed_writeOne hosts done)

/-- Writing ends before its time only where a register is missing. -/
theorem writeAll_of_admits {actions : List WriteAction} (made : w.surroundings.LendsMade st)
    (hosts : st.Hosts (writer.buffer.segments ++ w.alive))
    (admits : ∀ action ∈ actions, action.Admits w writer.buffer) {answer : Answer}
    (refused : (w.writeAll writer st actions).2.2 = .error answer) : answer = .malformed := by
  induction actions generalizing writer st with
  | nil => cases refused
  | cons action rest ih =>
      rw [writeAll] at refused
      split at refused
      next => exact (Except.error.inj refused).symm
      next r done =>
        have wrote := wrote_writeOne made hosts (admits action List.mem_cons_self) done
        have beside := undisturbed_writeOne hosts done
        simp only [wrote.answer] at refused
        cases later : (w.writeAll r.object r.store rest).2.2 with
        | ok counts =>
            rw [later] at refused
            cases refused
        | error told =>
            rw [later] at refused
            obtain rfl := Except.error.inj refused
            exact ih (made.grow beside.size_le) wrote.hosts (fun a here =>
              later_admits made hosts done (admits a (List.mem_cons_of_mem _ here))) later

theorem keepsTo_write (sound : w.Sound) (made : w.LendsMade) {target : String}
    {actions : List WriteAction} (allots : (Step.write target actions).Allots w) :
    w.KeepsTo used none (w.write target actions) := by
  refine keepsTo_none ?_
  unfold write
  split
  next b rest taken =>
    obtain ⟨there, rfl⟩ := eq_of_take? taken
    have hosts : (w.erase target).store.Hosts
        ((⟨b, 0⟩ : Writer).buffer.segments ++ (w.erase target).alive) :=
      Store.Hosts.subperm sound (subperm_take there)
    have made : (w.erase target).LendsMade := made
    have ended : ∀ answer, ((w.erase target).writeAll ⟨b, 0⟩ (w.erase target).store actions).2.2 =
        .error answer → answer = .malformed :=
      fun _ => writeAll_of_admits made hosts (allots b there)
    dsimp only
    split
    next => rfl
    next fault refused => cases ended _ refused
    next answer _ refused =>
      rw [ended answer refused]
      rfl
  next => rfl

end World

end SegmentedText
