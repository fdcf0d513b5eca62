import SegmentedText.Proofs.Bounded.Counts
import SegmentedText.Proofs.Lists.Openings

/-!
# Segment lists along a run

What the objects in the registers were opened with is told along a run, beside the worlds
(`Step.openings`, `World.Traced`).  No part of a world depends on it.  A buffer that is put within
bounds or taken out of them keeps its opening, a second one on the same cells has a view of it,
and whatever comes about in another way has none.

In every world of a run, a buffer has a list of segments exactly if it has segments, and the
segment with which it was opened is the only one that can show nothing
(`World.lists_as_opened`).
-/

set_option autoImplicit false

namespace SegmentedText

/-! ## Registers with openings -/

/-- What the object in each register was opened with, for those that were. -/
abbrev Openings := String → Option Segment

namespace World

variable {α : Type} {w w' : World α} {openings : Openings}

/-- The object in every register is as it was opened. -/
def Opened (w : World α) (openings : Openings) : Prop :=
  ∀ name o, w.get? name = some o → o.Opened (openings name)

/-- The openings of the objects that are there. -/
def keptOpenings (w : World α) (openings : Openings) : Openings :=
  fun name => if (w.get? name).isSome then openings name else none

/-- The openings after an object with an opening of its own was put into a register, unless the
answer says that it was not. -/
def filledOpenings (w : World α) (openings : Openings) (answer : Answer) (dest : String)
    (opening : Option Segment) : Openings :=
  fun name => if name = dest ∧ answer = .done then opening else w.keptOpenings openings name

/-- What is left of the registers is as it was. -/
theorem Opened.fewer (opened : w.Opened openings)
    (left : ∀ name o, w'.get? name = some o → w.get? name = some o) : w'.Opened openings :=
  fun name o there => opened name o (left name o there)

theorem Opened.erase (opened : w.Opened openings) (source : String) :
    (w.erase source).Opened openings := opened.fewer fun _ _ there => (get?_of_erase there).1

theorem Opened.put (opened : w.Opened openings) (target : String) {o : Object}
    (same : o.Opened (openings target)) : (w.put target o).Opened openings := by
  intro name o' there
  rw [get?_put] at there
  split at there
  next here =>
    obtain rfl := Option.some.inj there
    rw [here]
    exact same
  next => exact opened name o' there

theorem Opened.kept (opened : w.Opened openings) : w.Opened (w.keptOpenings openings) := by
  intro name o there
  rw [keptOpenings, there]
  exact opened name o there

/-- A register is filled, and others may have been emptied for that. -/
theorem Opened.fill (opened : w.Opened openings)
    (left : ∀ name o, w'.get? name = some o → w.get? name = some o) (dest : String) {o : Object}
    {opening : Option Segment} (fresh : o.Opened opening) :
    (w'.put dest o).Opened (w.filledOpenings openings .done dest opening) := by
  intro name o' there
  rw [get?_put] at there
  unfold filledOpenings
  split at there
  next here =>
    obtain rfl := Option.some.inj there
    rw [if_pos ⟨here, rfl⟩]
    exact fresh
  next other =>
    rw [if_neg fun both => other both.1]
    exact opened.kept name o' (left name o' there)

theorem Opened.refused (opened : w.Opened openings) {answer : Answer} (refused : answer ≠ .done)
    (dest : String) (opening : Option Segment) :
    w.Opened (w.filledOpenings openings answer dest opening) := by
  intro name o there
  rw [filledOpenings, if_neg fun both => refused both.2]
  exact opened.kept name o there

end World

/-! ## Along a run -/

/-- What the objects are opened with after a step.  Only a new object has another opening than the
one that was there before: a buffer that is made for a capacity, a second object on the same
cells, and a buffer that changes hands. -/
def Step.openings {α : Type} [TextUnit α] (step : Step) (w : World α) (openings : Openings) :
    Openings :=
  match step with
  | .make dest what =>
      w.filledOpenings openings (w.make dest what).2 dest (what.opening? w.store)
  | .derive source dest what =>
      w.filledOpenings openings (w.derive source dest what).2 dest
        (what.opening? (openings source))
  | .bound dest source maxSize =>
      w.filledOpenings openings (w.bound dest source maxSize).2 dest (openings source)
  | .unbound source dest =>
      w.filledOpenings openings (w.unbound source dest).2 dest (openings source)
  | .ofSegment dest source move =>
      w.filledOpenings openings (w.ofSegment dest source move).2 dest none
  | .ofJson dest json =>
      w.filledOpenings openings
        (w.putRead dest .jsonFault (Buffer.ofJson .standard json w.store)).2 dest none
  | .ofValue dest value =>
      w.filledOpenings openings
        (w.putRead dest .serialError (Buffer.ofValue value w.store)).2 dest none
  | .split source c (some dest) => fun name =>
      let pieces := ((w.get? source).map fun o => (o.split c w.store).1).getD []
      if name ∈ (List.range pieces.length).map (fun i => dest ++ toString i) then none
      else w.keptOpenings openings name
  | .read source actions => fun name =>
      match (w.read source actions).2 with
      | .fault _ => if name = source then none else w.keptOpenings openings name
      | _ => w.keptOpenings openings name
  | .lend source i inner =>
      match w.get? source with
      | none => w.keptOpenings openings
      | some o =>
          match o.segmentAt? i with
          | none => w.keptOpenings openings
          | some s => fun name =>
              if name = source then openings source
              else inner.openings (w.settingAside source o (s.storage :: w.lent)) openings name
  | _ => w.keptOpenings openings

/-- What the objects are opened with after an action. -/
def Action.openings {α : Type} [TextUnit α] (action : Action α) (w : World α)
    (openings : Openings) : Openings :=
  match action with
  | .step request => request.openings w openings
  | .edit _ _ _ => w.keptOpenings openings

namespace World

variable {α : Type} [TextUnit α] {w w' : World α} {openings : Openings}

/-! ### Making and deriving -/

theorem opened_make (sound : w.Sound) (opened : w.Opened openings) (dest : String) (what : Make) :
    (w.make dest what).1.Opened ((Step.make dest what).openings w openings) := by
  unfold Step.openings make
  split
  next o st done =>
    exact opened.fill (fun _ _ there => there) dest (Object.opened_make sound done)
  next => exact opened.refused (by nofun) dest _

theorem opened_derive (opened : w.Opened openings) (source dest : String) (what : Derive) :
    (w.derive source dest what).1.Opened ((Step.derive source dest what).openings w openings) := by
  unfold Step.openings derive
  split
  next object st done =>
    obtain ⟨o, there, derived⟩ := Option.bind_eq_some_iff.1 done
    exact opened.fill (fun _ _ there => there) dest
      (Object.opened_derive (opened source o there) derived)
  next => exact opened.refused (by nofun) dest _
  next => exact opened.refused (by nofun) dest _

omit [TextUnit α] in
theorem opened_of_takeBuffer? {source : String} {b : Buffer} {rest : World α}
    (opened : w.Opened openings) (taken : w.takeBuffer? source true = some (b, rest)) :
    b.Opened (openings source) := by
  obtain ⟨o, there, taken⟩ := Option.bind_eq_some_iff.1 taken
  obtain ⟨inner, plain, taken⟩ := Option.bind_eq_some_iff.1 taken
  obtain ⟨rfl, -⟩ := Prod.mk.inj (Option.some.inj taken)
  refine opened source o there inner ?_
  cases o with
  | buffer b => exact plain
  | segment s | bounded b => cases plain

theorem opened_bound (opened : w.Opened openings) (dest source : String) (maxSize : Nat) :
    (w.bound dest source maxSize).1.Opened
      ((Step.bound dest source maxSize).openings w openings) := by
  unfold Step.openings bound
  split
  next b rest taken =>
    have whole := opened_of_takeBuffer? opened taken
    exact opened.fill (fun _ _ there => (get?_of_takeBuffer? taken there).1) dest
      (Object.opened_bounded (whole.thin (Bounded.thins_truncate ⟨b, maxSize, b.length⟩ _)))
  next => exact opened.refused (by nofun) dest _

theorem opened_unbound (opened : w.Opened openings) (source dest : String) :
    (w.unbound source dest).1.Opened ((Step.unbound source dest).openings w openings) := by
  unfold Step.openings unbound
  split
  next b rest taken =>
    obtain ⟨there, rfl⟩ := eq_of_take? taken
    exact opened.fill (fun _ _ there => (get?_of_erase there).1) dest
      (Object.opened_buffer (opened source _ there b.inner rfl))
  next => exact opened.refused (by nofun) dest _

theorem opened_ofSegment (opened : w.Opened openings) (dest source : String) (move : Bool) :
    (w.ofSegment dest source move).1.Opened
      ((Step.ofSegment dest source move).openings w openings) := by
  unfold Step.openings ofSegment
  split
  next s rest taken =>
    exact opened.fill (fun _ _ there => (get?_of_takeSegment? taken there).1) dest
      (Object.opened_buffer (Buffer.opened_ofSegment s))
  next => exact opened.refused (by nofun) dest _

omit [TextUnit α] in
/-- A buffer that has been read. -/
theorem opened_putRead {ε : Type} {refuse : ε → Answer} {r : Except ε (Buffer × Store α)}
    (opened : w.Opened openings) (dest : String) (refuses : ∀ e, refuse e ≠ .done)
    (fresh : ∀ made, r = .ok made → made.1.Opened none) :
    (w.putRead dest refuse r).1.Opened
      (w.filledOpenings openings (w.putRead dest refuse r).2 dest none) := by
  unfold putRead
  split
  next b st =>
    exact opened.fill (fun _ _ there => there) dest
      (Object.opened_buffer (fresh (b, st) rfl))
  next e => exact opened.refused (refuses e) dest _

omit [TextUnit α] in
theorem get?_putPieces {dest : String} {pieces : List Object} {i : Nat} {name : String} {o : Object}
    (there : (w.putPieces dest i pieces).get? name = some o) :
    (o ∈ pieces ∧ ∃ k < pieces.length, name = dest ++ toString (i + k)) ∨
      w.get? name = some o ∧ ∀ k < pieces.length, name ≠ dest ++ toString (i + k) := by
  induction pieces generalizing i w with
  | nil => exact .inr ⟨there, fun k none => absurd none (Nat.not_lt_zero k)⟩
  | cons piece rest ih =>
      rcases ih there with ⟨here, k, less, named⟩ | ⟨before, others⟩
      · refine .inl ⟨List.mem_cons_of_mem _ here, k + 1, Nat.succ_lt_succ less, ?_⟩
        rw [named, Nat.add_assoc, Nat.add_comm 1 k]
      · rw [get?_put] at before
        split at before
        next first =>
          obtain rfl := Option.some.inj before
          exact .inl ⟨List.mem_cons_self, 0, Nat.succ_pos _, first⟩
        next other =>
          refine .inr ⟨before, fun k less => ?_⟩
          cases k with
          | zero => exact other
          | succ k =>
              rw [Nat.add_comm k 1, ← Nat.add_assoc]
              exact others k (Nat.lt_of_succ_lt_succ less)

theorem opened_split (opened : w.Opened openings) (source : String) (c : Char)
    (dest : Option String) :
    (w.split source c dest).1.Opened ((Step.split source c dest).openings w openings) := by
  cases dest with
  | none =>
      unfold split
      split
      next => exact opened.kept
      next => exact opened.kept
  | some dest =>
      unfold Step.openings split
      cases found : w.get? source with
      | none => exact opened.kept
      | some o =>
          intro name piece there
          dsimp only [Option.map_some, Option.getD_some]
          rcases get?_putPieces there with ⟨here, k, less, named⟩ | ⟨before, others⟩
          · rw [if_pos (List.mem_map.2 ⟨k, List.mem_range.2 less, by rw [named, Nat.zero_add]⟩)]
            exact Object.opened_split o c w.store piece here
          · rw [if_neg]
            · exact opened.kept name piece before
            · intro numbered
              obtain ⟨k, less, named⟩ := List.mem_map.1 numbered
              exact others k (List.mem_range.1 less) (by rw [← named, Nat.zero_add])

/-! ### Changing -/

theorem opened_applyEdit {target : String} {edit : Edit α} {after : World α} {answer : Answer}
    (hosts : w.store.Hosts (edit.windows ++ w.alive)) (opened : w.Opened openings)
    (done : w.applyEdit target edit = some (after, answer)) : after.Opened openings := by
  obtain ⟨⟨o, rest⟩, taken, done⟩ := Option.bind_eq_some_iff.1 done
  obtain ⟨r, applied, done⟩ := Option.bind_eq_some_iff.1 done
  obtain ⟨rfl, -⟩ := Prod.mk.inj (Option.some.inj done)
  obtain ⟨there, rfl⟩ := eq_of_take? taken
  have own := (hosts_taken hosts there).right
  exact (opened.erase target).put (w := (w.erase target).withStore r.store) target
    (Object.opened_apply own (opened target o there) applied)

theorem opened_changeSpecial {target : String} {o : Object} {change : Change}
    (opened : w.Opened openings) (object : o.Opened (openings target)) :
    (w.changeSpecial target o change).1.Opened openings := by
  unfold changeSpecial
  split
  next =>
    split
    next => exact opened.put target (Object.opened_segment _)
    next => exact opened.put target object
  next =>
    split
    next st _ => exact Opened.put (w := w.withStore st) opened target (Object.opened_segment _)
    next => exact opened.put target object
  next source b =>
    split
    next => exact opened.put target object
    next other rest taken =>
      have left : rest.Opened openings :=
        opened.fewer fun _ _ there => (get?_of_takeBuffer? taken there).1
      split
      next b' done =>
        exact left.put target
          (Object.opened_buffer ((object b rfl).thin (Buffer.thins_appendOwned done)))
      next => exact left.put target object
  next => exact opened.put target object

theorem opened_change (sound : w.Sound) (opened : w.Opened openings) (target : String)
    (change : Change) : (w.change target change).1.Opened openings := by
  unfold World.change
  split
  next => exact opened
  next o rest taken =>
    obtain ⟨there, rfl⟩ := eq_of_take? taken
    split
    next => exact opened_changeSpecial (opened.erase target) (opened target o there)
    next edit resolved found =>
      have resolves : Resolves (fun _ => True) False w change edit resolved :=
        resolves_edit? sound (fun _ _ => trivial) found
      have left : resolved.Opened openings :=
        opened.fewer fun _ _ there => (get?_of_edit? found there).1
      split
      next => exact opened
      next after answer done =>
        have edited := opened_applyEdit resolves.underway.hosts left done
        exact edited

omit [TextUnit α] in
theorem opened_drop (opened : w.Opened openings) (target : String) :
    (w.drop target).1.Opened openings := by
  unfold drop
  split
  next => exact opened.erase target
  next => exact opened

/-! ### Reading and writing -/

/-- Reading may fill a buffer, which is made without an opening if there is none. -/
theorem opened_readOne (sound : w.Sound) (opened : w.Opened openings)
    (absent : ∀ name, w.get? name = none → openings name = none) (r : Reader α)
    (action : ReadAction) : (w.readOne r action).2.1.Opened openings := by
  cases action with
  | readUntil c sink handover =>
      simp only [readOne, readIntoSink]
      cases taken : w.take? sink with
      | none =>
          refine Opened.put (w := w.withStore _) opened sink (Object.opened_buffer ?_)
          rw [absent sink (Option.map_eq_none_iff.1 taken)]
          have hosts : w.store.Hosts (({} : Buffer).segments ++ w.alive) := sound
          exact Buffer.opened_of_empty (thins_readUntil hosts)
      | some entry =>
          obtain ⟨o, rest⟩ := entry
          obtain ⟨there, rfl⟩ := eq_of_take? taken
          cases o with
          | buffer b =>
              have hosts : w.store.Hosts (b.segments ++ (w.erase sink).alive) :=
                Store.Hosts.subperm sound (subperm_take there)
              refine Opened.put (w := (w.erase sink).withStore _) (opened.erase sink) sink
                (Object.opened_buffer ?_)
              exact (opened sink _ there b rfl).thin (thins_readUntil hosts)
          | segment s | bounded b => exact opened
  | read handover =>
      simp only [readOne]
      split <;> exact opened
  | readInto | back | remaining | sizeHint | take | rest => exact opened

/-- Reading empties no register. -/
theorem get?_readOne {r : Reader α} {action : ReadAction} {name : String}
    (vacant : (w.readOne r action).2.1.get? name = none) : w.get? name = none := by
  cases action with
  | readUntil c sink handover =>
      simp only [readOne, readIntoSink] at vacant
      cases taken : w.take? sink with
      | none =>
          rw [taken] at vacant
          dsimp only at vacant
          rw [get?_put] at vacant
          split at vacant
          next => cases vacant
          next => exact vacant
      | some entry =>
          obtain ⟨o, rest⟩ := entry
          obtain ⟨there, rfl⟩ := eq_of_take? taken
          rw [taken] at vacant
          cases o with
          | buffer b =>
              dsimp only at vacant
              rw [get?_put] at vacant
              split at vacant
              next => cases vacant
              next other =>
                have erased : (w.erase sink).get? name = none := vacant
                rwa [get?_erase, if_neg other] at erased
          | segment s | bounded b => exact vacant
  | read handover =>
      simp only [readOne] at vacant
      split at vacant <;> exact vacant
  | readInto | back | remaining | sizeHint | take | rest => exact vacant

theorem opened_readAll (sound : w.Sound) (opened : w.Opened openings)
    (absent : ∀ name, w.get? name = none → openings name = none) (r : Reader α)
    (actions : List ReadAction) : (w.readAll r actions).1.Opened openings := by
  induction actions generalizing w r with
  | nil => exact opened
  | cons action rest ih =>
      have first := opened_readOne sound opened absent r action
      have there : ∀ name, (w.readOne r action).2.1.get? name = none → openings name = none :=
        fun name vacant => absent name (get?_readOne vacant)
      have moved : Underway action.Fills True w [] (w.readOne r action).2.1 :=
        underway_readOne sound r action
      have next := moved.sound
      rw [readAll]
      split
      next done =>
        rw [done] at first
        exact first
      next r' w' outcome done =>
        rw [done] at first there next
        exact ih next first there r'

/-- Reading puts the object that is read back as it was, unless a use is refused.  What is in its
register then has been made meanwhile. -/
theorem opened_read (sound : w.Sound) (opened : w.Opened openings) (source : String)
    (actions : List ReadAction) :
    (w.read source actions).1.Opened ((Step.read source actions).openings w openings) := by
  unfold Step.openings read
  split
  next => exact opened.kept
  next o rest taken =>
    obtain ⟨there, rfl⟩ := eq_of_take? taken
    split
    next => exact opened.kept
    next b shown =>
      have aside : (w.settingAside source o w.lent).Opened openings := opened.erase source
      have used := opened_readAll (sound_settingAside sound there w.lent) aside.kept
        (fun name vacant => by rw [keptOpenings, vacant]; rfl) (.ofBuffer b) actions
      have apart : ∀ name, (w.settingAside source o w.lent).get? name =
          if name = source then none else w.get? name := get?_erase w source
      rw [show ({ w.erase source with aside := o.segments ++ (w.erase source).aside } : World α) =
        w.settingAside source o w.lent from rfl]
      revert used
      generalize (w.settingAside source o w.lent).readAll (.ofBuffer b) actions = left
      obtain ⟨left, told⟩ := left
      intro used name o' here
      cases told with
      | ok results =>
          rw [get?_put] at here
          split at here
          next same =>
            obtain rfl := Option.some.inj here
            rw [same]
            exact opened.kept source o there
          next other =>
            have kept := used name o' here
            rwa [keptOpenings, apart, if_neg other] at kept
      | error fault =>
          have kept := used name o' here
          rw [keptOpenings, apart] at kept
          dsimp only
          split
          next same => rwa [if_pos same] at kept
          next other => rwa [if_neg other] at kept

theorem thins_writeOne {writer : Writer} {st : Store α} {action : WriteAction}
    {r : Edited Writer α Unit} (hosts : st.Hosts (writer.buffer.segments ++ w.alive))
    (done : w.writeOne writer st action = some r) : writer.buffer.Thins r.object.buffer := by
  cases action with
  | write c =>
      cases done
      exact Writer.thins_write _ hosts _
  | writeSlice text =>
      cases done
      exact Writer.buffer_counting (Buffer.thins_appendSlice _ hosts _)
  | writeText text =>
      cases done
      exact Writer.buffer_counting (Buffer.thins_appendText _ hosts _)
  | flush =>
      cases done
      exact .refl _
  | showObject source =>
      obtain ⟨o, -, done⟩ := Option.bind_eq_some_iff.1 done
      cases done
      exact Writer.thins_showSegments _ hosts _
  | writeObjectChars source =>
      obtain ⟨o, -, done⟩ := Option.bind_eq_some_iff.1 done
      cases done
      exact Writer.thins_writeChars _ hosts _
  | writeChars text =>
      cases done
      exact Writer.thins_writeChars _ hosts _

theorem thins_writeAll {writer : Writer} {st : Store α} {actions : List WriteAction}
    (hosts : st.Hosts (writer.buffer.segments ++ w.alive)) :
    writer.buffer.Thins (w.writeAll writer st actions).1.buffer := by
  induction actions generalizing writer st with
  | nil => exact .refl _
  | cons action rest ih =>
      rw [writeAll]
      split
      next => exact .refl _
      next r done =>
        have first := thins_writeOne hosts done
        split
        next => exact first
        next => exact first.trans (ih (undisturbed_writeOne hosts done).hosts)

theorem opened_write (sound : w.Sound) (opened : w.Opened openings) (target : String)
    (actions : List WriteAction) : (w.write target actions).1.Opened openings := by
  unfold write
  split
  next b rest taken =>
    obtain ⟨there, rfl⟩ := eq_of_take? taken
    have hosts : (w.erase target).store.Hosts
        ((⟨b, 0⟩ : Writer).buffer.segments ++ (w.erase target).alive) :=
      Store.Hosts.subperm sound (subperm_take there)
    have written : ((w.erase target).writeAll ⟨b, 0⟩ (w.erase target).store
        actions).1.buffer.Opened (openings target) :=
      (opened target _ there b rfl).thin (thins_writeAll hosts)
    have left := opened.erase target
    have back := fun st => Opened.put (w := (w.erase target).withStore st) left target
      (Object.opened_buffer written)
    dsimp only
    split
    next => exact back _
    next => exact left
    next => exact back _
  next => exact opened

/-! ### All steps -/

/-- Every step leaves every object as it was opened. -/
theorem opened_step (sound : w.Sound) (opened : w.Opened openings) (step : Step) :
    (w.step step).1.Opened (step.openings w openings) := by
  induction step generalizing w with
  | make dest what => exact opened_make sound opened dest what
  | ofSegment dest source move => exact opened_ofSegment opened dest source move
  | bound dest source maxSize => exact opened_bound opened dest source maxSize
  | unbound source dest => exact opened_unbound opened source dest
  | ofJson dest json =>
      exact opened_putRead opened dest nofun fun made done => Buffer.opened_ofJson done
  | ofValue dest value =>
      exact opened_putRead opened dest nofun fun made done => Buffer.opened_ofValue done
  | ask source query => exact opened.kept
  | derive source dest what => exact opened_derive opened source dest what
  | split source c dest => exact opened_split opened source c dest
  | change target change => exact opened_change sound opened.kept target change
  | drop target => exact opened_drop opened.kept target
  | read source actions => exact opened_read sound opened source actions
  | write target actions => exact opened_write sound opened.kept target actions
  | drain source job => exact opened.kept
  | lend source i inner ih =>
      rw [Step.openings]
      cases there : w.get? source with
      | none =>
          rw [step_lend_of_none (by rw [there]; rfl)]
          exact opened.kept
      | some o =>
          cases found : o.segmentAt? i with
          | none =>
              rw [step_lend_of_none (by rw [there]; exact found)]
              dsimp only
              rw [found]
              exact opened.kept
          | some s =>
              dsimp only
              rw [found]
              have aside : (w.settingAside source o (s.storage :: w.lent)).Opened openings :=
                opened.erase source
              have within := ih (sound_settingAside sound there _) aside
              rw [step_lend inner there found]
              intro name o' here
              rw [get?_put] at here
              dsimp only
              split at here
              next same =>
                obtain rfl := Option.some.inj here
                rw [if_pos same]
                exact opened source o there
              next other =>
                rw [if_neg other]
                exact within name o' here

theorem opened_act (sound : w.Sound) (opened : w.Opened openings) {action : Action α}
    (fair : action.Fair w) : (w.act action).1.Opened (action.openings w openings) := by
  cases action with
  | step step => exact opened_step sound opened step
  | edit target edit relied =>
      obtain ⟨hosts, -⟩ := fair
      cases done : ({ w with aside := relied ++ w.aside } : World α).applyEdit target edit with
      | none =>
          simp only [act, done]
          exact opened.kept
      | some entry =>
          obtain ⟨after, answer⟩ := entry
          have kept : ({ w with aside := relied ++ w.aside } : World α).Opened
              (w.keptOpenings openings) := opened.kept
          have edited := opened_applyEdit (hosts_relied hosts) kept done
          simp only [act, done]
          exact edited

/-! ## Reached worlds -/

/-- The worlds that fair actions lead to from the empty world, with what the objects in them were
opened with. -/
inductive Traced : World α → Openings → Prop where
  | start : Traced {} fun _ => none
  | act {w : World α} {openings : Openings} {action : Action α} : Traced w openings →
      action.Fair w → Traced (w.act action).1 (action.openings w openings)

variable {barred : World α → Action α → Prop}

theorem Reached.traced (reached : Reached barred w) : ∃ openings, Traced w openings := by
  induction reached with
  | start => exact ⟨_, .start⟩
  | act _ fair _ ih =>
      obtain ⟨openings, traced⟩ := ih
      exact ⟨_, .act traced fair⟩

theorem Traced.sound (traced : Traced w openings) : w.Sound := by
  induction traced with
  | start => exact .nil _
  | act _ fair ih => exact (underway_act ih fair).sound

theorem Traced.opened (traced : Traced w openings) : w.Opened openings := by
  induction traced with
  | start => exact nofun
  | act before fair ih => exact opened_act before.sound ih fair

/-! ## Where openings come from -/

/-- A segment that a buffer can be opened with: one that is made for a capacity, or a view of
it. -/
def Opens (α : Type) [TextUnit α] (s : Segment) : Prop :=
  ∃ (capacity : Nat) (st st' : Store α) (t : Segment),
    Segment.withCapacity capacity st = .ok (t, st') ∧ (s = t ∨ s = t.shared)

/-- Every opening is a segment that a buffer can be opened with. -/
def Furnished (α : Type) [TextUnit α] (openings : Openings) : Prop :=
  ∀ name s, openings name = some s → Opens α s

theorem Opens.shared {s : Segment} (opens : Opens α s) : Opens α s.shared := by
  obtain ⟨capacity, st, st', t, made, rfl | rfl⟩ := opens
  · exact ⟨capacity, st, st', s, made, .inr rfl⟩
  · exact ⟨capacity, st, st', t, made, .inr rfl⟩

theorem opens_make {what : Make} {st : Store α} {s : Segment}
    (opening : what.opening? st = some s) : Opens α s := by
  cases what with
  | bufferWithCapacity capacity =>
      obtain ⟨made, found, rfl⟩ := Option.map_eq_some_iff.1 opening
      cases done : Segment.withCapacity capacity st with
      | error fault =>
          rw [done] at found
          cases found
      | ok fresh =>
          rw [done] at found
          obtain rfl : fresh = made := Option.some.inj found
          exact ⟨capacity, st, fresh.2, fresh.1, done, .inl rfl⟩
  | segment | segmentWithCapacity | segmentOfUnits | segmentOfArray | segmentOfText | buffer
  | bufferOfUnits | bufferOfArray | bufferOfText | bufferOfEach | bufferOfParts | bounded =>
      cases opening

theorem Furnished.kept (furnished : Furnished α openings) :
    Furnished α (w.keptOpenings openings) := by
  intro name s opening
  unfold keptOpenings at opening
  split at opening
  next => exact furnished name s opening
  next => cases opening

theorem Furnished.filled (furnished : Furnished α openings) {opening : Option Segment}
    (opens : ∀ s, opening = some s → Opens α s) (answer : Answer) (dest : String) :
    Furnished α (w.filledOpenings openings answer dest opening) := by
  intro name s here
  unfold filledOpenings at here
  split at here
  next => exact opens s here
  next => exact furnished.kept name s here

theorem furnished_step (furnished : Furnished α openings) (step : Step) :
    Furnished α (step.openings w openings) := by
  induction step generalizing w with
  | make dest what => exact furnished.filled (fun s => opens_make) _ dest
  | derive source dest what =>
      refine furnished.filled (fun s opening => ?_) _ dest
      cases what with
      | shared =>
          obtain ⟨t, there, rfl⟩ := Option.map_eq_some_iff.1 opening
          exact (furnished source t there).shared
      | substring | substringFrom | copy | segmentAt => cases opening
  | bound dest source | unbound source dest => exact furnished.filled (furnished source) _ dest
  | ofSegment dest | ofJson dest | ofValue dest => exact furnished.filled (by nofun) _ dest
  | split source c dest =>
      cases dest with
      | none => exact furnished.kept
      | some dest =>
          intro name s here
          simp only [Step.openings] at here
          split at here
          next => cases here
          next => exact furnished.kept name s here
  | lend source i inner ih =>
      rw [Step.openings]
      split
      next => exact furnished.kept
      next o there =>
        split
        next => exact furnished.kept
        next window found =>
          intro name s here
          dsimp only at here
          split at here
          next => exact furnished source s here
          next => exact ih name s here
  | read source actions =>
      intro name s here
      simp only [Step.openings] at here
      split at here
      next =>
        split at here
        next => cases here
        next => exact furnished.kept name s here
      next => exact furnished.kept name s here
  | ask | change | drop | write | drain => exact furnished.kept

theorem Traced.furnished (traced : Traced w openings) : Furnished α openings := by
  induction traced with
  | start => exact nofun
  | @act w openings action _ _ ih =>
      cases action with
      | step step => exact furnished_step ih step
      | edit target edit relied => exact ih.kept

end World

/-! ## Lists of segments -/

theorem Segment.length_eq_zero_iff {s : Segment} (ordered : s.start ≤ s.stop) :
    s.length = 0 ↔ s.isEmpty = true := by
  rw [length, isEmpty, beq_iff_eq]
  omega

namespace Buffer

variable {b : Buffer} {opening : Option Segment}

theorem Opened.hasNoSegments_iff (opened : b.Opened opening) :
    b.hasNoSegments = true ↔ b.segmentCount = 0 := by
  have listed := opened.listed
  unfold hasNoSegments segmentCount segments
  cases list : b.segmentList with
  | vacant => simp
  | held segments =>
      rw [list] at listed
      have some : segments ≠ [] := fun none => listed (congrArg SegmentList.held none)
      simp [some]

theorem Opened.eq_opening (opened : b.Opened opening) {s : Segment} (here : s ∈ b.segments)
    (none : s.isEmpty = true) : opening = some s := by
  have found := opened.hollow.subset (List.mem_filter.2 ⟨here, none⟩)
  exact Option.mem_toList.1 found

/-- Every segment of a buffer that was opened with none shows something. -/
theorem Opened.length_pos (opened : b.Opened none) {s : Segment} (here : s ∈ b.segments)
    (ordered : s.start ≤ s.stop) : 0 < s.length := by
  refine Nat.pos_of_ne_zero fun nothing => ?_
  cases opened.eq_opening here ((Segment.length_eq_zero_iff ordered).1 nothing)

theorem Opened.length_hollow_le (opened : b.Opened opening) : (hollowOf b.segments).length ≤ 1 :=
  opened.hollow.length_le.trans (by cases opening <;> simp)

end Buffer

namespace World

variable {α : Type} [TextUnit α]

/-- **A buffer has a list of segments exactly if it has segments, and only the segment that it was
opened with can show nothing.**

Every reached world is reached along a run that tells what its objects were opened with.  An
opening is a segment that was made for a capacity, or a view of one.  A buffer has at most one
segment that shows nothing, which is its opening as it was in the beginning; a buffer
without an opening, however it came about and whatever was done to it since, has none. -/
theorem lists_as_opened (barred : World α → Action α → Prop) :
    (∀ w : World α, Reached barred w → ∃ openings, Traced w openings) ∧
    (∀ (w : World α) (openings : Openings), Traced w openings →
      (∀ name s, openings name = some s → ∃ (capacity : Nat) (st st' : Store α) (t : Segment),
        Segment.withCapacity capacity st = .ok (t, st') ∧ (s = t ∨ s = t.shared)) ∧
      ∀ name o b, w.get? name = some o → o.buffer? = some b →
        (b.hasNoSegments = true ↔ b.segmentCount = 0) ∧
        (b.segments.filter (·.length == 0)).length ≤ 1 ∧
        (∀ s ∈ b.segments, s.length = 0 → openings name = some s) ∧
        (openings name = none → ∀ s ∈ b.segments, 0 < s.length)) := by
  refine ⟨fun w reached => reached.traced, fun w openings traced => ⟨traced.furnished, ?_⟩⟩
  intro name o b there shown
  have opened : b.Opened (openings name) := traced.opened name o there b shown
  have ordered : ∀ s ∈ b.segments, s.start ≤ s.stop := fun s here =>
    (traced.sound.placed s (subset_alive_of_get? there (segments_of_buffer? shown ▸ here)))
      |>.valid.start_le_stop
  have hollow : b.segments.filter (·.length == 0) = hollowOf b.segments :=
    List.filter_congr fun s here => by
      rw [Bool.eq_iff_iff, beq_iff_eq]
      exact Segment.length_eq_zero_iff (ordered s here)
  have own : ∀ s ∈ b.segments, s.length = 0 → openings name = some s := fun s here none =>
    opened.eq_opening here ((Segment.length_eq_zero_iff (ordered s here)).1 none)
  refine ⟨opened.hasNoSegments_iff, hollow ▸ opened.length_hollow_le, own, ?_⟩
  intro unopened s here
  refine Nat.pos_of_ne_zero fun none => ?_
  rw [own s here none] at unopened
  cases unopened

/-- A buffer that is made for a capacity and put within bounds, a second buffer on its cells, and a
buffer that was made of units, all of which are gone. -/
def openedTwice : World Char :=
  (((((({} : World Char).act (.step (.make "a" (.bufferWithCapacity 4)))).1.act
    (.step (.derive "a" "b" .shared))).1.act
    (.step (.bound "a" "a" 3))).1.act
    (.step (.make "c" (.bufferOfUnits "xy")))).1.act
    (.step (.change "c" (.removeEnd 2)))).1

theorem lists_as_opened_openedTwice :
    ∃ openings, Traced openedTwice openings ∧
      openings "a" = some ⟨⟨0⟩, 0, 0, 4⟩ ∧ openings "b" = some ⟨⟨0⟩, 0, 0, 0⟩ ∧
      openings "c" = none ∧
      openedTwice.get? "a" = some (.bounded ⟨⟨.held [⟨⟨0⟩, 0, 0, 4⟩], {}⟩, 3, 0⟩) ∧
      (⟨.held [⟨⟨0⟩, 0, 0, 4⟩], {}⟩ : Buffer).hasNoSegments = false ∧
      (∀ b, openedTwice.get? "c" = some (.buffer b) →
        (b.hasNoSegments = true ↔ b.segmentCount = 0) ∧ ∀ s ∈ b.segments, 0 < s.length) := by
  have lists := lists_as_opened (α := Char) fun _ _ => False
  have traced : Traced openedTwice _ :=
    .act (.act (.act (.act (.act .start trivial) trivial) trivial) trivial) trivial
  have unopened := lists.2 _ _ traced
  refine ⟨_, traced, by decide, by decide, by decide, by decide, by decide, fun b there => ?_⟩
  obtain ⟨list, -, -, none⟩ := unopened.2 "c" _ b there rfl
  exact ⟨list, none (by decide)⟩

end World

end SegmentedText
