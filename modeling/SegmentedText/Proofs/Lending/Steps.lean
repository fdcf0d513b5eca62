import SegmentedText.Proofs.Lending.Streams
import SegmentedText.Proofs.Refusals.Changes

/-!
# Steps while windows are lent out

A step is run twice from the same world: as it is, and with more lent out.  The two are alike
(`World.Alike`) if they give the same answer, if every object is seen as the same, and if
every object is the same one but for those in which the step makes room (`Step.MakesRoom`).

The comparison follows the kinds of steps.  A step that makes no room takes no notice of what is
lent out, so its two runs differ in nothing.  A change that appends is known from its edit,
and a stream from its tape or from the units it is given, both in terms of the texts
alone.  A step inside of another is taken by induction.

What can keep two runs apart is a want of room, so they are compared where neither meets it
(`World.Compared`).  The run with more lent out does not meet it if the other one does not, as
long as it has the room to move what is lent out (`Step.HasRoom`).
-/

set_option autoImplicit false

namespace SegmentedText

/-! ## Making room -/

/-- Whether a change makes room at the end of a segment. -/
def Change.makesRoom : Change → Bool
  | .append _ | .appendSlice _ | .appendText _ | .extend _ | .appendWindow _ _ | .reserve _ => true
  | _ => false

/-- The registers in whose objects a step makes room. -/
def Step.MakesRoom (step : Step) (name : String) : Prop :=
  match step with
  | .change target what => what.makesRoom = true ∧ name = target
  | .read source actions => (∃ action ∈ actions, action.Fills name) ∧ name ≠ source
  | .write target _ => name = target
  | .lend source _ inner => inner.MakesRoom name ∧ name ≠ source
  | _ => False

section

variable {α : Type} [TextUnit α]

/-- A change has the room that it needs on account of what is lent out: for what it reserves, or to
move the object to which it appends. -/
def Change.HasRoom (w : World α) (target : String) : Change → Prop
  | .reserve additional => (Change.reserve additional).Allots w target
  | what =>
      ∀ edit resolved o, w.edit? what = some (edit, resolved) → w.get? target = some o →
        edit.makesRoom = true → o.fills α resolved.surroundings = true

/-- A step has the room that it needs on account of what is lent out, also a step inside of
another.  A stream must have the room for all that goes through it. -/
def Step.HasRoom : Step → World α → Prop
  | .lend source i inner, w =>
      ∀ o s, w.get? source = some o → o.segmentAt? i = some s →
        inner.HasRoom (w.settingAside source o (s.storage :: w.lent))
  | .change target what, w => what.HasRoom w target
  | .read source actions, w => (Step.read source actions).Allots w
  | .write target actions, w => (Step.write target actions).Allots w
  | _, _ => True

end

namespace World

variable {α : Type} {w : World α} {lent : List StorageId}

/-! ## Runs that are alike -/

/-- Two runs of a step give the same answer and leave objects that are seen as the same, and that
are the same outside of some registers. -/
structure Alike (widened : String → Prop) (u r : World α × Answer) : Prop where
  answer : r.2 = u.2
  shown : r.1.shown = u.1.shown
  same : ∀ name, ¬widened name → r.1.get? name = u.1.get? name

variable {widened : String → Prop} {u r : World α × Answer}

/-- A run that takes no notice of what is lent out. -/
theorem alike_of_withLent (lent : List StorageId) (unseen : r = (u.1.withLent lent, u.2)) :
    Alike widened u r := by
  subst unseen
  exact ⟨rfl, rfl, fun _ _ => rfl⟩

/-- Two runs of a step are alike, unless one of them is refused room.  Given `room`, the second is
not refused it where the first is not. -/
structure Compared (widened : String → Prop) (room : Prop) (u r : World α × Answer) : Prop where
  alike : u.2 ≠ .fault .roomExceeded → r.2 ≠ .fault .roomExceeded → Alike widened u r
  unrefused : room → u.2 ≠ .fault .roomExceeded → r.2 ≠ .fault .roomExceeded

variable {room : Prop}

/-- A run that takes no notice of what is lent out is compared without more ado. -/
theorem compared_of_withLent (lent : List StorageId) (unseen : r = (u.1.withLent lent, u.2)) :
    Compared widened room u r := by
  have alike : Alike widened u r := alike_of_withLent lent unseen
  exact ⟨fun _ _ => alike, fun _ unrefused full => unrefused (alike.answer.symm.trans full)⟩

/-- What is set aside and lent out after a step does not show in the registers. -/
theorem Compared.restore (compared : Compared widened room u r) (aside : List Segment)
    (lent lent' : List StorageId) :
    Compared widened room ({ u.1 with aside, lent }, u.2)
      ({ r.1 with aside, lent := lent' }, r.2) where
  alike unrefused unrefused' :=
    let alike := compared.alike unrefused unrefused'
    ⟨alike.answer, alike.shown, alike.same⟩
  unrefused := compared.unrefused

/-- Which arrays are lent out is nothing to windows. -/
theorem Underway.of_withLent {touched : String → Prop} {calm : Prop} {hand : List Segment}
    {w' : World α} (u : Underway touched calm (w.withLent lent) hand w') :
    Underway touched calm w hand w' :=
  ⟨u.hosts, u.aside, u.same, u.distinct, u.keeps⟩

/-! ## Steps that make no room -/

@[simp] theorem get?_withLent (name : String) : (w.withLent lent).get? name = w.get? name := rfl

@[simp] theorem store_withLent : (w.withLent lent).store = w.store := rfl

theorem take?_withLent (name : String) :
    (w.withLent lent).take? name =
      (w.take? name).map fun taken => (taken.1, taken.2.withLent lent) := by
  rw [take?, take?, get?_withLent]
  cases w.get? name <;> rfl

theorem takeSegment?_withLent (name : String) (move : Bool) :
    (w.withLent lent).takeSegment? name move =
      (w.takeSegment? name move).map fun taken => (taken.1, taken.2.withLent lent) := by
  rw [takeSegment?, takeSegment?, get?_withLent]
  rcases w.get? name with _ | (s | b | b) <;> cases move <;> rfl

theorem takeBuffer?_withLent (name : String) (move : Bool) :
    (w.withLent lent).takeBuffer? name move =
      (w.takeBuffer? name move).map fun taken => (taken.1, taken.2.withLent lent) := by
  rw [takeBuffer?, takeBuffer?, get?_withLent]
  rcases w.get? name with _ | (s | b | b) <;> cases move <;> rfl

theorem ofSegment_withLent (dest source : String) (move : Bool) :
    (w.withLent lent).ofSegment dest source move =
      ((w.ofSegment dest source move).1.withLent lent, (w.ofSegment dest source move).2) := by
  rw [ofSegment, ofSegment, takeSegment?_withLent]
  cases w.takeSegment? source move <;> rfl

/-- Which text is cut off to keep a bound goes by what is alive. -/
theorem bound_withLent (dest source : String) (maxSize : Nat) :
    (w.withLent lent).bound dest source maxSize =
      ((w.bound dest source maxSize).1.withLent lent, (w.bound dest source maxSize).2) := by
  rw [bound, bound, takeBuffer?_withLent]
  cases w.takeBuffer? source true with
  | none => rfl
  | some taken =>
      obtain ⟨b, rest⟩ := taken
      have alive : (rest.withLent lent).surroundings.alive = rest.surroundings.alive := rfl
      have bounded : Bounded.ofBuffer b maxSize (rest.withLent lent).surroundings =
          Bounded.ofBuffer b maxSize rest.surroundings :=
        Bounded.truncate_of_alive alive ⟨b, maxSize, b.length⟩
      dsimp only [Option.map_some]
      rw [bounded]
      rfl

theorem unbound_withLent (source dest : String) :
    (w.withLent lent).unbound source dest =
      ((w.unbound source dest).1.withLent lent, (w.unbound source dest).2) := by
  rw [unbound, unbound, take?_withLent]
  rcases w.take? source with _ | ⟨s | b | b, rest⟩ <;> rfl

theorem drop_withLent (target : String) :
    (w.withLent lent).drop target = ((w.drop target).1.withLent lent, (w.drop target).2) := by
  rw [drop, drop, get?_withLent]
  cases w.get? target <;> rfl

theorem putPieces_withLent (name : String) (i : Nat) (pieces : List Object) :
    (w.withLent lent).putPieces name i pieces = (w.putPieces name i pieces).withLent lent := by
  induction pieces generalizing w i with
  | nil => rfl
  | cons piece rest ih => exact ih (w := w.put (name ++ toString i) piece) (i + 1)

variable [TextUnit α]

theorem make_withLent (dest : String) (what : Make) :
    (w.withLent lent).make dest what =
      ((w.make dest what).1.withLent lent, (w.make dest what).2) := by
  rw [make, make, store_withLent]
  cases what.run w.store <;> rfl

omit [TextUnit α] in
theorem putRead_withLent {ε : Type} (dest : String) (refuse : ε → Answer)
    (read : Except ε (Buffer × Store α)) :
    (w.withLent lent).putRead dest refuse read =
      ((w.putRead dest refuse read).1.withLent lent, (w.putRead dest refuse read).2) := by
  cases read <;> rfl

theorem derive_withLent (source dest : String) (what : Derive) :
    (w.withLent lent).derive source dest what =
      ((w.derive source dest what).1.withLent lent, (w.derive source dest what).2) := by
  rw [derive, derive, get?_withLent, store_withLent]
  rcases (w.get? source).bind (what.run w.store) with _ | (_ | _) <;> rfl

theorem split_withLent (source : String) (c : Char) (dest : Option String) :
    (w.withLent lent).split source c dest =
      ((w.split source c dest).1.withLent lent, (w.split source c dest).2) := by
  rw [split, split, get?_withLent]
  cases w.get? source with
  | none => rfl
  | some o =>
      cases dest with
      | none => rfl
      | some name =>
          refine Prod.ext ?_ rfl
          exact putPieces_withLent (w := w.withStore (o.split c w.store).2) name 0 _

/-- Neither a question nor a drain goes by what is lent out. -/
theorem ask_withLent (source : String) (query : Query) :
    (w.withLent lent).ask source query = w.ask source query := by
  rw [ask, ask, get?_withLent]
  rcases w.get? source with _ | (s | b | b)
  · rfl
  · cases query <;> rfl
  · cases query <;> rfl
  · cases query <;> rfl

/-! ## Changes -/

theorem replacement?_withLent (replacement : Replacement) :
    (w.withLent lent).replacement? replacement =
      (w.replacement? replacement).map fun found => (found.1, found.2.withLent lent) := by
  cases replacement with
  | register name move => exact takeBuffer?_withLent name move
  | text text form => rfl

theorem provider?_withLent (values : Values) :
    (w.withLent lent).provider? values =
      (w.provider? values).map fun found => (found.1, found.2.withLent lent) := by
  cases values with
  | table entries fallback form => rfl
  | same => rfl
  | register name =>
      rw [provider?, provider?, get?_withLent]
      rcases w.get? name with _ | (s | b | b) <;> rfl

theorem lent_of_replacement? {replacement : Replacement} {b : Buffer} {rest : World α}
    (found : w.replacement? replacement = some (b, rest)) : rest.lent = w.lent := by
  cases replacement with
  | register name move => exact lent_of_takeBuffer? found
  | text text form =>
      obtain ⟨-, rfl⟩ := Prod.mk.inj (Option.some.inj found)
      rfl

theorem lent_of_provider? {values : Values} {provider : Provider α} {rest : World α}
    (found : w.provider? values = some (provider, rest)) : rest.lent = w.lent := by
  cases values with
  | table entries fallback form =>
      obtain ⟨-, rfl⟩ := Prod.mk.inj (Option.some.inj found)
      rfl
  | same =>
      obtain ⟨-, rfl⟩ := Prod.mk.inj (Option.some.inj found)
      rfl
  | register name =>
      obtain ⟨o, -, found⟩ := Option.bind_eq_some_iff.1 found
      obtain ⟨b, -, found⟩ := Option.bind_eq_some_iff.1 found
      obtain ⟨-, rfl⟩ := Prod.mk.inj (Option.some.inj found)
      rfl

/-- A change is resolved in neither of two worlds, or to the same edit, and then no less is lent
out in the second. -/
def SameEdit (found found' : Option (Edit α × World α)) : Prop :=
  found = none ∧ found' = none ∨
    ∃ edit resolved lent, found = some (edit, resolved) ∧
      found' = some (edit, resolved.withLent lent) ∧ resolved.lent ⊆ lent

omit [TextUnit α] in
theorem sameEdit_of_taken {β : Type} {found : Option (β × World α)} (edit : β → Edit α)
    (more : ∀ argument rest, found = some (argument, rest) → rest.lent ⊆ lent) :
    SameEdit (found.bind fun taken => some (edit taken.1, taken.2))
      ((found.map fun taken => (taken.1, taken.2.withLent lent)).bind fun taken =>
        some (edit taken.1, taken.2)) := by
  cases found with
  | none => exact .inl ⟨rfl, rfl⟩
  | some taken =>
      exact .inr ⟨edit taken.1, taken.2, lent, rfl, rfl, more taken.1 taken.2 rfl⟩

/-- To which edit a change is resolved does not go by what is lent out. -/
theorem edit?_withLent (more : w.lent ⊆ lent) (what : Change) :
    SameEdit (w.edit? what) ((w.withLent lent).edit? what) := by
  cases what
  case appendSegment source move =>
    rw [edit?, edit?, takeSegment?_withLent]
    exact sameEdit_of_taken .appendSegment fun s rest taken => lent_of_takeSegment? taken ▸ more
  case prependSegment source move =>
    rw [edit?, edit?, takeSegment?_withLent]
    exact sameEdit_of_taken .prependSegment fun s rest taken => lent_of_takeSegment? taken ▸ more
  case replaceRange start stop replacement =>
    rw [edit?, edit?, replacement?_withLent]
    exact sameEdit_of_taken (.replaceRange start stop) fun b rest found =>
      lent_of_replacement? found ▸ more
  case substitute opening closing values =>
    rw [edit?, edit?, provider?_withLent]
    exact sameEdit_of_taken (.substitute _ _) fun provider rest found =>
      lent_of_provider? found ▸ more
  case appendBuffer source =>
    rw [edit?, edit?, get?_withLent]
    rcases w.get? source with _ | (s | b | b)
    · exact .inl ⟨rfl, rfl⟩
    · exact .inl ⟨rfl, rfl⟩
    · exact .inr ⟨.appendBuffer b, w, lent, rfl, rfl, more⟩
    · exact .inr ⟨.appendBuffer b.inner, w, lent, rfl, rfl, more⟩
  case appendWindow source i =>
    rw [edit?, edit?, lentWindow?, lentWindow?, get?_withLent]
    cases w.get? source with
    | none => exact .inl ⟨rfl, rfl⟩
    | some o =>
        show SameEdit (((o.segmentAt? i).bind _).bind _) (((o.segmentAt? i).bind _).bind _)
        cases o.segmentAt? i with
        | none => exact .inl ⟨rfl, rfl⟩
        | some s =>
            exact .inr ⟨_, _, s.storage :: lent, rfl, rfl, List.cons_subset_cons _ more⟩
  case appendOwned => exact .inl ⟨rfl, rfl⟩
  case moveForward => exact .inl ⟨rfl, rfl⟩
  case reserve => exact .inl ⟨rfl, rfl⟩
  all_goals exact .inr ⟨_, w, lent, rfl, rfl, more⟩

omit [TextUnit α] in
/-- Two runs that disturb no bystander are alike if they are alike where they have been. -/
theorem alike_of_underway {touched : String → Prop} (sound : w.Sound)
    (first : Underway touched True w [] u.1) (second : Underway touched True w [] r.1)
    (answer : r.2 = u.2) (shown : ∀ name, touched name → r.1.shown name = u.1.shown name)
    (same : ∀ name, touched name → ¬widened name → r.1.get? name = u.1.get? name) :
    Alike widened u r := by
  refine ⟨answer, funext fun name => ?_, fun name narrow => ?_⟩
  · by_cases touches : touched name
    · exact shown name touches
    · rw [shown_of_underway first trivial sound touches,
        shown_of_underway second trivial sound touches]
  · by_cases touches : touched name
    · exact same name touches narrow
    · rw [first.same name touches, second.same name touches]

omit [TextUnit α] in
theorem unrefused_of_fault? {answer : Answer} (told : answer.fault? = none) :
    answer ≠ .fault .roomExceeded := by
  rintro rfl
  cases told

omit [TextUnit α] in
theorem refused_ofExcept {ρ : Type} {reply : ρ → Answer} {answer : Except Fault ρ}
    (plain : ∀ value, (reply value).fault? = none) :
    Answer.ofExcept reply answer = .fault .roomExceeded ↔ answer = .error .roomExceeded := by
  have told := Answer.fault?_ofExcept plain answer
  cases answer with
  | ok value =>
      refine ⟨fun full => ?_, nofun⟩
      rw [full] at told
      cases told
  | error fault =>
      refine ⟨fun full => ?_, fun full => ?_⟩
      · rw [full] at told
        exact congrArg Except.error (Option.some.inj told).symm
      · exact congrArg Answer.fault (Except.error.inj full)

/-- An edit of the object in a register. -/
theorem compared_applyEdit {target : String} {edit : Edit α}
    (hosts : w.store.Hosts (edit.windows ++ w.alive))
    (fits : ∀ o, w.get? target = some o → edit.Fits o.segments (w.erase target).alive)
    (calm : edit.inPlace = false) (more : w.lent ⊆ lent) (made : w.LendsMade)
    (made' : (w.withLent lent).LendsMade) :
    Option.Rel (Compared (fun name => edit.makesRoom = true ∧ name = target)
        (∀ o, w.get? target = some o → edit.makesRoom = true →
          o.fills α (w.withLent lent).surroundings = true))
      (w.applyEdit target edit) ((w.withLent lent).applyEdit target edit) := by
  cases there : w.get? target with
  | none =>
      rw [applyEdit, applyEdit, take?_withLent, take?, there]
      exact .none
  | some o =>
      have start : Underway (· = target) True w edit.windows w :=
        (Underway.refl hosts.right).rearrange hosts
      have alive : ((w.erase target).withLent lent).surroundings.alive =
          (w.erase target).surroundings.alive := rfl
      have run := applyEdit_of_get? there edit
      have run' : (w.withLent lent).applyEdit target edit =
          (o.apply ((w.erase target).withLent lent).surroundings w.store edit).map
            (((w.erase target).withLent lent).putEdited target) :=
        applyEdit_of_get? (w := w.withLent lent) there edit
      have alike := Object.alike_apply alive more made made' (hosts_taken hosts there).right calm
      have unseen := fun narrow => o.apply_of_alive alive calm narrow w.store
      generalize found : o.apply (w.erase target).surroundings w.store edit = applied at *
      generalize found' : o.apply ((w.erase target).withLent lent).surroundings w.store edit =
        applied' at *
      cases alike with
      | none =>
          rw [run, run']
          exact .none
      | @some u r alike =>
          have first := underway_applyEdit start fits rfl (fun _ => calm) run
          have second := underway_applyEdit (start.lending lent) fits rfl (fun _ => calm) run'
          have refused : ∀ {rest : World α} {r : Edited Object α Reply},
              (rest.putEdited target r).2 = .fault .roomExceeded ↔
                r.answer = .error .roomExceeded := refused_ofExcept (Reply.fault?_answer _)
          rw [run, run']
          refine .some ⟨fun unrefused unrefused' => ?_, fun fills unrefused => ?_⟩
          · rw [Ne, refused] at unrefused unrefused'
            obtain ⟨answer, shown⟩ := alike.same unrefused unrefused'
            cases makes : edit.makesRoom with
            | false =>
                obtain rfl := Option.some.inj (unseen makes)
                exact alike_of_withLent lent rfl
            | true =>
                refine alike_of_underway hosts.right first second answer (fun name here => ?_)
                  fun name here narrow => absurd ⟨rfl, here⟩ narrow
                rw [putEdited, putEdited, shown_put, shown_put, if_pos here, if_pos here]
                exact congrArg some shown
          · rw [Ne, refused] at unrefused ⊢
            exact alike.unrefused (fun makes =>
              (Object.fills_congr rfl).trans (fills o rfl makes)) unrefused

/-- A change makes room where its edit does. -/
theorem makesRoom_of_edit? {what : Change} {edit : Edit α} {resolved : World α}
    (found : w.edit? what = some (edit, resolved)) : edit.makesRoom = what.makesRoom := by
  cases what
  case appendBuffer source =>
    obtain ⟨other, -, found⟩ := Option.bind_eq_some_iff.1 found
    obtain ⟨b, -, found⟩ := Option.bind_eq_some_iff.1 found
    obtain ⟨rfl, -⟩ := Prod.mk.inj (Option.some.inj found)
    rfl
  case appendSegment | prependSegment | appendWindow | replaceRange | substitute =>
    obtain ⟨taken, -, found⟩ := Option.bind_eq_some_iff.1 found
    obtain ⟨rfl, -⟩ := Prod.mk.inj (Option.some.inj found)
    rfl
  case appendOwned => cases found
  case moveForward => cases found
  case reserve => cases found
  all_goals
    obtain ⟨rfl, -⟩ := Prod.mk.inj (Option.some.inj found)
    rfl

/-- A segment that gets the room that it asks for keeps its text. -/
theorem shown_reserve {target : String} {s : Segment} {additional : Nat}
    (room : (w.changeSpecial target (.segment s) (.reserve additional)).2 ≠ .fault .roomExceeded) :
    (w.changeSpecial target (.segment s) (.reserve additional)).2 = .done ∧
      (w.changeSpecial target (.segment s) (.reserve additional)).1.shown target =
        some (.segment (s.content w.store)) := by
  rw [changeSpecial] at room ⊢
  cases done : s.reserve w.surroundings additional w.store with
  | error fault =>
      rw [Segment.reserve] at done
      split at done
      next => cases done
      next =>
        obtain rfl := Except.error.inj done
        rw [Segment.reserve, if_neg ‹_›] at room
        exact absurd rfl room
  | ok made =>
      rw [Segment.reserve] at done
      split at done
      next =>
        obtain rfl := Except.ok.inj done
        refine ⟨rfl, ?_⟩
        dsimp only
        rw [shown_put, if_pos rfl]
        exact congrArg (some ∘ Shown.segment) (Segment.content_makeRoom _ additional)
      next => cases done

/-- The changes that only some objects have. -/
theorem compared_changeSpecial {target : String} {o : Object} {what : Change} (sound : w.Sound)
    (there : w.get? target = some o) (unresolved : (w.withLent lent).edit? what = none) :
    Compared (fun name => what.makesRoom = true ∧ name = target)
      (what.HasRoom (w.withLent lent) target) ((w.erase target).changeSpecial target o what)
      (((w.erase target).withLent lent).changeSpecial target o what) := by
  have start : Underway (· = target) True w o.segments (w.erase target) := by
    have taken : Underway (· = target) True w (o.segments ++ []) (w.erase target) :=
      (Underway.refl sound).take there rfl
    rwa [List.append_nil] at taken
  cases what
  case reserve additional =>
    cases o with
    | segment s =>
        have first : Underway (· = target) True w []
            ((w.erase target).changeSpecial target (.segment s) (.reserve additional)).1 :=
          underway_changeSpecial start rfl nofun
        have second : Underway (· = target) True w []
            (((w.erase target).withLent lent).changeSpecial target (.segment s)
              (.reserve additional)).1 :=
          underway_changeSpecial (start.lending lent) rfl nofun
        refine ⟨fun room room' => ?_, fun allots _ => ?_⟩
        · obtain ⟨done, shown⟩ := shown_reserve room
          obtain ⟨done', shown'⟩ := shown_reserve room'
          refine alike_of_underway sound first second (done'.trans done.symm) ?_ ?_
          · rintro name rfl
            exact shown'.trans shown.symm
          · exact fun name here narrow => absurd ⟨rfl, here⟩ narrow
        · have allots : (Change.reserve additional).Allots (w.withLent lent) target := allots
          have keeps := keepsTo_changeSpecial (w := w.withLent lent) there allots unresolved
          exact unrefused_of_fault? keeps.fault_eq
    | buffer b => exact compared_of_withLent lent rfl
    | bounded b => exact compared_of_withLent lent rfl
  case moveForward count =>
    cases o with
    | segment s =>
        refine compared_of_withLent lent ?_
        rw [changeSpecial, changeSpecial]
        cases s.moveForward count <;> rfl
    | buffer b => exact compared_of_withLent lent rfl
    | bounded b => exact compared_of_withLent lent rfl
  case appendOwned source =>
    cases o with
    | buffer b =>
        refine compared_of_withLent lent ?_
        rw [changeSpecial, changeSpecial, takeBuffer?_withLent]
        cases (w.erase target).takeBuffer? source true with
        | none => rfl
        | some taken =>
            dsimp only [Option.map_some]
            cases b.appendOwned taken.1 <;> rfl
    | segment s => exact compared_of_withLent lent rfl
    | bounded b => exact compared_of_withLent lent rfl
  all_goals cases o <;> exact compared_of_withLent lent rfl

/-- What a step or an action makes of an edit that has been applied, or could not be. -/
def ended (w : World α) : Option (World α × Answer) → World α × Answer
  | some (after, answer) => ({ after with aside := w.aside, lent := w.lent }, answer)
  | none => (w, .malformed)

omit [TextUnit α] in
theorem compared_ended {first second : Option (World α × Answer)}
    (compared : Option.Rel (Compared widened room) first second) (lent : List StorageId) :
    Compared widened room (w.ended first) ((w.withLent lent).ended second) := by
  cases compared with
  | none => exact compared_of_withLent lent rfl
  | some compared => exact compared.restore w.aside w.lent lent

theorem change_of_edit? {target : String} {o : Object} (there : w.get? target = some o)
    {what : Change} {edit : Edit α} {resolved : World α}
    (found : w.edit? what = some (edit, resolved)) :
    w.change target what = w.ended (resolved.applyEdit target edit) := by
  rw [change, take?_of_get? there]
  dsimp only
  rw [found]
  dsimp only
  cases resolved.applyEdit target edit <;> rfl

/-- A change that has an edit has the room that the edit needs. -/
theorem fills_of_hasRoom {target : String} {what : Change} {edit : Edit α} {resolved : World α}
    {o : Object} (found : w.edit? what = some (edit, resolved)) (room : what.HasRoom w target)
    (there : resolved.get? target = some o) (makes : edit.makesRoom = true) :
    o.fills α resolved.surroundings = true := by
  have before := (get?_of_edit? found there).1
  cases what
  case reserve => cases found
  all_goals exact room edit resolved o found before makes

/-- A change of the object in a register. -/
theorem compared_change (sound : w.Sound) (more : w.lent ⊆ lent) (made : w.LendsMade)
    (made' : (w.withLent lent).LendsMade) {target : String} {what : Change}
    (calm : what.inPlace = false) :
    Compared (fun name => what.makesRoom = true ∧ name = target)
      (what.HasRoom (w.withLent lent) target) (w.change target what)
      ((w.withLent lent).change target what) := by
  cases there : w.get? target with
  | none =>
      refine compared_of_withLent lent ?_
      rw [change, change, take?_withLent, take?, there]
      rfl
  | some o =>
      rcases edit?_withLent more what with ⟨none, none'⟩ |
        ⟨edit, resolved, lent', found, found', more'⟩
      · have run : w.change target what = (w.erase target).changeSpecial target o what := by
          rw [change, take?_of_get? there]
          dsimp only
          rw [none]
        have run' : (w.withLent lent).change target what =
            ((w.erase target).withLent lent).changeSpecial target o what := by
          rw [change, take?_withLent, take?_of_get? there]
          dsimp only [Option.map_some]
          rw [none']
        rw [run, run']
        exact compared_changeSpecial sound there none'
      · have resolves : Resolves what.Uses True w what edit resolved :=
          resolves_edit? sound (fun _ uses => uses) found
        have applied := compared_applyEdit resolves.underway.hosts
          (fun o there => resolves.fits target o there) (resolves.inPlace.trans calm) more'
          (made.resolved sound found)
          (LendsMade.resolved (w := w.withLent lent) made' sound found')
        rw [makesRoom_of_edit? found] at applied
        rw [change_of_edit? there found, change_of_edit? (w := w.withLent lent) there found']
        have ended := compared_ended (w := w) applied lent
        exact ⟨ended.alike, fun room => ended.unrefused fun o there makes =>
          fills_of_hasRoom found' room there ((makesRoom_of_edit? found).trans makes)⟩

/-! ## Streams -/

theorem unrefused_of_read {source : String} {o : Object} {b : Buffer}
    (there : w.get? source = some o) (shown : o.buffer? = some b) {actions : List ReadAction}
    (room : (w.read source actions).2 ≠ .fault .roomExceeded) :
    ((w.settingAside source o w.lent).readAll (.ofBuffer b) actions).2 ≠
      .error .roomExceeded := by
  intro full
  rw [read_of_get? there shown, afterReading, full] at room
  exact room rfl

/-- A read that is not refused room tells what its tape tells. -/
theorem tells_of_unrefused (sound : w.Sound) (made : w.LendsMade) {source : String} {o : Object}
    {b : Buffer} (there : w.get? source = some o) (shown : o.buffer? = some b)
    {actions : List ReadAction} (room : (w.read source actions).2 ≠ .fault .roomExceeded) :
    Tells (w.tapeOf source b) actions
      ((w.settingAside source o w.lent).readAll (.ofBuffer b) actions) :=
  (told_readAll (tapes_settingAside sound made there shown) actions).resolve_left fun broken =>
    unrefused_of_read there shown room broken.1

/-- A read that is not refused room is not refused at all. -/
theorem kept_of_read (sound : w.Sound) (made : w.LendsMade) {source : String}
    {actions : List ReadAction} (room : (w.read source actions).2 ≠ .fault .roomExceeded)
    (fault : Fault) : (w.read source actions).2 ≠ .fault fault := by
  cases there : w.get? source with
  | none =>
      rw [read, take?, there]
      rintro ⟨⟩
  | some o =>
      cases shown : o.buffer? with
      | none =>
          rw [read, take?_of_get? there]
          dsimp only
          rw [shown]
          rintro ⟨⟩
      | some b =>
          have tells := tells_of_unrefused sound made there shown room
          rw [read_of_get? there shown, afterReading, tells.1]
          rintro ⟨⟩

/-- Reading an object. -/
theorem compared_read (sound : w.Sound) (made : w.LendsMade)
    (made' : (w.withLent lent).LendsMade) {source : String} {actions : List ReadAction} :
    Compared (fun name => (∃ action ∈ actions, action.Fills name) ∧ name ≠ source)
      ((Step.read source actions).Allots (w.withLent lent)) (w.read source actions)
      ((w.withLent lent).read source actions) := by
  refine ⟨fun room room' => ?_, fun allots _ => ?_⟩
  · have first : Underway _ True w [] (w.read source actions).1 :=
      underway_read sound source actions
    have second : Underway _ True (w.withLent lent) [] ((w.withLent lent).read source actions).1 :=
      underway_read (w := w.withLent lent) sound source actions
    rw [touches_read (kept_of_read sound made room)] at first
    rw [touches_read (kept_of_read (w := w.withLent lent) sound made' room')] at second
    cases there : w.get? source with
    | none =>
        refine alike_of_withLent lent ?_
        rw [read, read, take?_withLent, take?, there]
        rfl
    | some o =>
        cases shown : o.buffer? with
        | none =>
            refine alike_of_withLent lent ?_
            rw [read, read, take?_withLent, take?_of_get? there]
            dsimp only [Option.map_some]
            rw [shown]
        | some b =>
            have tapes := tapes_settingAside sound made there shown
            have tapes' := tapes_settingAside (w := w.withLent lent) sound made' there shown
            have run := read_of_get? there shown actions
            have run' := read_of_get? (w := w.withLent lent) there shown actions
            have unrefused := unrefused_of_read there shown room
            have unrefused' := unrefused_of_read (w := w.withLent lent) there shown room'
            have tells := tells_of_unrefused sound made there shown room
            have tells' := tells_of_unrefused (w := w.withLent lent) sound made' there shown room'
            have seen := shown_readAll tapes tapes' rfl unrefused unrefused'
            rw [afterReading, tells.1] at run
            rw [afterReading, tells'.1] at run'
            refine alike_of_underway sound first second.of_withLent ?_ ?_ ?_
            · rw [run, run']
              rfl
            · rintro name ⟨-, other⟩
              rw [run, run', shown_put, shown_put, if_neg other, if_neg other]
              exact congrFun seen name
            · exact fun name touched narrow => absurd touched narrow
  · have keeps : (w.withLent lent).KeepsTo (fun _ => False) none
        ((w.withLent lent).read source actions) :=
      keepsTo_read (w := w.withLent lent) sound made' allots
    exact unrefused_of_fault? keeps.fault_eq

/-- What is written does not go by what is lent out. -/
theorem writing_withLent (count : Nat) (actions : List WriteAction) :
    (w.withLent lent).writing count actions = w.writing count actions := by
  induction actions generalizing count with
  | nil => rfl
  | cons action rest ih =>
      have same : (w.withLent lent).written? action = w.written? action := by cases action <;> rfl
      rw [writing, writing, same]
      cases w.written? action with
      | none => rfl
      | some units =>
          dsimp only
          rw [ih]

theorem unrefused_of_write {target : String} {b : Buffer}
    (there : w.get? target = some (.buffer b)) {actions : List WriteAction}
    (room : (w.write target actions).2 ≠ .fault .roomExceeded) :
    ((w.erase target).writeAll ⟨b, 0⟩ w.store actions).2.2 ≠
      .error (.fault .roomExceeded) := by
  intro full
  rw [write_of_get? there, afterWriting, full] at room
  exact room rfl

omit [TextUnit α] in
/-- Two runs that tell the same and leave buffers that are seen as the same end alike. -/
theorem alike_afterWriting {rest rest' : World α} {target : String}
    {used used' : Writer × Store α × Except Answer (List Nat)} (told : used'.2.2 = used.2.2)
    (text : used'.1.buffer.content used'.2.1 = used.1.buffer.content used.2.1)
    (layout : used'.1.buffer.layout = used.1.buffer.layout)
    (gone : rest.get? target = none) (gone' : rest'.get? target = none) :
    (rest'.afterWriting target used').2 = (rest.afterWriting target used).2 ∧
      (rest'.afterWriting target used').1.shown target =
        (rest.afterWriting target used).1.shown target := by
  have seen : (Object.buffer used'.1.buffer).shown used'.2.1 =
      (Object.buffer used.1.buffer).shown used.2.1 := by
    show Shown.buffer _ _ = Shown.buffer _ _
    rw [text, layout]
  simp only [afterWriting, told]
  split
  · refine ⟨rfl, ?_⟩
    rw [shown_put, shown_put, if_pos rfl, if_pos rfl]
    exact congrArg some seen
  · refine ⟨rfl, ?_⟩
    show ((rest'.get? target).map _) = ((rest.get? target).map _)
    rw [gone, gone']
    rfl
  · refine ⟨rfl, ?_⟩
    rw [shown_put, shown_put, if_pos rfl, if_pos rfl]
    exact congrArg some seen

/-- Writing to a buffer. -/
theorem compared_write (sound : w.Sound) (made' : (w.withLent lent).LendsMade) {target : String}
    {actions : List WriteAction} :
    Compared (· = target) ((Step.write target actions).Allots (w.withLent lent))
      (w.write target actions) ((w.withLent lent).write target actions) := by
  refine ⟨fun room room' => ?_, fun allots _ => ?_⟩
  · have first : Underway _ True w [] (w.write target actions).1 :=
      underway_write sound target actions
    have second : Underway _ True (w.withLent lent) []
        ((w.withLent lent).write target actions).1 :=
      underway_write (w := w.withLent lent) sound target actions
    rcases there : w.get? target with _ | (s | b | b)
    case some.buffer =>
      have hosts : (w.erase target).store.Hosts
          ((⟨b, 0⟩ : Writer).buffer.segments ++ (w.erase target).alive) :=
        Store.Hosts.subperm sound (subperm_take there)
      have unrefused := unrefused_of_write there room
      have unrefused' := unrefused_of_write (w := w.withLent lent) there room'
      obtain ⟨told, text, layout⟩ := (told_writeAll hosts fun _ _ => rfl).resolve_left unrefused
      obtain ⟨told', text', layout'⟩ := (told_writeAll (w := (w.erase target).withLent lent) hosts
        fun _ _ => rfl).resolve_left unrefused'
      rw [writing_withLent] at told' text'
      have gone : (w.erase target).get? target = none := by rw [get?_erase, if_pos rfl]
      have gone' : ((w.erase target).withLent lent).get? target = none := gone
      obtain ⟨answer, shown⟩ := alike_afterWriting (told'.trans told.symm)
        (text'.trans text.symm) (layout'.trans layout.symm) gone gone'
      have run := write_of_get? there actions
      have run' := write_of_get? (w := w.withLent lent) there actions
      refine alike_of_underway sound first second.of_withLent ?_ ?_ ?_
      · rw [run, run']
        exact answer
      · rintro name rfl
        rw [run, run']
        exact shown
      · exact fun name touched narrow => absurd touched narrow
    all_goals
      refine alike_of_withLent lent ?_
      rw [write, write, take?_withLent, take?, there]
      rfl
  · have keeps : (w.withLent lent).KeepsTo (fun _ => False) none
        ((w.withLent lent).write target actions) :=
      keepsTo_write (w := w.withLent lent) sound made' allots
    exact unrefused_of_fault? keeps.fault_eq

/-! ## All steps -/

omit [TextUnit α] in
/-- An object that is put back after a step inside of another is the one that was set aside, with
the text that it had. -/
theorem compared_settingAside (sound : w.Sound) {source : String} {o : Object}
    (there : w.get? source = some o) {touched touched' : String → Prop} {calm : Prop} (quiet : calm)
    {onward : List StorageId}
    (first : Underway touched calm (w.settingAside source o onward) [] u.1)
    (second : Underway touched' calm (w.settingAside source o onward) [] r.1)
    (compared : Compared widened room u r) (lent lent' : List StorageId) :
    Compared (fun name => widened name ∧ name ≠ source) room
      ({ u.1 with aside := w.aside, lent }.put source o, u.2)
      ({ r.1 with aside := w.aside, lent := lent' }.put source o, r.2) := by
  have kept : ∀ {after : World α} {touched : String → Prop},
      Underway touched calm (w.settingAside source o onward) [] after →
        o.shown after.store = o.shown w.store := fun run =>
    Object.shown_congr fun s here => run.content_eq quiet
      (sound_settingAside sound there onward) (.inl (List.mem_append_left _ here))
  refine ⟨fun unrefused unrefused' => ?_, compared.unrefused⟩
  have alike := compared.alike unrefused unrefused'
  refine ⟨alike.answer, funext fun name => ?_, fun name narrow => ?_⟩
  · rw [shown_put, shown_put]
    by_cases same : name = source
    · rw [if_pos same, if_pos same]
      exact congrArg some ((kept second).trans (kept first).symm)
    · rw [if_neg same, if_neg same]
      exact congrFun alike.shown name
  · rw [get?_put, get?_put]
    by_cases same : name = source
    · rw [if_pos same, if_pos same]
    · rw [if_neg same, if_neg same]
      exact alike.same name fun wide => narrow ⟨wide, same⟩

/-- **Every step that overwrites no text in place runs alike, however much is lent out.** -/
theorem compared_step (sound : w.Sound) (more : w.lent ⊆ lent) (made : w.LendsMade)
    (made' : (w.withLent lent).LendsMade) {step : Step} (calm : step.inPlace = false) :
    Compared step.MakesRoom (step.HasRoom (w.withLent lent)) (w.step step)
      ((w.withLent lent).step step) := by
  induction step generalizing w lent with
  | make dest what => exact compared_of_withLent lent (make_withLent dest what)
  | ofSegment dest source move =>
      exact compared_of_withLent lent (ofSegment_withLent dest source move)
  | bound dest source maxSize =>
      exact compared_of_withLent lent (bound_withLent dest source maxSize)
  | unbound source dest => exact compared_of_withLent lent (unbound_withLent source dest)
  | ofJson dest json => exact compared_of_withLent lent (putRead_withLent dest _ _)
  | ofValue dest value => exact compared_of_withLent lent (putRead_withLent dest _ _)
  | ask source query =>
      exact compared_of_withLent lent (congrArg (w.withLent lent, ·) (ask_withLent source query))
  | derive source dest what => exact compared_of_withLent lent (derive_withLent source dest what)
  | split source c dest => exact compared_of_withLent lent (split_withLent source c dest)
  | change target what => exact compared_change sound more made made' calm
  | drop target => exact compared_of_withLent lent (drop_withLent target)
  | read source actions => exact compared_read sound made made'
  | write target actions => exact compared_write sound made'
  | drain source job => exact compared_of_withLent lent rfl
  | lend source i inner ih =>
      cases found : (w.get? source).bind (·.segmentAt? i) with
      | none =>
          rw [step_lend_of_none found, step_lend_of_none (w := w.withLent lent) found]
          exact compared_of_withLent lent rfl
      | some s =>
          obtain ⟨o, there, found⟩ := Option.bind_eq_some_iff.1 found
          have run := step_lend inner there found
          have run' : (w.withLent lent).step (.lend source i inner) = _ :=
            step_lend (w := w.withLent lent) inner there found
          have aside := sound_settingAside sound there (s.storage :: w.lent)
          have compared := ih aside (List.cons_subset_cons s.storage more)
            (made.settingAside sound there found)
            (LendsMade.settingAside (w := w.withLent lent) made' sound there found) calm
          have second := (underway_step
            (w := (w.settingAside source o (s.storage :: w.lent)).withLent (s.storage :: lent))
            aside inner).of_withLent
          have back := compared_settingAside sound there calm (underway_step aside inner) second
            compared w.lent lent
          rw [run, run']
          exact ⟨back.alike, fun room => back.unrefused (room o s there found)⟩

end World

end SegmentedText
