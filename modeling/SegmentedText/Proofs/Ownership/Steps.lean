import SegmentedText.Proofs.Ownership.Confinement
import SegmentedText.Proofs.Ownership.Objects
import SegmentedText.World.Run

/-!
# Steps and bystanders

Which registers a step touches can be told from the step, except that a read that is
refused on its way loses the object that it reads (`Step.Touches`).  So can whose windows
it may share (`Step.Shares`) and whether it changes text in place (`Step.inPlace`).  The
main statement is that every step takes a sound world to a sound world, leaves the
registers that it does not touch as they are, and, unless it changes text in place, shows
in none of them (`World.underway_step`).  What is more, it keeps away from every cell that
a bystander reaches, if it begins away from it and shares nothing that reaches it
(`World.confined_step`).

The proof follows the kinds of steps.  What an operation does to the windows it was
given is known from the modules before; here it is only followed where the windows
come from and where they go.  The one about cells is carried through, and the other
statement is what it says of no cells.
-/

set_option autoImplicit false

namespace SegmentedText

/-! ## Which registers a step touches -/

/-- A replacement that is taken out of its register. -/
def Replacement.Uses (replacement : Replacement) (name : String) : Prop :=
  match replacement with
  | .register source move => move = true ∧ name = source
  | .text _ _ => False

/-- An argument of a change that is taken out of its register. -/
def Change.Uses (change : Change) (name : String) : Prop :=
  match change with
  | .appendSegment source move | .prependSegment source move => move = true ∧ name = source
  | .appendOwned source => name = source
  | .replaceRange _ _ replacement => replacement.Uses name
  | _ => False

/-- The register that a use of a reader fills. -/
def ReadAction.Fills (action : ReadAction) (name : String) : Prop :=
  match action with
  | .readUntil _ sink _ => name = sink
  | _ => False

/-- The registers whose object is changed, used up, made or dropped, or is lost because a read is
refused on its way.  An object that is only set aside is not touched. -/
def Step.Touches {α : Type} [TextUnit α] (step : Step) (w : World α) (name : String) : Prop :=
  match step with
  | .make dest _ | .ofJson dest _ | .ofValue dest _ | .derive _ dest _ => name = dest
  | .ofSegment dest source move => name = dest ∨ move = true ∧ name = source
  | .bound dest source _ | .unbound source dest => name = dest ∨ name = source
  | .ask _ _ | .drain _ _ => False
  | .split _ _ dest => ∃ kept i, dest = some kept ∧ name = kept ++ toString (i : Nat)
  | .change target what => name = target ∨ what.Uses name
  | .drop target | .write target _ => name = target
  | .read source actions =>
      if name = source then ∃ fault, (w.read source actions).2 = .fault fault
      else ∃ action ∈ actions, action.Fills name
  | .lend source i inner =>
      name ≠ source ∧ ∃ o s, w.get? source = some o ∧ o.segmentAt? i = some s ∧
        inner.Touches (w.settingAside source o (s.storage :: w.lent)) name

/-! ## Whose windows a step may share -/

/-- A replacement whose windows stay in their register as well. -/
def Replacement.Shares (replacement : Replacement) (name : String) : Prop :=
  match replacement with
  | .register source move => move = false ∧ name = source
  | .text _ _ => False

/-- Values that are shared with a register. -/
def Values.Shares (values : Values) (name : String) : Prop :=
  match values with
  | .register source => name = source
  | _ => False

/-- An argument of a change whose windows the changed object may come to share. -/
def Change.Shares (change : Change) (name : String) : Prop :=
  match change with
  | .appendSegment source move | .prependSegment source move => move = false ∧ name = source
  | .appendBuffer source => name = source
  | .replaceRange _ _ replacement => replacement.Shares name
  | .substitute _ _ values => values.Shares name
  | _ => False

/-- The registers of whose windows a step may leave more.  To copy an object, to read it or to write
what it shows shares nothing. -/
def Step.Shares (step : Step) (name : String) : Prop :=
  match step with
  | .ofSegment _ source move => move = false ∧ name = source
  | .derive source _ what => what ≠ .copy ∧ name = source
  | .split source _ dest => dest ≠ none ∧ name = source
  | .change _ what => what.Shares name
  | .lend source _ inner => inner.Shares name ∧ name ≠ source
  | _ => False

/-! ## In place -/

/-- Whether a change overwrites text where it is. -/
def Change.inPlace : Change → Bool
  | .setAt _ _ | .replaceUnit _ _ | .lowerCase | .upperCase => true
  | _ => false

/-- Whether a step overwrites text where it is. -/
def Step.inPlace : Step → Bool
  | .change _ what => what.inPlace
  | .lend _ _ inner => inner.inPlace
  | _ => false

namespace World

variable {α : Type} {w w' : World α} {touched : String → Prop} {calm : Prop} {far : Cell → Prop}

/-! ## Arguments -/

theorem eq_of_take? {name : String} {o : Object} {rest : World α}
    (found : w.take? name = some (o, rest)) : w.get? name = some o ∧ rest = w.erase name := by
  obtain ⟨object, there, same⟩ := Option.map_eq_some_iff.1 found
  obtain ⟨rfl, rfl⟩ := Prod.mk.inj same
  exact ⟨there, rfl⟩

theorem take?_of_get? {name : String} {o : Object} (there : w.get? name = some o) :
    w.take? name = some (o, w.erase name) := by
  rw [take?, there]
  rfl

/-- An object shows the buffer that it is or holds. -/
theorem segments_of_buffer? {o : Object} {b : Buffer} (found : o.buffer? = some b) :
    o.segments = b.segments := by
  cases o with
  | segment s => cases found
  | buffer b | bounded b =>
      obtain rfl := Option.some.inj found
      rfl

theorem confined_takeSegment? {hand : List Segment} {source : String} {move : Bool} {s : Segment}
    {rest : World α} (u : Confined touched calm far w hand w')
    (touches : move = true → touched source)
    (avoids : w'.Avoids (fun name => move = false ∧ name = source) far)
    (found : w'.takeSegment? source move = some (s, rest)) :
    Confined touched calm far w (s :: hand) rest := by
  unfold takeSegment? at found
  obtain ⟨o, there, found⟩ := Option.bind_eq_some_iff.1 found
  obtain ⟨t, single, found⟩ := Option.bind_eq_some_iff.1 found
  obtain rfl : o = .segment t := by
    cases o with
    | segment s => rw [Option.some.inj single]
    | buffer b | bounded b => cases single
  cases move with
  | true =>
      obtain ⟨rfl, rfl⟩ := Prod.mk.inj (Option.some.inj found)
      exact u.take there (touches rfl)
  | false =>
      obtain ⟨rfl, rfl⟩ := Prod.mk.inj (Option.some.inj found)
      have here := List.mem_append_right hand (subset_alive_of_get? there List.mem_cons_self)
      have shared : ∀ v ∈ [t.shared], ∃ s ∈ (Object.segment t).segments, v.Views s := by
        intro v shown
        obtain rfl := List.mem_singleton.1 shown
        have ordered := (u.hosts.placed t here).valid.start_le_stop
        exact ⟨t, List.mem_cons_self, Segment.views_shared ordered⟩
      exact u.share there (avoids source _ ⟨rfl, rfl⟩ there) shared

/-- An argument that is taken out of its register is not shared. -/
theorem avoids_moved (w : World α) (source : String) :
    w.Avoids (fun name => true = false ∧ name = source) far :=
  fun _ _ shared => nomatch shared.1

/-- The buffer that an object is or holds is shared. -/
theorem confined_shared {hand : List Segment} {source : String} {o : Object} {b : Buffer}
    (u : Confined touched calm far w hand w') (there : w'.get? source = some o)
    (avoids : ∀ s ∈ o.segments, s.Avoids far) (shown : o.buffer? = some b) :
    Confined touched calm far w (b.shared.segments ++ hand) w' := by
  have hosts : w'.store.Hosts o.segments := (hosts_taken u.hosts there).right.left
  exact u.share there avoids
    (Buffer.views_shared hosts fun s here => segments_of_buffer? shown ▸ here)

theorem confined_takeBuffer? {hand : List Segment} {source : String} {move : Bool} {b : Buffer}
    {rest : World α} (u : Confined touched calm far w hand w')
    (touches : move = true → touched source)
    (avoids : w'.Avoids (fun name => move = false ∧ name = source) far)
    (found : w'.takeBuffer? source move = some (b, rest)) :
    Confined touched calm far w (b.segments ++ hand) rest := by
  unfold takeBuffer? at found
  obtain ⟨o, there, found⟩ := Option.bind_eq_some_iff.1 found
  cases move with
  | true =>
      obtain ⟨inner, plain, found⟩ := Option.bind_eq_some_iff.1 found
      obtain rfl : o = .buffer inner := by
        cases o with
        | buffer b => rw [Option.some.inj plain]
        | segment s | bounded b => cases plain
      obtain ⟨rfl, rfl⟩ := Prod.mk.inj (Option.some.inj found)
      exact u.take there (touches rfl)
  | false =>
      obtain ⟨inner, shown, found⟩ := Option.bind_eq_some_iff.1 found
      obtain ⟨rfl, rfl⟩ := Prod.mk.inj (Option.some.inj found)
      exact confined_shared u there (avoids source o ⟨rfl, rfl⟩ there) shown

variable [TextUnit α]

/-! ## Resolving a change -/

theorem fair_tableProvider (entries : List (String × String)) (fallback : String) (form : TextForm) :
    (tableProvider entries fallback form : Provider α).Fair [] := by
  intro n inner st live _ hosts
  unfold tableProvider
  cases form with
  | text => exact Buffer.undisturbed_ofText hosts.right _
  | units => exact Buffer.undisturbed_ofUnits hosts.right _

theorem confined_provider? {values : Values} {provider : Provider α} {resolved : World α}
    (u : Confined touched calm far w [] w') (avoids : w'.Avoids values.Shares far)
    (found : w'.provider? values = some (provider, resolved)) :
    Confined touched calm far w [] resolved := by
  cases values with
  | table entries fallback form =>
      obtain ⟨rfl, rfl⟩ := Prod.mk.inj (Option.some.inj found)
      exact u
  | same =>
      obtain ⟨rfl, rfl⟩ := Prod.mk.inj (Option.some.inj found)
      exact u
  | register name =>
      obtain ⟨o, there, found⟩ := Option.bind_eq_some_iff.1 found
      obtain ⟨b, shown, found⟩ := Option.bind_eq_some_iff.1 found
      obtain ⟨rfl, rfl⟩ := Prod.mk.inj (Option.some.inj found)
      exact (confined_shared u there (avoids name o rfl there) shown).setAside

/-- A provider is fair as long as what has been set aside for it is alive. -/
theorem fair_provider? {values : Values} {provider : Provider α} {resolved : World α}
    (u : Confined touched calm far w [] w') (avoids : w'.Avoids values.Shares far)
    (found : w'.provider? values = some (provider, resolved)) :
    ∃ relied, relied ⊆ resolved.aside ∧ (∀ s ∈ relied, s.Avoids far) ∧ provider.Fair relied := by
  cases values with
  | table entries fallback form =>
      obtain ⟨rfl, rfl⟩ := Prod.mk.inj (Option.some.inj found)
      exact ⟨[], List.nil_subset _, nofun, fair_tableProvider entries fallback form⟩
  | same =>
      obtain ⟨rfl, rfl⟩ := Prod.mk.inj (Option.some.inj found)
      exact ⟨[], List.nil_subset _, nofun, Provider.fair_same⟩
  | register name =>
      obtain ⟨o, there, found⟩ := Option.bind_eq_some_iff.1 found
      obtain ⟨b, shown, found⟩ := Option.bind_eq_some_iff.1 found
      obtain ⟨rfl, rfl⟩ := Prod.mk.inj (Option.some.inj found)
      have clear := (confined_shared u there (avoids name o rfl there) shown).clear
      rw [List.append_nil] at clear
      exact ⟨b.shared.segments, List.subset_append_left _ _, clear, Provider.fair_shared b⟩

theorem confined_replacement? {replacement : Replacement} {b : Buffer} {resolved : World α}
    (u : Confined touched calm far w [] w')
    (touches : ∀ name, replacement.Uses name → touched name)
    (avoids : w'.Avoids replacement.Shares far)
    (found : w'.replacement? replacement = some (b, resolved)) :
    Confined touched calm far w b.segments resolved := by
  cases replacement with
  | register name move =>
      have taken := confined_takeBuffer? u (fun moves => touches name ⟨moves, rfl⟩) avoids found
      rwa [List.append_nil] at taken
  | text text form =>
      obtain ⟨rfl, rfl⟩ := Prod.mk.inj (Option.some.inj found)
      cases form with
      | text => exact u.act fun _ company => Buffer.undisturbed_ofText company.hosts text
      | units => exact u.act fun _ company => Buffer.undisturbed_ofUnits company.hosts _

/-- An edit overwrites text where it is if the change that it comes from does. -/
theorem inPlace_edit? {change : Change} {edit : Edit α} {resolved : World α}
    (found : w.edit? change = some (edit, resolved)) : edit.inPlace = change.inPlace := by
  cases change
  case appendSegment source move | prependSegment source move =>
    obtain ⟨taken, -, found⟩ := Option.bind_eq_some_iff.1 found
    obtain ⟨rfl, -⟩ := Prod.mk.inj (Option.some.inj found)
    rfl
  case appendBuffer source =>
    obtain ⟨o, -, found⟩ := Option.bind_eq_some_iff.1 found
    obtain ⟨b, -, found⟩ := Option.bind_eq_some_iff.1 found
    obtain ⟨rfl, -⟩ := Prod.mk.inj (Option.some.inj found)
    rfl
  case appendWindow | replaceRange | substitute =>
    obtain ⟨taken, -, found⟩ := Option.bind_eq_some_iff.1 found
    obtain ⟨rfl, -⟩ := Prod.mk.inj (Option.some.inj found)
    rfl
  case appendOwned | moveForward | reserve => cases found
  all_goals
    obtain ⟨rfl, -⟩ := Prod.mk.inj (Option.some.inj found)
    rfl

/-- An edit of the object in a register relies on nothing but what is alive and avoids the cells. -/
def Relies (far : Cell → Prop) (edit : Edit α) (w : World α) (target : String) : Prop :=
  ∀ o others, w.get? target = some o →
    (∀ s ∈ (w.erase target).alive, s.Avoids far → s ∈ others) → edit.Fits o.segments others

/-- A change is resolved to an edit. -/
theorem confined_edit? {change : Change} {edit : Edit α} {resolved : World α}
    (u : Confined touched calm far w [] w') (touches : ∀ name, change.Uses name → touched name)
    (avoids : w'.Avoids change.Shares far) (found : w'.edit? change = some (edit, resolved)) :
    Confined touched calm far w edit.windows resolved ∧
      ∀ target, Relies far edit resolved target := by
  have nothing : ∀ {edit : Edit α} {resolved : World α}, (∀ own others, edit.Fits own others) →
      ∀ target, Relies far edit resolved target := fun free _ _ _ _ _ => free _ _
  cases change
  case appendSegment source move | prependSegment source move =>
    obtain ⟨⟨s, rest⟩, taken, found⟩ := Option.bind_eq_some_iff.1 found
    obtain ⟨rfl, rfl⟩ := Prod.mk.inj (Option.some.inj found)
    have out := confined_takeSegment? u (fun moves => touches source ⟨moves, rfl⟩) avoids taken
    exact ⟨out, nothing fun _ _ => trivial⟩
  case appendBuffer source =>
    obtain ⟨other, behind, found⟩ := Option.bind_eq_some_iff.1 found
    obtain ⟨b, shown, found⟩ := Option.bind_eq_some_iff.1 found
    obtain ⟨rfl, rfl⟩ := Prod.mk.inj (Option.some.inj found)
    refine ⟨u, fun target o others there alive => ?_⟩
    show b.segments ⊆ o.segments ++ others
    rw [← segments_of_buffer? shown]
    intro s here
    by_cases same : source = target
    · rw [same, there] at behind
      obtain rfl := Option.some.inj behind
      exact List.mem_append_left _ here
    · have kept : (w'.erase target).get? source = some other := by
        rw [get?_erase, if_neg same, behind]
      exact List.mem_append_right _
        (alive s (subset_alive_of_get? kept here) (avoids source other rfl behind s here))
  case appendWindow source i =>
    obtain ⟨⟨units, rest⟩, lent, found⟩ := Option.bind_eq_some_iff.1 found
    obtain ⟨rfl, rfl⟩ := Prod.mk.inj (Option.some.inj found)
    obtain ⟨o, -, lent⟩ := Option.bind_eq_some_iff.1 lent
    obtain ⟨s, -, lent⟩ := Option.bind_eq_some_iff.1 lent
    obtain ⟨rfl, rfl⟩ := Prod.mk.inj (Option.some.inj lent)
    exact ⟨u.lending _, nothing fun _ _ => trivial⟩
  case replaceRange start' stop replacement =>
    obtain ⟨⟨b, rest⟩, taken, found⟩ := Option.bind_eq_some_iff.1 found
    obtain ⟨rfl, rfl⟩ := Prod.mk.inj (Option.some.inj found)
    exact ⟨confined_replacement? u touches avoids taken, nothing fun _ _ => trivial⟩
  case substitute opening closing values =>
    obtain ⟨⟨provider, rest⟩, provided, found⟩ := Option.bind_eq_some_iff.1 found
    obtain ⟨rfl, rfl⟩ := Prod.mk.inj (Option.some.inj found)
    refine ⟨confined_provider? u avoids provided, fun target o others there alive => ?_⟩
    obtain ⟨relied, aside, clear, fair⟩ := fair_provider? u avoids provided
    have kept : relied ⊆ others := fun s here =>
      alive s (List.mem_append_right _ (aside here)) (clear s here)
    exact ⟨relied, kept, fair⟩
  case appendOwned | moveForward | reserve => cases found
  all_goals
    obtain ⟨rfl, rfl⟩ := Prod.mk.inj (Option.some.inj found)
    exact ⟨u, nothing fun _ _ => trivial⟩

/-- A change has been resolved to an edit: its arguments are out of the table and everything else is
as it was, and what the edit shares is alive, in the object that is changed or beside it. -/
structure Resolves (touched : String → Prop) (calm : Prop) (w : World α) (change : Change)
    (edit : Edit α) (resolved : World α) : Prop where
  underway : Underway touched calm w edit.windows resolved
  fits : ∀ target o, resolved.get? target = some o →
    edit.Fits o.segments (resolved.erase target).alive
  inPlace : edit.inPlace = change.inPlace

theorem resolves_edit? {change : Change} {edit : Edit α} {resolved : World α} (sound : w.Sound)
    (touches : ∀ name, change.Uses name → touched name)
    (found : w.edit? change = some (edit, resolved)) :
    Resolves touched calm w change edit resolved := by
  obtain ⟨out, relies⟩ := confined_edit? (.of_underway (.refl sound)) touches (avoids_none w _)
    found
  exact ⟨out.toUnderway, fun target o there =>
    relies target o _ there fun _ here _ => here,
    inPlace_edit? found⟩

/-! ## Changing -/

theorem applyEdit_of_get? {target : String} {o : Object} (there : w.get? target = some o)
    (edit : Edit α) :
    w.applyEdit target edit = (o.apply (w.erase target).surroundings w.store edit).map
      ((w.erase target).putEdited target) := by
  rw [applyEdit, take?_of_get? there, Option.map_eq_bind]
  rfl

/-- An edit of the object in a register. -/
theorem confined_applyEdit {target : String} {edit : Edit α} {after : World α} {answer : Answer}
    (u : Confined touched calm far w edit.windows w') (relies : Relies far edit w' target)
    (touches : touched target) (quiet : calm → edit.inPlace = false)
    (done : w'.applyEdit target edit = some (after, answer)) :
    Confined touched calm far w [] after := by
  obtain ⟨⟨o, rest⟩, taken, done⟩ := Option.bind_eq_some_iff.1 done
  obtain ⟨r, applied, done⟩ := Option.bind_eq_some_iff.1 done
  obtain ⟨rfl, rfl⟩ := Prod.mk.inj (Option.some.inj done)
  obtain ⟨there, rfl⟩ := eq_of_take? taken
  have out := (u.take there touches).subperm List.perm_append_comm.subperm
  have hosts : ∀ {others}, Company far (w'.erase target) (edit.windows ++ o.segments) others →
      w'.store.Hosts (edit.windows ++ (o.segments ++ others)) := fun company => by
    rw [← List.append_assoc]
    exact company.hosts
  have calmly : edit.inPlace = false →
      w'.store.Keeps r.store (w'.erase target).alive := fun still =>
    let company := out.company_alive
    (Object.undisturbed_apply (hosts company) (relies o _ there company.alive)
      company.covers still applied).keeps
  have ordered : ∀ s ∈ o.segments, s.stop ≤ s.limit := fun s here =>
    (out.hosts.placed s (List.mem_append_left _ (List.mem_append_right _ here))).valid.stop_le_limit
  have worked : Confined touched calm far w r.object.segments
      ((w'.erase target).withStore r.store) := by
    refine out.work (fun others company => ?_) (fun still => calmly (quiet still)) fun c here => ?_
    · exact Object.hosts_apply (hosts company) (relies o others there company.alive)
        company.covers applied
    · cases inPlace : edit.inPlace with
      | false => exact out.units_of_keeps (calmly inPlace) here
      | true =>
          exact Object.unit?_apply_of_inPlace inPlace ordered
            (fun s shown => out.clear s (List.mem_append_right _ shown) c here) applied
  exact worked.putAll touches

theorem underway_applyEdit {target : String} {edit : Edit α} {after : World α} {answer : Answer}
    (u : Underway touched calm w edit.windows w')
    (fits : ∀ o, w'.get? target = some o → edit.Fits o.segments (w'.erase target).alive)
    (touches : touched target) (quiet : calm → edit.inPlace = false)
    (done : w'.applyEdit target edit = some (after, answer)) :
    Underway touched calm w [] after :=
  (confined_applyEdit (.of_underway u)
    (fun o _ there alive => (fits o there).widen fun s here => alive s here fun _ none => none.elim)
    touches quiet done).toUnderway

/-- The changes that only some objects have. -/
theorem confined_changeSpecial {target : String} {o : Object} {change : Change}
    (u : Confined touched calm far w o.segments w') (touches : touched target)
    (uses : ∀ name, change.Uses name → touched name) :
    Confined touched calm far w [] (w'.changeSpecial target o change).1 := by
  unfold changeSpecial
  split
  next count s =>
    split
    next moved done =>
      have out : Confined touched calm far w (Object.segment moved).segments w' :=
        u.rearrange fun _ company => Segment.hosts_moveForward company.hosts done
      exact out.putAll touches
    next => exact u.putAll touches
  next additional s =>
    split
    next moved st done =>
      have out : Confined touched calm far w (Object.segment moved).segments (w'.withStore st) :=
        u.act fun _ company => Segment.undisturbed_reserve company.hosts done
      exact out.putAll touches
    next => exact u.putAll touches
  next source b =>
    split
    next => exact u.putAll touches
    next other rest taken =>
      have both := confined_takeBuffer? u (fun _ => uses source rfl) (avoids_moved w' source) taken
      split
      next b' done =>
        have out : Confined touched calm far w (Object.buffer b').segments rest :=
          both.rearrange fun others company =>
            Buffer.hosts_appendOwned ((List.append_assoc _ _ _) ▸ company.hosts) done
        exact out.putAll touches
      next =>
        have kept : Confined touched calm far w (Object.buffer b).segments rest :=
          both.subperm (List.sublist_append_right _ _).subperm
        exact kept.putAll touches
  next => exact u.putAll touches

theorem underway_changeSpecial {target : String} {o : Object} {change : Change}
    (u : Underway touched calm w o.segments w') (touches : touched target)
    (uses : ∀ name, change.Uses name → touched name) :
    Underway touched calm w [] (w'.changeSpecial target o change).1 :=
  (confined_changeSpecial (.of_underway u) touches uses).toUnderway

theorem confined_change {target : String} {change : Change}
    (start : Confined touched calm far w [] w) (touches : touched target)
    (uses : ∀ name, change.Uses name → touched name) (avoids : w.Avoids change.Shares far)
    (quiet : calm → change.inPlace = false) :
    Confined touched calm far w [] (w.change target change).1 := by
  unfold World.change
  split
  next => exact start
  next object rest taken =>
    obtain ⟨there, rfl⟩ := eq_of_take? taken
    split
    next =>
      have out := start.take there touches
      rw [List.append_nil] at out
      exact confined_changeSpecial out touches uses
    next edit resolved found =>
      split
      next => exact start
      next after answer done =>
        obtain ⟨out, relies⟩ := confined_edit? start uses avoids found
        have edited := confined_applyEdit out (relies target) touches
          (fun still => (inPlace_edit? found).trans (quiet still)) done
        exact edited.restore w.lent

/-! ## Making and deriving -/

theorem confined_make (u : Confined touched calm far w [] w') {dest : String}
    (touches : touched dest) (what : Make) :
    Confined touched calm far w [] (w'.make dest what).1 := by
  unfold make
  split
  next object st done =>
    have made : Confined touched calm far w object.segments (w'.withStore st) :=
      u.act fun _ company => undisturbed_make company.hosts done
    exact made.putAll touches
  next => exact u

omit [TextUnit α] in
theorem confined_ofSegment (u : Confined touched calm far w [] w') {dest source : String}
    {move : Bool} (touches : touched dest) (moves : move = true → touched source)
    (avoids : w'.Avoids (fun name => move = false ∧ name = source) far) :
    Confined touched calm far w [] (w'.ofSegment dest source move).1 := by
  unfold ofSegment
  split
  next s rest taken =>
    have out := confined_takeSegment? u moves avoids taken
    have made : Confined touched calm far w (Object.buffer (Buffer.ofSegment s)).segments rest :=
      out.subperm (Buffer.subperm_ofSegment s)
    exact made.putAll touches
  next => exact u

omit [TextUnit α] in
theorem confined_bound (u : Confined touched calm far w [] w') {dest source : String}
    (touches : touched dest) (uses : touched source) (maxSize : Nat) :
    Confined touched calm far w [] (w'.bound dest source maxSize).1 := by
  unfold bound
  split
  next b rest taken =>
    have out := confined_takeBuffer? u (fun _ => uses) (avoids_moved w' source) taken
    rw [List.append_nil] at out
    have made : Confined touched calm far w
        (Object.bounded (Bounded.ofBuffer b maxSize rest.surroundings)).segments rest :=
      out.rearrange fun _ company =>
        Bounded.hosts_truncate (b := ⟨b, maxSize, b.length⟩) company.hosts company.covers
    exact made.putAll touches
  next => exact u

omit [TextUnit α] in
theorem confined_unbound (u : Confined touched calm far w [] w') {source dest : String}
    (uses : touched source) (touches : touched dest) :
    Confined touched calm far w [] (w'.unbound source dest).1 := by
  unfold unbound
  split
  next b rest taken =>
    obtain ⟨there, rfl⟩ := eq_of_take? taken
    have out := u.take there uses
    rw [List.append_nil] at out
    have made : Confined touched calm far w (Object.buffer b.inner).segments (w'.erase source) :=
      out
    exact made.putAll touches
  next => exact u

omit [TextUnit α] in
/-- A buffer that has been read has its windows to itself. -/
theorem confined_putRead {ε : Type} {refuse : ε → Answer} {r : Except ε (Buffer × Store α)}
    {dest : String} (u : Confined touched calm far w [] w') (touches : touched dest)
    (fresh : ∀ {others} made, w'.store.Hosts others → r = .ok made →
      Undisturbed others w'.store made.1.segments made.2) :
    Confined touched calm far w [] (w'.putRead dest refuse r).1 := by
  unfold putRead
  split
  next b st =>
    have made : Confined touched calm far w (Object.buffer b).segments (w'.withStore st) :=
      u.act fun _ company => fresh (b, st) company.hosts rfl
    exact made.putAll touches
  next => exact u

theorem confined_derive (u : Confined touched calm far w [] w') {source dest : String}
    {what : Derive} (touches : touched dest)
    (avoids : w'.Avoids (fun name => what ≠ .copy ∧ name = source) far) :
    Confined touched calm far w [] (w'.derive source dest what).1 := by
  unfold derive
  split
  next object st done =>
    obtain ⟨o, there, derived⟩ := Option.bind_eq_some_iff.1 done
    have made : Confined touched calm far w object.segments (w'.withStore st) := by
      refine u.act fun others company => ?_
      by_cases copies : what = .copy
      · subst copies
        exact undisturbed_copied company.hosts derived
      · have clear := avoids source o ⟨copies, rfl⟩ there
        exact undisturbed_derive company.hosts
          (fun s here => company.alive s (subset_alive_of_get? there here) (clear s here)) derived
    exact made.putAll touches
  next => exact u
  next => exact u

omit [TextUnit α] in
theorem confined_putPieces {dest : String} {pieces : List Object} {i : Nat}
    (u : Confined touched calm far w (pieces.flatMap Object.segments) w')
    (touches : ∀ i : Nat, touched (dest ++ toString i)) :
    Confined touched calm far w [] (w'.putPieces dest i pieces) := by
  induction pieces generalizing i w' with
  | nil => exact u
  | cons piece rest ih => exact ih (u.put (touches i))

theorem confined_split (u : Confined touched calm far w [] w') {source : String} {c : Char}
    {dest : Option String}
    (touches : ∀ kept (i : Nat), dest = some kept → touched (kept ++ toString i))
    (avoids : w'.Avoids (fun name => dest ≠ none ∧ name = source) far) :
    Confined touched calm far w [] (w'.split source c dest).1 := by
  unfold split
  split
  next => exact u
  next o there =>
    have alive := subset_alive_of_get? there
    cases dest with
    | some kept =>
        have clear := avoids source o ⟨nofun, rfl⟩ there
        have cut : Confined touched calm far w ((o.split c w'.store).1.flatMap Object.segments)
            (w'.withStore (o.split c w'.store).2) :=
          u.act fun _ company => undisturbed_split company.hosts
            (fun s here => company.alive s (alive here) (clear s here)) c
        exact confined_putPieces cut fun i => touches kept i rfl
    | none => exact u.discard (undisturbed_split u.hosts alive c)

omit [TextUnit α] in
theorem confined_drop (u : Confined touched calm far w [] w') {target : String}
    (touches : touched target) : Confined touched calm far w [] (w'.drop target).1 := by
  unfold drop
  split
  next => exact u.erase touches
  next => exact u

/-! ## Streams -/

/-- Filling the buffer of a register, which is made if there is none. -/
theorem confined_readIntoSink (u : Confined touched calm far w [] w') (r : Reader α)
    (delimiter : α) {sink : String} (touches : touched sink) :
    Confined touched calm far w [] (w'.readIntoSink r delimiter sink).2.1 := by
  have pour : ∀ {b : Buffer} {rest : World α}, Confined touched calm far w b.segments rest →
      Confined touched calm far w [] ((rest.withStore
        (r.readUntil delimiter rest.surroundings b rest.store).2.store).put sink
        (.buffer (r.readUntil delimiter rest.surroundings b rest.store).2.object)) := by
    intro b rest out
    have poured : Confined touched calm far w
        (Object.buffer (r.readUntil delimiter rest.surroundings b rest.store).2.object).segments
        (rest.withStore (r.readUntil delimiter rest.surroundings b rest.store).2.store) :=
      out.act fun _ company => undisturbed_readUntil company.hosts
    exact poured.putAll touches
  unfold readIntoSink
  cases taken : w'.take? sink with
  | none =>
      have empty : Confined touched calm far w ({} : Buffer).segments w' := u
      exact pour empty
  | some entry =>
      obtain ⟨o, rest⟩ := entry
      obtain ⟨there, rfl⟩ := eq_of_take? taken
      have out := u.take there touches
      rw [List.append_nil] at out
      cases o with
      | buffer b => exact pour out
      | segment s | bounded b => exact u

theorem underway_readIntoSink (sound : w.Sound) (r : Reader α) (delimiter : α) (sink : String) :
    Underway (· = sink) calm w [] (w.readIntoSink r delimiter sink).2.1 :=
  have start : Underway (· = sink) calm w [] w := .refl sound
  (confined_readIntoSink (.of_underway start) r delimiter rfl).toUnderway

theorem confined_readOne (u : Confined touched calm far w [] w') (r : Reader α)
    {action : ReadAction} (fills : ∀ name, action.Fills name → touched name) :
    Confined touched calm far w [] (w'.readOne r action).2.1 := by
  cases action with
  | readUntil c sink handover =>
      exact confined_readIntoSink u r (TextUnit.ofChar c) (fills sink rfl)
  | read handover =>
      simp only [readOne]
      split <;> exact u
  | readInto | back | remaining | sizeHint | take | rest => exact u

theorem underway_readOne (sound : w.Sound) (r : Reader α) (action : ReadAction) :
    Underway action.Fills calm w [] (w.readOne r action).2.1 :=
  (confined_readOne (.of_underway (.refl sound)) r fun _ fills => fills).toUnderway

theorem confined_readAll (u : Confined touched calm far w [] w') (r : Reader α)
    {actions : List ReadAction}
    (fills : ∀ name, (∃ action ∈ actions, action.Fills name) → touched name) :
    Confined touched calm far w [] (w'.readAll r actions).1 := by
  induction actions generalizing w' r with
  | nil => exact u
  | cons action rest ih =>
      have first := confined_readOne u r fun name here =>
        fills name ⟨action, List.mem_cons_self, here⟩
      rw [readAll]
      split
      next done =>
        rw [done] at first
        exact first
      next r' after outcome done =>
        rw [done] at first
        exact ih first r' fun name ⟨a, here, there⟩ =>
          fills name ⟨a, List.mem_cons_of_mem _ here, there⟩

/-- A read touches the registers that it fills, unless it reads from them itself, and the register
that it reads from only if it is refused on its way. -/
theorem touches_read {source : String} {actions : List ReadAction}
    (kept : ∀ fault, (w.read source actions).2 ≠ .fault fault) :
    (Step.read source actions).Touches w =
      fun name => (∃ action ∈ actions, action.Fills name) ∧ name ≠ source := by
  funext name
  rw [Step.Touches]
  by_cases same : name = source
  · simp [same, kept]
  · simp [same]

theorem confined_read {source : String} {actions : List ReadAction}
    (start : Confined ((Step.read source actions).Touches w) calm far w [] w) :
    Confined ((Step.read source actions).Touches w) calm far w [] (w.read source actions).1 := by
  by_cases kept : ∀ fault, (w.read source actions).2 ≠ .fault fault
  · rw [touches_read kept] at start ⊢
    revert kept
    unfold read
    split
    next => exact fun _ => start
    next o rest taken =>
      obtain ⟨there, rfl⟩ := eq_of_take? taken
      split
      next => exact fun _ => start
      next b shown =>
        have inside := start.settingAside there w.lent
        have used := confined_readAll inside (.ofBuffer b) fun _ fills => fills
        dsimp only
        split
        next => exact fun _ => start.putBack there used
        next fault _ => exact fun kept => (kept fault rfl).elim
  · obtain ⟨fault, refused⟩ := not_forall_not.1 kept
    -- The object does not go back, so its register counts as touched from the start.
    have lost : (Step.read source actions).Touches w source := by
      rw [Step.Touches, if_pos rfl]
      exact ⟨fault, refused⟩
    have fills : ∀ name, (∃ action ∈ actions, action.Fills name) →
        (Step.read source actions).Touches w name := by
      intro name filled
      by_cases same : name = source
      · exact same ▸ lost
      · rwa [Step.Touches, if_neg same]
    generalize (Step.read source actions).Touches w = touched at start lost fills ⊢
    revert refused
    unfold read
    split
    next => exact fun _ => start
    next o rest taken =>
      obtain ⟨there, rfl⟩ := eq_of_take? taken
      split
      next => exact fun _ => start
      next b shown =>
        have inside := (start.take there lost).setAside
        have used := confined_readAll inside (.ofBuffer b) fills
        dsimp only
        split
        next => exact fun refused => by cases refused
        next => exact fun _ => used.restore _

theorem underway_read (sound : w.Sound) (source : String) (actions : List ReadAction) :
    Underway ((Step.read source actions).Touches w) calm w [] (w.read source actions).1 :=
  (confined_read (.of_underway (.refl sound))).toUnderway

theorem undisturbed_writeOne {writer : Writer} {st : Store α} {action : WriteAction}
    {r : Edited Writer α Unit} {live : List Segment}
    (hosts : st.Hosts (writer.buffer.segments ++ live))
    (done : w.writeOne writer st action = some r) :
    Undisturbed live st r.object.buffer.segments r.store := by
  cases action with
  | write c =>
      cases done
      exact Writer.undisturbed_write _ hosts _
  | writeSlice text =>
      cases done
      exact Writer.undisturbed_counting (Buffer.undisturbed_appendSlice _ hosts _)
  | writeText text =>
      cases done
      exact Writer.undisturbed_counting (Buffer.undisturbed_appendText _ hosts _)
  | flush =>
      cases done
      exact .refl hosts
  | showObject source =>
      obtain ⟨o, -, done⟩ := Option.bind_eq_some_iff.1 done
      cases done
      exact Writer.undisturbed_showSegments _ hosts _
  | writeObjectChars source =>
      obtain ⟨o, -, done⟩ := Option.bind_eq_some_iff.1 done
      cases done
      exact Writer.undisturbed_writeChars _ hosts _
  | writeChars text =>
      cases done
      exact Writer.undisturbed_writeChars _ hosts _

theorem undisturbed_writeAll {writer : Writer} {st : Store α} {actions : List WriteAction}
    {live : List Segment} (hosts : st.Hosts (writer.buffer.segments ++ live)) :
    Undisturbed live st (w.writeAll writer st actions).1.buffer.segments
      (w.writeAll writer st actions).2.1 := by
  induction actions generalizing writer st with
  | nil => exact .refl hosts
  | cons action rest ih =>
      rw [writeAll]
      split
      next => exact .refl hosts
      next r done =>
        have first := undisturbed_writeOne hosts done
        split
        next => exact first
        next => exact first.trans (ih first.hosts)

theorem confined_write (u : Confined touched calm far w [] w') {target : String}
    (touches : touched target) (actions : List WriteAction) :
    Confined touched calm far w [] (w'.write target actions).1 := by
  unfold write
  split
  next b rest taken =>
    obtain ⟨there, rfl⟩ := eq_of_take? taken
    have out := u.take there touches
    rw [List.append_nil] at out
    have written : ∀ others, Company far (w'.erase target) b.segments others →
        Undisturbed others (w'.erase target).store
          ((w'.erase target).writeAll ⟨b, 0⟩ (w'.erase target).store actions).1.buffer.segments
          ((w'.erase target).writeAll ⟨b, 0⟩ (w'.erase target).store actions).2.1 :=
      fun others company => undisturbed_writeAll company.hosts
    dsimp only
    split
    next => exact (out.act written).putAll touches
    next => exact (out.act written).subperm List.nil_subperm
    next => exact (out.act written).putAll touches
  next => exact u

theorem underway_write (sound : w.Sound) (target : String) (actions : List WriteAction) :
    Underway (· = target) calm w [] (w.write target actions).1 :=
  have start : Underway (· = target) calm w [] w := .refl sound
  (confined_write (.of_underway start) rfl actions).toUnderway

/-! ## All steps -/

/-- A step runs while a window is lent out, with the object of the window set aside. -/
theorem step_lend {source : String} {i : Nat} (inner : Step) {o : Object} {s : Segment}
    (there : w.get? source = some o) (found : o.segmentAt? i = some s) :
    w.step (.lend source i inner) =
      ({ ((w.settingAside source o (s.storage :: w.lent)).step inner).1 with
          aside := w.aside, lent := w.lent }.put source o,
        ((w.settingAside source o (s.storage :: w.lent)).step inner).2) := by
  rw [World.step, take?, there]
  dsimp only [Option.map_some]
  rw [found]
  rfl

theorem step_lend_of_none {source : String} {i : Nat} {inner : Step}
    (none : (w.get? source).bind (·.segmentAt? i) = none) :
    w.step (.lend source i inner) = (w, .malformed) := by
  rw [World.step, take?]
  cases there : w.get? source with
  | none => rfl
  | some o =>
      rw [there] at none
      have absent : o.segmentAt? i = Option.none := none
      dsimp only [Option.map_some]
      rw [absent]

/-- A step that runs while a window is lent out touches what it touches while the object of the
window is set aside. -/
theorem touches_lend {source : String} {i : Nat} {inner : Step} {o : Object} {s : Segment}
    (there : w.get? source = some o) (found : o.segmentAt? i = some s) :
    (Step.lend source i inner).Touches w = fun name =>
      inner.Touches (w.settingAside source o (s.storage :: w.lent)) name ∧ name ≠ source := by
  funext name
  simp [Step.Touches, there, found, and_comm]

/-- **A step that begins away from cells, and shares nothing that reaches them, keeps away from
them.** -/
theorem confined_step (step : Step)
    (start : Confined (step.Touches w) (step.inPlace = false) far w [] w)
    (avoids : w.Avoids step.Shares far) :
    Confined (step.Touches w) (step.inPlace = false) far w [] (w.step step).1 := by
  induction step generalizing w with
  | make dest what => exact confined_make start rfl what
  | ofSegment dest source move =>
      exact confined_ofSegment start (.inl rfl) (fun moves => .inr ⟨moves, rfl⟩) avoids
  | bound dest source maxSize => exact confined_bound start (.inl rfl) (.inr rfl) maxSize
  | unbound source dest => exact confined_unbound start (.inr rfl) (.inl rfl)
  | ofJson dest json =>
      exact confined_putRead start rfl fun made hosts done => Buffer.undisturbed_ofJson hosts done
  | ofValue dest value =>
      exact confined_putRead start rfl fun made hosts done => Buffer.undisturbed_ofValue hosts done
  | ask source query => exact start
  | derive source dest what => exact confined_derive start rfl avoids
  | split source c dest =>
      exact confined_split start (fun kept i named => ⟨kept, i, named, rfl⟩) avoids
  | change target what =>
      exact confined_change start (.inl rfl) (fun name uses => .inr uses) avoids id
  | drop target => exact confined_drop start rfl
  | read source actions => exact confined_read start
  | write target actions => exact confined_write start rfl actions
  | drain source job => exact start
  | lend source i inner ih =>
      rw [World.step]
      split
      next => exact start
      next o rest taken =>
        obtain ⟨there, rfl⟩ := eq_of_take? taken
        split
        next => exact start
        next s found =>
          rw [touches_lend there found] at start ⊢
          have inside := start.settingAside there (s.storage :: (w.erase source).lent)
          refine start.putBack there (ih inside ?_)
          intro other o' shares found'
          have behind := (get?_erase w source other).symm.trans found'
          split at behind
          next => cases behind
          next apart => exact avoids other o' ⟨shares, apart⟩ behind

/-- **Every step keeps a world sound, and shows in no register that it does not touch.** -/
theorem underway_step (sound : w.Sound) (step : Step) :
    Underway (step.Touches w) (step.inPlace = false) w [] (w.step step).1 :=
  (confined_step step (.of_underway (.refl sound)) (avoids_none w _)).toUnderway

end World

end SegmentedText
