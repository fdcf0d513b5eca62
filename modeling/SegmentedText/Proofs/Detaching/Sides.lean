import Mathlib.Data.Set.Insert
import Mathlib.Order.BooleanAlgebra.Set
import SegmentedText.Proofs.Ownership.Reached

/-!
# Two sides of a world

A set of registers has a border: some objects are in it and all others are beyond it.  The
world is parted there if no cell is reached from both sides (`World.Parted`).

An action that touches one side of the border does not show on the other, not even if it
overwrites text in place (`World.unseen_act`).  And the world stays parted, as long as the
action makes no alias across the border (`World.parted_act`): it shares no window from
beyond, neither of a register nor from outside of the table, or what it shares turns out to
reach nothing that is shown there.

Runs of such actions, on either side by turns, therefore keep the world parted
(`World.Runs.parted`), and those on one side never show on the other (`World.Runs.unseen`).
-/

set_option autoImplicit false

namespace SegmentedText

variable {α : Type}

/-! ## Borders -/

/-- A cell that an object beyond the part reaches. -/
def World.Beyond (w : World α) (part : Set String) (c : Cell) : Prop :=
  ∃ name o s, name ∉ part ∧ w.get? name = some o ∧ s ∈ o.segments ∧ s.Reaches c

/-- No cell is reached both from within the part and from beyond it. -/
def World.Parted (w : World α) (part : Set String) : Prop := w.Avoids (· ∈ part) (w.Beyond part)

theorem World.Parted.compl {w : World α} {part : Set String} (parted : w.Parted part) :
    w.Parted partᶜ := by
  rintro name o outside there s here c ⟨other, o', t, inside, there', here', reached'⟩ reached
  exact parted other o' (not_not.1 inside) there' t here' c
    ⟨name, o, s, outside, there, here, reached⟩ reached'

/-- What shares no array across the border reaches no cell from both sides. -/
theorem World.parted_of_storage_ne {w : World α} {part : Set String}
    (apart : ∀ name o s other o' t, name ∈ part → w.get? name = some o → s ∈ o.segments →
      other ∉ part → w.get? other = some o' → t ∈ o'.segments → s.storage ≠ t.storage) :
    w.Parted part := by
  rintro name o inside there s here c ⟨other, o', t, outside, there', here', reached'⟩ reached
  exact apart name o s other o' t inside there here outside there' here'
    (reached.1.symm.trans reached'.1)

/-- A fair action on a part of the registers that makes no alias across the border of the part. -/
structure Action.KeepsTo [TextUnit α] (part : Set String) (w : World α) (action : Action α) :
    Prop where
  fair : action.Fair w
  touches : ∀ name, action.Touches w name → name ∈ part
  unlinked : ((∀ name, action.Shares name → name ∈ part) ∧
      ∀ s ∈ action.brought, s.Avoids (w.Beyond part)) ∨ (w.act action).1.Parted part

/-! ## Text that is overwritten in place -/

/-- A step that overwrites text in place shares nothing. -/
theorem Step.not_shares_of_inPlace {step : Step} (inPlace : step.inPlace = true) (name : String) :
    ¬step.Shares name := by
  induction step with
  | change target what =>
      cases what
      case setAt | replaceUnit | lowerCase | upperCase => exact id
      all_goals cases inPlace
  | lend source i inner ih => exact fun shares => ih inPlace shares.1
  | _ => cases inPlace

/-- Nor does any such action. -/
theorem Action.shares_nothing {action : Action α} (inPlace : action.inPlace = true) :
    (∀ name, ¬action.Shares name) ∧ action.brought = [] := by
  cases action with
  | step request => exact ⟨Step.not_shares_of_inPlace inPlace, rfl⟩
  | edit target edit relied => exact ⟨fun _ => id, if_pos inPlace⟩

namespace World

variable [TextUnit α] {w w' : World α} {part : Set String} {action : Action α}

/-! ## Single actions -/

/-- An action on a part of the registers begins away from all that is beyond the part. -/
theorem Parted.confined {calm : Prop} (parted : w.Parted part) (sound : w.Sound)
    (touches : ∀ name, action.Touches w name → name ∈ part) :
    Confined (action.Touches w) calm (w.Beyond part) w [] w := by
  refine .refl sound (fun c here => ?_) fun name o touched => parted name o (touches name touched)
  obtain ⟨name, o, s, outside, there, shown, reached⟩ := here
  exact ⟨s, .inr ⟨name, o, fun touched => outside (touches name touched), there, shown⟩, reached⟩

/-- Cells beyond the part hold what they held. -/
theorem unit?_act (parted : w.Parted part) (sound : w.Sound) (fair : action.Fair w)
    (touches : ∀ name, action.Touches w name → name ∈ part) {c : Cell} (beyond : w.Beyond part c) :
    (w.act action).1.store.unit? c = w.store.unit? c := by
  have start : Confined (action.Touches w) (action.inPlace = false) (w.Beyond part) w [] w :=
    parted.confined sound touches
  cases inPlace : action.inPlace with
  | false =>
      obtain ⟨s, bystander, reached⟩ := start.guarded c beyond
      exact (underway_act sound fair).keeps inPlace s bystander c reached
  | true =>
      -- nothing is assumed of what the action shares, but one in place shares nothing
      obtain ⟨none, nothing⟩ := Action.shares_nothing inPlace
      have done := confined_act start fair (fun name o shares => absurd shares (none name))
        (by rw [nothing]; nofun)
      exact done.units c beyond

/-- **What is done in a part of the registers does not show beyond it, even if it is done in
place.** -/
theorem unseen_act (parted : w.Parted part) (sound : w.Sound) (fair : action.Fair w)
    (touches : ∀ name, action.Touches w name → name ∈ part) {name : String} {o : Object}
    (outside : name ∉ part) (there : w.get? name = some o) :
    (w.act action).1.get? name = some o ∧
      o.content (w.act action).1.store = o.content w.store := by
  refine ⟨((underway_act sound fair).same name fun touched => outside (touches name touched)).trans
    there, o.content_congr fun s here => ?_⟩
  have keeps : w.store.Keeps (w.act action).1.store o.segments := fun t shown c reached =>
    unit?_act parted sound fair touches ⟨name, o, t, outside, there, shown, reached⟩
  exact keeps.content_eq here
    (sound.placed s (subset_alive_of_get? there here)).valid.stop_le_limit

/-- **A world stays parted unless an alias is made across the border.** -/
theorem parted_act (parted : w.Parted part) (sound : w.Sound) (keeps : action.KeepsTo part w) :
    (w.act action).1.Parted part := by
  rcases keeps.unlinked with ⟨shares, brought⟩ | parted'
  · have start : Confined (action.Touches w) (action.inPlace = false) (w.Beyond part) w [] w :=
      parted.confined sound keeps.touches
    have done := confined_act start keeps.fair
      (fun name o shared => parted name o (shares name shared)) brought
    rintro name o inside there s here c ⟨other, o', t, outside, there', here', reached'⟩
    have beyond : w.Beyond part c := by
      refine ⟨other, o', t, outside, ?_, here', reached'⟩
      rw [← done.same other fun touched => outside (keeps.touches other touched)]
      exact there'
    by_cases touched : action.Touches w name
    · exact done.registers name o touched there s here c beyond
    · exact parted name o inside ((done.same name touched).symm.trans there) s here c beyond
  · exact parted'

/-! ## Runs -/

/-- Runs of actions, each of which keeps to one of the parts. -/
inductive Runs (parts : Set (Set String)) : World α → World α → Prop where
  | refl (w : World α) : Runs parts w w
  | act {w w' : World α} {part : Set String} {action : Action α} : Runs parts w w' →
      part ∈ parts → action.KeepsTo part w' → Runs parts w (w'.act action).1

/-- Actions on either side of a border, by turns, keep the world parted there. -/
theorem Runs.parted (run : Runs {part, partᶜ} w w') (sound : w.Sound) (parted : w.Parted part) :
    w'.Sound ∧ w'.Parted part := by
  induction run with
  | refl => exact ⟨sound, parted⟩
  | act _ side keeps ih =>
      obtain ⟨sound, parted⟩ := ih
      refine ⟨(underway_act sound keeps.fair).sound, ?_⟩
      rcases side with rfl | rfl
      · exact parted_act parted sound keeps
      · have other := (parted_act parted.compl sound keeps).compl
        rwa [compl_compl] at other

/-- Actions on one side do not show on the other. -/
theorem Runs.unseen (run : Runs {part} w w') (sound : w.Sound) (parted : w.Parted part)
    {name : String} {o : Object} (outside : name ∉ part) (there : w.get? name = some o) :
    w'.get? name = some o ∧ o.content w'.store = o.content w.store := by
  have kept : w'.Sound ∧ w'.Parted part ∧ w'.get? name = some o ∧
      o.content w'.store = o.content w.store := by
    induction run with
    | refl => exact ⟨sound, parted, there, rfl⟩
    | act _ side keeps ih =>
        obtain ⟨sound, parted, there, same⟩ := ih
        obtain rfl := Set.mem_singleton_iff.1 side
        obtain ⟨there', same'⟩ := unseen_act parted sound keeps.fair keeps.touches outside there
        exact ⟨(underway_act sound keeps.fair).sound, parted_act parted sound keeps, there',
          same'.trans same⟩
  exact kept.2.2

end World
end SegmentedText
