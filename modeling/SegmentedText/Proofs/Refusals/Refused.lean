import SegmentedText.Proofs.Bounded.Unbounded
import SegmentedText.Proofs.Words.Actions

/-!
# Refused actions

In a reached world where no window is lent out, and where there is the room that is asked for, an
action is refused just for its own bound, with the fault that tells it, and then every object
is as it was (`World.refused_beyond_bounds`).  Checks further inside never come to bear,
and no computation leaves the range of a machine word, whatever the indices and counts are,
as long as the texts themselves are short.
-/

set_option autoImplicit false

namespace SegmentedText
namespace World

variable {α : Type} [TextUnit α] {w : World α}

/-- **An action is refused exactly beyond its bounds, and then nothing has changed.**

Its answer tells a fault just where the index, the range or the number that it names violates the
bound that goes by the length of the object, and it is the fault for that.  After a refusal every
register holds the object that it held, a bounded buffer with its count, and every object shows the
same in the same segments; only an argument that was handed over is gone.  Where the texts are short
before and after it, everything that the action computes is exact in machine words. -/
theorem refused_beyond_bounds (reached : Reached Action.Overruns w) {action : Action α}
    (fair : action.Fair w) (unlent : action.Unlent w) (allots : action.Allots w) :
    (w.act action).2.fault? = action.refusal? w ∧
    (action.refusal? w ≠ none →
      (∀ name, ¬action.Uses name → (w.act action).1.get? name = w.get? name) ∧
      (∀ name o, ¬action.Uses name → w.get? name = some o →
        o.content (w.act action).1.store = o.content w.store ∧
          o.dump (w.act action).1.store = o.dump w.store) ∧
      (∀ name, action.Uses name → (w.act action).1.get? name = none) ∧
      (w.act action).1.aside = w.aside ∧ (w.act action).1.lent = w.lent) ∧
    (action.Short w → action.Exact w) := by
  have sound := reached.sound
  have counted := counted_of_reached reached
  have keeps := keepsTo_act sound counted fair unlent allots
  refine ⟨keeps.fault_eq, fun refused => ?_, exact_act sound counted fair unlent allots⟩
  have unchanged := keeps.unchanged (keeps.fault_eq ▸ refused)
  refine ⟨unchanged.same, fun name o unused there => ?_, unchanged.gone, unchanged.aside,
    unchanged.lent⟩
  have windows : ∀ s ∈ o.segments, s.content (w.act action).1.store = s.content w.store :=
    fun s => unchanged.content_window_eq sound unused there
  exact ⟨o.content_congr windows, o.dump_congr windows⟩

/-- A range that ends beyond a bounded buffer is not exchanged; the buffer that was handed over for it
is gone. -/
theorem refused_beyond_bounds_fullAndFree :
    let action : Action Char :=
      .step (.change "n" (.replaceRange 2 (UInt64.size - 1) (.register "s" true)))
    (fullAndFree.act action).2.fault? = some (.replaceRange 2 (UInt64.size - 1) 3) ∧
      (fullAndFree.act action).1.get? "n" =
        some (.bounded ⟨⟨.held [⟨⟨0⟩, 0, 3, 32⟩], {}⟩, 3, 3⟩) ∧
      (fullAndFree.act action).1.get? "s" = none ∧ action.Exact fullAndFree := by
  intro action
  have fair : action.Fair fullAndFree := trivial
  have unlent : action.Unlent fullAndFree := rfl
  have bounded : fullAndFree.get? "n" =
      some (.bounded ⟨⟨.held [⟨⟨0⟩, 0, 3, 32⟩], {}⟩, 3, 3⟩) := by decide
  have resolves : fullAndFree.edit? (.replaceRange 2 (UInt64.size - 1) (.register "s" true)) =
      some (.replaceRange 2 (UInt64.size - 1) ⟨.held [⟨⟨1⟩, 0, 6, 8⟩], {}⟩, fullAndFree.erase "s") :=
    rfl
  have allots : action.Allots fullAndFree := by
    intro edit resolved o found there
    obtain ⟨rfl, rfl⟩ := Prod.mk.inj (Option.some.inj (resolves.symm.trans found))
    obtain rfl := Option.some.inj (bounded.symm.trans there)
    intro b shown
    obtain rfl := Option.some.inj shown
    rfl
  have short : action.Short fullAndFree := by
    refine ⟨⟨by decide, by decide⟩, ⟨by decide, by decide⟩, ?_⟩
    intro edit resolved o b found there shown
    obtain ⟨rfl, rfl⟩ := Prod.mk.inj (Option.some.inj (resolves.symm.trans found))
    obtain rfl := Option.some.inj (bounded.symm.trans (get?_of_edit? resolves there).1)
    obtain rfl := Option.some.inj shown
    exact ⟨by decide, by decide⟩
  obtain ⟨judged, unchanged, exact_if⟩ :=
    refused_beyond_bounds reached_fullAndFree fair unlent allots
  obtain ⟨same, -, gone, -, -⟩ := unchanged (by decide)
  refine ⟨judged.trans (by decide), (same "n" ?_).trans bounded, gone "s" ⟨rfl, rfl⟩,
    exact_if short⟩
  exact fun uses => absurd uses.2 (by decide)

end World

end SegmentedText
