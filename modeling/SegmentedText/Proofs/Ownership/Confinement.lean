import SegmentedText.Proofs.Ownership.Custody
import SegmentedText.Proofs.Ownership.Segments

/-!
# Steps that keep away from cells

That a step disturbs no bystander says nothing about the cells that its own windows reach
when it is done.  They could have come to show what a bystander shows, and then the next
change in place would be seen there.

`World.Confined` rules that out.  A step is confined away from some cells, each of
them reached by a bystander, if nothing that it has in hand and nothing in the registers
that it may touch reaches one, and if the cells hold what they held.

Nothing but the rule about room is needed to stay confined.  To the windows in hand, a
cell that they do not reach looks like the room of one more window; an operation that is
hosted beside any windows whatever is hosted beside that one too, and so does not reach
out for the cell (`World.Confined.work`).  The only way to come near a cell is to share a
window that reaches it (`World.Confined.share`).

A step that is confined away from no cells is just under way, so its moves are those of
`World.Underway` with this in addition.
-/

set_option autoImplicit false

namespace SegmentedText
namespace World

variable {α : Type} {w w' : World α} {name : String} {o : Object}
  {touched : String → Prop} {calm : Prop} {far : Cell → Prop} {hand hand' : List Segment}

/-- No object in one of the registers reaches one of the cells. -/
def Avoids (w : World α) (names : String → Prop) (far : Cell → Prop) : Prop :=
  ∀ name o, names name → w.get? name = some o → ∀ s ∈ o.segments, s.Avoids far

theorem avoids_none (w : World α) (names : String → Prop) : w.Avoids names fun _ => False :=
  fun _ _ _ _ _ _ _ none => none.elim

/-- Windows that can be hosted beside those in hand, and of which the surroundings tell.  Among them
is all that is alive and avoids the cells. -/
structure Company (far : Cell → Prop) (w : World α) (hand others : List Segment) : Prop where
  hosts : w.store.Hosts (hand ++ others)
  covers : w.surroundings.Covers others
  alive : ∀ s ∈ w.alive, s.Avoids far → s ∈ others

/-- A step under way that keeps away from some cells which bystanders reach. -/
structure Confined (touched : String → Prop) (calm : Prop) (far : Cell → Prop) (w : World α)
    (hand : List Segment) (w' : World α) : Prop extends Underway touched calm w hand w' where
  guarded : ∀ c, far c → ∃ s, w.Bystander touched s ∧ s.Reaches c
  clear : ∀ s ∈ hand, s.Avoids far
  registers : w'.Avoids touched far
  units : ∀ c, far c → w'.store.unit? c = w.store.unit? c

namespace Confined

/-- Nothing has been done yet. -/
theorem refl (sound : w.Sound) (guarded : ∀ c, far c → ∃ s, w.Bystander touched s ∧ s.Reaches c)
    (avoids : w.Avoids touched far) : Confined touched calm far w [] w :=
  ⟨.refl sound, guarded, nofun, avoids, fun _ _ => rfl⟩

/-- Every step keeps away from no cells. -/
theorem of_underway (u : Underway touched calm w hand w') :
    Confined touched calm (fun _ => False) w hand w' :=
  ⟨u, nofun, fun _ _ _ => nofun, avoids_none w' touched, nofun⟩

/-! ## Company -/

/-- All that is alive is company. -/
theorem company_alive (u : Confined touched calm far w hand w') : Company far w' hand w'.alive :=
  ⟨u.hosts, Surroundings.covers_of_alive (List.Subset.refl _), fun _ here _ => here⟩

/-- So is room for one of the cells. -/
theorem company_room (u : Confined touched calm far w hand w') {c : Cell} (here : far c) :
    ∃ others, c.room ∈ others ∧ Company far w' hand others := by
  classical
  let kept := w'.alive.filter fun s => s.Avoids far
  have hosts : w'.store.Hosts (hand ++ kept) :=
    u.toUnderway.hosts.subperm ((List.subperm_append_left hand).2 List.filter_sublist.subperm)
  have clear : ∀ s ∈ hand ++ kept, ¬s.Reaches c := fun s shown =>
    (List.mem_append.1 shown).elim (fun own => u.clear s own c here)
      fun beside => of_decide_eq_true (List.mem_filter.1 beside).2 c here
  obtain ⟨s, bystander, reached⟩ := u.guarded c here
  have alive : s ∈ w'.alive := Underway.alive_of_bystander (u.bystander bystander)
  have placed := u.hosts.placed s (List.mem_append_right _ alive)
  obtain ⟨made, within⟩ := placed.made_of_reaches reached
  refine ⟨c.room :: kept, List.mem_cons_self,
    (hosts.room made within clear).perm List.perm_middle.symm, ?_, fun t there avoids =>
      List.mem_cons_of_mem _ (List.mem_filter.2 ⟨there, decide_eq_true avoids⟩)⟩
  intro t there
  rcases List.mem_cons.1 there with rfl | beside
  · exact Surroundings.shows_iff.2 ⟨s, alive, reached.1.symm⟩
  · exact Surroundings.shows_iff.2 ⟨t, (List.mem_filter.1 beside).1, rfl⟩

/-! ## Work -/

/-- Work that shows in nothing alive leaves the cells as they are. -/
theorem units_of_keeps (u : Confined touched calm far w hand w') {st : Store α}
    (keeps : w'.store.Keeps st w'.alive) {c : Cell} (here : far c) :
    st.unit? c = w'.store.unit? c := by
  obtain ⟨s, bystander, reached⟩ := u.guarded c here
  exact keeps s (Underway.alive_of_bystander (u.bystander bystander)) c reached

/-- Work on the windows in hand that could be done in any company. -/
theorem work {own : List Segment} {st : Store α} (u : Confined touched calm far w hand w')
    (hosts : ∀ others, Company far w' hand others → st.Hosts (own ++ others))
    (keeps : calm → w'.store.Keeps st w'.alive)
    (units : ∀ c, far c → st.unit? c = w'.store.unit? c) :
    Confined touched calm far w own (w'.withStore st) where
  toUnderway := u.toUnderway.work (hosts _ u.company_alive) keeps
  guarded := u.guarded
  clear := by
    intro s shown c here
    obtain ⟨others, room, company⟩ := u.company_room here
    exact (hosts others company).not_reaches_of_room room s shown
  registers := u.registers
  units := fun c here => (units c here).trans (u.units c here)

/-- Work that disturbs nothing. -/
theorem act {own : List Segment} {st : Store α} (u : Confined touched calm far w hand w')
    (done : ∀ others, Company far w' hand others → Undisturbed others w'.store own st) :
    Confined touched calm far w own (w'.withStore st) :=
  have keeps := (done _ u.company_alive).keeps
  u.work (fun others company => (done others company).hosts) (fun _ => keeps)
    fun _ => u.units_of_keeps keeps

/-- Other windows take the place of those in hand. -/
theorem rearrange (u : Confined touched calm far w hand w')
    (hosts : ∀ others, Company far w' hand others → w'.store.Hosts (hand' ++ others)) :
    Confined touched calm far w hand' w' :=
  u.act fun others company => .refl (hosts others company)

/-- Work of which nothing is kept. -/
theorem discard {own : List Segment} {st : Store α} (u : Confined touched calm far w hand w')
    (done : Undisturbed w'.alive w'.store own st) :
    Confined touched calm far w [] (w'.withStore st) where
  toUnderway := (u.toUnderway.act done).subperm List.nil_subperm
  guarded := u.guarded
  clear := nofun
  registers := u.registers
  units := fun c here => (u.units_of_keeps done.keeps here).trans (u.units c here)

/-! ## Windows that change hands -/

/-- Some of what is in hand is let go, or its order changes. -/
theorem subperm (u : Confined touched calm far w hand w') (some : hand'.Subperm hand) :
    Confined touched calm far w hand' w' :=
  { u with
    toUnderway := u.toUnderway.subperm some
    clear := fun s here => u.clear s (some.subset here) }

theorem avoids_erase (avoids : w.Avoids touched far) (name : String) :
    (w.erase name).Avoids touched far := by
  intro other o touches found
  rw [get?_erase] at found
  split at found
  next => cases found
  next => exact avoids other o touches found

/-- An object is taken out of its register. -/
theorem take (u : Confined touched calm far w hand w') (found : w'.get? name = some o)
    (touches : touched name) :
    Confined touched calm far w (o.segments ++ hand) (w'.erase name) where
  toUnderway := u.toUnderway.take found touches
  guarded := u.guarded
  clear := fun s here =>
    (List.mem_append.1 here).elim (u.registers name o touches found s) (u.clear s)
  registers := avoids_erase u.registers name
  units := u.units

/-- A register is emptied. -/
theorem erase (u : Confined touched calm far w hand w') (touches : touched name) :
    Confined touched calm far w hand (w'.erase name) :=
  { u with
    toUnderway := u.toUnderway.erase touches
    registers := avoids_erase u.registers name }

/-- An object in hand is put into a register. -/
theorem put (u : Confined touched calm far w (o.segments ++ hand) w') (touches : touched name) :
    Confined touched calm far w hand (w'.put name o) where
  toUnderway := u.toUnderway.put touches
  guarded := u.guarded
  clear := fun s here => u.clear s (List.mem_append_right _ here)
  registers := by
    intro other o' touches' found
    rw [get?_put] at found
    split at found
    next =>
      obtain rfl := Option.some.inj found
      exact fun s here => u.clear s (List.mem_append_left _ here)
    next => exact u.registers other o' touches' found
  units := u.units

/-- All that is in hand is put into a register. -/
theorem putAll (u : Confined touched calm far w o.segments w') (touches : touched name) :
    Confined touched calm far w [] (w'.put name o) := by
  rw [← List.append_nil o.segments] at u
  exact u.put touches

/-- An object that avoids the cells is shared. -/
theorem share {views : List Segment} (u : Confined touched calm far w hand w')
    (found : w'.get? name = some o) (avoids : ∀ s ∈ o.segments, s.Avoids far)
    (views_of : ∀ t ∈ views, ∃ s ∈ o.segments, t.Views s) :
    Confined touched calm far w (views ++ hand) w' where
  toUnderway := u.toUnderway.share fun t shown =>
    let ⟨s, here, view⟩ := views_of t shown
    ⟨s, List.mem_append_right _ (subset_alive_of_get? found here), view⟩
  guarded := u.guarded
  clear := by
    intro t shown
    rcases List.mem_append.1 shown with new | old
    · obtain ⟨s, here, view⟩ := views_of t new
      have alive := List.mem_append_right hand (subset_alive_of_get? found here)
      have ordered := (u.hosts.placed s alive).valid.stop_le_limit
      exact fun c there reached => avoids s here c there (view.reaches ordered reached)
    · exact u.clear t old
  registers := u.registers
  units := u.units

/-- Windows in hand are set aside. -/
theorem setAside {views : List Segment} (u : Confined touched calm far w (views ++ hand) w') :
    Confined touched calm far w hand { w' with aside := views ++ w'.aside } where
  toUnderway := u.toUnderway.setAside
  guarded := u.guarded
  clear := fun s here => u.clear s (List.mem_append_right _ here)
  registers := u.registers
  units := u.units

/-- Which arrays are lent out does not matter to windows. -/
theorem lending (u : Confined touched calm far w hand w') (lent : List StorageId) :
    Confined touched calm far w hand { w' with lent } :=
  ⟨u.toUnderway.lending lent, u.guarded, u.clear, u.registers, u.units⟩

/-- What was set aside or lent out on the way is so no longer. -/
theorem restore (u : Confined touched calm far w hand w') (lent : List StorageId) :
    Confined touched calm far w hand { w' with aside := w.aside, lent } :=
  ⟨u.toUnderway.restore lent, u.guarded, u.clear, u.registers, u.units⟩

/-! ## While an object is set aside -/

/-- A step begins while an object is set aside. -/
theorem settingAside (start : Confined (fun other => touched other ∧ other ≠ name) calm far w [] w)
    (found : w.get? name = some o) (lent : List StorageId) :
    Confined touched calm far (w.settingAside name o lent) [] (w.settingAside name o lent) := by
  refine .refl (sound_settingAside start.sound found lent) (fun c here => ?_) ?_
  · obtain ⟨s, bystander, reached⟩ := start.guarded c here
    exact ⟨s, bystander_settingAside found bystander, reached⟩
  · intro other o' touches there
    have behind := (get?_erase w name other).symm.trans there
    split at behind
    next => cases behind
    next apart => exact start.registers other o' ⟨touches, apart⟩ behind

/-- The step is done and the object goes back. -/
theorem putBack {lent lent' : List StorageId}
    (start : Confined (fun other => touched other ∧ other ≠ name) calm far w [] w)
    (found : w.get? name = some o)
    (u : Confined touched calm far (w.settingAside name o lent) [] w') :
    Confined (fun other => touched other ∧ other ≠ name) calm far w []
      ({ w' with aside := w.aside, lent := lent' }.put name o) where
  toUnderway := underway_settingAside found u.toUnderway
  guarded := start.guarded
  clear := nofun
  registers := by
    intro other o' touches there
    rw [get?_put, if_neg touches.2] at there
    exact u.registers other o' touches.1 there
  units := u.units

end Confined

end World
end SegmentedText
