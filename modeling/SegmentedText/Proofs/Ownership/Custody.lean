import SegmentedText.Proofs.Ownership.Windows
import SegmentedText.World.Basic
import Mathlib.Data.List.Flatten

/-!
# Windows in the hands of a step

A world is sound when its store hosts every window that is alive
(`World.Sound`).  While a step runs, some windows are in its hands: they have been
taken out of a register, or were made and are not in one yet.  They are alive like
all others.

`World.Underway` says how far a step has come: which registers it may have touched,
what it has in hand, and that no bystander has been disturbed.  Its laws are the moves
a step can make: to take an object out of a register, to work on what it has in
hand, to share what is alive, to put an object back.  A step is followed by composing
them, whatever it does to the windows.
-/

set_option autoImplicit false

namespace SegmentedText
namespace World

variable {α : Type} {w w' w'' : World α} {name : String} {o : Object}

/-! ## Registers -/

/-- The windows that are in the registers. -/
def held (registers : List (String × Object)) : List Segment :=
  registers.flatMap fun entry => entry.2.segments

theorem alive_eq (w : World α) : w.alive = held w.registers ++ w.aside := rfl

theorem subperm_held_filter (registers : List (String × Object)) (name : String) :
    (held (registers.filter (·.1 != name))).Subperm (held registers) :=
  (List.filter_sublist.flatMap _).subperm

/-- What is in a register, and what is left without the register, were there together. -/
theorem subperm_held_lookup {registers : List (String × Object)}
    (found : registers.lookup name = some o) :
    (o.segments ++ held (registers.filter (·.1 != name))).Subperm (held registers) := by
  induction registers with
  | nil => cases found
  | cons entry rest ih =>
      obtain ⟨first, object⟩ := entry
      rw [List.lookup_cons] at found
      by_cases same : name = first
      · subst same
        rw [beq_self_eq_true, Option.some.injEq] at found
        subst found
        rw [List.filter_cons_of_neg (by simp)]
        exact (List.subperm_append_left _).2 (subperm_held_filter rest name)
      · rw [beq_eq_false_iff_ne.2 same] at found
        rw [List.filter_cons_of_pos (by simpa using Ne.symm same)]
        have arranged : (o.segments ++ held ((first, object) :: rest.filter (·.1 != name))).Perm
            (object.segments ++ (o.segments ++ held (rest.filter (·.1 != name)))) := by
          simp only [held, List.flatMap_cons, ← List.append_assoc]
          exact List.perm_append_comm.append_right _
        exact arranged.subperm.trans ((List.subperm_append_left _).2 (ih found))

theorem subperm_erase (w : World α) (name : String) : (w.erase name).alive.Subperm w.alive :=
  (List.subperm_append_right w.aside).2 (subperm_held_filter w.registers name)

theorem subperm_take (found : w.get? name = some o) :
    (o.segments ++ (w.erase name).alive).Subperm w.alive := by
  rw [alive_eq, alive_eq, ← List.append_assoc]
  exact (List.subperm_append_right w.aside).2 (subperm_held_lookup found)

/-- The windows alive after an object has been put into a register. -/
theorem perm_put (w : World α) (name : String) (o : Object) :
    (w.put name o).alive.Perm (o.segments ++ (w.erase name).alive) := by
  have shown : (w.put name o).alive =
      held (w.registers.filter (·.1 != name)) ++ o.segments ++ w.aside := by
    simp [alive_eq, put, held]
  rw [shown, alive_eq, ← List.append_assoc]
  exact List.perm_append_comm.append_right _

/-- A register that has been emptied has nothing in it, and the others are as they were. -/
theorem get?_erase (w : World α) (name other : String) :
    (w.erase name).get? other = if other = name then none else w.get? other := by
  simp only [get?, erase]
  induction w.registers with
  | nil => simp
  | cons entry rest ih =>
      obtain ⟨first, object⟩ := entry
      by_cases kept : first = name
      · subst kept
        rw [List.filter_cons_of_neg (by simp), ih, List.lookup_cons]
        by_cases same : other = first
        · rw [if_pos same, if_pos same]
        · rw [if_neg same, if_neg same, beq_eq_false_iff_ne.2 same]
      · rw [List.filter_cons_of_pos (by simpa using kept), List.lookup_cons, List.lookup_cons, ih]
        by_cases same : other = first
        · simp [same, kept]
        · rw [beq_eq_false_iff_ne.2 same]

theorem get?_put (w : World α) (name other : String) (o : Object) :
    (w.put name o).get? other = if other = name then some o else w.get? other := by
  have behind : (w.put name o).get? other =
      ((w.erase name).get? other).or ([(name, o)].lookup other) := List.lookup_append
  rw [behind, get?_erase]
  by_cases same : other = name
  · simp [same]
  · rw [if_neg same, if_neg same, List.lookup_cons, beq_eq_false_iff_ne.2 same]
    exact Option.or_none

/-- To put an object into a register empties it first. -/
theorem put_erase (w : World α) (name : String) (o : Object) :
    (w.erase name).put name o = w.put name o := by
  simp [put, erase, List.filter_filter]

theorem erase_put (w : World α) (name : String) (o : Object) :
    (w.put name o).erase name = w.erase name := by
  simp [put, erase, List.filter_append, List.filter_filter]

theorem nodup_erase (distinct : (w.registers.map Prod.fst).Nodup) (name : String) :
    ((w.erase name).registers.map Prod.fst).Nodup :=
  distinct.sublist (List.filter_sublist.map _)

theorem nodup_put (distinct : (w.registers.map Prod.fst).Nodup) (name : String) (o : Object) :
    ((w.put name o).registers.map Prod.fst).Nodup := by
  show (((w.erase name).registers ++ [(name, o)]).map Prod.fst).Nodup
  rw [List.map_append, List.nodup_append]
  refine ⟨nodup_erase distinct name, List.pairwise_singleton _ _, fun other there last new => ?_⟩
  obtain ⟨entry, found, rfl⟩ := List.mem_map.1 there
  obtain rfl := List.mem_singleton.1 new
  simpa using (List.mem_filter.1 found).2

theorem subset_alive_of_get? (found : w.get? name = some o) : o.segments ⊆ w.alive :=
  fun _ here => (subperm_take found).subset (List.mem_append_left _ here)

/-- What is hosted together with a whole world is hosted together with an object taken out of it. -/
theorem hosts_taken {windows : List Segment} (hosts : w.store.Hosts (windows ++ w.alive))
    (found : w.get? name = some o) :
    w.store.Hosts (windows ++ (o.segments ++ (w.erase name).alive)) :=
  hosts.subperm ((List.subperm_append_left windows).2 (subperm_take found))

/-! ## Soundness -/

/-- Every window that is alive is hosted. -/
def Sound (w : World α) : Prop := w.store.Hosts w.alive

/-- A window that a step has no business with: one of a register that it does not touch, or one that
has been set aside. -/
def Bystander (w : World α) (touched : String → Prop) (s : Segment) : Prop :=
  s ∈ w.aside ∨ ∃ name o, ¬touched name ∧ w.get? name = some o ∧ s ∈ o.segments

/-- A step that began in `w` has come to `w'` with the windows `hand` in hand.  Only the registers
in `touched` may differ; and if the step is a calm one, no bystander shows any change. -/
structure Underway (touched : String → Prop) (calm : Prop) (w : World α) (hand : List Segment)
    (w' : World α) : Prop where
  hosts : w'.store.Hosts (hand ++ w'.alive)
  aside : w.aside.Subperm w'.aside
  same : ∀ name, ¬touched name → w'.get? name = w.get? name
  distinct : (w.registers.map Prod.fst).Nodup → (w'.registers.map Prod.fst).Nodup
  keeps : calm → ∀ s, w.Bystander touched s → ∀ c, s.Reaches c →
    w'.store.unit? c = w.store.unit? c

namespace Underway

variable {touched touched' : String → Prop} {calm : Prop} {hand hand' : List Segment}

/-- Nothing has been done yet. -/
theorem refl (sound : w.Sound) : Underway touched calm w [] w :=
  ⟨sound, .refl _, fun _ _ => rfl, id, fun _ _ _ _ _ => rfl⟩

theorem sound (done : Underway touched calm w [] w') : w'.Sound := done.hosts

/-- Bystanders are still alive. -/
theorem bystander (u : Underway touched calm w hand w') {s : Segment}
    (here : w.Bystander touched s) : w'.Bystander touched s := by
  rcases here with aside | ⟨name, o, apart, found, shown⟩
  · exact .inl (u.aside.subset aside)
  · exact .inr ⟨name, o, apart, (u.same name apart).trans found, shown⟩

theorem alive_of_bystander {s : Segment} (here : w.Bystander touched s) : s ∈ w.alive := by
  rcases here with aside | ⟨name, o, -, found, shown⟩
  · exact List.mem_append_right _ aside
  · exact subset_alive_of_get? found shown

/-- A bystander shows what it showed before a calm step. -/
theorem content_eq (u : Underway touched calm w hand w') (quiet : calm) (sound : w.Sound)
    {s : Segment} (here : w.Bystander touched s) : s.content w'.store = s.content w.store := by
  have keeps : w.store.Keeps w'.store [s] := fun t shown c reached => by
    obtain rfl := List.mem_singleton.1 shown
    exact u.keeps quiet t here c reached
  exact keeps.content_eq List.mem_cons_self
    (sound.placed s (alive_of_bystander here)).valid.stop_le_limit

/-- Some of what is in hand is let go, or its order changes. -/
theorem subperm (u : Underway touched calm w hand w') (some : hand'.Subperm hand) :
    Underway touched calm w hand' w' :=
  { u with hosts := u.hosts.subperm ((List.subperm_append_right _).2 some) }

/-- More registers may be touched. -/
theorem mono (u : Underway touched calm w hand w') (le : ∀ name, touched name → touched' name) :
    Underway touched' calm w hand w' where
  hosts := u.hosts
  aside := u.aside
  same := fun name apart => u.same name fun touches => apart (le name touches)
  distinct := u.distinct
  keeps := fun quiet s here => u.keeps quiet s <| here.imp_right fun ⟨name, o, apart, rest⟩ =>
    ⟨name, o, fun touches => apart (le name touches), rest⟩

/-- One step after another. -/
theorem trans (first : Underway touched calm w [] w') (second : Underway touched calm w' hand w'') :
    Underway touched calm w hand w'' where
  hosts := second.hosts
  aside := first.aside.trans second.aside
  same := fun name apart => (second.same name apart).trans (first.same name apart)
  distinct := fun names => second.distinct (first.distinct names)
  keeps := fun quiet s here c reached =>
    (second.keeps quiet s (first.bystander here) c reached).trans
      (first.keeps quiet s here c reached)

theorem ne_of_apart {other : String} (touches : touched name) (apart : ¬touched other) :
    other ≠ name := fun same => apart (same ▸ touches)

/-- An object is taken out of its register. -/
theorem take (u : Underway touched calm w hand w') (found : w'.get? name = some o)
    (touches : touched name) : Underway touched calm w (o.segments ++ hand) (w'.erase name) where
  hosts := by
    have arranged : (o.segments ++ hand ++ (w'.erase name).alive).Perm
        (hand ++ (o.segments ++ (w'.erase name).alive)) := by
      rw [← List.append_assoc]
      exact List.perm_append_comm.append_right _
    exact u.hosts.subperm (arranged.subperm.trans
      ((List.subperm_append_left hand).2 (subperm_take found)))
  aside := u.aside
  same := by
    intro other apart
    rw [get?_erase, if_neg (ne_of_apart touches apart), u.same other apart]
  distinct := fun names => nodup_erase (u.distinct names) name
  keeps := u.keeps

/-- A register is emptied. -/
theorem erase (u : Underway touched calm w hand w') (touches : touched name) :
    Underway touched calm w hand (w'.erase name) where
  hosts := u.hosts.subperm ((List.subperm_append_left hand).2 (subperm_erase w' name))
  aside := u.aside
  same := by
    intro other apart
    rw [get?_erase, if_neg (ne_of_apart touches apart), u.same other apart]
  distinct := fun names => nodup_erase (u.distinct names) name
  keeps := u.keeps

/-- An object in hand is put into a register. -/
theorem put (u : Underway touched calm w (o.segments ++ hand) w') (touches : touched name) :
    Underway touched calm w hand (w'.put name o) where
  hosts := by
    have arranged : (hand ++ (w'.put name o).alive).Perm
        (o.segments ++ hand ++ (w'.erase name).alive) := by
      refine ((perm_put w' name o).append_left hand).trans ?_
      rw [← List.append_assoc]
      exact List.perm_append_comm.append_right _
    exact u.hosts.subperm (arranged.subperm.trans
      ((List.subperm_append_left _).2 (subperm_erase w' name)))
  aside := u.aside
  same := by
    intro other apart
    rw [get?_put, if_neg (ne_of_apart touches apart), u.same other apart]
  distinct := fun names => nodup_put (u.distinct names) name o
  keeps := u.keeps

/-- Other windows have taken the place of those in hand. -/
theorem rearrange (u : Underway touched calm w hand w')
    (hosts : w'.store.Hosts (hand' ++ w'.alive)) :
    Underway touched calm w hand' w' :=
  { u with hosts }

/-- Work on the windows in hand, beside which everything alive is hosted. -/
theorem work {own : List Segment} {st : Store α} (u : Underway touched calm w hand w')
    (hosts : st.Hosts (own ++ w'.alive)) (keeps : calm → w'.store.Keeps st w'.alive) :
    Underway touched calm w own (w'.withStore st) where
  hosts := hosts
  aside := u.aside
  same := u.same
  distinct := u.distinct
  keeps := fun quiet s here c reached =>
    (keeps quiet s (alive_of_bystander (u.bystander here)) c reached).trans
      (u.keeps quiet s here c reached)

/-- Work that disturbs nothing. -/
theorem act {own : List Segment} {st : Store α} (u : Underway touched calm w hand w')
    (done : Undisturbed w'.alive w'.store own st) :
    Underway touched calm w own (w'.withStore st) :=
  u.work done.hosts fun _ => done.keeps

/-- Windows that are alive, or in hand, are shared. -/
theorem share {views : List Segment} (u : Underway touched calm w hand w')
    (views_of : ∀ t ∈ views, ∃ s ∈ hand ++ w'.alive, t.Views s) :
    Underway touched calm w (views ++ hand) w' where
  hosts := by
    rw [List.append_assoc]
    exact u.hosts.views views_of
  aside := u.aside
  same := u.same
  distinct := u.distinct
  keeps := u.keeps

/-- Windows in hand are set aside. -/
theorem setAside {views : List Segment} (u : Underway touched calm w (views ++ hand) w') :
    Underway touched calm w hand { w' with aside := views ++ w'.aside } where
  hosts := by
    refine u.hosts.perm ?_
    refine List.perm_iff_count.2 fun s => ?_
    simp only [alive_eq, List.count_append]
    omega
  aside := u.aside.trans (List.sublist_append_right _ _).subperm
  same := u.same
  distinct := u.distinct
  keeps := u.keeps

/-- Which arrays are lent out does not matter to windows. -/
theorem lending (u : Underway touched calm w hand w') (lent : List StorageId) :
    Underway touched calm w hand { w' with lent } :=
  ⟨u.hosts, u.aside, u.same, u.distinct, u.keeps⟩

/-- What was set aside or lent out on the way is so no longer. -/
theorem restore (u : Underway touched calm w hand w') (lent : List StorageId) :
    Underway touched calm w hand { w' with aside := w.aside, lent } where
  hosts := u.hosts.subperm ((List.subperm_append_left hand).2
    ((List.subperm_append_left (held w'.registers)).2 u.aside))
  aside := .refl _
  same := u.same
  distinct := u.distinct
  keeps := u.keeps

end Underway

/-! ## While an object is set aside -/

/-- The world while the object of a register is out of the table and its windows are set aside. -/
def settingAside (w : World α) (name : String) (o : Object) (lent : List StorageId) : World α :=
  { w.erase name with aside := o.segments ++ w.aside, lent }

theorem sound_settingAside (sound : w.Sound) (found : w.get? name = some o)
    (lent : List StorageId) : (w.settingAside name o lent).Sound := by
  have arranged : (w.settingAside name o lent).alive.Perm
      (o.segments ++ (w.erase name).alive) := by
    simp only [settingAside, alive_eq]
    rw [← List.append_assoc, ← List.append_assoc]
    exact List.perm_append_comm.append_right _
  exact Store.Hosts.subperm sound (arranged.subperm.trans (subperm_take found))

/-- Bystanders of the step are bystanders while an object is set aside for it. -/
theorem bystander_settingAside {touched : String → Prop} {lent : List StorageId} {s : Segment}
    (found : w.get? name = some o)
    (here : w.Bystander (fun other => touched other ∧ other ≠ name) s) :
    (w.settingAside name o lent).Bystander touched s := by
  rcases here with aside | ⟨other, o', apart, there, shown⟩
  · exact .inl (List.mem_append_right _ aside)
  · by_cases same : other = name
    · rw [same, found] at there
      obtain rfl := Option.some.inj there
      exact .inl (List.mem_append_left _ shown)
    · refine .inr ⟨other, o', fun touches => apart ⟨touches, same⟩, ?_, shown⟩
      exact ((get?_erase w name other).trans (if_neg same)).trans there

/-- A step taken while an object is set aside does not touch that object, even if it puts something
else into its register for the time being. -/
theorem underway_settingAside {touched : String → Prop} {calm : Prop} {lent lent' : List StorageId}
    (found : w.get? name = some o)
    (u : Underway touched calm (w.settingAside name o lent) [] w') :
    Underway (fun other => touched other ∧ other ≠ name) calm w []
      ({ w' with aside := w.aside, lent := lent' }.put name o) where
  hosts := by
    have arranged : ({ w' with aside := w.aside, lent := lent' }.put name o).alive.Subperm
        w'.alive := by
      refine (perm_put _ name o).subperm.trans ?_
      have fewer : (held (w'.registers.filter (·.1 != name)) ++ (o.segments ++ w.aside)).Subperm
          (held w'.registers ++ w'.aside) :=
        ((List.subperm_append_right _).2 (subperm_held_filter _ _)).trans
          ((List.subperm_append_left _).2 u.aside)
      refine List.Subperm.trans ?_ fewer
      simp only [alive_eq, World.erase]
      rw [← List.append_assoc, ← List.append_assoc]
      exact (List.perm_append_comm.append_right _).subperm
    exact Store.Hosts.subperm u.hosts arranged
  aside := .refl _
  same := by
    intro other apart
    rw [get?_put]
    by_cases same : other = name
    · rw [if_pos same, same, found]
    · have untouched : ¬touched other := fun touches => apart ⟨touches, same⟩
      have before := u.same other untouched
      simp only [settingAside] at before
      rw [if_neg same]
      exact before.trans ((get?_erase w name other).trans (if_neg same))
  distinct := fun names => nodup_put (w := { w' with aside := w.aside, lent := lent' })
    (u.distinct (nodup_erase names name)) name o
  keeps := fun quiet s here => u.keeps quiet s (bystander_settingAside found here)

end World
end SegmentedText
