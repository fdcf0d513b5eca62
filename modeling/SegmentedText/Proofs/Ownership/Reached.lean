import SegmentedText.Proofs.Ownership.Steps

/-!
# Reached worlds

What can be done to a world is more than the steps say: an edit may come with
segments, buffers and a provider from outside of the table.  An action is a step or
such an edit, and it is fair when what comes with it is hosted beside everything that is
alive, and stays alive while it is relied on (`Action.Fair`).

A world is reached if fair actions lead to it from the empty world.  Every reached
world is sound, however its objects share their arrays and in whatever order they were
made, changed and dropped (`World.reached_sound`); and no run of actions elsewhere,
none of which overwrites text in place, shows in an object
(`World.unchanged_elsewhere`).
-/

set_option autoImplicit false

namespace SegmentedText

/-! ## Actions -/

/-- A step, or an edit that comes from outside of the table.  The windows in `relied` are what its
arguments share or rely on; they are alive while it runs. -/
inductive Action (α : Type) where
  | step (step : Step)
  | edit (target : String) (edit : Edit α) (relied : List Segment)

namespace Action

variable {α : Type}

/-- The registers that an action touches. -/
def Touches [TextUnit α] (action : Action α) (w : World α) (name : String) : Prop :=
  match action with
  | .step request => request.Touches w name
  | .edit target _ _ => name = target

/-- The registers of whose windows an action may leave more. -/
def Shares (action : Action α) (name : String) : Prop :=
  match action with
  | .step request => request.Shares name
  | .edit _ _ _ => False

/-- The windows from outside of the table that an object may come to share.  An edit that overwrites
text where it is shares none. -/
def brought : Action α → List Segment
  | .step _ => []
  | .edit _ change relied => if change.inPlace then [] else change.windows ++ relied

/-- Whether an action overwrites text where it is. -/
def inPlace : Action α → Bool
  | .step request => request.inPlace
  | .edit _ change _ => change.inPlace

/-- What comes with an edit is hosted beside everything that is alive, and what the edit shares or
relies on is among what is kept alive for it. -/
def Fair (w : World α) : Action α → Prop
  | .step _ => True
  | .edit _ change relied =>
      w.store.Hosts (change.windows ++ (relied ++ w.alive)) ∧ change.Fits [] relied

end Action

theorem Edit.Fits.mono {α : Type} {edit : Edit α} {relied own others : List Segment}
    (fits : edit.Fits [] relied) (alive : relied ⊆ others) : edit.Fits own others := by
  cases edit
  case appendBuffer other => exact fun s here => List.mem_append_right _ (alive (fits here))
  case substitute opening closing provider =>
    obtain ⟨kept, among, fair⟩ := fits
    exact ⟨kept, fun s here => alive (among here), fair⟩
  all_goals exact trivial

namespace World

variable {α : Type} [TextUnit α] {w w' : World α}

/-- Carries an action out. -/
def act (w : World α) : Action α → World α × Answer
  | .step step => w.step step
  | .edit target edit relied =>
      match { w with aside := relied ++ w.aside }.applyEdit target edit with
      | some (after, answer) => ({ after with aside := w.aside, lent := w.lent }, answer)
      | none => (w, .malformed)

/-- A fair action that begins away from cells, and shares nothing that reaches them, keeps away from
them. -/
theorem confined_act {far : Cell → Prop} {action : Action α}
    (start : Confined (action.Touches w) (action.inPlace = false) far w [] w) (fair : action.Fair w)
    (avoids : w.Avoids action.Shares far) (clear : ∀ s ∈ action.brought, s.Avoids far) :
    Confined (action.Touches w) (action.inPlace = false) far w [] (w.act action).1 := by
  cases action with
  | step step => exact confined_step step start avoids
  | edit target edit relied =>
      obtain ⟨hosts, fits⟩ := fair
      rw [act]
      split
      next after answer done =>
        let beside : World α := { w with aside := relied ++ w.aside }
        have arranged : w.store.Hosts (relied ++ edit.windows ++ w.alive) := by
          rw [← List.append_assoc] at hosts
          exact hosts.perm (List.perm_append_comm.append_right _)
        have given : (∀ s ∈ edit.windows, s.Avoids far) ∧ ∀ own others,
            (∀ s ∈ relied, s.Avoids far → s ∈ others) → edit.Fits own others := by
          cases inPlace : edit.inPlace with
          | true =>
              obtain ⟨none, free⟩ := edit.nothing_shared inPlace
              exact ⟨by rw [none]; nofun, fun own others _ => free own others⟩
          | false =>
              rw [Action.brought, inPlace, if_neg (by decide)] at clear
              exact ⟨fun s here => clear s (List.mem_append_left _ here), fun own others alive =>
                fits.mono fun s here => alive s here (clear s (List.mem_append_right _ here))⟩
        have out : Confined ((Action.edit target edit relied).Touches w) (edit.inPlace = false) far w
            edit.windows beside :=
          ⟨(start.toUnderway.rearrange arranged).setAside, start.guarded, given.1, start.registers,
            start.units⟩
        have relies : Relies far edit beside target := fun o others _ alive =>
          given.2 o.segments others fun s here =>
            alive s (List.mem_append_right _ (List.mem_append_left _ here))
        exact (confined_applyEdit out relies rfl id done).restore w.lent
      next => exact start

/-- Every fair action keeps a world sound, and shows in no register that it does not touch. -/
theorem underway_act (sound : w.Sound) {action : Action α} (fair : action.Fair w) :
    Underway (action.Touches w) (action.inPlace = false) w [] (w.act action).1 :=
  (confined_act (.of_underway (.refl sound)) fair (avoids_none w _)
    fun _ _ _ none => none.elim).toUnderway

/-! ## Reached worlds -/

/-- The worlds that fair actions lead to from the empty world, none of which is barred where it is
carried out. -/
inductive Reached (barred : World α → Action α → Prop) : World α → Prop where
  | start : Reached barred {}
  | act {w : World α} {action : Action α} : Reached barred w → action.Fair w →
      ¬barred w action → Reached barred (w.act action).1

variable {barred : World α → Action α → Prop}

theorem Reached.sound (reached : Reached barred w) : w.Sound := by
  induction reached with
  | start => exact .nil _
  | act _ fair _ ih => exact (underway_act ih fair).sound

theorem Reached.distinct (reached : Reached barred w) : (w.registers.map Prod.fst).Nodup := by
  induction reached with
  | start => exact List.nodup_nil
  | act before fair _ ih => exact (underway_act before.sound fair).distinct ih

/-! ## Who owns room -/

/-- The number of windows that are alive over an array. -/
def strongCount (live : List Segment) (id : StorageId) : Nat := live.countP (·.storage == id)

omit [TextUnit α] in
/-- With an object out of the table, everything else is what surrounds it. -/
theorem perm_take (distinct : (w.registers.map Prod.fst).Nodup) {name : String} {o : Object}
    (found : w.get? name = some o) : (o.segments ++ (w.erase name).alive).Perm w.alive := by
  have registers : ∀ {entries : List (String × Object)}, (entries.map Prod.fst).Nodup →
      entries.lookup name = some o →
      (o.segments ++ held (entries.filter (·.1 != name))).Perm (held entries) := by
    intro entries distinct found
    induction entries with
    | nil => cases found
    | cons entry rest ih =>
        obtain ⟨first, object⟩ := entry
        obtain ⟨fresh, later⟩ := List.nodup_cons.1 distinct
        rw [List.lookup_cons] at found
        by_cases same : name = first
        · subst same
          rw [beq_self_eq_true, Option.some.injEq] at found
          subst found
          have kept : rest.filter (·.1 != name) = rest := by
            refine List.filter_eq_self.2 fun entry here => ?_
            have other : entry.1 ≠ name := fun same =>
              fresh (List.mem_map.2 ⟨entry, here, same⟩)
            simpa using other
          rw [List.filter_cons_of_neg (by simp), kept]
          exact .refl _
        · rw [beq_eq_false_iff_ne.2 same] at found
          rw [List.filter_cons_of_pos (by simpa using Ne.symm same)]
          refine List.Perm.trans ?_ ((ih later found).append_left object.segments)
          simp only [held, List.flatMap_cons, ← List.append_assoc]
          exact List.perm_append_comm.append_right _
  rw [alive_eq, alive_eq, ← List.append_assoc]
  exact (registers distinct found).append_right w.aside

end World

/-- The room at the end is kept exactly if the window is the only one that is alive over its
array. -/
theorem Segment.releaseTail_eq (s : Segment) (around : Surroundings) :
    s.releaseTail around =
      if World.strongCount (s :: around.alive) s.storage = 1 then s
      else { s with limit := s.stop } := by
  have counted : World.strongCount (s :: around.alive) s.storage =
      around.alive.countP (·.storage == s.storage) + 1 :=
    List.countP_cons_of_pos (beq_self_eq_true _)
  rw [releaseTail, counted]
  by_cases shared : around.shows s.storage = true
  · have others : 0 < around.alive.countP (·.storage == s.storage) :=
      List.countP_pos_iff.2 (List.any_eq_true.1 shared)
    rw [if_pos shared, if_neg (by omega)]
  · have alone : ¬0 < around.alive.countP (·.storage == s.storage) :=
      fun some => shared (List.any_eq_true.2 (List.countP_pos_iff.1 some))
    rw [if_neg shared, if_pos (by omega)]

namespace World

variable {α : Type} [TextUnit α] {barred : World α → Action α → Prop}

/-- **Every reached world is sound, and stays so whatever is done.**

Each window that is alive lies in order within its array, and none of the cells that it may be
extended into lies in the range of any other window over the array.  When an object is changed, the
windows that surround one of its segments are all others that are alive, less the segments of the
object that have gone already; so giving up the room at its end goes by the number of windows
that are alive over its array. -/
theorem reached_sound (barred : World α → Action α → Prop) :
    (∀ w : World α, Reached barred w →
      (∀ s ∈ w.alive, s.start ≤ s.stop ∧ s.stop ≤ s.limit ∧ s.limit ≤ w.store.extent s.storage) ∧
      (∀ (i j : Nat) (s t : Segment), i ≠ j → w.alive[i]? = some s → w.alive[j]? = some t →
        s.storage = t.storage → ∀ k, s.stop ≤ k → k < s.limit → ¬(t.start ≤ k ∧ k < t.limit))) ∧
    (∀ (w : World α) (action : Action α), w.Sound → action.Fair w → (w.act action).1.Sound) ∧
    (∀ (w : World α) (name : String) (o : Object) (rest : World α) (front gone : List Segment)
      (last : Segment), Reached barred w → w.take? name = some (o, rest) →
      o.segments = front ++ last :: gone →
      (gone ++ last :: (rest.surroundings.besides front).alive).Perm w.alive) ∧
    (∀ (s : Segment) (around : Surroundings), s.releaseTail around =
      if strongCount (s :: around.alive) s.storage = 1 then s
      else { s with limit := s.stop }) := by
  refine ⟨fun w reached => ⟨fun s here => ?_, ?_⟩, fun w action sound fair => ?_, ?_,
    Segment.releaseTail_eq⟩
  · have valid := (reached.sound.placed s here).valid
    exact ⟨valid.start_le_stop, valid.stop_le_limit, valid.limit_le_extent⟩
  · intro i j s t different first second same k behind before shown
    have apart : s.Apart t := by
      obtain ⟨inside, rfl⟩ := List.getElem?_eq_some_iff.1 first
      obtain ⟨inside', rfl⟩ := List.getElem?_eq_some_iff.1 second
      rcases Nat.lt_or_gt_of_ne different with less | more
      · exact List.pairwise_iff_getElem.1 reached.sound.apart i j inside inside' less
      · exact (List.pairwise_iff_getElem.1 reached.sound.apart j i inside' inside more).symm
    exact apart.left ⟨s.storage, k⟩ ⟨rfl, behind, before⟩ ⟨same, shown.1, shown.2⟩
  · exact (underway_act sound fair).sound
  · intro w name o rest front gone last reached taken parts
    obtain ⟨there, rfl⟩ := eq_of_take? taken
    have all := perm_take reached.distinct there
    rw [parts] at all
    refine List.Perm.trans (List.perm_iff_count.2 fun s => ?_) all
    simp only [Surroundings.besides, surroundings, List.count_append, List.count_cons]
    omega

/-- Two windows that show the same cells; the first one has room behind them. -/
def sharedPair : World Char :=
  ((({} : World Char).act (.step (.make "a" (.segmentOfArray "xy" 8)))).1.act
    (.step (.derive "a" "b" .shared))).1

theorem reached_sharedPair : Reached (fun _ _ => False) sharedPair :=
  .act (.act .start trivial id) trivial id

theorem reached_sound_sharedPair :
    sharedPair.alive = [⟨⟨0⟩, 0, 2, 8⟩, ⟨⟨0⟩, 0, 2, 2⟩] ∧
      (∀ s ∈ sharedPair.alive, s.start ≤ s.stop ∧ s.stop ≤ s.limit ∧
        s.limit ≤ sharedPair.store.extent s.storage) ∧
      (∀ k, 2 ≤ k → k < 8 → ¬(0 ≤ k ∧ k < 2)) ∧
      (sharedPair.act (.step (.change "a" (.removeEnd 1)))).1.Sound ∧
      ([] ++ (⟨⟨0⟩, 0, 2, 8⟩ : Segment) ::
        ((sharedPair.erase "a").surroundings.besides []).alive).Perm sharedPair.alive ∧
      (⟨⟨0⟩, 0, 1, 8⟩ : Segment).releaseTail (sharedPair.erase "a").surroundings =
        ⟨⟨0⟩, 0, 1, 1⟩ := by
  obtain ⟨shape, kept, around, room⟩ := reached_sound (α := Char) fun _ _ => False
  obtain ⟨ordered, apart⟩ := shape sharedPair reached_sharedPair
  refine ⟨by decide, ordered, ?_, kept sharedPair _ reached_sharedPair.sound trivial, ?_, ?_⟩
  · exact apart 0 1 ⟨⟨0⟩, 0, 2, 8⟩ ⟨⟨0⟩, 0, 2, 2⟩ (by decide) (by decide) (by decide) rfl
  · exact around sharedPair "a" (.segment ⟨⟨0⟩, 0, 2, 8⟩) _ [] [] _ reached_sharedPair rfl rfl
  · rw [room]
    decide

/-! ## Actions elsewhere -/

/-- Runs of fair actions that do not touch a register and overwrite no text in place. -/
inductive Elsewhere (name : String) : World α → World α → Prop where
  | refl (w : World α) : Elsewhere name w w
  | act {w w' : World α} {action : Action α} : Elsewhere name w w' → action.Fair w' →
      action.inPlace = false → ¬action.Touches w' name → Elsewhere name w (w'.act action).1

theorem Elsewhere.underway {name : String} {w w' : World α} (sound : w.Sound)
    (run : Elsewhere name w w') : Underway (· ≠ name) True w [] w' := by
  induction run with
  | refl => exact .refl sound
  | act before fair calm apart ih =>
      have last := (underway_act ih.sound fair).mono
        fun other touches (same : other = name) => apart (same ▸ touches)
      exact ih.trans ⟨last.hosts, last.aside, last.same, last.distinct, fun _ => last.keeps calm⟩

end World

namespace Object

variable {α : Type} {st st' : Store α}

/-- What an object shows is what its windows show. -/
theorem content_congr (o : Object) (same : ∀ s ∈ o.segments, s.content st' = s.content st) :
    o.content st' = o.content st := by
  unfold content
  exact List.flatMap_congr same

theorem dump_congr [TextUnit α] (o : Object)
    (same : ∀ s ∈ o.segments, s.content st' = s.content st) : o.dump st' = o.dump st := by
  have windows : o.segments.map (·.dump st') = o.segments.map (·.dump st) :=
    List.map_congr_left fun s here => by
      rw [Segment.dump, Segment.dump, Segment.display, Segment.display, same s here]
  cases o with
  | segment s => exact congrArg Dump.segment (List.cons.inj windows).1
  | buffer b => exact congrArg Dump.buffer windows
  | bounded b => exact congrArg (Dump.bounded b.maxSize b.size) windows

end Object

namespace World

variable {α : Type} [TextUnit α] {barred : World α → Action α → Prop}

/-- **What is done elsewhere does not show in an object.** -/
theorem unchanged_elsewhere {name : String} {w w' : World α} {o : Object}
    (reached : Reached barred w) (run : Elsewhere name w w') (there : w.get? name = some o) :
    w'.get? name = some o ∧
      (∀ s ∈ o.segments, s.content w'.store = s.content w.store) ∧
      o.content w'.store = o.content w.store ∧ o.dump w'.store = o.dump w.store := by
  have u := run.underway reached.sound
  have windows : ∀ s ∈ o.segments, s.content w'.store = s.content w.store := by
    intro s here
    have bystander : w.Bystander (· ≠ name) s := .inr ⟨name, o, fun other => other rfl, there, here⟩
    have ordered := (reached.sound.placed s (subset_alive_of_get? there here)).valid.stop_le_limit
    have keeps : w.store.Keeps w'.store [s] := fun t shown c reached => by
      obtain rfl := List.mem_singleton.1 shown
      exact u.keeps trivial t bystander c reached
    exact keeps.content_eq List.mem_cons_self ordered
  refine ⟨(u.same name fun other => other rfl).trans there, windows, ?_, ?_⟩
  · exact o.content_congr windows
  · exact o.dump_congr windows

/-- An append to one of two windows over the same cells writes behind the other. -/
theorem unchanged_elsewhere_sharedPair :
    let w' := (sharedPair.act (.step (.change "a" (.append 'z')))).1
    w'.dump = [("b", .segment ⟨"xy", 2⟩), ("a", .segment ⟨"xyz", 8⟩)] ∧
      w'.get? "b" = some (.segment ⟨⟨0⟩, 0, 2, 2⟩) ∧
      (Object.segment ⟨⟨0⟩, 0, 2, 2⟩).content w'.store = ['x', 'y'] := by
  have run : Elsewhere "b" sharedPair (sharedPair.act (.step (.change "a" (.append 'z')))).1 :=
    .act (.refl _) trivial rfl (by simp [Action.Touches, Step.Touches, Change.Uses])
  have same := unchanged_elsewhere reached_sharedPair run
    (show sharedPair.get? "b" = some (.segment ⟨⟨0⟩, 0, 2, 2⟩) by decide)
  exact ⟨by decide, same.1, same.2.2.1.trans (by decide)⟩

end World
end SegmentedText
