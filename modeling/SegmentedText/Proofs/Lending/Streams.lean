import SegmentedText.Proofs.Lending.Edits
import SegmentedText.Proofs.Streams.Reads

/-!
# Reading while windows are lent out

What is seen of the registers after a run of a reader is told by the tape of the reader
(`World.shown_readAll`), and the tape does not mention what is lent out.  Since every line is
put where the one before it left the sink, and what is lent out has a say in that, a run may be
refused room here and not there, either way; nothing is told of those runs.
-/

set_option autoImplicit false

namespace SegmentedText

/-! ## What is seen of the registers -/

/-- An object is seen the same where its segments show the same. -/
theorem Object.shown_congr {α : Type} {st st' : Store α} {o : Object}
    (same : ∀ s ∈ o.segments, s.content st' = s.content st) : o.shown st' = o.shown st := by
  cases o with
  | segment s => exact congrArg Shown.segment (same s List.mem_cons_self)
  | buffer b =>
      have text : b.content st' = b.content st := contentOf_congr same
      show Shown.buffer _ _ = Shown.buffer _ _
      rw [text]
  | bounded b =>
      have text : b.inner.content st' = b.inner.content st := contentOf_congr same
      show Shown.bounded _ _ _ _ = Shown.bounded _ _ _ _
      rw [text]

namespace World

variable {α : Type} {w w' : World α}

/-- What is seen of the object in a register, apart from how its text is cut. -/
def shown (w : World α) (name : String) : Option (Shown α) := (w.get? name).map (·.shown w.store)

/-- A register that is not touched is seen as it was. -/
theorem shown_of_underway {touched : String → Prop} {calm : Prop} {hand : List Segment}
    (u : Underway touched calm w hand w') (quiet : calm) (sound : w.Sound) {name : String}
    (apart : ¬touched name) : w'.shown name = w.shown name := by
  unfold shown
  rw [u.same name apart]
  cases there : w.get? name with
  | none => rfl
  | some o =>
      exact congrArg some (Object.shown_congr fun s here =>
        u.content_eq quiet sound (.inr ⟨name, o, apart, there, here⟩))

theorem shown_put (w : World α) (name : String) (o : Object) (other : String) :
    (w.put name o).shown other =
      if other = name then some (o.shown w.store) else w.shown other := by
  rw [shown, get?_put]
  split <;> rfl

end World

/-- What is seen of the registers after one use of a reader, given its tape. -/
def Tape.filling {α : Type} [TextUnit α] (t : Tape α) (seen : String → Option (Shown α)) :
    ReadAction → String → Option (Shown α)
  | .readUntil c sink _ => fun name =>
      if name = sink then
        match seen sink with
        | none => some (.buffer (lineOf (TextUnit.ofChar c) t.ahead) {})
        | some (.buffer text layout) =>
            some (.buffer (text ++ lineOf (TextUnit.ofChar c) t.ahead) layout)
        | other => other
      else seen name
  | _ => seen

namespace World

variable {α : Type} [TextUnit α] {w w' : World α} {r r' : Reader α} {segments : List Segment}
  {t : Tape α}

/-- A line is seen behind the text of its sink. -/
theorem filling_of_sinkBuffer? {sink : String} {b : Buffer} (found : w.sinkBuffer? sink = some b)
    (c : Char) (handover : Handover) (name : String) :
    t.filling w.shown (.readUntil c sink handover) name =
      if name = sink then
        some (.buffer (b.content w.store ++ lineOf (TextUnit.ofChar c) t.ahead) b.layout)
      else w.shown name := by
  unfold sinkBuffer? at found
  rw [Tape.filling]
  split at found
  next vacant =>
    obtain rfl := Option.some.inj found
    have seen : w.shown sink = none := by rw [shown, vacant]; rfl
    rw [seen]
    rfl
  next held there =>
    rw [← Option.some.inj found]
    have seen : w.shown sink = some (.buffer (held.content w.store) held.layout) := by
      rw [shown, there]
      rfl
    rw [seen]
  next => cases found

/-- An object that is no sink is seen as it is. -/
theorem filling_of_no_sink {sink : String} (none : w.sinkBuffer? sink = none) (c : Char)
    (handover : Handover) : t.filling w.shown (.readUntil c sink handover) = w.shown := by
  unfold sinkBuffer? at none
  funext name
  rw [Tape.filling]
  split at none
  next => cases none
  next => cases none
  next o other there =>
    have seen : w.shown sink = some (o.shown w.store) := by
      rw [shown, there]
      rfl
    rw [seen]
    cases o with
    | buffer b => exact absurd rfl (other b)
    | segment s | bounded b =>
        dsimp only [Object.shown]
        split
        next same => rw [same, seen, Object.shown]
        next => rfl

/-- What is seen after one use of a reader is told by its tape. -/
theorem shown_readOne (tapes : w.Tapes r segments t) {action : ReadAction} {outcome : ReadOutcome}
    (done : (w.readOne r action).2.2 = .ok outcome) :
    (w.readOne r action).2.1.shown = t.filling w.shown action := by
  cases action with
  | readUntil c sink handover =>
      rw [readOne] at done ⊢
      cases found : w.sinkBuffer? sink with
      | none => rw [readIntoSink_of_no_sink found, filling_of_no_sink found]
      | some b =>
          funext name
          have hosts := hosts_of_sinkBuffer? tapes.sound found
          have u : Underway (· = sink) True w [] (w.readIntoSink r (TextUnit.ofChar c) sink).2.1 :=
            underway_readIntoSink tapes.sound r _ sink
          rw [filling_of_sinkBuffer? found]
          rw [readIntoSink_of_sinkBuffer? found] at done u ⊢
          by_cases same : name = sink
          · have made : (w.erase sink).surroundings.LendsMade w.store := tapes.made
            have lines := tapes.follows.readUntil
              (List.subset_append_of_subset_right _ tapes.aside) (TextUnit.ofChar c) hosts made
            rw [if_pos same]
            rcases lines with ⟨refused, -⟩ | ⟨-, -, text⟩
            · cases done.symm.trans (congrArg (Except.map ReadOutcome.found) refused)
            · rw [filledSink, shown_put, if_pos same, ← text]
              show some (Shown.buffer _ _) = _
              rw [r.layout_readUntil]
              rfl
          · rw [if_neg same, shown_of_underway u trivial tapes.sound same]
  | read handover =>
      rw [readOne]
      split <;> rfl
  | readInto | back | remaining | sizeHint | take | rest => rfl

/-- A run that is not refused room goes on as its tape does, from what is seen after its first
use. -/
theorem later_of_readAll (tapes : w.Tapes r segments t) {action : ReadAction}
    {actions : List ReadAction}
    (room : (w.readAll r (action :: actions)).2 ≠ .error .roomExceeded) :
    ∃ (later : World α) (onward : Reader α), later.Tapes onward segments (t.step action).1 ∧
      later.shown = t.filling w.shown action ∧
      (w.readAll r (action :: actions)).1 = (later.readAll onward actions).1 ∧
      (later.readAll onward actions).2 ≠ .error .roomExceeded := by
  have told := told_readOne tapes action
  have seen : ∀ outcome, (w.readOne r action).2.2 = .ok outcome →
      (w.readOne r action).2.1.shown = t.filling w.shown action :=
    fun _ done => shown_readOne tapes done
  rw [readAll] at room ⊢
  rcases used : w.readOne r action with ⟨onward, later, fault | outcome⟩
  · rw [used] at told room
    rcases told with ⟨full, -⟩ | ⟨well, -⟩
    · exact absurd (congrArg Except.error (Except.error.inj full)) room
    · cases well
  · rw [used] at told room seen
    rcases told with ⟨full, -⟩ | ⟨-, after⟩
    · cases full
    · exact ⟨later, onward, after, seen outcome rfl, rfl,
        fun full => room (congrArg (Except.map _) full)⟩

/-- **Two runs of readers on one tape are seen to do the same**, where neither is refused room. -/
theorem shown_readAll (tapes : w.Tapes r segments t) (tapes' : w'.Tapes r' segments t)
    (same : w'.shown = w.shown) {actions : List ReadAction}
    (room : (w.readAll r actions).2 ≠ .error .roomExceeded)
    (room' : (w'.readAll r' actions).2 ≠ .error .roomExceeded) :
    (w'.readAll r' actions).1.shown = (w.readAll r actions).1.shown := by
  induction actions generalizing w w' r r' t with
  | nil => exact same
  | cons action rest ih =>
      obtain ⟨later, onward, after, seen, run, room⟩ := later_of_readAll tapes room
      obtain ⟨later', onward', after', seen', run', room'⟩ := later_of_readAll tapes' room'
      rw [run, run']
      exact ih after after' (by rw [seen, seen', same]) room room'

end World

end SegmentedText
