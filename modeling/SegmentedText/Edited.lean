import SegmentedText.Fault
import SegmentedText.Store

/-!
# Results of changing something

An operation that changes an object may also change the store, and may be refused
on its way.  Its result holds all three: the object and the store as they are
afterwards, and the answer or the fault.  A fault does not undo what was done
before it.
-/

set_option autoImplicit false

namespace SegmentedText

/-- An object and a store as an operation leaves them, with its answer. -/
structure Edited (ω α ρ : Type) where
  object : ω
  store : Store α
  answer : Except Fault ρ

namespace Edited

variable {ω ω' α ρ ρ' : Type}

/-- The same result with the object seen as part of another. -/
def mapObject (r : Edited ω α ρ) (f : ω → ω') : Edited ω' α ρ := ⟨f r.object, r.store, r.answer⟩

/-- The same result with the answer changed. -/
def mapAnswer (r : Edited ω α ρ) (f : ρ → ρ') : Edited ω α ρ' :=
  ⟨r.object, r.store, r.answer.map f⟩

/-- The result of what is done as a whole, or refused as a whole and leaves everything as it was. -/
def whole (object : ω) (st : Store α) : Except Fault (ω × Store α) → Edited ω α Unit
  | .ok (object, st) => ⟨object, st, .ok ()⟩
  | .error fault => ⟨object, st, .error fault⟩

/-- The result of what is done or refused as a whole and never touches the store. -/
def wholeObject (object : ω) (st : Store α) : Except Fault ω → Edited ω α Unit
  | .ok object => ⟨object, st, .ok ()⟩
  | .error fault => ⟨object, st, .error fault⟩

/-- What comes of an edit that is done or refused as a whole. -/
def outcome (r : Edited ω α Unit) : Except Fault (ω × Store α) :=
  r.answer.map fun _ => (r.object, r.store)

/-- Goes on with what a change has left, unless that was refused. -/
def andThen (r : Edited ω α Unit) (next : ω → Store α → Edited ω α ρ) : Edited ω α ρ :=
  match r.answer with
  | .ok () => next r.object r.store
  | .error fault => ⟨r.object, r.store, .error fault⟩

/-! ## Going on -/

theorem andThen_of_ok {r : Edited ω α Unit} (done : r.answer = .ok ())
    (next : ω → Store α → Edited ω α ρ) : r.andThen next = next r.object r.store := by
  rw [andThen, done]

theorem andThen_of_error {r : Edited ω α Unit} {fault : Fault} (refused : r.answer = .error fault)
    (next : ω → Store α → Edited ω α ρ) :
    r.andThen next = ⟨r.object, r.store, .error fault⟩ := by
  rw [andThen, refused]

theorem mapObject_andThen (r : Edited ω α Unit) (f : ω → ω') (next : ω' → Store α → Edited ω' α ρ) :
    (r.mapObject f).andThen next =
      match r.answer with
      | .ok () => next (f r.object) r.store
      | .error fault => ⟨f r.object, r.store, .error fault⟩ := rfl

/-- Two changes are done, one after the other, if both are. -/
theorem answer_andThen {r : Edited ω α Unit} {next : ω → Store α → Edited ω α ρ} {reply : ρ} :
    (r.andThen next).answer = .ok reply ↔
      r.answer = .ok () ∧ (next r.object r.store).answer = .ok reply := by
  unfold andThen
  cases done : r.answer with
  | ok _ => simp
  | error fault => simp

/-- What a change leaves, and what comes next leaves again, holds of what is left of both. -/
theorem left_andThen {P : ω → Store α → Prop} {r : Edited ω α Unit}
    {next : ω → Store α → Edited ω α ρ} (first : P r.object r.store)
    (second : r.answer = .ok () → P (next r.object r.store).object (next r.object r.store).store) :
    P (r.andThen next).object (r.andThen next).store := by
  unfold andThen
  cases done : r.answer with
  | ok _ => exact second done
  | error fault => exact first

/-! ## Changes as a whole -/

/-- What comes of a change as a whole, when it is done. -/
theorem outcome_eq_ok {r : Edited ω α Unit} {made : ω × Store α} :
    r.outcome = .ok made ↔ r = ⟨made.1, made.2, .ok ()⟩ := by
  obtain ⟨object, st, answer⟩ := r
  obtain ⟨object', st'⟩ := made
  cases answer with
  | ok _ => simp [outcome, Except.map]
  | error fault => simp [outcome, Except.map]

/-- What comes of a change as a whole is what it leaves. -/
theorem left_of_outcome {r : Edited ω α Unit} {made : ω × Store α} (done : r.outcome = .ok made) :
    made = (r.object, r.store) := by
  rw [outcome_eq_ok.1 done]

theorem answer_of_outcome {r : Edited ω α Unit} {made : ω × Store α} (done : r.outcome = .ok made) :
    r.answer = .ok () := by
  rw [outcome_eq_ok.1 done]

theorem outcome_eq_error {r : Edited ω α Unit} {fault : Fault} :
    r.outcome = .error fault ↔ r.answer = .error fault := by
  cases done : r.answer <;> simp [outcome, done, Except.map]

theorem answer_whole_eq_ok {object : ω} {st : Store α} {r : Except Fault (ω × Store α)} :
    (whole object st r).answer = .ok () ↔ ∃ made, r = .ok made := by
  cases r <;> simp [whole]

/-- What holds of the object as it was, and as it is when all is done, holds of what is left. -/
theorem object_whole {P : ω → Prop} {object : ω} {st : Store α} {r : Except Fault (ω × Store α)}
    (old : P object) (done : ∀ made, r = .ok made → P made.1) : P (whole object st r).object := by
  cases r with
  | ok made => exact done made rfl
  | error fault => exact old

theorem object_wholeObject {P : ω → Prop} {object : ω} {st : Store α} {r : Except Fault ω}
    (old : P object) (done : ∀ made, r = .ok made → P made) :
    P (wholeObject object st r).object := by
  cases r with
  | ok made => exact done made rfl
  | error fault => exact old

end Edited
end SegmentedText
