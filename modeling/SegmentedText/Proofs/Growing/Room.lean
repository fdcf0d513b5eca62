import SegmentedText.Proofs.Ownership.Segments

/-!
# Room in a segment

A segment that is to grow stays where it is if it has the room and its array is not lent out.
Otherwise it moves to the front of an array of its own.  Both ways it shows what it showed before,
has the room that it was to have and no less capacity, and is over an array that is not lent out;
no other window can tell (`Segment.Grown`, `Segment.grown_makeRoom`).  Only arrays that have been
made are lent out (`Surroundings.LendsMade`), so a new array never is.

To make room for a number of units is refused if there can be no array of that capacity.  An
append is refused where the room that it asks for is, and then does nothing
(`Segment.add_of_canReserve`, `Segment.add_of_not_canReserve`).  The units of all calls
that are not refused are shown in order behind what was there before, however they are
divided into calls (`Segment.content_addAll`).

A segment that is lent out moves to the same array for whichever number of units that it has
room for (`Segment.nextCapacity_of_le_spare`), so units one by one and units in bulk end up in
the same cells, or are refused alike (`Segment.appendEach_eq_appendSlice`).
-/

set_option autoImplicit false

namespace SegmentedText

theorem Store.size_writeAll {α : Type} (st : Store α) (id : StorageId) (i : Nat) (units : List α) :
    (st.writeAll id i units).arrays.size = st.arrays.size := by
  induction units generalizing st i with
  | nil => rfl
  | cons u us ih => exact (ih _ _).trans (Array.size_modify ..)

/-! ## What is lent out -/

/-- Only arrays that have been made are lent out. -/
def Surroundings.LendsMade {α : Type} (around : Surroundings) (st : Store α) : Prop :=
  ∀ id ∈ around.lent, id.index < st.arrays.size

namespace Surroundings

variable {α : Type} {st st' : Store α} {around : Surroundings}

theorem LendsMade.grow (made : around.LendsMade st) (le : st.arrays.size ≤ st'.arrays.size) :
    around.LendsMade st' := fun id here => Nat.lt_of_lt_of_le (made id here) le

theorem lendsMade_singleton {alive : List Segment} {id : StorageId}
    (made : id.index < st.arrays.size) : LendsMade { alive, lent := [id] } st :=
  fun _ here => List.mem_singleton.1 here ▸ made

theorem LendsMade.lending (made : around.LendsMade st) {id : StorageId}
    (there : id.index < st.arrays.size) : (around.lending id).LendsMade st :=
  List.forall_mem_cons.2 ⟨there, made⟩

/-- A new array is not lent out. -/
theorem LendsMade.unlent_of_new (made : around.LendsMade st) {id : StorageId}
    (new : st.arrays.size ≤ id.index) : around.lends id = false := by
  refine Bool.eq_false_iff.2 fun lent => ?_
  have older := made id (List.contains_iff_mem.1 lent)
  omega

end Surroundings

namespace Segment

variable {α : Type} [TextUnit α] {st : Store α} {s : Segment} {others : List Segment}
  {around : Surroundings}

/-! ## Staying in place -/

theorem size_allocate (units : List α) (capacity : Nat) (st : Store α) :
    (allocate units capacity st).2.arrays.size = st.arrays.size + 1 := Array.size_push ..

theorem spare_extended (s : Segment) (count : Nat) :
    (s.extended count).spare = s.spare - count := by
  simp only [spare, extended]
  omega

omit [TextUnit α] in
theorem hasRoom_of_unlent (unlent : around.lends s.storage = false) {additional : Nat}
    (room : additional ≤ s.spare) : s.hasRoom around additional = true := by
  simp [hasRoom, unlent, room]

/-- In the room of a segment everything is done where it is. -/
theorem growing_of_unlent (unlent : around.lends s.storage = false) {additional : Nat}
    (room : additional ≤ s.spare) (next : Segment → Store α → Edited Segment α Unit)
    (st : Store α) : s.growing around additional next st = next s st := by
  have here := hasRoom_of_unlent unlent room
  rw [growing_of_canReserve (Bool.or_eq_true_iff.2 (.inl here)), makeRoom, if_pos here]

/-- A unit goes into the room of a segment. -/
theorem append_of_unlent (unlent : around.lends s.storage = false) (room : 1 ≤ s.spare) (u : α)
    (st : Store α) : s.append around u st = s.fillBehind [u] st :=
  growing_of_unlent unlent room _ st

/-- Units in bulk go into the room of a segment. -/
theorem appendSlice_of_unlent (unlent : around.lends s.storage = false) {units : List α}
    (room : units.length ≤ s.spare) (st : Store α) :
    s.appendSlice around units st = s.fillBehind units st := by
  cases units with
  | nil => rfl
  | cons u us =>
      rw [appendSlice_of_ne_nil s around (List.cons_ne_nil u us)]
      exact growing_of_unlent unlent room _ st

/-- Units one by one go into the room of a segment as well. -/
theorem appendEach_of_unlent (unlent : around.lends s.storage = false) {units : List α}
    (room : units.length ≤ s.spare) (st : Store α) :
    s.appendEach around units st = s.fillBehind units st := by
  induction units generalizing s st with
  | nil => rfl
  | cons u us ih =>
      rw [List.length_cons] at room
      have left : us.length ≤ (s.extended 1).spare := by
        rw [spare_extended]
        omega
      rw [appendEach, append_of_unlent unlent (by omega), Edited.andThen_of_ok rfl]
      refine (ih (s := s.extended 1) unlent left (st.write s.storage s.stop u)).trans ?_
      simp only [fillBehind, extended, Store.writeAll, List.length_cons, Nat.add_assoc,
        Nat.add_comm 1]

/-! ## Why an append is refused -/

section

variable {fault : Fault}

/-- Only want of room refuses what is done behind a segment. -/
theorem refused_growing {additional : Nat} {next : Segment → Store α → Edited Segment α Unit}
    (only : ∀ (s : Segment) (st : Store α), (next s st).answer = .error fault →
      fault = .roomExceeded)
    (refused : (s.growing around additional next st).answer = .error fault) :
    fault = .roomExceeded := by
  by_cases can : s.canReserve α around additional = true
  · rw [growing_of_canReserve can] at refused
    exact only _ _ refused
  · rw [growing_of_not_canReserve can] at refused
    exact (Except.error.inj refused).symm

theorem refused_append {u : α} (refused : (s.append around u st).answer = .error fault) :
    fault = .roomExceeded :=
  refused_growing (fun _ _ impossible => by cases impossible) refused

/-- Units that are refused at once leave everything as it was. -/
theorem eq_of_refused_appendSlice {units : List α}
    (refused : (s.appendSlice around units st).answer = .error fault) :
    s.appendSlice around units st = ⟨s, st, .error .roomExceeded⟩ := by
  unfold appendSlice at refused ⊢
  split at refused
  next => cases refused
  next some =>
    rw [if_neg some]
    by_cases can : s.canReserve α around units.length = true
    · rw [growing_of_canReserve can] at refused
      cases refused
    · exact growing_of_not_canReserve can

theorem refused_appendSlice {units : List α}
    (refused : (s.appendSlice around units st).answer = .error fault) : fault = .roomExceeded := by
  rw [eq_of_refused_appendSlice refused] at refused
  exact (Except.error.inj refused).symm

theorem refused_appendEach {units : List α}
    (refused : (s.appendEach around units st).answer = .error fault) : fault = .roomExceeded := by
  induction units generalizing s st with
  | nil => cases refused
  | cons u us ih =>
      rw [appendEach] at refused
      cases first : (s.append around u st).answer with
      | ok _ =>
          rw [Edited.andThen_of_ok first] at refused
          exact ih refused
      | error fault' =>
          rw [Edited.andThen_of_error first] at refused
          exact Except.error.inj refused ▸ refused_append first

end

/-! ## Where there can be room -/

/-- What is lent out is all that an append goes by outside of its segment. -/
theorem canReserve_congr {around' : Surroundings} (same : around'.lent = around.lent) (count : Nat) :
    s.canReserve α around' count = s.canReserve α around count := by
  rw [canReserve, canReserve, hasRoom, hasRoom, Surroundings.lends, Surroundings.lends, same]

omit [TextUnit α] in
/-- The larger array does not depend on how many of the units that have room are to be appended. -/
theorem nextCapacity_of_le_spare (valid : s.Valid st) {count : Nat} (room : count ≤ s.spare) :
    s.nextCapacity count = s.nextCapacity 0 := by
  have larger : s.capacity ≤
      if s.capacity < 1024 then s.capacity + 512 else s.capacity + s.capacity / 2 := by
    split <;> omega
  have within : s.length + count ≤ s.capacity := by
    have ordered := valid.start_le_stop
    have inside := valid.stop_le_limit
    simp only [length, capacity, spare] at room ⊢
    omega
  rw [nextCapacity, nextCapacity, grownCapacity, grownCapacity, Nat.max_eq_left (by omega),
    Nat.max_eq_left (by omega)]

/-- Whether a segment takes units for which it has room depends on what is lent out, but not on
their number. -/
theorem canReserve_of_le_spare (valid : s.Valid st) {count : Nat} (room : count ≤ s.spare) :
    s.canReserve α around count = s.canReserve α around 0 := by
  rw [canReserve, canReserve, nextCapacity_of_le_spare valid room, hasRoom, hasRoom,
    decide_eq_true room, decide_eq_true (Nat.zero_le _)]

/-- What is not lent out takes units for which it has room. -/
theorem canReserve_of_unlent (unlent : around.lends s.storage = false) {count : Nat}
    (room : count ≤ s.spare) : s.canReserve α around count = true :=
  Bool.or_eq_true_iff.2 (.inl (hasRoom_of_unlent unlent room))

/-- A segment that is longer in the room that it has moves to the same array. -/
theorem canReserve_extended (valid : s.Valid st) {count : Nat} (room : count ≤ s.spare) :
    (s.extended count).canReserve α around 0 = s.canReserve α around 0 := by
  have longer : (s.extended count).length = s.length + count := by
    have ordered := valid.start_le_stop
    simp only [length, extended]
    omega
  have same : (s.extended count).nextCapacity 0 = s.nextCapacity 0 := by
    rw [← nextCapacity_of_le_spare valid room, nextCapacity, nextCapacity, longer]
    rfl
  rw [canReserve, canReserve, same, hasRoom, hasRoom, decide_eq_true (Nat.zero_le _),
    decide_eq_true (Nat.zero_le _)]
  rfl

/-- Units in bulk do not hinder those that come after them, whatever is lent out then. -/
theorem canReserve_appendSlice (valid : s.Valid st) {around' : Surroundings}
    (made : around'.LendsMade st) {units : List α} (room : units.length ≤ s.spare)
    (can : s.canReserve α around' 0 = true) :
    (s.appendSlice around units st).object.canReserve α around' 0 = true := by
  unfold appendSlice
  split
  next => exact can
  next =>
    refine left_growing (P := fun s' _ => s'.canReserve α around' 0 = true) can fun _ => ?_
    unfold makeRoom
    split
    next => exact (canReserve_extended valid room).trans can
    next => exact canReserve_of_unlent (made.unlent_of_new (Nat.le_refl _)) (Nat.zero_le _)

/-- Units in bulk take up no more of the room than they are, wherever they go. -/
theorem spare_appendSlice (around : Surroundings) (valid : s.Valid st) (units : List α) :
    s.spare ≤ (s.appendSlice around units st).object.spare + units.length := by
  have ordered := valid.start_le_stop
  have inside := valid.stop_le_limit
  have less := s.length_content_le st
  unfold appendSlice
  split
  next => exact Nat.le_add_right _ _
  next =>
    refine left_growing (P := fun s' _ => s.spare ≤ s'.spare + units.length)
      (Nat.le_add_right _ _) fun _ => ?_
    have grown := lt_grownCapacity s.capacity (s.length + units.length)
    unfold makeRoom
    split
    next =>
      simp only [spare, fillBehind]
      omega
    next =>
      simp only [allocate, fillBehind, nextCapacity, spare, capacity, length] at less grown ⊢
      omega

/-! ## Making room -/

/-- What is so of a segment that has been given room, whether it has moved or not. -/
structure Grown (others : List Segment) (around : Surroundings) (s : Segment) (st : Store α)
    (additional : Nat) (s' : Segment) (st' : Store α) : Prop where
  /-- It shows what it showed before. -/
  content_eq : s'.content st' = s.content st
  /-- The room is there. -/
  room : additional ≤ s'.spare
  /-- It can show no less than before. -/
  capacity_le : s.capacity ≤ s'.capacity
  /-- Nobody looks at the array. -/
  unlent : around.lends s'.storage = false
  /-- Where it stays, nothing is done. -/
  stays : s'.storage = s.storage → s' = s ∧ st' = st
  /-- Where it moves, it has the array to itself. -/
  moves : s'.storage ≠ s.storage → ∀ o ∈ others, o.sharesStorage s' = false
  /-- All other windows keep their cells, and what the cells hold. -/
  undisturbed : Undisturbed others st [s'] st'

/-- A segment that moves to a new array does not share it. -/
theorem grown_allocate (hosts : st.Hosts (s :: others)) (made : around.LendsMade st)
    (additional : Nat) :
    Grown others around s st additional (allocate (s.content st) (s.nextCapacity additional) st).1
      (allocate (s.content st) (s.nextCapacity additional) st).2 where
  content_eq := content_allocate _ _ st
  room := by
    have counted := (hosts.placed s List.mem_cons_self).valid.length_content
    have enough := le_grownCapacity s.capacity (s.length + additional)
    show additional ≤ max (s.nextCapacity additional) (s.content st).length - (s.content st).length
    rw [counted, nextCapacity]
    omega
  capacity_le := by
    have more := lt_grownCapacity s.capacity (s.length + additional)
    rw [capacity_allocate, nextCapacity]
    omega
  unlent := made.unlent_of_new (Nat.le_refl _)
  stays same := by
    have older := (hosts.placed s List.mem_cons_self).made
    exact absurd (congrArg StorageId.index same) (Nat.ne_of_gt older)
  moves _ o here := by
    refine Bool.eq_false_iff.2 fun shared => ?_
    have older := (hosts.placed o (List.mem_cons_of_mem _ here)).made
    rw [beq_iff_eq.1 shared] at older
    exact Nat.lt_irrefl _ older
  undisturbed := undisturbed_allocate _ _ (Store.Hosts.cons_iff.1 hosts).2.1

theorem grown_makeRoom (hosts : st.Hosts (s :: others)) (made : around.LendsMade st)
    (additional : Nat) :
    Grown others around s st additional (s.makeRoom around additional st).1
      (s.makeRoom around additional st).2 := by
  unfold makeRoom
  split
  next room =>
    obtain ⟨fits, unlent⟩ := Bool.and_eq_true_iff.1 room
    exact ⟨rfl, of_decide_eq_true fits, Nat.le_refl _, by simpa using unlent,
      fun _ => ⟨rfl, rfl⟩, fun moved => absurd rfl moved, .refl hosts⟩
  next => exact grown_allocate hosts made additional

/-! ## Units one by one and in bulk -/

/-- What has been given room takes so many units one by one where it is. -/
theorem appendEach_of_grown {others : List Segment} {s' : Segment} {st' : Store α}
    {units : List α} (grown : Grown others around s st units.length s' st') :
    s'.appendEach around units st' = s'.fillBehind units st' :=
  appendEach_of_unlent grown.unlent grown.room st'

/-- Units one by one and units in bulk end up in the same cells, where there is room for them. -/
theorem appendEach_eq_appendSlice (placed : s.Placed st) (made : around.LendsMade st)
    {units : List α} (room : units.length ≤ s.spare) :
    s.appendEach around units st = s.appendSlice around units st := by
  cases units with
  | nil => rfl
  | cons u us =>
      have one : 1 ≤ s.spare := Nat.le_trans (Nat.le_add_left 1 us.length) room
      have same : s.canReserve α around 1 = s.canReserve α around (u :: us).length := by
        rw [canReserve_of_le_spare placed.valid one, canReserve_of_le_spare placed.valid room]
      rw [appendSlice_of_ne_nil s around (List.cons_ne_nil u us), appendEach, append]
      by_cases can : s.canReserve α around 1 = true
      · have alone : st.Hosts (s :: []) :=
          Store.Hosts.cons_iff.2 ⟨placed, .nil st, List.forall_mem_nil _⟩
        have grown := grown_makeRoom alone made (u :: us).length
        have moves : s.makeRoom around 1 st = s.makeRoom around (u :: us).length st := by
          rw [makeRoom, makeRoom, nextCapacity_of_le_spare placed.valid one,
            nextCapacity_of_le_spare placed.valid room, hasRoom, hasRoom, decide_eq_true one,
            decide_eq_true room]
        rw [growing_of_canReserve can, growing_of_canReserve (same ▸ can), moves,
          ← appendEach_of_grown grown, appendEach, append_of_unlent grown.unlent
            (Nat.le_trans (Nat.le_add_left 1 us.length) grown.room)]
      · rw [growing_of_not_canReserve can, growing_of_not_canReserve (same ▸ can)]
        rfl

/-! ## Runs of additions -/

/-- A call that appends to a segment. -/
inductive Addition (α : Type) where
  | unit (u : α)
  | slice (us : List α)
  | text (content : String)

/-- The units that a call appends. -/
def Addition.units : Addition α → List α
  | .unit u => [u]
  | .slice us => us
  | .text content => TextUnit.unitsOf content

/-- The room that a call asks for, if it does. -/
def Addition.room? : Addition α → Option Nat
  | .unit _ => some 1
  | .slice us => if us.isEmpty then none else some us.length
  | .text content => some content.toList.length

/-- Carries a call out. -/
def add (s : Segment) (around : Surroundings) (st : Store α) : Addition α → Edited Segment α Unit
  | .unit u => s.append around u st
  | .slice us => s.appendSlice around us st
  | .text content => s.appendText around content st

/-- Carries calls out one after the other, each in surroundings of its own, and passes over those
that are refused.  Also the units of the others. -/
def addAll (s : Segment) (st : Store α) :
    List (Surroundings × Addition α) → Segment × Store α × List α
  | [] => (s, st, [])
  | (around, call) :: calls =>
      let r := s.add around st call
      let (s, st, later) := r.object.addAll r.store calls
      match r.answer with
      | .ok () => (s, st, call.units ++ later)
      | .error _ => (s, st, later)

/-- Each of the calls is made while only arrays that have been made are lent out. -/
def LentAsMade (s : Segment) (st : Store α) : List (Surroundings × Addition α) → Prop
  | [] => True
  | (around, call) :: calls =>
      around.LendsMade st ∧
        LentAsMade (s.add around st call).object (s.add around st call).store calls

theorem undisturbed_add (hosts : st.Hosts (s :: others)) (around : Surroundings)
    (call : Addition α) :
    Undisturbed others st [(s.add around st call).object] (s.add around st call).store := by
  cases call with
  | unit u => exact undisturbed_append around hosts u
  | slice us => exact undisturbed_appendSlice around hosts us
  | text content => exact undisturbed_appendText around hosts content

theorem content_add (placed : s.Placed st) (around : Surroundings) {call : Addition α}
    (done : (s.add around st call).answer = .ok ()) :
    (s.add around st call).object.content (s.add around st call).store =
      s.content st ++ call.units := by
  cases call with
  | unit u => exact content_append around placed done
  | slice us => exact content_appendSlice around placed done
  | text content => exact content_appendText around placed done

/-- A call is done where there can be the room that it asks for. -/
theorem add_of_canReserve (hosts : st.Hosts (s :: others)) (made : around.LendsMade st)
    {call : Addition α} (can : ∀ n, call.room? = some n → s.canReserve α around n = true) :
    (s.add around st call).answer = .ok () := by
  cases call with
  | unit u =>
      show (s.growing around 1 _ st).answer = .ok ()
      rw [growing_of_canReserve (can 1 rfl)]
      rfl
  | slice us =>
      show (s.appendSlice around us st).answer = .ok ()
      unfold appendSlice
      split
      next => rfl
      next some =>
        rw [growing_of_canReserve (can us.length (if_neg some))]
        rfl
  | text content =>
      have count : (TextUnit.unitsOf content : List α).length = content.toList.length :=
        List.length_map _
      have grown := grown_makeRoom hosts made content.toList.length
      show (s.growing around content.toList.length _ st).answer = .ok ()
      rw [growing_of_canReserve (can _ rfl)]
      rw [← count] at grown ⊢
      rw [appendEach_of_grown grown]
      rfl

/-- A call is refused, and does nothing, where there can be no room for it. -/
theorem add_of_not_canReserve {call : Addition α} {n : Nat} (asks : call.room? = some n)
    (cannot : ¬s.canReserve α around n = true) :
    s.add around st call = ⟨s, st, .error .roomExceeded⟩ := by
  cases call with
  | unit u =>
      obtain rfl := Option.some.inj asks
      unfold add append
      exact growing_of_not_canReserve cannot
  | slice us =>
      have some : ¬us.isEmpty = true := by
        intro none
        rw [Addition.room?, if_pos none] at asks
        cases asks
      rw [Addition.room?, if_neg some] at asks
      cases asks
      exact (if_neg some).trans (growing_of_not_canReserve cannot)
  | text content =>
      obtain rfl := Option.some.inj asks
      unfold add appendText
      exact growing_of_not_canReserve cannot

/-- No other window can tell how a segment grows. -/
theorem undisturbed_addAll (hosts : st.Hosts (s :: others))
    (calls : List (Surroundings × Addition α)) :
    Undisturbed others st [(s.addAll st calls).1] (s.addAll st calls).2.1 := by
  induction calls generalizing s st with
  | nil => exact .refl hosts
  | cons call calls ih =>
      have first := undisturbed_add hosts call.1 call.2
      have both := first.trans (ih first.hosts)
      rw [addAll]
      dsimp only
      split <;> exact both

/-- A call that is refused leaves everything as it was. -/
theorem add_of_refused (hosts : st.Hosts (s :: others)) (made : around.LendsMade st)
    {call : Addition α} {fault : Fault} (refused : (s.add around st call).answer = .error fault) :
    s.add around st call = ⟨s, st, .error .roomExceeded⟩ := by
  by_cases can : ∀ n, call.room? = some n → s.canReserve α around n = true
  · cases (add_of_canReserve hosts made can).symm.trans refused
  · simp only [not_forall] at can
    obtain ⟨n, asks, cannot⟩ := can
    exact add_of_not_canReserve asks cannot

/-- The units of all calls that are not refused are shown in order, however they are divided into
calls. -/
theorem content_addAll (hosts : st.Hosts (s :: others))
    (calls : List (Surroundings × Addition α)) (lent : s.LentAsMade st calls) :
    (s.addAll st calls).1.content (s.addAll st calls).2.1 =
      s.content st ++ (s.addAll st calls).2.2 := by
  induction calls generalizing s st with
  | nil => exact (List.append_nil _).symm
  | cons call calls ih =>
      obtain ⟨around, call⟩ := call
      obtain ⟨made, later⟩ := lent
      have rest := ih (undisturbed_add hosts around call).hosts later
      rw [addAll]
      dsimp only
      split
      next done =>
        have first := content_add (hosts.placed s List.mem_cons_self) around done
        rw [first, List.append_assoc] at rest
        exact rest
      next fault refused =>
        rw [add_of_refused hosts made refused] at rest ⊢
        exact rest

/-- **How a segment grows is not seen.** To make room is done where the room is there or there can
be an array with it, and is refused elsewhere.  It leaves what the segment shows, takes no capacity
away, and leaves the segment over an array that is not lent out; if the segment has moved, it
shares its array with no window that is alive, and all others stay as they are.

An append is refused exactly where the room that it asks for is refused, and then it does nothing.
So the units of all calls that are not refused are shown in order behind what was there before, in
whichever calls they come, and however often the segment moves. -/
theorem grows_unseen (hosts : st.Hosts (s :: others)) (made : around.LendsMade st) :
    (∀ additional, s.hasRoom around additional = true ∨
        fitsMemory (TextUnit.kind α).width (s.nextCapacity additional) = true →
      ∃ s' st', s.reserve around additional st = .ok (s', st') ∧
        Grown others around s st additional s' st') ∧
    (∀ additional, s.hasRoom around additional = false →
      fitsMemory (TextUnit.kind α).width (s.nextCapacity additional) = false →
        s.reserve around additional st = .error .roomExceeded) ∧
    (∀ call : Addition α,
      ((∀ n, call.room? = some n → ∃ made, s.reserve around n st = .ok made) →
        (s.add around st call).answer = .ok () ∧
        (s.add around st call).object.content (s.add around st call).store =
          s.content st ++ call.units) ∧
      ∀ n, call.room? = some n → s.reserve around n st = .error .roomExceeded →
        s.add around st call = ⟨s, st, .error .roomExceeded⟩) ∧
    ∀ calls : List (Surroundings × Addition α), s.LentAsMade st calls →
      (s.addAll st calls).1.content (s.addAll st calls).2.1 =
        s.content st ++ (s.addAll st calls).2.2 ∧
      Undisturbed others st [(s.addAll st calls).1] (s.addAll st calls).2.1 := by
  refine ⟨fun additional room => ?_, fun additional none closed => ?_, fun call =>
    ⟨fun asked => ?_, fun n asks refused => ?_⟩, fun calls lent =>
    ⟨content_addAll hosts calls lent, undisturbed_addAll hosts calls⟩⟩
  · exact ⟨_, _, if_pos (Bool.or_eq_true_iff.2 room), grown_makeRoom hosts made additional⟩
  · rw [reserve, canReserve, none, closed]
    rfl
  · have can : ∀ n, call.room? = some n → s.canReserve α around n = true := by
      intro n asks
      obtain ⟨moved, done⟩ := asked n asks
      by_contra cannot
      rw [reserve, if_neg cannot] at done
      cases done
    have done := add_of_canReserve hosts made can
    exact ⟨done, content_add (hosts.placed s List.mem_cons_self) around done⟩
  · refine add_of_not_canReserve asks fun can => ?_
    rw [reserve, if_pos can] at refused
    cases refused

/-- A segment that shows all of its array, and one that shows its middle and is lent out. -/
def viewedWord : Segment × Segment × Store Char :=
  let (s, st) := ofUnits ['a', 'b', 'c'] {}
  (s, s.window 1 2, st)

theorem hosts_viewedWord :
    viewedWord.2.2.Hosts (viewedWord.1 :: [viewedWord.2.1]) := by
  have whole : viewedWord.2.2.Hosts [viewedWord.1] :=
    (undisturbed_allocate ['a', 'b', 'c'] 3 (.nil {})).hosts
  have middle : (viewedWord.1.window 1 2).Views viewedWord.1 :=
    views_window (by decide) (by decide) (by decide)
  exact (whole.view List.mem_cons_self middle).perm (.swap ..)

theorem grows_unseen_viewedWord :
    let around : Surroundings := { alive := [viewedWord.2.1], lent := [viewedWord.2.1.storage] }
    let calls : List (Surroundings × Addition Char) :=
      [({}, .unit 'd'), (around, .slice ['e', 'f']), (around, .text "gh")]
    viewedWord.2.2.Hosts (viewedWord.1 :: [viewedWord.2.1]) ∧ around.LendsMade viewedWord.2.2 ∧
      viewedWord.1.LentAsMade viewedWord.2.2 calls ∧
      (∃ s' st', viewedWord.1.reserve around 4 viewedWord.2.2 = .ok (s', st') ∧
        s'.content st' = ['a', 'b', 'c'] ∧ 4 ≤ s'.spare ∧ around.lends s'.storage = false) ∧
      (let r := viewedWord.1.addAll viewedWord.2.2 calls
       r.1.content r.2.1 = ['a', 'b', 'c', 'd', 'e', 'f', 'g', 'h'] ∧
         viewedWord.2.1.content r.2.1 = ['b']) := by
  intro around calls
  have made : around.LendsMade viewedWord.2.2 := Surroundings.lendsMade_singleton (by decide)
  have lent : viewedWord.1.LentAsMade viewedWord.2.2 calls :=
    ⟨List.forall_mem_nil _, Surroundings.lendsMade_singleton (by decide),
      Surroundings.lendsMade_singleton (by decide), trivial⟩
  obtain ⟨done, -, -, added⟩ := grows_unseen hosts_viewedWord made
  obtain ⟨s', st', reserved, grown⟩ := done 4 (.inr (by decide))
  obtain ⟨shown, calm⟩ := added calls lent
  exact ⟨hosts_viewedWord, made, lent,
    ⟨s', st', reserved, grown.content_eq, grown.room, grown.unlent⟩, shown.trans (by decide),
    calm.content_eq List.mem_cons_self⟩

/-- That the new capacity can be counted in a machine word is not enough: there must be an array
with it. -/
theorem reserve_roomless :
    ¬∀ (s : Segment) (st : Store Char) (additional : Nat), s.Placed st →
      s.length + additional < UInt64.size → s.nextCapacity additional < UInt64.size →
        ∃ made, s.reserve {} additional st = .ok made ∧ additional ≤ made.1.spare := by
  intro all
  obtain ⟨_, done, -⟩ := all ⟨⟨0⟩, 0, 3, 3⟩ viewedWord.2.2 2305843009213693952
    ⟨by decide, by decide, by decide, by decide⟩ (by decide) (by decide)
  cases done.symm.trans (if_neg (by decide) : _ = Except.error Fault.roomExceeded)

end Segment

end SegmentedText
