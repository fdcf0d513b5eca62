import SegmentedText.Proofs.Flat.Cells
import SegmentedText.Stream.Drain

/-!
# Runs of a drain

A run of a drain is told by two things that know nothing of each other: what the
encoder makes of the windows one after the other (`Encoder.outcomes`), and what the
sink answers to a row of chunks (`Sink.answers`).  The run goes through some of the
windows from the front, each in one round (`roundEvents`), and stops behind the first
round that fails on either side (`Drained.Follows`).

With a sink that never refuses, the bytes of a run are those of the flat text, however
it is cut: in UTF-8, and in a charset of single bytes as far as the segment of the
first character that a strict encoder does not have (`drain_encodes`).
-/

set_option autoImplicit false

namespace SegmentedText

variable {α σ κ ε : Type}

/-! ## Encoders and sinks on their own -/

/-- The windows of a text, each with the flag that marks the last. -/
def flagged (windows : List (List α)) : List (List α × Bool) :=
  windows.mapIdx fun i window => (window, i + 1 == windows.length)

theorem flagged_cons (window : List α) (rest : List (List α)) :
    flagged (window :: rest) = (window, rest.isEmpty) :: flagged rest := by
  have later : ∀ i, (i + 1 + 1 == (window :: rest).length) = (i + 1 == rest.length) := by
    intro i
    simp
  rw [flagged, List.mapIdx_cons, flagged]
  simp only [later]
  cases rest <;> rfl

namespace Encoder

/-- The state in which windows leave an encoder. -/
def after (encoder : Encoder α σ) (entries : List (List α × Bool)) (state : σ) : σ :=
  entries.foldl (fun state entry => (encoder.encode state entry.1 entry.2).1) state

/-- What an encoder makes of windows one after the other, if nobody stops it. -/
def outcomes (encoder : Encoder α σ) :
    List (List α × Bool) → σ → List (Except EncodingError (List UInt8))
  | [], _ => []
  | entry :: rest, state =>
      let (state, outcome) := encoder.encode state entry.1 entry.2
      outcome :: encoder.outcomes rest state

end Encoder

namespace Sink

/-- The state in which chunks leave a sink. -/
def after (sink : Sink κ ε) (chunks : List (List UInt8)) (kept : κ) : κ :=
  chunks.foldl (fun kept chunk => (sink.accept kept chunk).1) kept

/-- What a sink answers to chunks one after the other. -/
def answers (sink : Sink κ ε) : List (List UInt8) → κ → List (Except ε Unit)
  | [], _ => []
  | chunk :: rest, kept =>
      let (kept, answer) := sink.accept kept chunk
      answer :: sink.answers rest kept

/-- The sink refuses no chunk. -/
def Willing (sink : Sink κ ε) : Prop := ∀ kept chunk, (sink.accept kept chunk).2 = .ok ()

end Sink

/-! ## Rounds -/

/-- What happens in the round of a window of which the encoder makes `outcome`. -/
def roundEvents (priority : Priority) (entry : List α × Bool) :
    Except EncodingError (List UInt8) → List (DrainEvent α)
  | .ok chunk =>
      [.scheduled priority, .encoded entry.1 entry.2] ++
        if chunk.isEmpty then [] else [.offered chunk]
  | .error _ => [.scheduled priority, .encoded entry.1 entry.2]

/-- The chunks offered to the sink, in order. -/
def offeredIn (log : List (DrainEvent α)) : List (List UInt8) :=
  log.filterMap fun
    | .offered chunk => some chunk
    | _ => none

theorem offeredIn_round (priority : Priority) (entry : List α × Bool) (chunk : List UInt8) :
    offeredIn (roundEvents priority entry (.ok chunk)) =
      if chunk.isEmpty then [] else [chunk] := by
  by_cases none : chunk.isEmpty = true
  · simp [offeredIn, roundEvents, none]
  · simp [offeredIn, roundEvents, none]

/-- The chunks that a run hands to the sink, in order. -/
def Drained.chunks (run : Drained α σ κ ε) : List (List UInt8) := offeredIn run.log

@[simp] theorem Drained.chunks_after (run : Drained α σ κ ε) (events : List (DrainEvent α)) :
    (run.after events).chunks = offeredIn events ++ run.chunks := List.filterMap_append

/-- Every one of the results is a success. -/
def AllWell {ζ ρ : Type} (results : List (Except ζ ρ)) : Prop :=
  ∀ result ∈ results, ∃ r, result = .ok r

theorem AllWell.nil {ζ ρ : Type} : AllWell ([] : List (Except ζ ρ)) :=
  fun _ here => absurd here List.not_mem_nil

theorem AllWell.cons {ζ ρ : Type} {results : List (Except ζ ρ)} (well : AllWell results)
    (r : ρ) : AllWell (.ok r :: results) := by
  intro result here
  rcases List.mem_cons.1 here with rfl | later
  · exact ⟨r, rfl⟩
  · exact well result later

/-- How a run over `total` windows ends after `count` rounds, given the outcomes of the encoder, the
chunks offered and the answers of the sink: well when nothing failed; otherwise with the failure of
the last round, the only one of all. -/
def EndsWith (total count written : Nat) (outcomes : List (Except EncodingError (List UInt8)))
    (chunks : List (List UInt8)) (answers : List (Except ε Unit)) :
    Except (DrainError ε) Nat → Prop
  | .ok bytes =>
      count = total ∧ AllWell outcomes ∧ AllWell answers ∧
        bytes = written + chunks.flatten.length
  | .error (.encoding error) =>
      ∃ i, count = i + 1 ∧ AllWell (outcomes.take i) ∧ outcomes[i]? = some (.error error) ∧
        AllWell answers
  | .error (.sink error) =>
      ∃ i chunk, count = i + 1 ∧ AllWell (outcomes.take i) ∧ outcomes[i]? = some (.ok chunk) ∧
        chunk ≠ [] ∧ ∃ earlier, AllWell earlier ∧ answers = earlier ++ [.error error]

/-- A round whose chunk the sink takes, or does not get to see, comes before the end. -/
theorem EndsWith.later {total count written : Nat}
    {outcomes : List (Except EncodingError (List UInt8))} {chunks : List (List UInt8)}
    {answers : List (Except ε Unit)} {result : Except (DrainError ε) Nat} {chunk : List UInt8}
    {chunks' : List (List UInt8)} {answers' : List (Except ε Unit)}
    (ends : EndsWith total count (written + chunk.length) outcomes chunks answers result)
    (more : chunks'.flatten.length = chunk.length + chunks.flatten.length)
    (taken : answers' = answers ∨ answers' = .ok () :: answers) :
    EndsWith (total + 1) (count + 1) written (.ok chunk :: outcomes) chunks' answers' result := by
  have kept : ∀ {results}, AllWell results → results = answers → AllWell answers' := by
    rintro _ well rfl
    rcases taken with rfl | rfl
    · exact well
    · exact well.cons ()
  match result with
  | .ok bytes =>
      obtain ⟨all, well, answered, counted⟩ := ends
      exact ⟨by rw [all], well.cons chunk, kept answered rfl, by rw [counted, more]; omega⟩
  | .error (.encoding error) =>
      obtain ⟨i, all, well, failed, answered⟩ := ends
      exact ⟨i + 1, by rw [all], well.cons chunk, failed, kept answered rfl⟩
  | .error (.sink error) =>
      obtain ⟨i, refused, all, well, made, shown, earlier, answered, rfl⟩ := ends
      refine ⟨i + 1, refused, by rw [all], well.cons chunk, made, shown, ?_⟩
      rcases taken with rfl | rfl
      · exact ⟨earlier, answered, rfl⟩
      · exact ⟨.ok () :: earlier, answered.cons (), rfl⟩

/-! ## Runs -/

/-- A run goes through the first `count` windows, each in one round, and through no other; it stops
there because these are all, or because the last round is the first to fail. -/
structure Drained.Follows (run : Drained α σ κ ε) (encoder : Encoder α σ) (sink : Sink κ ε)
    (priority : Priority) (windows : List (List α)) (state : σ) (kept : κ) (written count : Nat) :
    Prop where
  count_le : count ≤ windows.length
  log_eq : run.log =
    (((flagged windows).zip (encoder.outcomes (flagged windows) state)).take count).flatMap
      fun round => roundEvents priority round.1 round.2
  encoder_eq : run.encoder = encoder.after ((flagged windows).take count) state
  sink_eq : run.sink = sink.after run.chunks kept
  result : EndsWith windows.length count written (encoder.outcomes (flagged windows) state)
    run.chunks (sink.answers run.chunks kept) run.result

section

variable {encoder : Encoder α σ} {sink : Sink κ ε} {priority : Priority} {window : List α}
  {rest : List (List α)} {state next : σ} {written : Nat}

/-- A run that goes on behind the round of its first window. -/
theorem Drained.Follows.later {run : Drained α σ κ ε} (kept : κ) {kept' : κ} {chunk : List UInt8}
    {count : Nat}
    (follows : run.Follows encoder sink priority rest next kept' (written + chunk.length) count)
    (encoded : encoder.encode state window rest.isEmpty = (next, .ok chunk))
    (offered : if chunk.isEmpty then kept' = kept else sink.accept kept chunk = (kept', .ok ())) :
    (run.after (roundEvents priority (window, rest.isEmpty) (.ok chunk))).Follows encoder sink
      priority (window :: rest) state kept written (count + 1) := by
  have outcomes : encoder.outcomes (flagged (window :: rest)) state =
      .ok chunk :: encoder.outcomes (flagged rest) next := by
    rw [flagged_cons, Encoder.outcomes, encoded]
  refine ⟨Nat.succ_le_succ follows.count_le, ?log_eq, ?encoder_eq, ?sink_eq, ?result⟩
  case log_eq =>
    rw [outcomes, flagged_cons, List.zip_cons_cons, List.take_succ_cons, List.flatMap_cons,
      ← follows.log_eq]
    rfl
  case encoder_eq =>
    rw [flagged_cons, List.take_succ_cons]
    simp only [Encoder.after, List.foldl_cons, encoded]
    exact follows.encoder_eq
  case sink_eq =>
    rw [Drained.chunks_after, offeredIn_round]
    by_cases none : chunk.isEmpty = true
    · rw [if_pos none] at offered ⊢
      rw [List.nil_append, ← offered]
      exact follows.sink_eq
    · rw [if_neg none] at offered ⊢
      simp only [Sink.after, List.singleton_append, List.foldl_cons, offered]
      exact follows.sink_eq
  case result =>
    rw [outcomes, Drained.chunks_after, offeredIn_round]
    by_cases none : chunk.isEmpty = true
    · rw [if_pos none] at offered ⊢
      rw [List.nil_append, ← offered]
      refine follows.result.later ?_ (.inl rfl)
      rw [List.isEmpty_iff.1 none, List.length_nil, Nat.zero_add]
    · rw [if_neg none] at offered ⊢
      rw [List.singleton_append]
      refine follows.result.later ?_ (.inr ?_)
      · rw [List.flatten_cons, List.length_append]
      · rw [Sink.answers, offered]

end

/-- Every run goes through the windows from the front, and stops behind the first that fails. -/
theorem drainWindows_follows (encoder : Encoder α σ) (sink : Sink κ ε) (priority : Priority)
    (windows : List (List α)) (state : σ) (kept : κ) (written : Nat) :
    ∃ count, (drainWindows encoder sink priority windows state kept written).Follows encoder sink
      priority windows state kept written count := by
  induction windows generalizing state kept written with
  | nil => exact ⟨0, Nat.le_refl _, rfl, rfl, rfl, rfl, .nil, .nil, rfl⟩
  | cons window rest ih =>
      have first : ∀ next outcome,
          encoder.encode state window rest.isEmpty = (next, outcome) →
            (((flagged (window :: rest)).zip
              (encoder.outcomes (flagged (window :: rest)) state)).take 1).flatMap
                (fun round => roundEvents priority round.1 round.2) =
              roundEvents priority (window, rest.isEmpty) outcome ∧
            encoder.after ((flagged (window :: rest)).take 1) state = next ∧
            (encoder.outcomes (flagged (window :: rest)) state)[0]? = some outcome := by
        intro next outcome encoded
        rw [flagged_cons, Encoder.outcomes, encoded]
        refine ⟨List.flatMap_singleton .., ?_, rfl⟩
        simp only [List.take_succ_cons, List.take_zero, Encoder.after, List.foldl_cons,
          List.foldl_nil, encoded]
      rw [drainWindows]
      split
      next next error encoded =>
        obtain ⟨log, after, outcome⟩ := first _ _ encoded
        exact ⟨1, Nat.succ_le_succ (Nat.zero_le _), log.symm, after.symm, rfl, 0, rfl, .nil, outcome,
          .nil⟩
      next next chunk encoded =>
        split
        next none =>
          obtain ⟨count, follows⟩ := ih next kept (written + chunk.length)
          have length : written + chunk.length = written := by
            rw [List.isEmpty_iff.1 none, List.length_nil, Nat.add_zero]
          have later := follows.later kept encoded (by rw [if_pos none])
          simp only [roundEvents, if_pos none, List.append_nil, length] at later
          exact ⟨count + 1, later⟩
        next some =>
          split
          next kept' taken =>
            obtain ⟨count, follows⟩ := ih next kept' (written + chunk.length)
            have later := follows.later kept encoded (by rw [if_neg some, taken])
            simp only [roundEvents, if_neg some] at later
            exact ⟨count + 1, later⟩
          next kept' error refused =>
            obtain ⟨log, after, outcome⟩ := first _ _ encoded
            have offered : (⟨next, kept', [.scheduled priority, .encoded window rest.isEmpty] ++
                [.offered chunk], .error (.sink error)⟩ : Drained α σ κ ε).chunks = [chunk] := by
              rfl
            refine ⟨1, Nat.succ_le_succ (Nat.zero_le _), ?_, after.symm, ?_, 0, chunk, rfl, .nil,
              outcome, ?_, [], .nil, ?_⟩
            · rw [log, roundEvents, if_neg some]
            · rw [offered, Sink.after, List.foldl_cons, List.foldl_nil, refused]
            · exact fun empty => some (by rw [empty]; rfl)
            · rw [offered, Sink.answers, refused]
              rfl

/-! ## Bytes of flat text -/

/-- A run goes on behind windows that the encoder gets through, with all their bytes written. -/
theorem drainWindows_through {encoder : Encoder α σ} {sink : Sink κ ε} (willing : sink.Willing)
    (priority : Priority) {code : α → List UInt8} {move : σ → List α → σ}
    {front : List (List α)} (back : List (List α))
    (through : ∀ window ∈ front, ∀ state last,
      encoder.encode state window last = (move state window, .ok (window.flatMap code)))
    (state : σ) (kept : κ) (written : Nat) :
    ∃ events kept',
      drainWindows encoder sink priority (front ++ back) state kept written =
          (drainWindows encoder sink priority back (front.foldl move state) kept'
            (written + (front.flatten.flatMap code).length)).after events ∧
        (offeredIn events).flatten = front.flatten.flatMap code := by
  induction front generalizing state kept written with
  | nil => exact ⟨[], kept, rfl, rfl⟩
  | cons window rest ih =>
      have encoded := through window List.mem_cons_self state (rest ++ back).isEmpty
      have later := ih fun w here => through w (List.mem_cons_of_mem _ here)
      rw [List.cons_append, drainWindows, encoded, List.flatten_cons, List.flatMap_append,
        List.length_append, ← Nat.add_assoc, List.foldl_cons]
      by_cases none : (window.flatMap code).isEmpty = true
      · obtain ⟨events, kept', same, bytes⟩ := later (move state window) kept written
        rw [List.isEmpty_iff.1 none]
        simp only [List.isEmpty_nil, if_true, List.length_nil, Nat.add_zero, List.nil_append]
        refine ⟨[.scheduled priority, .encoded window (rest ++ back).isEmpty] ++ events, kept', ?_,
          bytes⟩
        rw [same]
        rfl
      · have taken := willing kept (window.flatMap code)
        obtain ⟨events, kept', same, bytes⟩ := later (move state window)
          (sink.accept kept (window.flatMap code)).1 (written + (window.flatMap code).length)
        refine ⟨[.scheduled priority, .encoded window (rest ++ back).isEmpty,
          .offered (window.flatMap code)] ++ events, kept', ?_, ?_⟩
        · simp only [if_neg none]
          cases accepted : sink.accept kept (window.flatMap code) with
          | mk next answer =>
              rw [accepted] at taken same
              obtain rfl : answer = .ok () := taken
              simp only [same]
              rfl
        · show window.flatMap code ++ (offeredIn events).flatten = _
          rw [bytes]

/-- Drains a buffer with an encoder that has encoded nothing yet. -/
def drainFresh (encoder : Encoder α σ) (sink : Sink κ ε) (priority : Priority) (b : Buffer)
    (st : Store α) (kept : κ) : Drained α σ κ ε :=
  drain encoder sink priority b st encoder.fresh kept

/-- The run ends well, and these are the bytes that it has written. -/
structure Drained.Writes (run : Drained α σ κ ε) (bytes : List UInt8) : Prop where
  result : run.result = .ok bytes.length
  chunks : run.chunks.flatten = bytes

/-- A run over windows that the encoder gets through writes all their bytes. -/
theorem drainWindows_all {encoder : Encoder α σ} {sink : Sink κ ε} (willing : sink.Willing)
    (priority : Priority) {code : α → List UInt8} (move : σ → List α → σ)
    {windows : List (List α)}
    (through : ∀ window ∈ windows, ∀ state last,
      encoder.encode state window last = (move state window, .ok (window.flatMap code)))
    (state : σ) (kept : κ) :
    (drainWindows encoder sink priority windows state kept 0).Writes
      (windows.flatten.flatMap code) := by
  obtain ⟨events, kept', same, bytes⟩ :=
    drainWindows_through willing priority [] through state kept 0
  rw [List.append_nil, drainWindows, Nat.zero_add] at same
  rw [same]
  refine ⟨rfl, ?_⟩
  rw [Drained.chunks_after, List.flatten_append, bytes]
  exact List.append_nil _

/-- The number of units in windows, counted window by window. -/
theorem foldl_length (windows : List (List α)) (position : Nat) :
    windows.foldl (fun position window => position + window.length) position =
      position + windows.flatten.length := by
  induction windows generalizing position with
  | nil => rfl
  | cons window rest ih =>
      rw [List.foldl_cons, ih, List.flatten_cons, List.length_append, Nat.add_assoc]

/-- The flat text is what the windows show. -/
theorem Buffer.flatten_windows (b : Buffer) (st : Store α) :
    (b.windows st).flatten = b.content st := (List.flatMap_def ..).symm

/-- A place of the flat text lies in one of the segments. -/
theorem exists_segment_at {segments : List Segment} {st : Store α} {i : Nat}
    (inside : i < (contentOf segments st).length) :
    ∃ front s back, segments = front ++ s :: back ∧ (contentOf front st).length ≤ i ∧
      i < (contentOf front st).length + (s.content st).length := by
  induction segments generalizing i with
  | nil => exact absurd inside (Nat.not_lt_zero i)
  | cons s rest ih =>
      rw [contentOf_cons, List.length_append] at inside
      by_cases here : i < (s.content st).length
      · exact ⟨[], s, rest, rfl, Nat.zero_le _, by simpa using here⟩
      · obtain ⟨front, t, back, rfl, le, lt⟩ := ih (i := i - (s.content st).length) (by omega)
        refine ⟨s :: front, t, back, rfl, ?_, ?_⟩ <;>
          rw [contentOf_cons, List.length_append] <;> omega

variable [TextUnit α]

/-! ### UTF-8 -/

/-- The bytes of a text in UTF-8. -/
def utf8Bytes (units : List α) : List UInt8 :=
  units.flatMap fun u => String.utf8EncodeChar (TextUnit.toChar u)

theorem toByteArray_utf8Bytes (units : List α) :
    (utf8Bytes units).toByteArray = (TextUnit.textOf units).toByteArray := by
  rw [TextUnit.textOf, String.toByteArray_ofList, utf8Bytes, List.utf8Encode, List.flatMap_map]

/-- The bytes of a text in UTF-8 decode to the text. -/
theorem fromUTF8?_utf8Bytes (units : List α) :
    String.fromUTF8? (utf8Bytes units).toByteArray = some (TextUnit.textOf units) := by
  rw [toByteArray_utf8Bytes, String.fromUTF8?, dif_pos (String.isValidUTF8 _)]
  rfl

/-! ### Charsets of single bytes -/

namespace Charset

/-- The charset has the character of a unit. -/
def Has (charset : Charset) (u : α) : Prop := (TextUnit.toChar u).toNat ≤ charset.limit

instance (charset : Charset) (u : α) : Decidable (charset.Has u) :=
  inferInstanceAs (Decidable (_ ≤ _))

/-- The byte of a unit, or a question mark. -/
def byteOf (charset : Charset) (u : α) : UInt8 :=
  if charset.Has u then UInt8.ofNat (TextUnit.toChar u).toNat else 0x3f

end Charset

/-- An encoder that is lenient, or meets only characters that it has, gets through a window. -/
theorem encodeSingle_through (charset : Charset) (strict : Bool) {window : List α}
    (encodable : strict = true → ∀ u ∈ window, charset.Has u) (position : Nat) :
    Encoder.encodeSingle charset strict window position =
      (position + window.length, .ok (window.map charset.byteOf)) := by
  induction window generalizing position with
  | nil => rfl
  | cons u us ih =>
      have later := ih (fun asked v here => encodable asked v (List.mem_cons_of_mem _ here))
        (position + 1)
      have next : position + 1 + us.length = position + (us.length + 1) := by omega
      rw [Encoder.encodeSingle]
      by_cases has : charset.Has u
      · have low : (TextUnit.toChar u).toNat ≤ charset.limit := has
        simp only [low, if_true, later, next, List.map_cons, List.length_cons, Charset.byteOf, has]
      · have high : ¬(TextUnit.toChar u).toNat ≤ charset.limit := has
        have lenient : strict = false := by
          cases strict with
          | false => rfl
          | true => exact absurd (encodable rfl u List.mem_cons_self) has
        simp only [high, lenient, if_false, Bool.false_eq_true] at later ⊢
        simp only [later, next, List.map_cons, List.length_cons, Charset.byteOf, has, if_false]

/-- A strict encoder stops at the first character that it does not have. -/
theorem encodeSingle_stops (charset : Charset) {before : List α} {u : α} (after : List α)
    (has : ∀ v ∈ before, charset.Has v) (lacks : ¬charset.Has u) (position : Nat) :
    Encoder.encodeSingle charset true (before ++ u :: after) position =
      (position + before.length,
        .error ⟨TextUnit.toChar u, position + before.length, charset⟩) := by
  induction before generalizing position with
  | nil =>
      have high : ¬(TextUnit.toChar u).toNat ≤ charset.limit := lacks
      simp only [List.nil_append, Encoder.encodeSingle, high, if_true, if_false, List.length_nil,
        Nat.add_zero]
  | cons v vs ih =>
      have low : (TextUnit.toChar v).toNat ≤ charset.limit := has v List.mem_cons_self
      have later := ih (fun w here => has w (List.mem_cons_of_mem _ here)) (position + 1)
      have next : position + 1 + vs.length = position + (vs.length + 1) := by omega
      simp only [List.cons_append, Encoder.encodeSingle, low, if_true, later, next,
        List.length_cons]

theorem singleByte_through (charset : Charset) (strict : Bool) (windows : List (List α))
    (encodable : strict = true → ∀ u ∈ windows.flatten, charset.Has u) :
    ∀ window ∈ windows, ∀ (state : Nat) (last : Bool),
      (Encoder.singleByte charset strict).encode state window last =
        (state + window.length, .ok (window.flatMap fun u => [charset.byteOf u])) := by
  intro window here state last
  rw [← List.map_eq_flatMap]
  exact encodeSingle_through charset strict
    (fun asked u inside => encodable asked u (List.mem_flatten.2 ⟨window, here, inside⟩)) state

/-! ## What a run writes -/

/-- A run ends with a failure of the encoder at the place `i` of the flat text, and has written the
bytes of the segments before the one that shows the place. -/
structure Drained.StopsAt (run : Drained α σ κ ε) (b : Buffer) (st : Store α)
    (code : List α → List UInt8) (error : EncodingError) (i : Nat) : Prop where
  result : run.result = .error (.encoding error)
  segment : ∃ front s back, b.segments = front ++ s :: back ∧ (contentOf front st).length ≤ i ∧
    i < (contentOf front st).length + (s.content st).length ∧
      run.chunks.flatten = code (contentOf front st)

/-- A strict encoder stops at the first character of the flat text that it does not have. -/
theorem drain_strict_stops {sink : Sink κ ε} (willing : sink.Willing) (priority : Priority)
    (charset : Charset) (b : Buffer) (st : Store α) (kept : κ) {i : Nat} {u : α}
    (here : (b.content st)[i]? = some u) (has : ∀ v ∈ (b.content st).take i, charset.Has v)
    (lacks : ¬charset.Has u) :
    (drain (.singleByte charset true) sink priority b st 0 kept).StopsAt b st
      (·.map charset.byteOf) ⟨TextUnit.toChar u, i, charset⟩ i := by
  obtain ⟨front, s, back, parts, le, lt⟩ :=
    exists_segment_at (List.getElem?_eq_some_iff.1 here).1
  have windows : b.windows st =
      front.map (·.content st) ++ s.content st :: back.map (·.content st) := by
    rw [Buffer.windows, parts, List.map_append, List.map_cons]
  have flat : b.content st = contentOf front st ++ (s.content st ++ contentOf back st) := by
    rw [Buffer.content_eq, parts, contentOf_append, contentOf_cons]
  have behind : (front.map (·.content st)).flatten = contentOf front st :=
    (List.flatMap_def ..).symm
  -- The unit lies in the window, with encodable units before it.
  obtain ⟨k, rfl⟩ := Nat.exists_eq_add_of_le le
  have inside : k < (s.content st).length := by omega
  rw [flat, List.getElem?_append_right (by omega), Nat.add_sub_cancel_left,
    List.getElem?_append_left inside] at here
  obtain ⟨_, rfl⟩ := List.getElem?_eq_some_iff.1 here
  have window : s.content st =
      (s.content st).take k ++ (s.content st)[k] :: (s.content st).drop (k + 1) := by
    rw [← List.drop_eq_getElem_cons inside, List.take_append_drop]
  rw [flat, List.take_append, List.take_of_length_le le, Nat.add_sub_cancel_left,
    List.take_append] at has
  have before : ∀ v ∈ (s.content st).take k, charset.Has v := fun v early =>
    has v (List.mem_append_right _ (List.mem_append_left _ early))
  have stops := encodeSingle_stops charset ((s.content st).drop (k + 1)) before lacks
    (contentOf front st).length
  rw [← window, List.length_take_of_le (Nat.le_of_lt inside)] at stops
  -- All windows before that one are encoded and written.
  obtain ⟨events, kept', same, bytes⟩ := drainWindows_through willing priority
    (s.content st :: back.map (·.content st))
    (singleByte_through charset true (front.map (·.content st)) fun _ v early =>
      has v (List.mem_append_left _ (behind ▸ early))) 0 kept 0
  have run : drain (.singleByte charset true) sink priority b st 0 kept = _ :=
    (congrArg (fun w => drainWindows _ sink priority w 0 kept 0) windows).trans same
  rw [run, foldl_length, behind, Nat.zero_add, drainWindows]
  simp only [Encoder.singleByte, stops]
  refine ⟨rfl, front, s, back, parts, le, lt, ?_⟩
  rw [Drained.chunks_after, List.flatten_append, bytes, behind]
  exact (List.append_nil _).trans List.map_eq_flatMap.symm

/-- Every run goes window by window and stops behind the first failure.  With a sink that never
refuses, a fresh encoder writes the bytes of the flat text, which in UTF-8 decode to the text, and a
strict one stops at the first character that it does not have, with the bytes of the segments before
that one written. -/
theorem drain_encodes (b : Buffer) (st : Store α) (sink : Sink κ ε) (priority : Priority)
    (kept : κ) :
    (∀ {σ : Type} (encoder : Encoder α σ) (state : σ), ∃ count,
      (drain encoder sink priority b st state kept).Follows encoder sink priority (b.windows st)
        state kept 0 count) ∧
    (sink.Willing →
      (drainFresh .utf8 sink priority b st kept).Writes (utf8Bytes (b.content st)) ∧
      String.fromUTF8? (utf8Bytes (b.content st)).toByteArray =
        some (TextUnit.textOf (b.content st)) ∧
      ∀ charset : Charset,
        (drainFresh (.singleByte charset false) sink priority b st kept).Writes
          ((b.content st).map charset.byteOf) ∧
        ((∀ u ∈ b.content st, charset.Has u) →
          (drainFresh (.singleByte charset true) sink priority b st kept).Writes
            ((b.content st).map charset.byteOf)) ∧
        ∀ i u, (b.content st)[i]? = some u → (∀ v ∈ (b.content st).take i, charset.Has v) →
          ¬charset.Has u →
            (drainFresh (.singleByte charset true) sink priority b st kept).StopsAt b st
              (·.map charset.byteOf) ⟨TextUnit.toChar u, i, charset⟩ i) := by
  refine ⟨fun encoder state => drainWindows_follows encoder sink priority _ state kept 0, ?_⟩
  intro willing
  have single : ∀ (charset : Charset) (strict : Bool),
      (strict = true → ∀ u ∈ b.content st, charset.Has u) →
        (drain (.singleByte charset strict) sink priority b st 0 kept).Writes
          ((b.content st).map charset.byteOf) := by
    intro charset strict encodable
    rw [← b.flatten_windows st] at encodable ⊢
    rw [List.map_eq_flatMap]
    exact drainWindows_all willing priority _ (singleByte_through charset strict _ encodable) 0 kept
  refine ⟨?utf8, fromUTF8?_utf8Bytes _, fun charset => ⟨?lenient, ?strict, ?stops⟩⟩
  case utf8 =>
    rw [← b.flatten_windows st]
    exact drainWindows_all willing priority (fun _ _ => ()) (fun _ _ _ _ => rfl) () kept
  case lenient => exact single charset false fun asked => nomatch asked
  case strict => exact fun has => single charset true fun _ => has
  case stops =>
    intro i u here has lacks
    exact drain_strict_stops willing priority charset b st kept here has lacks

/-- A text in two segments, of which the second begins with a character beyond ASCII. -/
def accented : Buffer × Store Char :=
  let (front, st) := Buffer.ofUnits ['a', 'b'] {}
  let (back, st) := Buffer.ofUnits ['é', 'c'] st
  ({ segmentList := .held (front.segments ++ back.segments) }, st)

theorem willing_collecting : Sink.collecting.Willing := fun _ _ => rfl

/-- The first segment has been written when the encoder meets the character. -/
theorem drain_encodes_accented :
    Sink.collecting.Willing ∧ accented.1.content accented.2 = ['a', 'b', 'é', 'c'] ∧
      (drainFresh (.singleByte .ascii true) .collecting .normal accented.1 accented.2 {}).StopsAt
        accented.1 accented.2 (·.map (Charset.byteOf .ascii)) ⟨'é', 2, .ascii⟩ 2 := by
  have shown : accented.1.content accented.2 = ['a', 'b', 'é', 'c'] := by decide
  refine ⟨willing_collecting, shown, ?_⟩
  have stops := (((drain_encodes accented.1 accented.2 .collecting .normal {}).2
    willing_collecting).2.2 .ascii).2.2
  have plain : ∀ v ∈ ['a', 'b'], Charset.Has .ascii v :=
    List.forall_mem_cons.2 ⟨by decide, List.forall_mem_singleton.2 (by decide)⟩
  exact stops 2 'é' (by rw [shown]; rfl) (by rw [shown]; exact plain) (by decide)

end SegmentedText
