import SegmentedText.Proofs.Streams.Drains
import SegmentedText.World.Streaming

/-!
# Encoders used again

The state of an encoder outlasts a drain, however that ends, and a later drain goes on with
it.  For a charset of single bytes this state is the number of units that the encoder has
encoded, and it is this number that a strict encoder names as the position of a character
that it does not have.

In one drain the number grows by the units that the encoder got through
(`Drained.Counts`): all of them, or those before the character that it lacks, or those of
the segments up to the one that the sink refused.  So a reported position is the place in the
text of that drain behind all the units encoded in earlier ones (`positions_reported`).  It is
the place alone only as long as nothing has been encoded before
(`position_past_content`).
-/

set_option autoImplicit false

namespace SegmentedText

variable {α σ κ ε : Type}

/-! ## Drains in a row -/

/-- What one drain is given beside the encoder.  Each has a store and a sink of its own: between two
drains buffers may be edited, and sinks exchanged. -/
structure DrainCall (α κ ε : Type) where
  buffer : Buffer
  store : Store α
  sink : Sink κ ε
  kept : κ
  priority : Priority := .normal

def DrainCall.run (call : DrainCall α κ ε) (encoder : Encoder α σ) (state : σ) :
    Drained α σ κ ε :=
  drain encoder call.sink call.priority call.buffer call.store state call.kept

/-- Drains one after the other with one encoder. -/
def drainEach (encoder : Encoder α σ) : List (DrainCall α κ ε) → σ → List (Drained α σ κ ε)
  | [], _ => []
  | call :: rest, state =>
      let run := call.run encoder state
      run :: drainEach encoder rest run.encoder

@[simp] theorem length_drainEach (encoder : Encoder α σ) (calls : List (DrainCall α κ ε))
    (state : σ) : (drainEach encoder calls state).length = calls.length := by
  induction calls generalizing state with
  | nil => rfl
  | cons call rest ih => rw [drainEach, List.length_cons, ih, List.length_cons]

/-- To drain a buffer several times with one encoder and one sink is to drain it in a row. -/
theorem outcomes_drainTimes (encoder : Encoder α σ) (sink : Sink κ ε) (describe : ε → String)
    (job : DrainJob) (b : Buffer) (st : Store α) (times : Nat) (state : σ) (kept : κ) :
    ∃ calls : List (DrainCall α κ ε), calls.length = times ∧
      (∀ call ∈ calls, call.buffer = b ∧ call.store = st) ∧
      (World.drainTimes encoder sink describe job b st times state kept).2.2.2 =
        (drainEach encoder calls state).map fun run => World.drainOutcome describe run.result := by
  induction times generalizing state kept with
  | zero => exact ⟨[], rfl, fun _ here => absurd here List.not_mem_nil, rfl⟩
  | succ times ih =>
      let call : DrainCall α κ ε := ⟨b, st, sink, kept, job.priority⟩
      let run := call.run encoder state
      obtain ⟨calls, length, same, outcomes⟩ := ih run.encoder run.sink
      refine ⟨call :: calls, congrArg (· + 1) length, List.forall_mem_cons.2 ⟨⟨rfl, rfl⟩, same⟩, ?_⟩
      rw [drainEach, List.map_cons, ← outcomes]
      rfl

/-! ## The count of one drain -/

variable [TextUnit α]

/-- A list with a unit that a charset lacks has a first one. -/
theorem Charset.exists_first_lacking {charset : Charset} {units : List α}
    (lacking : ¬∀ u ∈ units, charset.Has u) :
    ∃ before u after, units = before ++ u :: after ∧ (∀ v ∈ before, charset.Has v) ∧
      ¬charset.Has u := by
  induction units with
  | nil => exact absurd (fun _ here => absurd here List.not_mem_nil) lacking
  | cons u us ih =>
      by_cases has : charset.Has u
      · have later : ¬∀ v ∈ us, charset.Has v := fun all =>
          lacking (List.forall_mem_cons.2 ⟨has, all⟩)
        obtain ⟨before, v, after, rfl, early, lacks⟩ := ih later
        exact ⟨u :: before, v, after, rfl, List.forall_mem_cons.2 ⟨has, early⟩, lacks⟩
      · exact ⟨[], u, us, rfl, fun _ here => absurd here List.not_mem_nil, has⟩

/-- A run over segments, of a strict encoder that had encoded `before` units, encodes `count` units
more.  The ending of the run says which these are. -/
structure Drained.Counts (run : Drained α Nat κ ε) (charset : Charset) (segments : List Segment)
    (st : Store α) (before count : Nat) : Prop where
  encoder : run.encoder = before + count
  encodable : ∀ u ∈ (contentOf segments st).take count, charset.Has u
  ends :
    match run.result with
    | .ok _ => count = (contentOf segments st).length
    | .error (.encoding error) =>
        ∃ u, (contentOf segments st)[count]? = some u ∧ ¬charset.Has u ∧
          error = ⟨TextUnit.toChar u, before + count, charset⟩
    | .error (.sink _) =>
        ∃ front s back, segments = front ++ s :: back ∧ s.content st ≠ [] ∧
          run.chunks.flatten = (contentOf (front ++ [s]) st).map charset.byteOf ∧
          count = (contentOf (front ++ [s]) st).length

section

variable {charset : Charset} {st : Store α} {s : Segment} {rest : List Segment} {before : Nat}

/-- A run that goes on behind a segment all of whose units the charset has. -/
theorem Drained.Counts.later {run : Drained α Nat κ ε} {count : Nat}
    {events : List (DrainEvent α)}
    (counts : run.Counts charset rest st (before + (s.content st).length) count)
    (has : ∀ u ∈ s.content st, charset.Has u)
    (offered : (offeredIn events).flatten = (s.content st).map charset.byteOf) :
    (run.after events).Counts charset (s :: rest) st before ((s.content st).length + count) := by
  refine ⟨?encoder, ?encodable, ?ends⟩
  case encoder => exact counts.encoder.trans (Nat.add_assoc ..)
  case encodable =>
    rw [contentOf_cons, List.take_append, List.take_of_length_le (Nat.le_add_right ..),
      Nat.add_sub_cancel_left]
    exact fun u here => (List.mem_append.1 here).elim (has u) (counts.encodable u)
  case ends =>
    have ends := counts.ends
    have same : (run.after events).result = run.result := rfl
    rw [contentOf_cons, same]
    cases result : run.result with
    | ok bytes =>
        rw [result] at ends
        rw [List.length_append, ends]
    | error error =>
        rw [result] at ends
        cases error with
        | encoding error =>
            obtain ⟨u, here, lacks, rfl⟩ := ends
            refine ⟨u, ?_, lacks, by rw [Nat.add_assoc]⟩
            rwa [List.getElem?_append_right (Nat.le_add_right ..), Nat.add_sub_cancel_left]
        | sink error =>
            obtain ⟨front, t, back, rfl, shows, written, rfl⟩ := ends
            refine ⟨s :: front, t, back, rfl, shows, ?_, ?_⟩
            · rw [Drained.chunks_after, List.flatten_append, offered, written, List.cons_append,
                contentOf_cons, List.map_append]
            · rw [List.cons_append, contentOf_cons, List.length_append]

/-- A strict encoder counts the units that it gets through, from the number that it had before. -/
theorem drainWindows_counts (charset : Charset) (sink : Sink κ ε) (priority : Priority)
    (segments : List Segment) (st : Store α) (before : Nat) (kept : κ) (written : Nat) :
    ∃ count, (drainWindows (.singleByte charset true) sink priority
      (segments.map (·.content st)) before kept written).Counts charset segments st before
        count := by
  induction segments generalizing before kept written with
  | nil => exact ⟨0, rfl, fun _ here => absurd here List.not_mem_nil, rfl⟩
  | cons s rest ih =>
      rw [List.map_cons, drainWindows]
      by_cases has : ∀ u ∈ s.content st, charset.Has u
      · have encoded : (Encoder.singleByte charset true).encode before (s.content st)
            (rest.map (·.content st)).isEmpty =
              (before + (s.content st).length, .ok ((s.content st).map charset.byteOf)) :=
          encodeSingle_through charset true (fun _ => has) before
        rw [encoded]
        simp only
        by_cases none : ((s.content st).map charset.byteOf).isEmpty = true
        · rw [if_pos none]
          obtain ⟨count, counts⟩ := ih (before + (s.content st).length) kept written
          exact ⟨_, counts.later has (List.isEmpty_iff.1 none).symm⟩
        · rw [if_neg none]
          split
          next kept' _ =>
            obtain ⟨count, counts⟩ := ih (before + (s.content st).length) kept'
              (written + ((s.content st).map charset.byteOf).length)
            exact ⟨_, counts.later has (List.append_nil _)⟩
          next kept' error _ =>
            refine ⟨(s.content st).length, rfl, ?_, [], s, rest, rfl, ?_, ?_, ?_⟩
            · rw [contentOf_cons, List.take_left']
              · exact has
              · rfl
            · exact fun empty => none (by rw [empty]; rfl)
            · rw [List.nil_append, contentOf_cons, contentOf_nil, List.append_nil]
              exact List.append_nil _
            · rw [List.nil_append, contentOf_cons, contentOf_nil, List.append_nil]
      · obtain ⟨early, u, late, parts, some, lacks⟩ := Charset.exists_first_lacking has
        have encoded := encodeSingle_stops charset late some lacks before
        rw [← parts] at encoded
        simp only [Encoder.singleByte, encoded]
        refine ⟨early.length, rfl, ?_, u, ?_, lacks, rfl⟩
        · rw [contentOf_cons, parts, List.append_assoc, List.take_left']
          · exact some
          · rfl
        · rw [contentOf_cons, parts, List.append_assoc,
            List.getElem?_append_right (Nat.le_refl _), Nat.sub_self]
          rfl

end

/-! ## Positions -/

/-- The counts of drains in a row, each going on from those before it. -/
theorem drainEach_counts (charset : Charset) (calls : List (DrainCall α κ ε)) (before : Nat) :
    ∃ counts : List Nat, counts.length = calls.length ∧
      ∀ (i : Nat) (call : DrainCall α κ ε) (run : Drained α Nat κ ε) (count : Nat),
        calls[i]? = some call →
          (drainEach (.singleByte charset true) calls before)[i]? = some run →
            counts[i]? = some count →
              run.Counts charset call.buffer.segments call.store
                (before + (counts.take i).foldr (· + ·) 0) count := by
  induction calls generalizing before with
  | nil => exact ⟨[], rfl, fun _ _ _ _ here => nomatch here⟩
  | cons call rest ih =>
      obtain ⟨first, counted⟩ := drainWindows_counts charset call.sink call.priority
        call.buffer.segments call.store before call.kept 0
      obtain ⟨counts, length, later⟩ := ih (before + first)
      refine ⟨first :: counts, congrArg (· + 1) length, fun i other run count here ran counts => ?_⟩
      have next : (call.run (.singleByte charset true) before).encoder = before + first :=
        counted.encoder
      rw [drainEach, next] at ran
      cases i with
      | zero =>
          obtain rfl := Option.some.inj here
          obtain rfl := Option.some.inj ran
          obtain rfl := Option.some.inj counts
          exact counted
      | succ i =>
          rw [List.take_succ_cons, List.foldr_cons, ← Nat.add_assoc]
          exact later i other run count here ran counts

/-- **A reused strict encoder reports positions behind everything that it has encoded.**

For drains in a row, beginning with a fresh encoder, there is one number for each: the units that
the encoder got through in it.  A drain that ends well got through all, one that fails at a
character through those before it, and one whose sink refuses through those of the segments handed
over.  The position that a failure names is the place of the character in the text of its own drain,
and the numbers of all earlier drains on top of that. -/
theorem positions_reported (charset : Charset) (calls : List (DrainCall α κ ε)) :
    ∃ counts : List Nat, counts.length = calls.length ∧
      (drainEach (.singleByte charset true) calls
        (Encoder.singleByte (α := α) charset true).fresh).length = calls.length ∧
      ∀ (i : Nat) (call : DrainCall α κ ε) (run : Drained α Nat κ ε) (count : Nat),
        calls[i]? = some call →
          (drainEach (.singleByte charset true) calls
            (Encoder.singleByte (α := α) charset true).fresh)[i]? = some run →
            counts[i]? = some count →
              run.Counts charset call.buffer.segments call.store
                ((counts.take i).foldr (· + ·) 0) count := by
  obtain ⟨counts, length, counted⟩ := drainEach_counts charset calls 0
  refine ⟨counts, length, length_drainEach .., fun i call run count here ran counts => ?_⟩
  have counted := counted i call run count here ran counts
  rwa [Nat.zero_add] at counted

/-- A drain of a text whose second character is beyond Latin-1. -/
def pricedCall : DrainCall Char Collected Empty where
  buffer := (Buffer.ofUnits ['é', '€'] {}).1
  store := (Buffer.ofUnits ['é', '€'] {}).2
  sink := .collecting
  kept := {}

/-- An encoder that failed at a character, and is given the same text again, names a place behind
the end of the text. -/
theorem position_past_content :
    pricedCall.buffer.content pricedCall.store = ['é', '€'] ∧
      (drainEach (.singleByte .latin1 true) [pricedCall, pricedCall] 0).map (·.result) =
        [.error (.encoding ⟨'€', 1, .latin1⟩), .error (.encoding ⟨'€', 2, .latin1⟩)] := by
  exact ⟨by decide, rfl⟩

theorem positions_reported_priced :
    ∃ first second : Nat,
      ((pricedCall.run (.singleByte .latin1 true) 0).Counts .latin1 pricedCall.buffer.segments
        pricedCall.store 0 first) ∧
      ((pricedCall.run (.singleByte .latin1 true) 1).Counts .latin1 pricedCall.buffer.segments
        pricedCall.store first second) := by
  obtain ⟨counts, length, -, counted⟩ := positions_reported .latin1 [pricedCall, pricedCall]
  obtain ⟨first, second, rfl⟩ := List.length_eq_two.1 length
  have before : ([first, second].take 1).foldr (· + ·) 0 = first := Nat.add_zero first
  exact ⟨first, second, counted 0 _ _ _ rfl rfl rfl, before ▸ counted 1 _ _ _ rfl rfl rfl⟩

end SegmentedText
