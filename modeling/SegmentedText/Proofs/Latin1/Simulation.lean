import SegmentedText.Proofs.Latin1.Calls
import SegmentedText.Proofs.Latin1.Renamings

/-!
# Bytes as characters

A byte stands for a character of ISO-8859-1, is white space when that is, and has its lower
case.  So a buffer of bytes does what a buffer of characters does whose arguments are what the
bytes show of them (`TextCall.image`): what is beyond U+00FF becomes a question mark.

On flat text the two do the same call by call (`TextCall.onText_image`), since nothing in a
call depends on units otherwise than through what `Renamings` carries along.  On buffers they
do the same until one of them is refused room (`TextCall.trace_eq_trace_image`).  In room the
kinds differ: segments that are first filled hold fewer characters than bytes, and characters
take more of the memory (`TextCall.bytes_beyond_room`).
-/

set_option autoImplicit false

namespace SegmentedText

/-! ## Kinds that stand for their characters -/

/-- A kind of unit that trims and changes to lower case as its characters do.  The hyphen fills a
destination that nothing has been copied to. -/
structure TextUnit.Faithful (α : Type) [TextUnit α] : Prop where
  isWhiteSpace_toChar : ∀ u : α, isWhiteSpace (toChar u) = isWhitespace u
  toChar_toLower : ∀ u : α, toChar (toLower u) = lowerCase (toChar u)
  toChar_hyphen : toChar (ofChar '-' : α) = '-'

/-- What holds of every code below 256 holds of every byte. -/
theorem Latin1.forall_byte {p : UInt8 → Prop} (codes : ∀ n < 256, p (UInt8.ofNat n)) (b : UInt8) :
    p b := by
  have code := codes b.toNat b.toNat_lt
  rwa [UInt8.ofNat_toNat] at code

theorem Latin1.faithful : TextUnit.Faithful UInt8 where
  isWhiteSpace_toChar := Latin1.forall_byte (by decide +kernel)
  toChar_toLower := Latin1.forall_byte (by decide +kernel)
  toChar_hyphen := by decide

namespace TextUnit

variable (α : Type) [TextUnit α]

/-- A character as it is shown once it has been stored. -/
def shown (c : Char) : Char := toChar (ofChar c : α)

/-- A text as it is shown once it has been stored. -/
def shownText (text : String) : String := textOf (unitsOf text : List α)

theorem toChar_injective : Function.Injective (toChar : α → Char) := fun _ _ => toChar_inj.1

theorem unitsOf_shownText (text : String) :
    (unitsOf (shownText α text) : List Char) = (unitsOf text : List α).map toChar := by
  rw [unitsOf, shownText, textOf, String.toList_ofList]
  exact List.map_id _

variable {α}

/-- Characters show the text that the units show. -/
theorem textOf_map_toChar (units : List α) : textOf (units.map toChar) = textOf units := by
  rw [textOf, textOf, List.map_map]
  rfl

end TextUnit

open TextUnit (shown shownText toChar ofChar unitsOf textOf)

/-! ## The calls of characters -/

section

variable (α : Type) [TextUnit α]

/-- The order with the texts that units show of its texts. -/
def TextOrder.image : TextOrder → TextOrder
  | .append c => .append (shown α c)
  | .appendSlice text => .appendSlice (shownText α text)
  | .appendText text => .appendText (shownText α text)
  | .extend text => .extend (shownText α text)
  | .prepend c => .prepend (shown α c)
  | .setAt i c => .setAt i (shown α c)
  | .replaceUnit old new => .replaceUnit (shown α old) (shown α new)
  | .lowerCase => .lowerCase
  | .removeStart count => .removeStart count
  | .removeEnd count => .removeEnd count
  | .trimStart => .trimStart
  | .trimEnd => .trimEnd
  | .trim => .trim
  | .compact => .compact
  | .clear => .clear
  | .replaceRange start stop text form => .replaceRange start stop (shownText α text) form
  | .replaceAll search text => .replaceAll (shownText α search) (shownText α text)
  | .substitute opening closing values form =>
      .substitute (shownText α opening) (shownText α closing)
        (fun n inner => shownText α (values n inner)) form

/-- The use of a reader with the characters that units show of its characters. -/
def ReadAction.image : ReadAction → ReadAction
  | .read handover => .read handover
  | .readInto size handover => .readInto size handover
  | .back c => .back (shown α c)
  | .remaining => .remaining
  | .sizeHint => .sizeHint
  | .take count => .take count
  | .rest => .rest
  | .readUntil c sink handover => .readUntil (shown α c) sink handover

/-- The call with the texts and characters that units show of its own. -/
def TextCall.image : TextCall → TextCall
  | .order given => .order (given.image α)
  | .ask asked => .ask (asked.map (shown α))
  | .read actions => .read (actions.map (ReadAction.image α))

end

/-! ## Orders -/

/-- What comes of flat text, with its units renamed. -/
abbrev renamed {α β : Type} (f : α → β) :
    List α × Except Fault (Told α) → List β × Except Fault (Told β) :=
  Prod.map (List.map f) (Except.map (Told.map f))

variable {α : Type} [TextUnit α]

/-- An order of characters does to what units show what the order does to the units. -/
theorem TextOrder.onText_image (faithful : TextUnit.Faithful α) (order : TextOrder)
    (text : List α) :
    ((order.image α).stored : Order Char).onText (text.map toChar) =
      renamed toChar (order.stored.onText text) := by
  have inj := TextUnit.toChar_injective α
  have white : TextUnit.isWhitespace ∘ toChar = (TextUnit.isWhitespace : α → Bool) :=
    funext faithful.isWhiteSpace_toChar
  cases order with
  | append c =>
      refine congrArg changed ?_
      rw [List.map_append]
      rfl
  | appendSlice more | appendText more | extend more =>
      refine congrArg changed ?_
      rw [TextUnit.unitsOf_shownText, List.map_append]
  | prepend c =>
      refine congrArg changed ?_
      rw [List.map_append]
      rfl
  | setAt i c =>
      simp only [image, stored, Order.onText, List.length_map]
      split
      · exact congrArg changed List.map_set.symm
      · rfl
  | replaceUnit old new =>
      refine congrArg changed ?_
      rw [List.map_map, List.map_map]
      exact List.map_congr_left fun u _ => replacing_map inj _ _ u
  | lowerCase =>
      refine congrArg changed ?_
      rw [List.map_map, List.map_map]
      exact List.map_congr_left fun u _ => (faithful.toChar_toLower u).symm
  | removeStart count => exact congrArg changed List.map_drop.symm
  | removeEnd count =>
      refine congrArg changed ?_
      rw [List.length_map, List.map_take]
  | trimStart =>
      refine congrArg changed ?_
      rw [List.dropWhile_map, white]
  | trimEnd =>
      refine congrArg changed ?_
      rw [rdropWhile_map, white]
  | trim =>
      refine congrArg changed ?_
      rw [List.dropWhile_map, rdropWhile_map, white]
  | compact => rfl
  | clear => rfl
  | replaceRange start stop more form =>
      simp only [image, stored, Order.onText, List.length_map, Chunk.text_singleton,
        TextUnit.unitsOf_shownText]
      split
      · refine congrArg changed ?_
        rw [List.map_append, List.map_append, List.map_take, List.map_drop]
      · rfl
  | replaceAll search more =>
      simp only [image, stored, Order.onText, TextUnit.unitsOf_shownText,
        replaceOccurrences_map inj]
      rfl
  | substitute opening closing values form =>
      simp only [image, stored, Order.onText, TextUnit.unitsOf_shownText, spans_map inj,
        enclosedBy_map, Chunk.text_singleton]
      rw [valuesFor_map fun n inner => by rw [TextUnit.textOf_map_toChar], exchanged_map]
      rfl

/-! ## Questions -/

section

variable {β : Type} [TextUnit β] {f : α → β}

/-- A question is answered alike when all units are renamed. -/
theorem Question.onText_map (inj : Function.Injective f) (asked : Question α) (text : List α) :
    (asked.map f).onText (text.map f) = (asked.onText text).map (Told.map f) := by
  cases asked with
  | unitAt i =>
      rw [map, onText, onText, List.getElem?_map, List.length_map]
      cases text[i]? <;> rfl
  | indexOf u start =>
      rw [map, onText, onText, ← List.map_drop, findIdx?_map inj]
      rfl
  | indexOfSlice pattern start =>
      rw [map, onText, onText, placeOf_map inj]
      rfl
  | startsWith pattern =>
      rw [map, onText, onText, isPrefixOf_map inj]
      rfl
  | endsWith pattern =>
      rw [map, onText, onText, isSuffixOf_map inj]
      rfl
  | contains pattern =>
      rw [map, onText, onText, firstOccurrence_map inj]
      rfl
  | substring start stop =>
      rw [map, onText, onText, List.length_map, ← List.map_take, ← List.map_drop]
      split <;> rfl
  | substringFrom start =>
      rw [map, onText, onText, List.length_map, ← List.map_drop]
      split <;> rfl
  | split separator =>
      rw [map, onText, onText, splitOn_map inj]
      rfl

end

/-! ## Readers -/

namespace Tape

/-- The tape of what the units of a tape show. -/
def shown (t : Tape α) : Tape Char :=
  ⟨t.pushed.map toChar, t.unread.map toChar, fun name => (t.sinks name).map (List.map toChar)⟩

theorem sinks_shown (t : Tape α) (name : String) :
    t.shown.sinks name = (t.sinks name).map (List.map toChar) := rfl

theorem ahead_shown (t : Tape α) : t.shown.ahead = t.ahead.map toChar := by
  rw [ahead, ahead, List.map_append]
  cases t with
  | mk pushed unread sinks => cases pushed <;> rfl

theorem skip_shown (t : Tape α) (count : Nat) : t.shown.skip count = (t.skip count).shown := by
  cases count with
  | zero => rfl
  | succ count =>
      rw [skip, skip, ahead_shown, ← List.map_drop]
      rfl

theorem pouring_shown (t : Tape α) (sink : String) (text : List α) :
    t.shown.pouring sink (text.map toChar) = (t.pouring sink text).shown := by
  have same (name : String) : (if name = sink then some (text.map toChar) else t.shown.sinks name) =
      (if name = sink then some text else t.sinks name).map (List.map toChar) := by
    split <;> rfl
  exact congrArg (Tape.mk _ _) (funext same)

/-- A use of a reader of characters does to what units show what the use does to the units. -/
theorem step_image (faithful : TextUnit.Faithful α) (t : Tape α) (action : ReadAction) :
    t.shown.step (action.image α) = ((t.step action).1.shown, (t.step action).2) := by
  have inj := TextUnit.toChar_injective α
  cases action with
  | read handover =>
      rw [ReadAction.image, step, step, ahead_shown]
      cases t.ahead with
      | nil => rfl
      | cons u us =>
          rw [List.map_cons, skip_shown]
          rfl
  | readInto size handover =>
      have behind (count : Nat) : List.replicate count (ofChar '-' : Char) =
          (List.replicate count (ofChar '-' : α)).map toChar := by
        rw [List.map_replicate, faithful.toChar_hyphen]
        rfl
      simp only [ReadAction.image, step, ahead_shown, skip_shown, ← List.map_take, List.isEmpty_map,
        List.length_map, behind, ← List.map_append, TextUnit.textOf_map_toChar]
      split
      · rfl
      · split <;> rfl
  | back c => rfl
  | remaining =>
      rw [ReadAction.image, step, step, ahead_shown, List.length_map]
  | sizeHint =>
      rw [ReadAction.image, step, step, ahead_shown, List.length_map]
  | take count =>
      rw [ReadAction.image, step, step, ahead_shown, ← List.map_take, skip_shown,
        TextUnit.textOf_map_toChar]
  | rest =>
      rw [ReadAction.image, step, step, ahead_shown, List.length_map, skip_shown,
        TextUnit.textOf_map_toChar]
  | readUntil c sink handover =>
      rw [ReadAction.image, step, step, ahead_shown, sinks_shown]
      cases t.sinks sink with
      | none => rfl
      | some text =>
          have delimiter : (ofChar (TextUnit.shown α c) : Char) = toChar (ofChar c : α) := rfl
          simp only [Option.map_some, delimiter, fromDelimiter_map inj, lineOf_map inj,
            List.isEmpty_map, ← List.map_append, ← List.map_tail]
          exact congrArg (·, _) (pouring_shown { t with pushed := none, unread := _ } sink _)

theorem run_image (faithful : TextUnit.Faithful α) (t : Tape α) (actions : List ReadAction) :
    t.shown.run (actions.map (ReadAction.image α)) =
      ((t.run actions).1.shown, (t.run actions).2) := by
  induction actions generalizing t with
  | nil => rfl
  | cons action rest ih =>
      rw [List.map_cons, run, run, step_image faithful]
      simp only [ih]

end Tape

/-! ## Reports -/

/-- Characters show themselves. -/
theorem Told.map_toChar (told : Told Char) : told.map toChar = told := by
  cases told with
  | text units => exact congrArg Told.text (List.map_id units)
  | texts parts =>
      have same : parts.map (List.map toChar) = parts.map id :=
        List.map_congr_left fun units _ => List.map_id units
      exact congrArg Told.texts (same.trans (List.map_id parts))
  | _ => rfl

namespace Report

/-- What is told of units is reported in the characters that they show. -/
theorem ofTold_map_toChar (told : Except Fault (Told α)) :
    ofTold (told.map (Told.map toChar)) = ofTold told := by
  cases told with
  | error fault => rfl
  | ok told => exact congrArg (fun told => Except.ok (Report.told told)) (Told.map_toChar _)

theorem ofReading_image (actions : List ReadAction) (outcomes : List ReadOutcome) (t : Tape α) :
    ofReading (actions.map (ReadAction.image α)) outcomes t.shown.sinks =
      ofReading actions outcomes t.sinks := by
  have names : ReadAction.sink? ∘ ReadAction.image α = ReadAction.sink? := by
    funext action
    cases action <;> rfl
  rw [ofReading, ofReading, List.filterMap_map, names]
  refine congrArg (Report.read outcomes) (List.map_congr_left fun name _ => ?_)
  rw [Tape.sinks_shown]
  cases t.sinks name with
  | none => rfl
  | some text => exact congrArg some (List.map_id _)

end Report

/-! ## Calls -/

namespace TextCall

/-- A call of characters does to what units show what the call does to the units, with the same
report. -/
theorem onText_image (faithful : TextUnit.Faithful α) (call : TextCall) (text : List α) :
    (call.image α).onText (text.map toChar) =
      ((call.onText text).1.map toChar, (call.onText text).2) := by
  cases call with
  | order given =>
      rw [image, onText, onText, given.onText_image faithful]
      exact congrArg (Prod.mk _) (Report.ofTold_map_toChar _)
  | ask asked =>
      have units : (asked.map (shown α)).map ofChar =
          (asked.map (ofChar : Char → α)).map toChar := by
        cases asked <;> simp only [Question.map, List.map_map] <;> rfl
      rw [image, onText, onText, units, Question.onText_map (TextUnit.toChar_injective α)]
      exact congrArg (Prod.mk _) (Report.ofTold_map_toChar _)
  | read actions =>
      have start : Tape.ofText (text.map toChar) = (Tape.ofText text).shown := rfl
      rw [image, onText, onText, start, Tape.run_image faithful, Report.ofReading_image]

theorem textTrace_image (faithful : TextUnit.Faithful α) (calls : List TextCall) (text : List α) :
    textTrace (calls.map (image α)) (text.map toChar) = textTrace calls text := by
  induction calls generalizing text with
  | nil => rfl
  | cons call rest ih =>
      rw [List.map_cons, textTrace, textTrace, onText_image faithful, ih]
      exact congrArg (fun shows => (shows, _) :: _) (List.map_id _)

/-- **A buffer of bytes does what a buffer of characters does.**  Of two buffers that are opened
with the same layout, one is given calls and the other what bytes show of their texts and
characters.  Then both show the same text and report the same after every call, up to a call by
which neither has been refused room; and it is what the calls come to on flat text. -/
theorem trace_eq_trace_image (layout : Layout) (calls : List TextCall) (count : Nat)
    (bytes : ∀ entry ∈ (trace calls (Buffer.ofLayout layout) ({} : Store UInt8)).take count,
      entry.2 ≠ .error .roomExceeded)
    (characters : ∀ entry ∈
      (trace (calls.map (image UInt8)) (Buffer.ofLayout layout) ({} : Store Char)).take count,
      entry.2 ≠ .error .roomExceeded) :
    (trace calls (Buffer.ofLayout layout) ({} : Store UInt8)).take count =
        (trace (calls.map (image UInt8)) (Buffer.ofLayout layout) ({} : Store Char)).take count ∧
      (trace calls (Buffer.ofLayout layout) ({} : Store UInt8)).take count =
        textTrace (calls.take count) ([] : List UInt8) := by
  rw [← trace_take] at bytes characters ⊢
  rw [← trace_take, ← List.map_take] at *
  have alone {α : Type} : (Buffer.ofLayout layout).Alone {} [] ({} : Store α) :=
    ⟨.nil {}, .nil, nofun, rfl⟩
  -- The layouts that the two runs come to may differ, so they are compared on the flat text.
  have stored := trace_eq_textTrace alone bytes
  have widened := trace_eq_textTrace alone characters
  refine ⟨?_, stored⟩
  rw [stored, widened]
  exact (textTrace_image Latin1.faithful (calls.take count) []).symm

/-- Characters beyond U+00FF, a place beyond the end, a no-break space, and a reader. -/
theorem trace_eq_trace_image_mixed :
    let calls : List TextCall := [.order (.appendSlice "Äß€\u00a0"), .order (.setAt 9 'x'),
      .order .lowerCase, .order .trimEnd, .ask (.indexOf '€' 0),
      .read [.back 'ŵ', .read none, .read none]]
    let opened := Buffer.ofLayout {}
    (trace calls opened ({} : Store UInt8)).take 6 =
        (trace (calls.map (image UInt8)) opened ({} : Store Char)).take 6 ∧
      (trace calls opened ({} : Store UInt8)).take 6 =
        [(['Ä', 'ß', '?', '\u00a0'], .ok (.told .done)),
          (['Ä', 'ß', '?', '\u00a0'], .error (.bufferIndex 9 4)),
          (['ä', 'ß', '?', '\u00a0'], .ok (.told .done)), (['ä', 'ß', '?'], .ok (.told .done)),
          (['ä', 'ß', '?'], .ok (.told (.place (some 2)))),
          (['ä', 'ß', '?'], .ok (.read [.done, .unit "?", .unit "ä"] []))] :=
  ⟨(trace_eq_trace_image {} _ 6 (by decide) (by decide)).1, by decide⟩

/-- The first segment that a text is put into has room for eight bytes, but for four characters
only.  Where no other segment can be opened, bytes go on and characters are refused room. -/
theorem bytes_beyond_room :
    let calls : List TextCall :=
      [.order (.replaceRange 0 0 "ab" .text), .order (.appendSlice "vwxyz")]
    let opened := Buffer.ofLayout { initialCapacity := 0x8000000000000000 }
    trace calls opened ({} : Store UInt8) =
        [(['a', 'b'], .ok (.told .done)),
          (['a', 'b', 'v', 'w', 'x', 'y', 'z'], .ok (.told .done))] ∧
      trace (calls.map (image UInt8)) opened ({} : Store Char) =
        [(['a', 'b'], .ok (.told .done)), (['a', 'b', 'v', 'w'], .error .roomExceeded)] := by
  decide

end TextCall

end SegmentedText
