import SegmentedText.Json.Codec

/-!
# A lawful library for JSON

The library that worlds use reads and writes JSON as it is specified
(`JsonCodec.lawful_standard`).

What it writes is shown to be JSON: each character of a text, however it is escaped, is
spelled (`spellsInside_jsonChar`), and bytes are listed in decimal.  What it reads is
shown by induction on the spelling.  Whatever spells a text gives its codes, to the
strict reader of texts and to the lenient one of byte strings alike, and leaves what
lies behind the mark untouched (`readCodes_of_spellsInside`); whatever lists bytes gives
these bytes, and reading stops behind the bracket (`readBytes_of_listsInside`).
-/

set_option autoImplicit false

namespace SegmentedText

/-! ## Codes -/

/-- A code that is not one half of a pair. -/
def IsWhole (n : Nat) : Prop := isHighSurrogate n = false ∧ isLowSurrogate n = false

theorem isWhole_toNat (c : Char) : IsWhole c.toNat := by
  have valid := c.valid
  have code : c.val.toNat = c.toNat := rfl
  simp only [UInt32.isValidChar, Nat.isValidChar] at valid
  simp only [IsWhole, isHighSurrogate, isLowSurrogate, Bool.and_eq_false_iff,
    decide_eq_false_iff_not]
  omega

/-- A pair of surrogates is the code of a character. -/
theorem toNat_ofNat_surrogatePair {high low : Nat} (announces : isHighSurrogate high = true)
    (completes : isLowSurrogate low = true) :
    (Char.ofNat (surrogatePair high low)).toNat = surrogatePair high low := by
  simp only [isHighSurrogate, isLowSurrogate, Bool.and_eq_true, decide_eq_true_eq]
    at announces completes
  have valid : (surrogatePair high low).isValidChar := by
    refine .inr ⟨?_, ?_⟩ <;> (simp only [surrogatePair]; omega)
  rw [Char.ofNat, dif_pos valid]
  rfl

theorem codeBytes_toNat (c : Char) : codeBytes c.toNat = String.utf8EncodeChar c := by
  obtain ⟨high, low⟩ := isWhole_toNat c
  rw [codeBytes, high, low, Char.ofNat_toNat]
  rfl

/-! ## Blanks -/

theorem skipBlanks_append {front : List Char} (blank : JsonBlank front) (rest : List Char) :
    skipBlanks (front ++ rest) = skipBlanks rest :=
  List.dropWhile_append_of_pos blank

theorem skipBlanks_cons {c : Char} (dense : isJsonBlank c = false) (rest : List Char) :
    skipBlanks (c :: rest) = c :: rest :=
  List.dropWhile_cons_of_neg (by simp [dense])

/-- Nothing is left of blanks. -/
theorem skipBlanks_of_blank {cs : List Char} (blank : JsonBlank cs) : skipBlanks cs = [] := by
  rw [← List.append_nil cs, skipBlanks_append blank]
  rfl

theorem wholeValue_of_blank {β : Type} (value : β) {behind : List Char} (blank : JsonBlank behind) :
    wholeValue (.ok (value, behind)) = .ok value := by
  rw [wholeValue, skipBlanks_of_blank blank]
  rfl

theorem jsonBlank_nil : JsonBlank [] := fun _ none => nomatch none

/-! ## Writing strings -/

/-- The escape by four digits gives the code back.  It is used below the first printable code. -/
theorem hexNumber?_fourHexDigits : ∀ n < 0x20, ∃ h₁ h₂ h₃ h₄,
    fourHexDigits n = [h₁, h₂, h₃, h₄] ∧ hexNumber? h₁ h₂ h₃ h₄ = some n := by
  have digits : ∀ n < 0x20, fourHexDigits n =
      ['0', '0', if n < 0x10 then '0' else '1', Nat.digitChar (n % 0x10)] := by decide
  have value : ∀ n < 0x20,
      hexNumber? '0' '0' (if n < 0x10 then '0' else '1') (Nat.digitChar (n % 0x10)) = some n := by
    decide
  exact fun n control => ⟨_, _, _, _, digits n control, value n control⟩

/-- A character is spelled, however it is written. -/
theorem spellsInside_jsonChar (c : Char) {written text : List Char}
    (rest : SpellsInside written text) : SpellsInside (jsonChar c ++ written) (c :: text) := by
  unfold jsonChar
  split
  next mark =>
    refine .short ?_ rest
    rw [shortEscape?, mark]
    rfl
  next plain =>
    obtain ⟨mark, slash⟩ := not_or.1 fun some => plain (by simpa using some)
    split
    next same => exact .short (same ▸ rfl) rest
    split
    next same => exact .short (same ▸ rfl) rest
    split
    next same => exact .short (same ▸ rfl) rest
    split
    next same => exact .short (same ▸ rfl) rest
    split
    next same => exact .short (same ▸ rfl) rest
    split
    next control =>
      obtain ⟨h₁, h₂, h₃, h₄, digits, value⟩ := hexNumber?_fourHexDigits c.toNat control
      rw [digits]
      exact .code value rest
    next printable => exact .plain mark slash (Nat.le_of_not_lt printable) rest

theorem spellsInside_flatMap_jsonChar (cs : List Char) :
    SpellsInside (cs.flatMap jsonChar) cs := by
  induction cs with
  | nil => exact .nil
  | cons c cs ih =>
      rw [List.flatMap_cons]
      exact spellsInside_jsonChar c ih

/-- The string that is written for a text spells it. -/
theorem spells_jsonText (text : String) : Spells (String.ofList (jsonText text.toList)) text :=
  ⟨[], text.toList.flatMap jsonChar, [], jsonBlank_nil, jsonBlank_nil,
    spellsInside_flatMap_jsonChar text.toList, String.toList_ofList⟩

/-! ## Reading strings -/

section

variable (strict : Bool) (rest : List Char)

theorem readCodes_mark : readCodes strict none (quotationMark :: rest) = .ok ([], rest) := by
  rw [readCodes.eq_def]
  simp [show quotationMark ≠ backslash by decide]

theorem readCodes_escape {e escaped : Char} (known : shortEscape? e = some escaped) :
    readCodes strict none (backslash :: e :: rest) =
      withCodes [escaped.toNat] (readCodes strict none rest) := by
  have short : e ≠ 'u' := by
    rintro rfl
    cases known
  rw [readCodes.eq_def]
  simp [short, known]

/-- Four digits give their number, if it is not one half of a pair. -/
theorem readCodes_digits {h₁ h₂ h₃ h₄ : Char} {n : Nat} (value : hexNumber? h₁ h₂ h₃ h₄ = some n)
    (high : isHighSurrogate n = false) (low : isLowSurrogate n = false) :
    readCodes strict none (backslash :: 'u' :: h₁ :: h₂ :: h₃ :: h₄ :: rest) =
      withCodes [n] (readCodes strict none rest) := by
  rw [readCodes.eq_def]
  simp [value, high, low]

theorem readCodes_plain {c : Char} (mark : c ≠ quotationMark) (slash : c ≠ backslash)
    (printable : strict = true → ¬c.toNat < 0x20) :
    readCodes strict none (c :: rest) = withCodes [c.toNat] (readCodes strict none rest) := by
  rw [readCodes.eq_def]
  cases strict <;> simp [mark, slash, printable]

/-- A pair of surrogates gives one code. -/
theorem readCodes_pair {h₁ h₂ h₃ h₄ l₁ l₂ l₃ l₄ : Char} {high low : Nat}
    (first : hexNumber? h₁ h₂ h₃ h₄ = some high) (announces : isHighSurrogate high = true)
    (second : hexNumber? l₁ l₂ l₃ l₄ = some low) (completes : isLowSurrogate low = true) :
    readCodes strict none
        (backslash :: 'u' :: h₁ :: h₂ :: h₃ :: h₄ :: backslash :: 'u' :: l₁ :: l₂ :: l₃ :: l₄ ::
          rest) =
      withCodes [surrogatePair high low] (readCodes strict none rest) := by
  have waits : readCodes strict (some high) (backslash :: 'u' :: l₁ :: l₂ :: l₃ :: l₄ :: rest) =
      withCodes [surrogatePair high low] (readCodes strict none rest) := by
    rw [readCodes.eq_def]
    simp [second, completes]
  rw [readCodes.eq_def, ← waits]
  simp [first, announces]

/-- What spells a text gives the codes of the text, and what lies behind the mark. -/
theorem readCodes_of_spellsInside {written text : List Char}
    (spelled : SpellsInside written text) :
    readCodes strict none (written ++ quotationMark :: rest) = .ok (text.map Char.toNat, rest) := by
  induction spelled with
  | nil => exact readCodes_mark strict rest
  | plain mark slash printable _ ih =>
      rw [List.cons_append, readCodes_plain strict _ mark slash fun _ => Nat.not_lt.2 printable, ih]
      rfl
  | short known _ ih =>
      rw [List.cons_append, List.cons_append, readCodes_escape strict _ known, ih]
      rfl
  | @code _ _ _ _ c _ _ value _ ih =>
      obtain ⟨high, low⟩ := isWhole_toNat c
      simp only [List.cons_append]
      rw [readCodes_digits strict _ value high low, ih]
      rfl
  | pair first announces second completes _ ih =>
      simp only [List.cons_append]
      rw [readCodes_pair strict _ first announces second completes, ih, List.map_cons,
        toNat_ofNat_surrogatePair announces completes]
      rfl

end

/-- What spells a text is read as that text, and as its bytes where a byte string is wanted. -/
theorem readText_of_spellsInside {written text : List Char} (spelled : SpellsInside written text)
    (behind : List Char) : readText (written ++ quotationMark :: behind) = .ok (text, behind) := by
  have codes : (text.map Char.toNat).map Char.ofNat = text := by
    rw [List.map_map]
    exact (List.map_congr_left fun c _ => Char.ofNat_toNat c).trans (List.map_id text)
  rw [readText, readCodes_of_spellsInside true behind spelled]
  exact congrArg (fun text => Except.ok (text, behind)) codes

theorem readRaw_of_spellsInside {written text : List Char} (spelled : SpellsInside written text)
    (behind : List Char) :
    readRaw (written ++ quotationMark :: behind) =
      .ok (text.flatMap String.utf8EncodeChar, behind) := by
  have bytes : (text.map Char.toNat).flatMap codeBytes = text.flatMap String.utf8EncodeChar := by
    rw [List.flatMap_map, List.flatMap_def, List.flatMap_def]
    exact congrArg List.flatten (List.map_congr_left fun c _ => codeBytes_toNat c)
  rw [readRaw, readCodes_of_spellsInside false behind spelled]
  exact congrArg (fun bytes => Except.ok (bytes, behind)) bytes

/-- A string is reached behind the blanks in front of it. -/
theorem skipBlanks_string {front : List Char} (blank : JsonBlank front) (inside : List Char) :
    skipBlanks (front ++ quotationMark :: inside) = quotationMark :: inside := by
  rw [skipBlanks_append blank, skipBlanks_cons (by decide)]

theorem readJsonText_of_spells {json text : String} (spells : Spells json text) :
    readJsonText json.toList = .ok text.toList := by
  obtain ⟨front, written, behind, before, after, spelled, shown⟩ := spells
  rw [readJsonText, shown, skipBlanks_string before]
  show wholeValue (readText (written ++ quotationMark :: behind)) = _
  rw [readText_of_spellsInside spelled, wholeValue_of_blank _ after]

theorem readJsonBytes_of_spells {json text : String} (spells : Spells json text) :
    readJsonBytes json.toList = .ok (.string (text.toList.flatMap String.utf8EncodeChar)) := by
  obtain ⟨front, written, behind, before, after, spelled, shown⟩ := spells
  rw [readJsonBytes, shown, skipBlanks_string before]
  show (wholeValue (readRaw (written ++ quotationMark :: behind))).map JsonBytes.string = _
  rw [readRaw_of_spellsInside spelled, wholeValue_of_blank _ after]
  rfl

/-! ## Numbers -/

theorem le_ofDigitChars (cs : List Char) (n : Nat) : n ≤ Nat.ofDigitChars 10 cs n := by
  induction cs generalizing n with
  | nil => exact Nat.le_refl n
  | cons c cs ih =>
      have := ih (10 * n + (c.toNat - '0'.toNat))
      rw [Nat.ofDigitChars_cons]
      omega

/-- Digits are gathered to the end, if their number fits 64 bits. -/
theorem gatherDigits_eq {cs : List Char} {n : Nat} (fits : Nat.ofDigitChars 10 cs n < UInt64.size) :
    gatherDigits n cs = (Nat.ofDigitChars 10 cs n, 0) := by
  induction cs generalizing n with
  | nil => rfl
  | cons c cs ih =>
      rw [Nat.ofDigitChars_cons] at fits ⊢
      have more : n * 10 + (c.toNat - 0x30) = 10 * n + (c.toNat - '0'.toNat) := by
        rw [Nat.mul_comm]
        rfl
      have below := Nat.lt_of_le_of_lt (le_ofDigitChars cs _) fits
      simp only [gatherDigits, more]
      rw [if_pos below, ih fits]

/-- A number is written with no zero in front. -/
theorem head?_toDigits {n : Nat} (positive : 0 < n) : (Nat.toDigits 10 n).head? ≠ some '0' := by
  induction n using Nat.strongRecOn with
  | ind n ih =>
      by_cases single : n < 10
      · have digit : ∀ n < 10, 0 < n → some n.digitChar ≠ some '0' := by decide
        rw [Nat.toDigits_of_lt_base single]
        exact digit n single positive
      · have front := ih (n / 10) (by omega) (by omega)
        rw [Nat.toDigits_of_base_le (by omega) (by omega), List.head?_append]
        cases digits : Nat.toDigits 10 (n / 10) with
        | nil => exact absurd digits (List.length_pos_iff.1 Nat.length_toDigits_pos)
        | cons c cs =>
            rw [digits] at front
            exact front

/-- A text that no number goes on with. -/
def EndsNumber (rest : List Char) : Prop :=
  ∃ c behind, rest = c :: behind ∧ (c = ',' ∨ c = ']' ∨ isJsonBlank c = true)

/-- A text that no number goes on with begins with a character that no part of a number begins
with. -/
theorem EndsNumber.stops {rest : List Char} (ends : EndsNumber rest) :
    ∃ c behind, rest = c :: behind ∧ c.isDigit = false ∧ c ≠ '.' ∧ c ≠ 'e' ∧ c ≠ 'E' := by
  obtain ⟨c, behind, rfl, mark⟩ := ends
  simp only [isJsonBlank, Bool.or_eq_true, decide_eq_true_eq] at mark
  refine ⟨c, behind, rfl, ?_⟩
  rcases mark with rfl | rfl | ((rfl | rfl) | rfl) | rfl <;> decide

theorem takeDigits_toDigits (n : Nat) {rest : List Char} (ends : EndsNumber rest) :
    takeDigits (Nat.toDigits 10 n ++ rest) = (Nat.toDigits 10 n, rest) := by
  have digits : ∀ c ∈ Nat.toDigits 10 n, c.isDigit = true := fun c here =>
    Nat.isDigit_of_mem_toDigits (by omega) (Nat.le_refl _) here
  obtain ⟨c, behind, rfl, stops, -⟩ := ends.stops
  refine Prod.ext ?_ ?_
  · show List.takeWhile _ _ = _
    rw [List.takeWhile_append_of_pos digits, List.takeWhile_cons_of_neg (by simp [stops]),
      List.append_nil]
  · show List.dropWhile _ _ = _
    rw [List.dropWhile_append_of_pos digits, List.dropWhile_cons_of_neg (by simp [stops])]

/-- A number of 64 bits is read back from its digits. -/
theorem readUnsigned_toDigits {n : Nat} (fits : n < UInt64.size) {rest : List Char}
    (ends : EndsNumber rest) :
    readUnsigned false (Nat.toDigits 10 n ++ rest) = .ok (.natural n, rest) := by
  have value : Nat.ofDigitChars 10 (Nat.toDigits 10 n) 0 = n :=
    Nat.ofDigitChars_toDigits (by omega) (Nat.le_refl _)
  have proper : ((Nat.toDigits 10 n).isEmpty ||
      (1 < (Nat.toDigits 10 n).length && (Nat.toDigits 10 n).head? = some '0')) = false := by
    have some : Nat.toDigits 10 n ≠ [] := List.length_pos_iff.1 Nat.length_toDigits_pos
    rcases Nat.eq_zero_or_pos n with rfl | positive
    · decide
    · simp [some, head?_toDigits positive]
  have whole : gatherDigits 0 (Nat.toDigits 10 n) = (n, 0) := by
    rw [gatherDigits_eq (value.symm ▸ fits), value]
  have number : numberOf false (Nat.toDigits 10 n) none none = .ok (.natural n) := by
    rw [numberOf, whole]
    rfl
  have taken := takeDigits_toDigits n ends
  obtain ⟨c, behind, rfl, -, point, small, great⟩ := ends.stops
  have fraction : readFraction (c :: behind) = .ok (none, c :: behind) := by
    simp [readFraction, point]
  have exponent : readExponent (c :: behind) = .ok (none, c :: behind) := by
    simp [readExponent, small, great]
  simp only [readUnsigned, taken, proper, fraction, exponent, number]
  rfl

/-! ## Arrays of bytes -/

/-- Something that is written in digits begins with one. -/
theorem exists_digit (n : Nat) (rest : List Char) :
    ∃ c behind, Nat.toDigits 10 n ++ rest = c :: behind ∧ c.isDigit = true := by
  cases digits : Nat.toDigits 10 n with
  | nil => exact absurd digits (List.length_pos_iff.1 Nat.length_toDigits_pos)
  | cons c behind =>
      have here : c ∈ Nat.toDigits 10 n := digits ▸ List.mem_cons_self
      exact ⟨c, behind ++ rest, rfl, Nat.isDigit_of_mem_toDigits (by omega) (Nat.le_refl _) here⟩

theorem skipBlanks_toDigits (n : Nat) (rest : List Char) :
    skipBlanks (Nat.toDigits 10 n ++ rest) = Nat.toDigits 10 n ++ rest := by
  obtain ⟨c, behind, begins, digit⟩ := exists_digit n rest
  have dense : ¬isJsonBlank c = true := by
    intro blank
    simp only [isJsonBlank, Bool.or_eq_true, decide_eq_true_eq] at blank
    rcases blank with ((rfl | rfl) | rfl) | rfl <;> cases digit
  rw [begins]
  exact List.dropWhile_cons_of_neg dense

/-- A byte is read back from its digits. -/
theorem readByte_toDigits (b : UInt8) {rest : List Char} (ends : EndsNumber rest) :
    readByte (Nat.toDigits 10 b.toNat ++ rest) = .ok (b, rest) := by
  have small : b.toNat < 256 := b.toNat_lt
  have number := readUnsigned_toDigits (n := b.toNat) (by simp only [UInt64.size]; omega) ends
  obtain ⟨c, behind, begins, digit⟩ := exists_digit b.toNat rest
  have unsigned : c ≠ '-' := by
    rintro rfl
    cases digit
  have read : readNumber (c :: behind) = .ok (.natural b.toNat, rest) := by
    rw [readNumber]
    rw [begins] at number
    exact (if_neg unsigned).trans number
  rw [begins, readByte]
  simp only [digit, Bool.or_true, if_true, read]
  rw [if_pos (by omega), UInt8.ofNat_toNat]

theorem readBytes_last {cs gap behind : List Char} {b : UInt8} (read : readByte cs = .ok (b, gap))
    (closes : skipBlanks gap = ']' :: behind) : readBytes cs = .ok ([b], behind) := by
  rw [readBytes]
  split
  next failed => cases read.symm.trans failed
  next found =>
    cases read.symm.trans found
    split
    next none => cases closes.symm.trans none
    next some =>
      cases closes.symm.trans some
      rfl

theorem readBytes_next {cs gap rest behind : List Char} {b : UInt8} {bs : List UInt8}
    (read : readByte cs = .ok (b, gap)) (goesOn : skipBlanks gap = ',' :: rest)
    (later : readBytes (skipBlanks rest) = .ok (bs, behind)) :
    readBytes cs = .ok (b :: bs, behind) := by
  rw [readBytes]
  split
  next failed => cases read.symm.trans failed
  next found =>
    cases read.symm.trans found
    split
    next none => cases goesOn.symm.trans none
    next some =>
      cases goesOn.symm.trans some
      simp [later]

/-- Blanks and a comma or a bracket behind them end a number. -/
theorem endsNumber_append {front : List Char} (blank : JsonBlank front) {c : Char}
    (mark : c = ',' ∨ c = ']') (rest : List Char) : EndsNumber (front ++ c :: rest) := by
  cases front with
  | nil => exact ⟨c, rest, rfl, mark.imp_right .inl⟩
  | cons d front => exact ⟨d, front ++ c :: rest, rfl, .inr (.inr (blank d List.mem_cons_self))⟩

/-- What lists bytes gives these bytes, and what lies behind the bracket. -/
theorem readBytes_of_listsInside {written : List Char} {bytes : List UInt8}
    (listed : ListsInside written bytes) (behind : List Char) :
    readBytes (skipBlanks (written ++ ']' :: behind)) = .ok (bytes, behind) := by
  induction listed with
  | @last front gap before after b =>
      have closes : skipBlanks (gap ++ ']' :: behind) = ']' :: behind := by
        rw [skipBlanks_append after, skipBlanks_cons (by decide)]
      have read := readByte_toDigits b (endsNumber_append after (.inr rfl) behind)
      rw [List.append_assoc, List.append_assoc, skipBlanks_append before, skipBlanks_toDigits]
      exact readBytes_last read closes
  | @next front gap written bytes before after b _ ih =>
      have goesOn : skipBlanks (gap ++ ',' :: (written ++ ']' :: behind)) =
          ',' :: (written ++ ']' :: behind) := by
        rw [skipBlanks_append after, skipBlanks_cons (by decide)]
      have read := readByte_toDigits b
        (endsNumber_append after (.inl rfl) (written ++ ']' :: behind))
      simp only [List.append_assoc, List.cons_append]
      rw [skipBlanks_append before, skipBlanks_toDigits]
      exact readBytes_next read goesOn ih

/-- What lists bytes begins with a digit, behind the blanks. -/
theorem exists_digit_of_listsInside {written : List Char} {bytes : List UInt8}
    (listed : ListsInside written bytes) (rest : List Char) :
    ∃ c behind, skipBlanks (written ++ rest) = c :: behind ∧ c.isDigit = true := by
  cases listed with
  | last before _ b =>
      rw [List.append_assoc, List.append_assoc, skipBlanks_append before, skipBlanks_toDigits]
      exact exists_digit b.toNat _
  | next before _ b _ =>
      rw [List.append_assoc, List.append_assoc, skipBlanks_append before, skipBlanks_toDigits]
      exact exists_digit b.toNat _

theorem readJsonBytes_of_lists {json : String} {bytes : List UInt8} (lists : Lists json bytes) :
    readJsonBytes json.toList = .ok (.array bytes) := by
  obtain ⟨front, written, behind, before, after, listed, shown⟩ := lists
  have reached : skipBlanks (front ++ '[' :: (written ++ ']' :: behind)) =
      '[' :: (written ++ ']' :: behind) := by
    rw [skipBlanks_append before, skipBlanks_cons (by decide)]
  have read : readArray (written ++ ']' :: behind) = .ok (bytes, behind) := by
    rcases listed with ⟨rfl, vacant⟩ | listed
    · rw [readArray, skipBlanks_append vacant, skipBlanks_cons (by decide)]
      rfl
    · obtain ⟨c, rest, begins, digit⟩ := exists_digit_of_listsInside listed (']' :: behind)
      have inside : c ≠ ']' := by
        rintro rfl
        cases digit
      have all := readBytes_of_listsInside listed behind
      rw [readArray, begins]
      rw [begins] at all
      exact (if_neg inside).trans all
  rw [readJsonBytes, shown, reached]
  show (wholeValue (readArray (written ++ ']' :: behind))).map JsonBytes.array = _
  rw [read, wholeValue_of_blank _ after]
  rfl

/-! ## Writing arrays -/

theorem listsInside_intercalate (b : UInt8) (bs : List UInt8) :
    ListsInside (List.intercalate [','] ((b :: bs).map fun b => Nat.toDigits 10 b.toNat))
      (b :: bs) := by
  induction bs generalizing b with
  | nil =>
      have alone := ListsInside.last jsonBlank_nil jsonBlank_nil b
      rw [List.append_nil, List.nil_append] at alone
      rw [List.map_singleton, List.intercalate_singleton]
      exact alone
  | cons b' bs ih =>
      rw [List.map_cons, List.map_cons, List.intercalate_cons_cons, List.append_assoc]
      exact .next jsonBlank_nil jsonBlank_nil b (ih b')

/-- The array that is written for bytes lists them. -/
theorem lists_jsonBytes (bytes : List UInt8) : Lists (String.ofList (jsonBytes bytes)) bytes := by
  refine ⟨[], List.intercalate [','] (bytes.map fun b => Nat.toDigits 10 b.toNat), [], jsonBlank_nil,
    jsonBlank_nil, ?_, String.toList_ofList.trans ?_⟩
  · cases bytes with
    | nil => exact .inl ⟨rfl, jsonBlank_nil⟩
    | cons b bs => exact .inr (listsInside_intercalate b bs)
  · rfl

/-! ## The library -/

/-- **The library that worlds use reads and writes JSON as it is specified.** -/
theorem JsonCodec.lawful_standard : JsonCodec.standard.Lawful where
  spells_writeText := spells_jsonText
  readText_of_spells := fun {json text} spells => by
    show (readJsonText json.toList).map String.ofList = _
    rw [readJsonText_of_spells spells]
    exact congrArg Except.ok String.ofList_toList
  lists_writeBytes := lists_jsonBytes
  readBytes_of_lists := readJsonBytes_of_lists
  readBytes_of_spells := readJsonBytes_of_spells

end SegmentedText
