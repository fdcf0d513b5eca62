import SegmentedText.Json.Fault

/-!
# JSON numbers

A number has a whole part without leading zeros, and may have a sign, a fraction
and an exponent.  What is wanted here is a natural number; the others are read to
their end, because a number that is not well formed is a worse fault than one of
another kind.

A number that is not kept as a whole must fit a double.  Its digits are gathered
as long as they fit 64 bits, and the others count as powers of ten or are dropped;
the product of the gathered digits and the power of ten, each rounded to a double,
must not round to infinity.
-/

set_option autoImplicit false

namespace SegmentedText

/-! ## Range -/

/-- A natural number rounded to 53 binary digits, a tie to the even neighbour. -/
def roundToDouble (n : Nat) : Nat :=
  let unit := Nat.pow 2 ((n.log2 + 1) - 53)
  let down := n / unit
  let rest := n % unit
  let up := 2 * rest > unit || (2 * rest = unit && down % 2 = 1)
  (if up then down + 1 else down) * unit

/-- The least number that does not round to a double: it lies halfway between the greatest double
and the next power of two. -/
def leastOverflow : Nat := Nat.pow 2 1024 - Nat.pow 2 970

/-- Whether `significand · 10 ^ exponent` is too great for a double. -/
def overflowsDouble (significand : Nat) (exponent : Int) : Bool :=
  match exponent with
  | .negSucc _ => false
  | .ofNat power =>
      significand != 0 &&
        (308 < power ||
          leastOverflow ≤ roundToDouble significand * roundToDouble (Nat.pow 10 power))

/-- Puts digits behind a number as long as it fits 64 bits; also the number of digits left over. -/
def gatherDigits : Nat → List Char → Nat × Nat
  | n, [] => (n, 0)
  | n, c :: cs =>
      let more := n * 10 + (c.toNat - 0x30)
      if more < UInt64.size then gatherDigits more cs else (n, (c :: cs).length)

/-! ## Reading -/

/-- What was read as a number. -/
inductive JsonNumber where
  | natural (n : Nat)
  /-- A negative number, a number with a fraction or an exponent, or one beyond 64 bits. -/
  | other
  deriving Repr, DecidableEq

/-- The digits at the front of a text, and the text behind them. -/
def takeDigits (cs : List Char) : List Char × List Char :=
  (cs.takeWhile Char.isDigit, cs.dropWhile Char.isDigit)

/-- The digits of a fraction, if the text goes on with one. -/
def readFraction (cs : List Char) : Except JsonFault (Option (List Char) × List Char) :=
  match cs with
  | [] => .ok (none, cs)
  | c :: rest =>
      if c = '.' then
        let (digits, behind) := takeDigits rest
        if digits.isEmpty then .error .malformed else .ok (some digits, behind)
      else .ok (none, cs)

/-- A sign and the text behind it. -/
def readSign (cs : List Char) : Bool × List Char :=
  match cs with
  | [] => (false, cs)
  | c :: rest =>
      if c = '-' then (true, rest) else if c = '+' then (false, rest) else (false, cs)

/-- The exponent, if the text goes on with one. -/
def readExponent (cs : List Char) : Except JsonFault (Option Int × List Char) :=
  match cs with
  | [] => .ok (none, cs)
  | c :: rest =>
      if c = 'e' || c = 'E' then
        let (negative, unsigned) := readSign rest
        let (digits, behind) := takeDigits unsigned
        if digits.isEmpty then .error .malformed
        else
          let size : Int := (digits.foldl (fun n d => n * 10 + (d.toNat - 0x30)) 0 : Nat)
          .ok (some (if negative then -size else size), behind)
      else .ok (none, cs)

/-- The value of the parts of a number. -/
def numberOf (negative : Bool) (whole : List Char) (fraction : Option (List Char))
    (exponent : Option Int) : Except JsonFault JsonNumber :=
  let (significand, left) := gatherDigits 0 whole
  if fraction.isNone && exponent.isNone && left = 0 then
    .ok (if negative then .other else .natural significand)
  else
    let digits := fraction.getD []
    let (significand, dropped) := gatherDigits significand digits
    let power : Int := left - (digits.length - dropped : Nat) + exponent.getD 0
    if overflowsDouble significand power then .error .malformed else .ok .other

/-- Reads a number behind its sign; the text behind it is returned too. -/
def readUnsigned (negative : Bool) (cs : List Char) : Except JsonFault (JsonNumber × List Char) :=
  let (whole, behind) := takeDigits cs
  if whole.isEmpty || (1 < whole.length && whole.head? = some '0') then .error .malformed
  else
    match readFraction behind with
    | .error fault => .error fault
    | .ok (fraction, behind) =>
        match readExponent behind with
        | .error fault => .error fault
        | .ok (exponent, behind) =>
            match numberOf negative whole fraction exponent with
            | .error fault => .error fault
            | .ok number => .ok (number, behind)

/-- Reads a number. -/
def readNumber (cs : List Char) : Except JsonFault (JsonNumber × List Char) :=
  match cs with
  | [] => .error .malformed
  | c :: rest => if c = '-' then readUnsigned true rest else readUnsigned false (c :: rest)

/-! ## Progress -/

theorem length_takeDigits (cs : List Char) :
    (takeDigits cs).1.length + (takeDigits cs).2.length = cs.length := by
  rw [← List.length_append]
  exact congrArg List.length (List.takeWhile_append_dropWhile ..)

theorem length_readFraction_le {cs behind : List Char} {fraction : Option (List Char)}
    (read : readFraction cs = .ok (fraction, behind)) : behind.length ≤ cs.length := by
  unfold readFraction at read
  split at read
  · cases read
    exact Nat.le_refl _
  next c rest =>
    split at read
    · dsimp only at read
      split at read
      · cases read
      · obtain ⟨_, rfl⟩ := Prod.mk.inj (Except.ok.inj read)
        have := length_takeDigits rest
        simp only [List.length_cons]
        omega
    · cases read
      exact Nat.le_refl _

theorem length_readSign_le (cs : List Char) : (readSign cs).2.length ≤ cs.length := by
  unfold readSign
  split
  · exact Nat.le_refl _
  · split
    · exact Nat.le_succ _
    · split
      · exact Nat.le_succ _
      · exact Nat.le_refl _

theorem length_readExponent_le {cs behind : List Char} {exponent : Option Int}
    (read : readExponent cs = .ok (exponent, behind)) : behind.length ≤ cs.length := by
  unfold readExponent at read
  split at read
  · cases read
    exact Nat.le_refl _
  next c rest =>
    split at read
    · dsimp only at read
      split at read
      · cases read
      · obtain ⟨_, rfl⟩ := Prod.mk.inj (Except.ok.inj read)
        have := length_takeDigits (readSign rest).2
        have := length_readSign_le rest
        simp only [List.length_cons]
        omega
    · cases read
      exact Nat.le_refl _

theorem length_readUnsigned_lt {negative : Bool} {cs behind : List Char} {number : JsonNumber}
    (read : readUnsigned negative cs = .ok (number, behind)) : behind.length < cs.length := by
  unfold readUnsigned at read
  dsimp only at read
  split at read
  · cases read
  next proper =>
    split at read
    · cases read
    next fractionRead =>
      split at read
      · cases read
      next exponentRead =>
        split at read
        · cases read
        · obtain ⟨_, rfl⟩ := Prod.mk.inj (Except.ok.inj read)
          have := length_readFraction_le fractionRead
          have := length_readExponent_le exponentRead
          have := length_takeDigits cs
          have : 0 < (takeDigits cs).1.length := by
            simp only [Bool.or_eq_true, not_or, List.isEmpty_iff] at proper
            exact List.length_pos_iff.2 proper.1
          omega

/-- A number takes at least one character. -/
theorem length_readNumber_lt {cs behind : List Char} {number : JsonNumber}
    (read : readNumber cs = .ok (number, behind)) : behind.length < cs.length := by
  unfold readNumber at read
  split at read
  · cases read
  · split at read
    · have := length_readUnsigned_lt read
      simp only [List.length_cons]
      omega
    · exact length_readUnsigned_lt read

end SegmentedText
