import ServingTuner.Json.Basic

/-!
# Reading JSON text

The grammar is the strict one: no comments, no trailing commas, no leading zeros, no raw control
characters in strings and no lone surrogates. A number that overflows a double is refused. Reading
stops after the first complete value, and a byte order mark before it is skipped.

Every reader returns what is left of its input together with the fact that this is shorter, and
the mutual recursion of values, elements and fields ends by the length of the input.
-/

namespace ServingTuner.Json

/-- A value read off the front of `s`, and the shorter rest of `s`. -/
structure Read (α : Type) (s : List Char) where
  value : α
  rest : List Char
  shorter : rest.length < s.length

namespace Read

/-- The same value read off a longer text with the same rest. -/
def widen {α : Type} {s t : List Char} (r : Read α s) (h : s.length ≤ t.length) : Read α t :=
  ⟨r.value, r.rest, Nat.lt_of_lt_of_le r.shorter h⟩

/-- Changes the value and keeps the rest. -/
def map {α β : Type} {s : List Char} (f : α → β) (r : Read α s) : Read β s :=
  ⟨f r.value, r.rest, r.shorter⟩

end Read

/-! ### Blanks and digits -/

/-- The four characters allowed between the parts of a text. -/
def isBlank (c : Char) : Bool := c == ' ' || c == '\t' || c == '\n' || c == '\r'

/-- The text without the blanks at its front. -/
def skipBlanks (s : List Char) : List Char := s.dropWhile isBlank

theorem length_skipBlanks_le (s : List Char) : (skipBlanks s).length ≤ s.length :=
  (List.dropWhile_sublist _).length_le

/-- The number that decimal digits denote. -/
def digitsValue (ds : List Char) : Nat := ds.foldl (fun n c => 10 * n + (c.toNat - '0'.toNat)) 0

/-- The digits at the front of a text, and what follows them. -/
def spanDigits (s : List Char) : List Char × List Char :=
  (s.takeWhile Char.isDigit, s.dropWhile Char.isDigit)

/-! ### Numbers -/

/-- The double nearest to `m * 10 ^ e`, unless that overflows. Powers far outside the range of the
doubles are decided by the place of the first digit alone. -/
def nearestDouble? (m : Nat) (e : Int) : Option Float :=
  let place : Int := (Nat.toDigits 10 m).length + e
  if m = 0 || place < -330 then some 0.0
  else if 310 < place then none
  else
    let x := if 0 ≤ e then Float.ofScientific m false e.toNat
      else Float.ofScientific m true (-e).toNat
    if x.isFinite then some x else none

/-- A number with a fraction or an exponent: always a float. -/
def ofDecimal? (negative : Bool) (m : Nat) (e : Int) : Option Json :=
  (nearestDouble? m e).map fun x => float (if negative then -x else x)

/-- A number without fraction and exponent: an integer if it fits the signed range with a sign, or
the unsigned range without, and a float beyond. -/
def ofWhole? (negative : Bool) (m : Nat) : Option Json :=
  if m < (if negative then 9223372036854775809 else UInt64.size) then
    some (int (if negative then -m else m))
  else ofDecimal? negative m 0

/-- The whole part of a number: a lone zero, or digits that do not start with one. -/
def wholePart (s : List Char) : Option (List Char × List Char) :=
  match s with
  | '0' :: rest => some (['0'], rest)
  | _ =>
    let (digits, rest) := spanDigits s
    if digits.isEmpty then none else some (digits, rest)

/-- The digits after a point, where there is a point. -/
def fractionPart (s : List Char) : Option (Option (List Char) × List Char) :=
  match s with
  | '.' :: rest =>
    let (digits, rest) := spanDigits rest
    if digits.isEmpty then none else some (some digits, rest)
  | _ => some (none, s)

/-- The exponent after its mark, where there is one. -/
def exponentPart (s : List Char) : Option (Option Int × List Char) :=
  match s with
  | [] => some (none, s)
  | c :: rest =>
    if c = 'e' || c = 'E' then
      let (negative, rest) := match rest with
        | '-' :: r => (true, r)
        | '+' :: r => (false, r)
        | r => (false, r)
      let (digits, rest) := spanDigits rest
      if digits.isEmpty then none
      else some (some (if negative then -(digitsValue digits : Int) else digitsValue digits), rest)
    else some (none, s)

/-- A number after its sign. -/
def unsignedNumber (negative : Bool) (s : List Char) : Option (Json × List Char) := do
  let (whole, afterWhole) ← wholePart s
  let (fraction, afterFraction) ← fractionPart afterWhole
  let (exponent, rest) ← exponentPart afterFraction
  let value ← match fraction, exponent with
    | none, none => ofWhole? negative (digitsValue whole)
    | _, _ =>
      let decimals := fraction.getD []
      ofDecimal? negative (digitsValue (whole ++ decimals))
        (exponent.getD 0 - (decimals.length : Int))
  return (value, rest)

/-- Reads a number. It takes at least one digit off the text, so the test at the end always holds
and only hands that fact on. -/
def readNumber (s : List Char) : Option (Read Json s) := do
  let (value, rest) ← match s with
    | '-' :: r => unsignedNumber true r
    | _ => unsignedNumber false s
  if h : rest.length < s.length then return ⟨value, rest, h⟩ else none

/-! ### Strings -/

/-- The value of a hexadecimal digit. -/
def hexValue? (c : Char) : Option Nat :=
  if '0' ≤ c && c ≤ '9' then some (c.toNat - '0'.toNat)
  else if 'a' ≤ c && c ≤ 'f' then some (c.toNat - 'a'.toNat + 10)
  else if 'A' ≤ c && c ≤ 'F' then some (c.toNat - 'A'.toNat + 10)
  else none

/-- The number of four hexadecimal digits. -/
def hexQuad? (a b c d : Char) : Option Nat := do
  return (((← hexValue? a) * 16 + (← hexValue? b)) * 16 + (← hexValue? c)) * 16 + (← hexValue? d)

/-- Whether a number is the first half of a surrogate pair. -/
def isHighSurrogate (n : Nat) : Bool := 0xD800 ≤ n && n < 0xDC00

/-- Whether a number is the second half of a surrogate pair. -/
def isLowSurrogate (n : Nat) : Bool := 0xDC00 ≤ n && n < 0xE000

/-- The character that a letter after a backslash stands for. -/
def simpleEscape? (c : Char) : Option Char :=
  match c with
  | '"' => some '"'
  | '\\' => some '\\'
  | '/' => some '/'
  | 'b' => some '\x08'
  | 'f' => some '\x0c'
  | 'n' => some '\n'
  | 'r' => some '\r'
  | 't' => some '\t'
  | _ => none

/-- Reads the inside of a string and its closing quote. `pending` is the first half of a surrogate
pair whose second half has to come next. -/
def readQuoted (pending : Option Nat) (s : List Char) : Option (Read (List Char) s) :=
  match s with
  | [] => none
  | '"' :: r => if pending.isSome then none else some ⟨[], r, by simp⟩
  | '\\' :: 'u' :: a :: b :: c :: d :: r =>
    match hexQuad? a b c d, pending with
    | none, _ => none
    | some n, some high =>
      if isLowSurrogate n then
        (readQuoted none r).map fun tail =>
          ⟨Char.ofNat (0x10000 + (high - 0xD800) * 0x400 + (n - 0xDC00)) :: tail.value, tail.rest,
            by have := tail.shorter; simp; omega⟩
      else none
    | some n, none =>
      if isHighSurrogate n then
        (readQuoted (some n) r).map (·.widen (by simp; omega))
      else if isLowSurrogate n then none
      else
        (readQuoted none r).map fun tail =>
          ⟨Char.ofNat n :: tail.value, tail.rest, by have := tail.shorter; simp; omega⟩
  | '\\' :: c :: r =>
    match simpleEscape? c, pending with
    | some e, none =>
      (readQuoted none r).map fun tail =>
        ⟨e :: tail.value, tail.rest, by have := tail.shorter; simp; omega⟩
    | _, _ => none
  | c :: r =>
    if c = '\\' || c.toNat < 32 || pending.isSome then none
    else
      (readQuoted none r).map fun tail =>
        ⟨c :: tail.value, tail.rest, by have := tail.shorter; simp; omega⟩

/-! ### Values -/

mutual

/-- Reads a value, after any blanks. -/
def readValue (s : List Char) : Option (Read Json s) :=
  have bound := length_skipBlanks_le s
  match h : skipBlanks s with
  | 'n' :: 'u' :: 'l' :: 'l' :: r => some ⟨null, r, by rw [h] at bound; simp at bound; omega⟩
  | 't' :: 'r' :: 'u' :: 'e' :: r => some ⟨bool true, r, by rw [h] at bound; simp at bound; omega⟩
  | 'f' :: 'a' :: 'l' :: 's' :: 'e' :: r =>
    some ⟨bool false, r, by rw [h] at bound; simp at bound; omega⟩
  | '"' :: r =>
    (readQuoted none r).map fun text =>
      ⟨str (String.ofList text.value), text.rest, by
        have := text.shorter; rw [h] at bound; simp at bound; omega⟩
  | '[' :: r =>
    have inner := length_skipBlanks_le r
    match hr : skipBlanks r with
    | ']' :: rest =>
      some ⟨arr [], rest, by rw [h] at bound; rw [hr] at inner; simp at bound inner; omega⟩
    | _ =>
      (readElements r).map fun elements =>
        ⟨arr elements.value, elements.rest, by
          have := elements.shorter; rw [h] at bound; simp at bound; omega⟩
  | '\x7b' :: r =>
    have inner := length_skipBlanks_le r
    match hr : skipBlanks r with
    | '\x7d' :: rest =>
      some ⟨empty, rest, by rw [h] at bound; rw [hr] at inner; simp at bound inner; omega⟩
    | _ =>
      (readFields r).map fun fields =>
        ⟨object fields.value, fields.rest, by
          have := fields.shorter; rw [h] at bound; simp at bound; omega⟩
  | t => (readNumber t).map (·.widen (by rw [h] at bound; exact bound))
termination_by (s.length, 0)
decreasing_by all_goals rw [h] at bound; simp at bound; omega

/-- Reads the elements of an array that is not empty, up to its closing bracket. -/
def readElements (s : List Char) : Option (Read (List Json) s) :=
  (readValue s).bind fun first =>
    have bound := length_skipBlanks_le first.rest
    match h : skipBlanks first.rest with
    | ']' :: rest => some ⟨[first.value], rest, by
        have := first.shorter; rw [h] at bound; simp at bound; omega⟩
    | ',' :: r =>
      (readElements r).map fun others =>
        ⟨first.value :: others.value, others.rest, by
          have := first.shorter; have := others.shorter
          rw [h] at bound; simp at bound; omega⟩
    | _ => none
termination_by (s.length, 1)
decreasing_by
  · exact Prod.Lex.right _ Nat.zero_lt_one
  · have := first.shorter
    rw [h] at bound; simp at bound; omega

/-- Reads the fields of an object that is not empty, up to its closing brace. -/
def readFields (s : List Char) : Option (Read (List (String × Json)) s) :=
  have bound := length_skipBlanks_le s
  match h : skipBlanks s with
  | '"' :: r =>
    (readQuoted none r).bind fun key =>
      have afterKey := length_skipBlanks_le key.rest
      match hk : skipBlanks key.rest with
      | ':' :: v =>
        (readValue v).bind fun value =>
          have afterValue := length_skipBlanks_le value.rest
          match hv : skipBlanks value.rest with
          | '\x7d' :: rest => some ⟨[(String.ofList key.value, value.value)], rest, by
              have := key.shorter; have := value.shorter
              rw [h] at bound; rw [hk] at afterKey; rw [hv] at afterValue
              simp at bound afterKey afterValue; omega⟩
          | ',' :: more =>
            (readFields more).map fun others =>
              ⟨(String.ofList key.value, value.value) :: others.value, others.rest, by
                have := key.shorter; have := value.shorter; have := others.shorter
                rw [h] at bound; rw [hk] at afterKey; rw [hv] at afterValue
                simp at bound afterKey afterValue; omega⟩
          | _ => none
      | _ => none
  | _ => none
termination_by (s.length, 1)
decreasing_by
  · have := key.shorter
    rw [h] at bound; rw [hk] at afterKey; simp at bound afterKey; omega
  · have := key.shorter; have := value.shorter
    rw [h] at bound; rw [hk] at afterKey; rw [hv] at afterValue
    simp at bound afterKey afterValue; omega

end

/-- The first value of a text, or nothing if the text does not start with one. -/
def ofText? (text : String) : Option Json :=
  let s := match text.toList with
    | '\uFEFF' :: rest => rest
    | s => s
  (readValue s).map (·.value)

end ServingTuner.Json
