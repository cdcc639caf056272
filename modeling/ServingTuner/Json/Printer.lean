import ServingTuner.Json.Basic
import ServingTuner.Decimal.Layout

/-!
# JSON text

The text of a value has no blanks, and the fields of an object come in the order of their names,
so that it identifies the value: it serves as the key by which variants are told apart.
-/

namespace ServingTuner.Json

/-- Floats in JSON text keep a decimal point when they are written positionally, so that they read
back as floats, and positional notation ends below `10 ^ 15`. A number that is not finite has no
JSON text of its own and is written as null. -/
def floatLayout : Decimal.Layout where
  lowest := -4
  highest := 14
  keepsPoint := true
  notANumber := "null"
  infinite := "null"

/-- The text of a float, with the shortest digits that read back as it. A printer that works with
64 bits agrees up to rare doubles, which it writes with other digits that read back alike. -/
def floatText (x : Float) : String :=
  if x.isFinite then floatLayout.write x else "null"

/-- A hexadecimal digit in lower case. -/
def hexDigit (n : Nat) : Char := Nat.digitChar n

/-- A character inside a string: a quote, a backslash and the characters below the blank are
escaped, all others stand for themselves. -/
def escapeChar (c : Char) : String :=
  if c = '"' then "\\\""
  else if c = '\\' then "\\\\"
  else if c = '\x08' then "\\b"
  else if c = '\x0c' then "\\f"
  else if c = '\n' then "\\n"
  else if c = '\r' then "\\r"
  else if c = '\t' then "\\t"
  else if c.toNat < 32 then
    "\\u00" ++ String.ofList [hexDigit (c.toNat / 16), hexDigit (c.toNat % 16)]
  else String.singleton c

/-- A string between quotes. -/
def quote (s : String) : String := "\"" ++ String.join (s.toList.map escapeChar) ++ "\""

mutual

/-- The text of a value. -/
def text : Json → String
  | null => "null"
  | bool true => "true"
  | bool false => "false"
  | int n => toString n
  | float x => floatText x
  | str s => quote s
  | arr elements => "[" ++ elementsText elements ++ "]"
  | obj fields => "\x7b" ++ fieldsText fields ++ "\x7d"

/-- The texts of elements, separated by commas. -/
def elementsText : List Json → String
  | [] => ""
  | [x] => text x
  | x :: y :: rest => text x ++ "," ++ elementsText (y :: rest)

/-- The texts of fields, separated by commas. -/
def fieldsText : List (String × Json) → String
  | [] => ""
  | [(k, x)] => quote k ++ ":" ++ text x
  | (k, x) :: y :: rest => quote k ++ ":" ++ text x ++ "," ++ fieldsText (y :: rest)

end

end ServingTuner.Json
