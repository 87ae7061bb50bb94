/-
**serde_cbor's `Value`: the CBOR data model the x5chain header arrives in.**

`validate_x5chain` receives the header as a `serde_cbor::Value`. It takes two variants apart,
`Bytes` and `Array`, and refuses every other one with a message that prints the value in its
derived `Debug` format, `Value.debug`.

The derived format is written out here: the variant's name, then its fields in brackets, the
`Vec` and `BTreeMap` fields as `[...]` and `{...}`. A text goes through `<str as Debug>`, which
quotes it and runs `char::escape_debug` on each character (`Fmt.escapeDebug`): the six backslash
escapes, then `\u{...}` in lowercase hex for a grapheme extender or a character that is not
printable. Two things are left to `core` (`Fmt`): the digits of an `f64` (flt2dec's shortest
round-trip form) and, outside ASCII, the Unicode tables that decide printable and grapheme
extender. ASCII is decided here: `0x20` to `0x7e` print as themselves.
-/

import Mathlib.Data.List.Basic

namespace Isomdl.SerdeCbor

/-- serde_cbor::Value. `Integer` holds an `i128`; `Map` holds its `BTreeMap` as the entries in
key order. -/
inductive Value where
  | null
  | bool (value : Bool)
  | integer (value : Int)
  | float (value : Float)
  | bytes (value : List UInt8)
  | text (value : String)
  | array (items : List Value)
  | map (entries : List (Value × Value))
  | tag (number : UInt64) (value : Value)

/-- What `{:?}` takes from `core` beyond this development: the `Debug` text of an `f64`, and the
Unicode tables `is_printable` and `Grapheme_Extend`, consulted for characters outside ASCII. -/
structure Fmt where
  /-- `<f64 as Debug>::fmt` -/
  float : Float → String
  /-- `core::unicode::printable::is_printable`, outside ASCII -/
  printable : Char → Bool
  /-- `core::unicode::Grapheme_Extend`, outside ASCII -/
  graphemeExtend : Char → Bool

/-- `is_printable`: an ASCII character prints when it is not a control character. -/
def Fmt.isPrintable (fmt : Fmt) (c : Char) : Bool :=
  if c.val < 0x80 then 0x20 ≤ c.val && c.val < 0x7f else fmt.printable c

/-- `char::is_grapheme_extended`: no ASCII character extends a grapheme. -/
def Fmt.isGraphemeExtended (fmt : Fmt) (c : Char) : Bool :=
  if c.val < 0x80 then false else fmt.graphemeExtend c

/-- `char::escape_unicode`: `\u{...}` around the code point in lowercase hex. -/
def escapeUnicode (c : Char) : String :=
  "\\u\x7b" ++ String.mk (Nat.toDigits 16 c.toNat) ++ "\x7d"

/-- `char::escape_debug_ext` as `<str as Debug>` calls it: grapheme extenders and double quotes
are escaped, single quotes are not. -/
def Fmt.escapeDebug (fmt : Fmt) (c : Char) : String :=
  if c = '\x00' then "\\0"
  else if c = '\t' then "\\t"
  else if c = '\r' then "\\r"
  else if c = '\n' then "\\n"
  else if c = '\\' then "\\\\"
  else if c = '"' then "\\\""
  else if fmt.isGraphemeExtended c then escapeUnicode c
  else if fmt.isPrintable c then c.toString
  else escapeUnicode c

/-- `<str as Debug>::fmt`: the escaped characters between double quotes. -/
def Fmt.debugStr (fmt : Fmt) (s : String) : String :=
  "\"" ++ String.join (s.toList.map fmt.escapeDebug) ++ "\""

section Debug

variable (fmt : Fmt)

mutual

/-- The derived `Debug` text of a value, the `{:?}` of `validate_x5chain`'s messages. -/
def Value.debug : Value → String
  | .null => "Null"
  | .bool value => "Bool(" ++ toString value ++ ")"
  | .integer value => "Integer(" ++ toString value ++ ")"
  | .float value => "Float(" ++ fmt.float value ++ ")"
  | .bytes value => "Bytes(" ++ toString (value.map UInt8.toNat) ++ ")"
  | .text value => "Text(" ++ fmt.debugStr value ++ ")"
  | .array items => "Array([" ++ debugItems items ++ "])"
  | .map entries => "Map(\x7b" ++ debugEntries entries ++ "\x7d)"
  | .tag number value => "Tag(" ++ toString number ++ ", " ++ value.debug ++ ")"

/-- The items of an array, separated by `, `. -/
def debugItems : List Value → String
  | [] => ""
  | [item] => item.debug
  | item :: items => item.debug ++ ", " ++ debugItems items

/-- The entries of a map, each `key: value`, separated by `, `. -/
def debugEntries : List (Value × Value) → String
  | [] => ""
  | [(key, value)] => key.debug ++ ": " ++ value.debug
  | (key, value) :: entries => key.debug ++ ": " ++ value.debug ++ ", " ++ debugEntries entries

end

example : (Value.array [.integer 42, .bytes [1, 2], .tag 24 .null]).debug fmt =
    "Array([Integer(42), Bytes([1, 2]), Tag(24, Null)])" :=
  rfl

example : (Value.text "a\x27\"\x01\x7f").debug fmt =
    "Text(\"a\x27\\\"\\u\x7b1\x7d\\u\x7b7f\x7d\")" :=
  rfl

end Debug

end Isomdl.SerdeCbor
