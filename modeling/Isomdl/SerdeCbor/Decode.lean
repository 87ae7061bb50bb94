/-
**`serde_cbor::from_slice` at `Vec<u8>`: the decoder `validate_x5chain` runs on every
certificate.**

`validate_x5chain` does not take a `Bytes` item's content as the certificate: it decodes that
content once more, as the CBOR encoding of a `Vec<u8>`. serde's `Vec<u8>` is a *sequence*, so
serde_cbor accepts exactly an array (definite or indefinite length) of unsigned integers of at
most 255, possibly behind tags, with nothing after it (`fromSlice`). serde_cbor is modelled as
it builds by default, without its `tags` feature: a tag's number is dropped (`skipTags`).

* `parseU8_length_lt`, `parseElements_length_le`, `parseIndefinite_length_lt`,
  `parseVec_length_lt` — every step consumes input: an item at least one byte, an array its head
  and at least one byte per element.
* `fromSlice_length_lt` — so a decoded vector is always shorter than the slice it came from, and
  `fromSlice_ne_ok_self`: no byte string decodes to itself.
* `refuseItem`, `refuseUntagged` — every other item is read as far as serde_cbor's `parse_value`
  reads it before the visitor refuses it, so a truncated item ends in `EofWhileParsingValue` and
  a text that is not UTF-8 (`validUtf8`) in `InvalidUtf8`, not in `invalid_type`;
  `fromSlice_of_integer`: an integer whose argument is in its initial byte is refused as an
  invalid type at once. Every DER certificate begins with `0x30`, the CBOR integer `-17`.
-/

import Isomdl.Prelude

namespace Isomdl.SerdeCbor

/-- serde_cbor::Error, by its code: the codes of `ErrorCode` a `Vec<u8>` decode can end with, and
serde's `invalid_type` and `invalid_value`, raised by the visitors. -/
inductive Error where
  /-- The input ends inside an item. -/
  | eofWhileParsingValue
  /-- The input ends inside an indefinite array, before its break. -/
  | eofWhileParsingArray
  /-- An initial byte that CBOR leaves unassigned or serde_cbor does not implement. -/
  | unassignedCode
  /-- The break `0xff` where an item is due, or a chunk of an indefinite string that is not a
  definite string of its kind. -/
  | unexpectedCode
  /-- A text string whose bytes are not UTF-8. -/
  | invalidUtf8
  /-- Bytes after the item. -/
  | trailingData
  /-- An array or a tag one level below the last of `remaining_depth`. -/
  | recursionLimitExceeded
  /-- serde's `invalid_type`: the visitor takes no item of this kind. -/
  | invalidType
  /-- serde's `invalid_value`: an integer out of the `u8` range. -/
  | invalidValue
  deriving DecidableEq, Repr

/-- The `remaining_depth` a `Deserializer` starts with. -/
def recursionLimit : Nat := 128

/-- `i64::MAX`: serde_cbor passes a negative integer whose argument is above it to the visitor
as an `i128`. -/
def maxI64 : Nat := 9223372036854775807

/-- `parse_u8`, `parse_u16`, `parse_u32`, `parse_u64`: `width` bytes, big-endian. -/
def parseBigEndian (width : Nat) (input : List UInt8) : Except Error (Nat × List UInt8) :=
  if width ≤ input.length then
    .ok ((input.take width).foldl (fun value byte => value * 256 + byte.toNat) 0, input.drop width)
  else .error .eofWhileParsingValue

/-- The argument of an initial byte whose additional information is `info`: the information
itself below 24, then the next one, two, four or eight bytes. Codes 28 to 31 are unassigned
(the callers that accept 31, an indefinite length, handle it first). -/
def parseArgument (info : Nat) (input : List UInt8) : Except Error (Nat × List UInt8) :=
  if info < 24 then .ok (info, input)
  else if info = 24 then parseBigEndian 1 input
  else if info = 25 then parseBigEndian 2 input
  else if info = 26 then parseBigEndian 4 input
  else if info = 27 then parseBigEndian 8 input
  else .error .unassignedCode

/-! ### Reading an item the visitor refuses -/

theorem parseBigEndian_length_le {width : Nat} {input rest : List UInt8} {value : Nat}
    (parsed : parseBigEndian width input = .ok (value, rest)) : rest.length ≤ input.length := by
  unfold parseBigEndian at parsed
  split_ifs at parsed
  cases parsed
  simp

theorem parseArgument_length_le {info : Nat} {input rest : List UInt8} {value : Nat}
    (parsed : parseArgument info input = .ok (value, rest)) : rest.length ≤ input.length := by
  unfold parseArgument at parsed
  split_ifs at parsed <;> first | exact parseBigEndian_length_le parsed | cases parsed
  exact le_rfl

/-- `SliceRead::read`: the next `len` bytes, or the end of the input. -/
def readBytes (len : Nat) (input : List UInt8) : Except Error (List UInt8 × List UInt8) :=
  if len ≤ input.length then .ok (input.take len, input.drop len)
  else .error .eofWhileParsingValue

/-- A definite byte or text string after its initial byte: the length, then that many bytes. -/
def readChunk (info : Nat) (input : List UInt8) : Except Error (List UInt8 × List UInt8) := do
  let (len, input) ← parseArgument info input
  readBytes len input

theorem readChunk_length_le {info : Nat} {input bytes rest : List UInt8}
    (read : readChunk info input = .ok (bytes, rest)) : rest.length ≤ input.length := by
  obtain ⟨⟨len, after⟩, argument, read⟩ := bind_eq_ok.mp read
  dsimp only [readBytes] at read
  split_ifs at read
  cases read
  have := parseArgument_length_le argument
  simp only [List.length_drop]
  omega

/-- `parse_indefinite_bytes`, and the loop of `parse_indefinite_str`: definite chunks of major
type `major` up to the break, their bytes joined; any other initial byte is unexpected. -/
def parseChunks (major : Nat) (input : List UInt8) : Except Error (List UInt8 × List UInt8) :=
  match input with
  | [] => .error .eofWhileParsingValue
  | byte :: rest =>
    if byte = 0xff then .ok ([], rest)
    else if byte.toNat / 32 = major ∧ byte.toNat % 32 < 28 then
      match chunk : readChunk (byte.toNat % 32) rest with
      | .error e => .error e
      | .ok (bytes, after) => do
        let (more, after) ← parseChunks major after
        pure (bytes ++ more, after)
    else .error .unexpectedCode
termination_by input.length
decreasing_by exact Nat.lt_succ_of_le (readChunk_length_le chunk)

/-- The UTF-8 check of `str::from_utf8` (RFC 3629 §4), one byte at a time: `owed` continuation
bytes are due, the next one between `low` and `high` and every later one between `0x80` and
`0xbf`. A lead byte sets them; `0xe0`, `0xed`, `0xf0` and `0xf4` narrow the range of the next. -/
def utf8Run : Nat → UInt8 → UInt8 → List UInt8 → Bool
  | 0, _, _, [] => true
  | _ + 1, _, _, [] => false
  | owed + 1, low, high, byte :: rest => low ≤ byte && byte ≤ high && utf8Run owed 0x80 0xbf rest
  | 0, _, _, byte :: rest =>
    if byte < 0x80 then utf8Run 0 0x80 0xbf rest
    else if 0xc2 ≤ byte && byte ≤ 0xdf then utf8Run 1 0x80 0xbf rest
    else if byte = 0xe0 then utf8Run 2 0xa0 0xbf rest
    else if byte = 0xed then utf8Run 2 0x80 0x9f rest
    else if 0xe1 ≤ byte && byte ≤ 0xef then utf8Run 2 0x80 0xbf rest
    else if byte = 0xf0 then utf8Run 3 0x90 0xbf rest
    else if byte = 0xf4 then utf8Run 3 0x80 0x8f rest
    else if 0xf1 ≤ byte && byte ≤ 0xf3 then utf8Run 3 0x80 0xbf rest
    else false

/-- `str::from_utf8` succeeds. -/
def validUtf8 (bytes : List UInt8) : Bool :=
  utf8Run 0 0x80 0xbf bytes

example : validUtf8 [0x61, 0xc3, 0xa9, 0xe2, 0x82, 0xac] = true ∧ validUtf8 [0xc0, 0x80] = false ∧
    validUtf8 [0xed, 0xa0, 0x80] = false ∧ validUtf8 [0xe2, 0x82] = false := by
  decide

/-- What a visitor says to an item it takes in none of its forms: the error met while the item
was read, else `invalid_type`. -/
def refusal {α : Type} : Except Error α → Error
  | .error e => e
  | .ok _ => .invalidType

/-- `parse_value` under a visitor that refuses the item, for an initial byte that is not a tag:
major type `major` (not 6) and additional information `info`. serde_cbor reads the item as far as
it goes before it calls the visitor, so an error met on the way comes first: the end of the input,
an unassigned code, text that is not UTF-8. An array or a map is refused inside
`recursion_checked`, once its head is read. Of major type 7 serde_cbor implements `false`, `true`,
`null`, `undefined` and the three floats; the rest is unassigned, and the break `0xff`
unexpected. -/
def refuseUntagged (depth major info : Nat) (input : List UInt8) : Error :=
  if major < 2 then refusal (parseArgument info input)
  else if major = 2 then refusal (if info = 31 then parseChunks 2 input else readChunk info input)
  else if major = 3 then
    match (if info = 31 then parseChunks 3 input else readChunk info input) with
    | .error e => e
    | .ok (bytes, _) => if validUtf8 bytes then .invalidType else .invalidUtf8
  else if major < 6 then
    match (if info = 31 then .ok (0, input) else parseArgument info input) with
    | .error e => e
    | .ok _ => if depth ≤ 1 then .recursionLimitExceeded else .invalidType
  else if 20 ≤ info ∧ info < 24 then .invalidType
  else if 25 ≤ info ∧ info < 28 then refusal (parseArgument info input)
  else if info = 31 then .unexpectedCode
  else .unassignedCode

/-- `parse_value` under a visitor that refuses the item: a tag takes a level of
`remaining_depth` before the item it tags is read, and that item is refused in turn. -/
def refuseItem : Nat → Nat → Nat → List UInt8 → Error
  | depth, major, info, input =>
    if major = 6 then
      match parseArgument info input, depth with
      | .error e, _ => e
      | .ok (_, after), depth + 2 =>
        match after with
        | [] => .eofWhileParsingValue
        | next :: after => refuseItem (depth + 1) (next.toNat / 32) (next.toNat % 32) after
      | .ok _, _ => .recursionLimitExceeded
    else refuseUntagged depth major info input

/-! ### Tags, and one element -/

/-- Major type 6 in `parse_value`, as serde_cbor is built by default, without its `tags` feature:
`handle_tagged_value` drops the tag's number and parses the tagged item inside
`recursion_checked`, one level of `remaining_depth` deeper (the level reaching `0` is an error).
The result is the depth and the input at the first item that is not a tag. (With `tags`, the
visitor's `visit_newtype_struct` is called instead, which the sequence and `u8` visitors refuse.) -/
def skipTags : Nat → List UInt8 → Except Error (Nat × List UInt8)
  | depth, [] => .ok (depth, [])
  | depth, byte :: input =>
    if byte.toNat / 32 = 6 then
      match parseArgument (byte.toNat % 32) input, depth with
      | .error e, _ => .error e
      | .ok (_, input), depth + 2 => skipTags (depth + 1) input
      | .ok _, _ => .error .recursionLimitExceeded
    else .ok (depth, byte :: input)

/-- serde's `u8` visitor on an item that is not a tag, at `remaining_depth` `depth`: an unsigned
integer (major type 0) is taken when it is at most 255; a negative one (major type 1) is an
invalid value, or an invalid type past `i64::MAX`, where serde_cbor passes an `i128` the visitor
does not take; every other item is refused once it is read (`refuseItem`). -/
def parseU8Item (depth : Nat) : List UInt8 → Except Error (UInt8 × List UInt8)
  | [] => .error .eofWhileParsingValue
  | byte :: input =>
    if byte.toNat / 32 = 0 then do
      let (value, input) ← parseArgument (byte.toNat % 32) input
      if value < 256 then pure (value.toUInt8, input) else throw .invalidValue
    else if byte.toNat / 32 = 1 then do
      let (value, _) ← parseArgument (byte.toNat % 32) input
      if value ≤ maxI64 then throw .invalidValue else throw .invalidType
    else .error (refuseItem depth (byte.toNat / 32) (byte.toNat % 32) input)

/-- `u8::deserialize`: one element of the vector. -/
def parseU8 (depth : Nat) (input : List UInt8) : Except Error (UInt8 × List UInt8) := do
  let (depth, input) ← skipTags depth input
  parseU8Item depth input

/-- `parse_array` with the visitor's loop: exactly `len` elements. -/
def parseElements (depth : Nat) : Nat → List UInt8 → Except Error (List UInt8 × List UInt8)
  | 0, input => pure ([], input)
  | len + 1, input => do
    let (value, input) ← parseU8 depth input
    let (values, input) ← parseElements depth len input
    pure (value :: values, input)

/-! ### Every element consumes input -/

theorem skipTags_of_untagged {depth : Nat} {byte : UInt8} {input : List UInt8}
    (untagged : byte.toNat / 32 ≠ 6) :
    skipTags depth (byte :: input) = .ok (depth, byte :: input) := by
  unfold skipTags
  rw [if_neg untagged]

theorem skipTags_nil (depth : Nat) : skipTags depth [] = .ok (depth, []) := by
  unfold skipTags
  rfl

/-- What a tag can do: its argument is read and the rest is skipped one level deeper, which needs
a `remaining_depth` of at least 2. -/
theorem skipTags_of_tagged_eq_ok {depth depth' : Nat} {byte : UInt8} {input rest : List UInt8}
    (tagged : byte.toNat / 32 = 6) (skipped : skipTags depth (byte :: input) = .ok (depth', rest)) :
    ∃ number after d, parseArgument (byte.toNat % 32) input = .ok (number, after) ∧
      depth = d + 2 ∧ skipTags (d + 1) after = .ok (depth', rest) := by
  unfold skipTags at skipped
  rw [if_pos tagged] at skipped
  split at skipped
  · cases skipped
  · exact ⟨_, _, _, ‹_›, rfl, skipped⟩
  · cases skipped

theorem skipTags_of_tagged {depth number : Nat} {byte : UInt8} {input after : List UInt8}
    (tagged : byte.toNat / 32 = 6)
    (argument : parseArgument (byte.toNat % 32) input = .ok (number, after)) :
    skipTags (depth + 2) (byte :: input) = skipTags (depth + 1) after := by
  conv_lhs => unfold skipTags
  rw [if_pos tagged, argument]

theorem skipTags_of_tagged_le_one {depth number : Nat} {byte : UInt8} {input after : List UInt8}
    (tagged : byte.toNat / 32 = 6)
    (argument : parseArgument (byte.toNat % 32) input = .ok (number, after)) (shallow : depth ≤ 1) :
    skipTags depth (byte :: input) = .error .recursionLimitExceeded := by
  unfold skipTags
  rw [if_pos tagged, argument]
  match depth, shallow with
  | 0, _ | 1, _ => rfl

theorem skipTags_length_le {depth depth' : Nat} {input rest : List UInt8}
    (skipped : skipTags depth input = .ok (depth', rest)) : rest.length ≤ input.length := by
  induction depth, input using skipTags.induct generalizing depth' rest with
  | case1 depth =>
    unfold skipTags at skipped
    cases skipped
    exact le_rfl
  | case2 depth byte input tagged e failed =>
    unfold skipTags at skipped
    simp only [tagged, failed, if_true] at skipped
    cases skipped
  | case3 byte input tagged tagNumber after depth argument ih =>
    unfold skipTags at skipped
    simp only [tagged, argument, if_true] at skipped
    have := parseArgument_length_le argument
    have := ih skipped
    simp only [List.length_cons]
    omega
  | case4 depth byte input tagged head argument shallow =>
    unfold skipTags at skipped
    simp only [tagged, argument, if_true] at skipped
    cases skipped
  | case5 depth byte input untagged =>
    rw [skipTags_of_untagged untagged] at skipped
    cases skipped
    exact le_rfl

/-- What a `u8` item can be: an unsigned integer of at most 255. -/
theorem parseU8Item_eq_ok_cons {depth : Nat} {byte x : UInt8} {input rest : List UInt8}
    (parsed : parseU8Item depth (byte :: input) = .ok (x, rest)) :
    byte.toNat / 32 = 0 ∧ ∃ value, parseArgument (byte.toNat % 32) input = .ok (value, rest) ∧
      value < 256 ∧ x = value.toUInt8 := by
  simp only [parseU8Item] at parsed
  split_ifs at parsed with unsigned
  · obtain ⟨⟨value, after⟩, argument, parsed⟩ := bind_eq_ok.mp parsed
    split_ifs at parsed with small
    obtain ⟨rfl, rfl⟩ := Prod.mk.inj (pure_eq_ok.mp parsed)
    exact ⟨unsigned, value, argument, small, rfl⟩
  · obtain ⟨_, -, thrown⟩ := bind_eq_ok.mp parsed
    split_ifs at thrown

theorem parseU8Item_length_lt {depth : Nat} {input rest : List UInt8} {value : UInt8}
    (parsed : parseU8Item depth input = .ok (value, rest)) : rest.length < input.length := by
  match input, parsed with
  | byte :: input, parsed =>
    obtain ⟨-, _, argument, -⟩ := parseU8Item_eq_ok_cons parsed
    have := parseArgument_length_le argument
    simp only [List.length_cons]
    omega

theorem parseU8_length_lt {depth : Nat} {input rest : List UInt8} {value : UInt8}
    (parsed : parseU8 depth input = .ok (value, rest)) : rest.length < input.length := by
  obtain ⟨⟨_, after⟩, skipped, itemParsed⟩ := bind_eq_ok.mp parsed
  exact lt_of_lt_of_le (parseU8Item_length_lt itemParsed) (skipTags_length_le skipped)

theorem parseElements_length_le {depth len : Nat} {input rest values : List UInt8}
    (parsed : parseElements depth len input = .ok (values, rest)) :
    values.length + rest.length ≤ input.length := by
  induction len generalizing input values rest with
  | zero =>
    cases parsed
    simp
  | succ len ih =>
    obtain ⟨⟨value, afterValue⟩, valueParsed, parsed⟩ := bind_eq_ok.mp parsed
    obtain ⟨⟨values', after⟩, valuesParsed, parsed⟩ := bind_eq_ok.mp parsed
    cases parsed
    have := parseU8_length_lt valueParsed
    have := ih valuesParsed
    simp only [List.length_cons]
    omega

/-! ### The whole vector -/

/-- `parse_indefinite_array` with the visitor's loop: elements up to the `0xff` break, which is
consumed; input that ends before it is an error. -/
def parseIndefinite (depth : Nat) (input : List UInt8) : Except Error (List UInt8 × List UInt8) :=
  match input with
  | [] => .error .eofWhileParsingArray
  | byte :: rest =>
    if byte = 0xff then .ok ([], rest)
    else
      match element : parseU8 depth (byte :: rest) with
      | .error e => .error e
      | .ok (value, after) => do
        let (values, after) ← parseIndefinite depth after
        pure (value :: values, after)
termination_by input.length
decreasing_by exact parseU8_length_lt element

/-- `Vec<u8>::deserialize`: after any tags, serde's sequence visitor takes an array, read by
`parse_array` after its length or by `parse_indefinite_array`, each inside `recursion_checked`;
every other item is refused once it is read (`refuseItem`). -/
def parseVec (depth : Nat) (input : List UInt8) : Except Error (List UInt8 × List UInt8) := do
  let (depth, input) ← skipTags depth input
  match input with
  | [] => throw .eofWhileParsingValue
  | byte :: input =>
    if byte.toNat / 32 = 4 then
      if byte.toNat % 32 = 31 then
        if depth ≤ 1 then throw .recursionLimitExceeded else parseIndefinite (depth - 1) input
      else do
        let (len, input) ← parseArgument (byte.toNat % 32) input
        if depth ≤ 1 then throw .recursionLimitExceeded else parseElements (depth - 1) len input
    else throw (refuseItem depth (byte.toNat / 32) (byte.toNat % 32) input)

/-- serde_cbor::from_slice at `Vec<u8>`: the item, then `Deserializer::end`, which refuses
trailing bytes. -/
def fromSlice (slice : List UInt8) : Except Error (List UInt8) := do
  let (value, rest) ← parseVec recursionLimit slice
  if rest = [] then pure value else throw .trailingData

example : fromSlice [0x83, 0x01, 0x18, 0xff, 0xc0, 0x00] = .ok [1, 255, 0] := by decide

/- A refused item is read first: a one-byte text cut short, an unsigned integer missing its
argument byte, a text that is not UTF-8. -/
example : fromSlice [0x81, 0x61] = .error .eofWhileParsingValue := by decide
example : fromSlice [0x18] = .error .eofWhileParsingValue := by decide
example : fromSlice [0x81, 0x62, 0xc3, 0x28] = .error .invalidUtf8 := by decide

theorem parseIndefinite_nil (depth : Nat) :
    parseIndefinite depth [] = .error .eofWhileParsingArray := by
  rw [parseIndefinite]

theorem parseIndefinite_break (depth : Nat) (rest : List UInt8) :
    parseIndefinite depth (0xff :: rest) = .ok ([], rest) := by
  rw [parseIndefinite, if_pos rfl]

theorem parseIndefinite_cons {depth : Nat} {byte : UInt8} {input : List UInt8}
    (notBreak : byte ≠ 0xff) :
    parseIndefinite depth (byte :: input) = (do
      let (value, after) ← parseU8 depth (byte :: input)
      let (values, after) ← parseIndefinite depth after
      pure (value :: values, after)) := by
  rw [parseIndefinite, if_neg notBreak]
  split <;> rename_i element <;> rw [element] <;> rfl

theorem parseIndefinite_length_lt {depth : Nat} {input rest values : List UInt8}
    (parsed : parseIndefinite depth input = .ok (values, rest)) :
    values.length + rest.length < input.length := by
  induction input using parseIndefinite.induct depth generalizing values rest with
  | case1 => simp [parseIndefinite] at parsed
  | case2 input =>
    simp only [parseIndefinite, if_true, Except.ok.injEq, Prod.mk.injEq] at parsed
    obtain ⟨rfl, rfl⟩ := parsed
    simp
  | case3 byte input notBreak e failed =>
    rw [parseIndefinite_cons notBreak, bind_eq_error failed] at parsed
    cases parsed
  | case4 byte input notBreak value after element ih =>
    rw [parseIndefinite_cons notBreak] at parsed
    obtain ⟨_, element', parsed⟩ := bind_eq_ok.mp parsed
    cases element.symm.trans element'
    obtain ⟨⟨values', after'⟩, elements, parsed⟩ := bind_eq_ok.mp parsed
    obtain ⟨rfl, rfl⟩ := Prod.mk.inj (pure_eq_ok.mp parsed)
    have := parseU8_length_lt element
    have := ih elements
    simp only [List.length_cons] at *
    omega

theorem parseVec_length_lt {depth : Nat} {input rest values : List UInt8}
    (parsed : parseVec depth input = .ok (values, rest)) :
    values.length + rest.length < input.length := by
  obtain ⟨⟨depth', afterTags⟩, skipped, parsed⟩ := bind_eq_ok.mp parsed
  have tags := skipTags_length_le skipped
  match afterTags, parsed with
  | byte :: afterHead, parsed =>
    dsimp only at parsed
    simp only [List.length_cons] at tags
    split_ifs at parsed
    · have := parseIndefinite_length_lt parsed
      omega
    · obtain ⟨_, -, thrown⟩ := bind_eq_ok.mp parsed
      cases thrown
    · obtain ⟨⟨len, afterLength⟩, argument, parsed⟩ := bind_eq_ok.mp parsed
      dsimp only at parsed
      have := parseElements_length_le parsed
      have := parseArgument_length_le argument
      omega

/-- **A decoded vector is shorter than the slice it is decoded from.** -/
theorem fromSlice_length_lt {slice values : List UInt8} (decoded : fromSlice slice = .ok values) :
    values.length < slice.length := by
  obtain ⟨⟨values', rest⟩, parsed, ended⟩ := bind_eq_ok.mp decoded
  dsimp only at ended
  split_ifs at ended with ended'
  cases pure_eq_ok.mp ended
  subst ended'
  have := parseVec_length_lt parsed
  omega

/-- **No byte string decodes to itself.** -/
theorem fromSlice_ne_ok_self (slice : List UInt8) : fromSlice slice ≠ .ok slice :=
  fun decoded => (fromSlice_length_lt decoded).false

/-- An integer whose argument is in its initial byte is read at once, and refused. -/
theorem refuseItem_of_integer {depth major info : Nat} {input : List UInt8} (integer : major < 2)
    (direct : info < 24) : refuseItem depth major info input = .invalidType := by
  unfold refuseItem
  rw [if_neg (by omega), refuseUntagged, if_pos integer, parseArgument, if_pos direct]
  rfl

/-- **An integer whose argument is in its initial byte is refused as an invalid type**: serde's
sequence visitor takes no integer. Every DER certificate begins with `0x30`, the CBOR negative
integer `-17`. -/
theorem fromSlice_of_integer {byte : UInt8} {rest : List UInt8} (integer : byte.toNat / 32 < 2)
    (direct : byte.toNat % 32 < 24) : fromSlice (byte :: rest) = .error .invalidType := by
  simp [fromSlice, parseVec, skipTags_of_untagged (show byte.toNat / 32 ≠ 6 by omega),
    show byte.toNat / 32 ≠ 4 by omega, refuseItem_of_integer integer direct]
  rfl

end Isomdl.SerdeCbor
