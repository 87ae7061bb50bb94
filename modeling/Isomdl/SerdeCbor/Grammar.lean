/-
**What `serde_cbor::from_slice::<Vec<u8>>` accepts, exactly.**

The decoder of `Isomdl.SerdeCbor.Decode` against the grammar of CBOR it reads (RFC 8949 §3). A head
is an initial byte, whose high three bits are the major type and low five bits the additional
information, followed by the argument the information announces (`IsArgument`). A `Vec<u8>` is

* tags, heads of major type 6 (`IsTagRun`), each taking one level of `remaining_depth`;
* an array (`IsArray`): a head of major type 4 whose argument is the number of elements, or the
  indefinite head `0x9f` closed by the break `0xff`;
* elements (`IsElement`), each tags and then a head of major type 0 whose argument is the byte.

Each parse function gets one iff with its part of the grammar, over its input split into what it
consumes and what it leaves (`parseArgument_eq_ok`, `skipTags_eq_ok`, `parseU8_eq_ok`,
`parseElements_eq_ok`, `parseIndefinite_eq_ok`, `parseVec_eq_ok`), and `fromSlice_eq_ok_iff`
puts them together. `fromSlice_tagged` adds the other side of the recursion limit: behind any run
of tags (`IsTagRun`) serde_cbor's own encoding of a vector, in either array form, decodes when
there are at most 126 tags and is refused with `RecursionLimitExceeded` when there are more. The
proofs cite the decoder's own equations (`skipTags_of_tagged_eq_ok`, `parseIndefinite_cons`, ...)
and never unfold a function with a recursive match.
-/

import Isomdl.SerdeCbor.Encode

namespace Isomdl.SerdeCbor

/-! ### Heads and their arguments -/

/-- Any bytes are the big-endian writing of the value they hold. -/
theorem toBigEndian_foldl (arg : List UInt8) :
    toBigEndian arg.length (arg.foldl (fun value byte => value * 256 + byte.toNat) 0) = arg := by
  induction arg using List.reverseRecOn with
  | nil => rfl
  | append_singleton init last ih =>
    have small : last.toNat < 256 := last.toNat_lt_size
    rw [List.length_append, List.length_singleton, toBigEndian, List.foldl_append, List.foldl_cons,
      List.foldl_nil, show (init.foldl (fun value byte => value * 256 + byte.toNat) 0 * 256 +
        last.toNat) / 256 = init.foldl (fun value byte => value * 256 + byte.toNat) 0 by omega, ih]
    congr 2
    exact UInt8.toNat.inj (by rw [toNat_toUInt8]; omega)

theorem parseBigEndian_eq_ok {width value : Nat} {input rest : List UInt8} :
    parseBigEndian width input = .ok (value, rest) ↔
      value < 256 ^ width ∧ input = toBigEndian width value ++ rest := by
  constructor
  · intro parsed
    unfold parseBigEndian at parsed
    split_ifs at parsed with long
    obtain ⟨rfl, rfl⟩ := Prod.mk.inj (Except.ok.inj parsed)
    have size : (input.take width).length = width := by simp [long]
    have back := toBigEndian_foldl (input.take width)
    have value := toBigEndian_value width
      ((input.take width).foldl (fun value byte => value * 256 + byte.toNat) 0)
    rw [size] at back
    rw [back] at value
    refine ⟨?_, by rw [back, List.take_append_drop]⟩
    rw [value]
    exact Nat.mod_lt _ (Nat.pos_pow_of_pos _ (by decide))
  · rintro ⟨fits, rfl⟩
    exact parseBigEndian_complete width value rest fits

/-- The argument `value` announced by the additional information `info`, and the bytes `arg` that
hold it (RFC 8949 §3): below 24 the information is the value and nothing follows; 24 to 27 announce
`2 ^ (info - 24)` bytes holding the value big-endian; 28 to 31 announce no argument. -/
def IsArgument (info value : Nat) (arg : List UInt8) : Prop :=
  if info < 24 then value = info ∧ arg = []
  else if info < 28 then value < 256 ^ 2 ^ (info - 24) ∧ arg = toBigEndian (2 ^ (info - 24)) value
  else False

/-- `parseArgument` reads exactly an argument, in any of its forms. -/
theorem parseArgument_eq_ok {info value : Nat} {input rest : List UInt8} :
    parseArgument info input = .ok (value, rest) ↔
      ∃ arg, input = arg ++ rest ∧ IsArgument info value arg := by
  unfold parseArgument IsArgument
  split_ifs <;> first
    | omega
    | exact ⟨fun parsed => by cases parsed; exact ⟨[], rfl, rfl, rfl⟩,
        by rintro ⟨_, rfl, rfl, rfl⟩; rfl⟩
    | (subst_vars; simp [parseBigEndian_eq_ok, and_comm])

theorem IsArgument.info_lt {info value : Nat} {arg : List UInt8}
    (argument : IsArgument info value arg) : info < 28 := by
  unfold IsArgument at argument
  split_ifs at argument <;> omega

/-! ### Tags -/

/-- `count` tags one after another, each an initial byte of major type 6 and its argument (the
tag number, which serde_cbor drops). -/
def IsTagRun : Nat → List UInt8 → Prop
  | 0, tags => tags = []
  | count + 1, tags => ∃ byte arg number more, tags = byte :: (arg ++ more) ∧ byte.toNat / 32 = 6 ∧
      IsArgument (byte.toNat % 32) number arg ∧ IsTagRun count more

/-- Bytes that do not start with a tag. -/
def NotTagged (bytes : List UInt8) : Prop :=
  ∀ byte more, bytes = byte :: more → byte.toNat / 32 ≠ 6

theorem skipTags_sound {depth depth' : Nat} {input rest : List UInt8}
    (skipped : skipTags depth input = .ok (depth', rest)) :
    ∃ count tags, input = tags ++ rest ∧ IsTagRun count tags ∧ (count = 0 ∨ count < depth) ∧
      depth' = depth - count ∧ NotTagged rest := by
  match input, skipped with
  | [], skipped =>
    rw [skipTags_nil] at skipped
    cases skipped
    exact ⟨0, [], rfl, rfl, .inl rfl, rfl, fun _ _ same => List.noConfusion same⟩
  | byte :: input, skipped =>
    by_cases tagged : byte.toNat / 32 = 6
    · obtain ⟨number, after, d, argument, rfl, deeper⟩ := skipTags_of_tagged_eq_ok tagged skipped
      obtain ⟨count, tags, rfl, run, bound, rfl, untagged⟩ := skipTags_sound deeper
      obtain ⟨arg, rfl, isArgument⟩ := parseArgument_eq_ok.mp argument
      exact ⟨count + 1, byte :: (arg ++ tags), by simp,
        ⟨byte, arg, number, tags, rfl, tagged, isArgument, run⟩, .inr (by omega), by omega,
        untagged⟩
    · rw [skipTags_of_untagged tagged] at skipped
      cases skipped
      exact ⟨0, [], rfl, rfl, .inl rfl, rfl, fun _ _ same => by cases same; exact tagged⟩
termination_by depth

/-- `skipTags` takes every leading tag and nothing else, as long as each leaves a level of
`remaining_depth`. -/
theorem skipTags_eq_ok {depth depth' : Nat} {input rest : List UInt8} :
    skipTags depth input = .ok (depth', rest) ↔
      ∃ count tags, input = tags ++ rest ∧ IsTagRun count tags ∧ (count = 0 ∨ count < depth) ∧
        depth' = depth - count ∧ NotTagged rest := by
  refine ⟨skipTags_sound, ?_⟩
  rintro ⟨count, tags, rfl, run, bound, rfl, untagged⟩
  induction count generalizing depth tags with
  | zero =>
    cases run
    cases rest with
    | nil => exact skipTags_nil depth
    | cons byte more => exact skipTags_of_untagged (untagged byte more rfl)
  | succ count ih =>
    obtain ⟨byte, arg, number, more, rfl, tagged, isArgument, run⟩ := run
    obtain ⟨depth, rfl⟩ : ∃ d, depth = d + 2 := ⟨depth - 2, by omega⟩
    rw [List.cons_append, List.append_assoc, skipTags_of_tagged tagged
      (parseArgument_eq_ok.mpr ⟨arg, rfl, isArgument⟩), ih more run (.inr (by omega)),
      show depth + 1 - count = depth + 2 - (count + 1) by omega]

/-! ### One element, and the elements -/

/-- A `u8`: an unsigned integer (major type 0) whose argument is the byte. -/
def IsU8Item (x : UInt8) (item : List UInt8) : Prop :=
  ∃ byte arg, item = byte :: arg ∧ byte.toNat / 32 = 0 ∧ IsArgument (byte.toNat % 32) x.toNat arg

theorem IsU8Item.notTagged {x : UInt8} {item : List UInt8} (isItem : IsU8Item x item)
    (rest : List UInt8) : NotTagged (item ++ rest) := by
  obtain ⟨byte, arg, rfl, unsigned, -⟩ := isItem
  intro first more same
  cases same
  omega

theorem parseU8Item_eq_ok {depth : Nat} {input rest : List UInt8} {x : UInt8} :
    parseU8Item depth input = .ok (x, rest) ↔ ∃ item, input = item ++ rest ∧ IsU8Item x item := by
  constructor
  · intro parsed
    match input, parsed with
    | byte :: input, parsed =>
      obtain ⟨unsigned, value, argument, small, rfl⟩ := parseU8Item_eq_ok_cons parsed
      obtain ⟨arg, rfl, isArgument⟩ := parseArgument_eq_ok.mp argument
      have same : value.toUInt8.toNat = value := by rw [toNat_toUInt8]; omega
      exact ⟨byte :: arg, rfl, byte, arg, rfl, unsigned, by rwa [same]⟩
  · rintro ⟨_, rfl, byte, arg, rfl, unsigned, isArgument⟩
    have small : x.toNat < 256 := x.toNat_lt_size
    simp only [List.cons_append, parseU8Item, unsigned, if_true,
      parseArgument_eq_ok.mpr ⟨arg, rfl, isArgument⟩, ok_bind, small, toUInt8_toNat]
    rfl

/-- One element of the vector, read at `remaining_depth` `depth`: its tags, at most `depth - 1` of
them, then the `u8`. -/
def IsElement (depth : Nat) (x : UInt8) (element : List UInt8) : Prop :=
  ∃ count tags item, element = tags ++ item ∧ IsTagRun count tags ∧ (count = 0 ∨ count < depth) ∧
    IsU8Item x item

theorem parseU8_eq_ok {depth : Nat} {input rest : List UInt8} {x : UInt8} :
    parseU8 depth input = .ok (x, rest) ↔
      ∃ element, input = element ++ rest ∧ IsElement depth x element := by
  constructor
  · intro parsed
    obtain ⟨⟨_, after⟩, skipped, read⟩ := bind_eq_ok.mp parsed
    obtain ⟨count, tags, rfl, run, bound, -, -⟩ := skipTags_eq_ok.mp skipped
    obtain ⟨item, rfl, isItem⟩ := parseU8Item_eq_ok.mp read
    exact ⟨tags ++ item, by rw [List.append_assoc], count, tags, item, rfl, run, bound, isItem⟩
  · rintro ⟨_, rfl, count, tags, item, rfl, run, bound, isItem⟩
    have skipped : skipTags depth (tags ++ item ++ rest) = .ok (depth - count, item ++ rest) :=
      skipTags_eq_ok.mpr
        ⟨count, tags, List.append_assoc _ _ _, run, bound, rfl, isItem.notTagged rest⟩
    rw [parseU8, skipped, ok_bind]
    exact parseU8Item_eq_ok.mpr ⟨item, rfl, isItem⟩

/-- The elements of the vector, one after another. -/
def IsElements (depth : Nat) : List UInt8 → List UInt8 → Prop
  | [], elements => elements = []
  | x :: xs, elements => ∃ element more, elements = element ++ more ∧ IsElement depth x element ∧
      IsElements depth xs more

theorem parseElements_eq_ok {depth len : Nat} {input rest xs : List UInt8} :
    parseElements depth len input = .ok (xs, rest) ↔
      xs.length = len ∧ ∃ elements, input = elements ++ rest ∧ IsElements depth xs elements := by
  induction len generalizing input xs with
  | zero =>
    constructor
    · intro parsed
      obtain ⟨rfl, rfl⟩ := Prod.mk.inj (pure_eq_ok.mp parsed)
      exact ⟨rfl, [], rfl, rfl⟩
    · rintro ⟨length, elements, rfl, isElements⟩
      cases List.length_eq_zero.mp length
      cases isElements
      rfl
  | succ len ih =>
    constructor
    · intro parsed
      obtain ⟨⟨x, after⟩, element, parsed⟩ := bind_eq_ok.mp parsed
      obtain ⟨⟨xs, after⟩, elements, parsed⟩ := bind_eq_ok.mp parsed
      obtain ⟨rfl, rfl⟩ := Prod.mk.inj (pure_eq_ok.mp parsed)
      obtain ⟨length, more, rfl, isElements⟩ := ih.mp elements
      obtain ⟨first, rfl, isElement⟩ := parseU8_eq_ok.mp element
      exact ⟨by rw [List.length_cons, length], first ++ more, (List.append_assoc _ _ _).symm,
        first, more, rfl, isElement, isElements⟩
    · rintro ⟨length, elements, rfl, isElements⟩
      cases xs with
      | nil => cases length
      | cons x xs =>
        obtain ⟨first, more, rfl, isElement, isElements⟩ := isElements
        have element : parseU8 depth (first ++ more ++ rest) = .ok (x, more ++ rest) :=
          parseU8_eq_ok.mpr ⟨first, List.append_assoc _ _ _, isElement⟩
        have elements : parseElements depth len (more ++ rest) = .ok (xs, rest) :=
          ih.mpr ⟨Nat.succ.inj length, more, rfl, isElements⟩
        rw [parseElements, element, ok_bind]
        simp only [elements, ok_bind]
        rfl

/-! ### The array and the whole vector -/

theorem IsElement.head_ne_break {depth : Nat} {x : UInt8} {element : List UInt8}
    (isElement : IsElement depth x element) (rest : List UInt8) :
    ∃ byte more, element ++ rest = byte :: more ∧ byte ≠ 0xff := by
  obtain ⟨count, tags, item, rfl, run, -, first, arg, rfl, unsigned, -⟩ := isElement
  cases count with
  | zero =>
    cases run
    exact ⟨first, arg ++ rest, rfl,
      fun same => by rw [same] at unsigned; exact absurd unsigned (by decide)⟩
  | succ count =>
    obtain ⟨byte, arg', _, more, rfl, tagged, -⟩ := run
    exact ⟨byte, _, by simp only [List.cons_append, List.append_assoc]; rfl,
      fun same => by rw [same] at tagged; exact absurd tagged (by decide)⟩

theorem parseIndefinite_eq_ok {depth : Nat} {input rest xs : List UInt8} :
    parseIndefinite depth input = .ok (xs, rest) ↔
      ∃ elements, input = elements ++ 0xff :: rest ∧ IsElements depth xs elements := by
  constructor
  · intro parsed
    induction input using parseIndefinite.induct depth generalizing xs rest with
    | case1 =>
      rw [parseIndefinite_nil] at parsed
      cases parsed
    | case2 input =>
      rw [parseIndefinite_break] at parsed
      obtain ⟨rfl, rfl⟩ := Prod.mk.inj (Except.ok.inj parsed)
      exact ⟨[], rfl, rfl⟩
    | case3 byte input notBreak e failed =>
      rw [parseIndefinite_cons notBreak, bind_eq_error failed] at parsed
      cases parsed
    | case4 byte input notBreak value after element ih =>
      rw [parseIndefinite_cons notBreak, element, ok_bind] at parsed
      obtain ⟨⟨values, after'⟩, elements, parsed⟩ := bind_eq_ok.mp parsed
      obtain ⟨rfl, rfl⟩ := Prod.mk.inj (pure_eq_ok.mp parsed)
      obtain ⟨more, rfl, isElements⟩ := ih elements
      obtain ⟨first, same, isElement⟩ := parseU8_eq_ok.mp element
      exact ⟨first ++ more, by rw [same, List.append_assoc], first, more, rfl, isElement,
        isElements⟩
  · rintro ⟨elements, rfl, isElements⟩
    induction xs generalizing elements with
    | nil =>
      cases isElements
      exact parseIndefinite_break depth rest
    | cons x xs ih =>
      obtain ⟨first, more, rfl, isElement, isElements⟩ := isElements
      obtain ⟨byte, after, split, notBreak⟩ := isElement.head_ne_break (more ++ 0xff :: rest)
      have element :
          parseU8 depth (first ++ (more ++ 0xff :: rest)) = .ok (x, more ++ 0xff :: rest) :=
        parseU8_eq_ok.mpr ⟨first, rfl, isElement⟩
      rw [List.append_assoc, split, parseIndefinite_cons notBreak, ← split, element, ok_bind]
      simp only [ih more isElements, ok_bind]
      rfl

/-- The array serde's sequence visitor takes, its elements read at `depth`: a head of major type 4
whose argument is the number of elements, then the elements; or the indefinite head `0x9f`, the
elements and the break `0xff`. -/
def IsArray (depth : Nat) (xs array : List UInt8) : Prop :=
  (∃ byte arg elements, array = byte :: (arg ++ elements) ∧ byte.toNat / 32 = 4 ∧
    IsArgument (byte.toNat % 32) xs.length arg ∧ IsElements depth xs elements) ∨
  ∃ elements, array = 0x9f :: (elements ++ [0xff]) ∧ IsElements depth xs elements

/-- A `Vec<u8>` item at `remaining_depth` `depth`: tags, then the array one level below what the
tags leave. -/
def IsVec (depth : Nat) (xs item : List UInt8) : Prop :=
  ∃ count tags array, item = tags ++ array ∧ IsTagRun count tags ∧ count + 1 < depth ∧
    IsArray (depth - count - 1) xs array

theorem IsArray.notTagged {depth : Nat} {xs array : List UInt8} (isArray : IsArray depth xs array)
    (rest : List UInt8) : NotTagged (array ++ rest) := by
  rcases isArray with ⟨byte, arg, elements, rfl, array, -⟩ | ⟨elements, rfl, -⟩
  · intro first more same
    cases same
    omega
  · intro first more same
    cases same
    decide

theorem parseVec_eq_ok {depth : Nat} {input rest xs : List UInt8} :
    parseVec depth input = .ok (xs, rest) ↔ ∃ item, input = item ++ rest ∧ IsVec depth xs item := by
  constructor
  · intro parsed
    obtain ⟨⟨depth', after⟩, skipped, parsed⟩ := bind_eq_ok.mp parsed
    obtain ⟨count, tags, rfl, run, bound, rfl, -⟩ := skipTags_eq_ok.mp skipped
    match after, parsed with
    | byte :: after, parsed =>
      dsimp only at parsed
      split_ifs at parsed with array indefinite shallow shallow'
      · obtain ⟨elements, rfl, isElements⟩ := parseIndefinite_eq_ok.mp parsed
        obtain rfl : byte = 0x9f :=
          UInt8.toNat.inj (by rw [show (0x9f : UInt8).toNat = 159 from rfl]; omega)
        exact ⟨tags ++ 0x9f :: (elements ++ [0xff]), by simp, count, tags, _, rfl, run, by omega,
          .inr ⟨elements, rfl, isElements⟩⟩
      · obtain ⟨_, -, thrown⟩ := bind_eq_ok.mp parsed
        cases thrown
      · obtain ⟨⟨len, afterHead⟩, argument, parsed⟩ := bind_eq_ok.mp parsed
        obtain ⟨rfl, elements, rfl, isElements⟩ := parseElements_eq_ok.mp parsed
        obtain ⟨arg, rfl, isArgument⟩ := parseArgument_eq_ok.mp argument
        exact ⟨tags ++ byte :: (arg ++ elements), by simp, count, tags, _, rfl, run, by omega,
          .inl ⟨byte, arg, elements, rfl, array, isArgument, isElements⟩⟩
  · rintro ⟨_, rfl, count, tags, array, rfl, run, bound, isArray⟩
    have skipped : skipTags depth (tags ++ array ++ rest) = .ok (depth - count, array ++ rest) :=
      skipTags_eq_ok.mpr ⟨count, tags, List.append_assoc _ _ _, run, .inr (by omega), rfl,
        isArray.notTagged rest⟩
    rw [parseVec, skipped, ok_bind]
    rcases isArray with ⟨byte, arg, elements, rfl, array, isArgument, isElements⟩ |
      ⟨elements, rfl, isElements⟩
    · have info := isArgument.info_lt
      simp only [List.cons_append, List.append_assoc, array, if_true,
        show byte.toNat % 32 ≠ 31 by omega, if_false,
        parseArgument_eq_ok.mpr ⟨arg, rfl, isArgument⟩,
        ok_bind, show ¬depth - count ≤ 1 by omega]
      exact parseElements_eq_ok.mpr ⟨rfl, elements, rfl, isElements⟩
    · simp only [List.cons_append, List.append_assoc, show (0x9f : UInt8).toNat / 32 = 4 from rfl,
        show (0x9f : UInt8).toNat % 32 = 31 from rfl, if_true, show ¬depth - count ≤ 1 by omega,
        if_false]
      exact parseIndefinite_eq_ok.mpr ⟨elements, by simp, isElements⟩

/-! ### Tags and the recursion limit -/

theorem skipTags_of_notTagged {input : List UInt8} (untagged : NotTagged input) (depth : Nat) :
    skipTags depth input = .ok (depth, input) :=
  skipTags_eq_ok.mpr ⟨0, [], rfl, rfl, .inl rfl, rfl, untagged⟩

/-- A run of `count` tags met with at most `count` levels of `remaining_depth` left runs out of
them, whatever follows. -/
theorem skipTags_run_of_le {count depth : Nat} {tags : List UInt8} (run : IsTagRun count tags)
    (tagged : 0 < count) (shallow : depth ≤ count) (rest : List UInt8) :
    skipTags depth (tags ++ rest) = .error .recursionLimitExceeded := by
  induction count generalizing depth tags with
  | zero => omega
  | succ count ih =>
    obtain ⟨byte, arg, number, more, rfl, isTag, isArgument, run⟩ := run
    have argument : parseArgument (byte.toNat % 32) (arg ++ (more ++ rest)) =
        .ok (number, more ++ rest) := parseArgument_eq_ok.mpr ⟨arg, rfl, isArgument⟩
    rw [List.cons_append, List.append_assoc]
    match depth with
    | 0 | 1 => exact skipTags_of_tagged_le_one isTag argument (by omega)
    | depth + 2 => rw [skipTags_of_tagged isTag argument, ih run (by omega) (by omega)]

/-- An untagged item that is read at every depth leaving room for an array, and refused as too
deep at the others, is read behind `count` tags exactly when they leave it that room: when
`count ≤ 126`. -/
theorem fromSlice_tagRun {count : Nat} {tags item xs : List UInt8} (run : IsTagRun count tags)
    (untagged : NotTagged item)
    (read : ∀ depth, parseVec depth item =
      if 1 < depth then .ok (xs, []) else .error .recursionLimitExceeded) :
    fromSlice (tags ++ item) = if count ≤ 126 then .ok xs else .error .recursionLimitExceeded := by
  by_cases deep : count < recursionLimit
  · have skipped : skipTags recursionLimit (tags ++ item) = .ok (recursionLimit - count, item) :=
      skipTags_eq_ok.mpr ⟨count, tags, rfl, run, .inr deep, rfl, untagged⟩
    have parsed :
        parseVec recursionLimit (tags ++ item) = parseVec (recursionLimit - count) item := by
      rw [parseVec, parseVec, skipped, skipTags_of_notTagged untagged]
    rw [fromSlice, parsed, read]
    simp only [recursionLimit] at deep ⊢
    split_ifs <;> first | omega | rfl
  · simp only [recursionLimit, not_lt] at deep
    have failed : parseVec recursionLimit (tags ++ item) = .error .recursionLimitExceeded := by
      rw [parseVec, @skipTags_run_of_le count recursionLimit tags run (by omega) deep]
      rfl
    rw [fromSlice, failed, if_neg (by omega)]
    rfl

/-- **serde_cbor's recursion limit on a certificate's vector, behind any tags**: behind a run of
`count` tags, of any numbers and any head widths, the vector in either array form decodes when
`count ≤ 126` and is refused as too deep otherwise. Each tag takes one level of the 128 of
`remaining_depth`, and the array one more. -/
theorem fromSlice_tagged {count : Nat} {tags : List UInt8} (run : IsTagRun count tags)
    (xs : List UInt8) (fits : xs.length < 2 ^ 64) :
    fromSlice (tags ++ encodeVec xs) =
        (if count ≤ 126 then .ok xs else .error .recursionLimitExceeded) ∧
      fromSlice (tags ++ encodeIndefinite xs) =
        (if count ≤ 126 then .ok xs else .error .recursionLimitExceeded) := by
  obtain ⟨byte, info, tail, code, small, written, -⟩ := encodeHead_eq 4 xs.length (by decide) fits
  constructor
  · refine fromSlice_tagRun run (fun first more same => ?_) fun depth => by
      simpa using parseVec_encodeVec depth xs [] fits
    rw [encodeVec, written, List.cons_append] at same
    obtain ⟨rfl, -⟩ := List.cons.inj same
    omega
  · refine fromSlice_tagRun run (fun first more same => ?_) fun depth => by
      simpa using parseVec_encodeIndefinite depth xs []
    rw [encodeIndefinite, List.cons_append] at same
    obtain ⟨rfl, -⟩ := List.cons.inj same
    decide

/-- The vector `[1, 255]` behind tag 24, whose number takes a byte of its own, and tag 0. -/
theorem fromSlice_tagged_two :
    IsTagRun 2 [0xd8, 0x18, 0xc0] ∧ [(1 : UInt8), 255].length < 2 ^ 64 ∧
      fromSlice ([0xd8, 0x18, 0xc0] ++ encodeVec [1, 255]) =
          (if 2 ≤ 126 then .ok [1, 255] else .error .recursionLimitExceeded) ∧
        fromSlice ([0xd8, 0x18, 0xc0] ++ encodeIndefinite [1, 255]) =
          (if 2 ≤ 126 then .ok [1, 255] else .error .recursionLimitExceeded) :=
  have run : IsTagRun 2 [0xd8, 0x18, 0xc0] :=
    ⟨0xd8, [0x18], 24, [0xc0], rfl, by decide, by unfold IsArgument; decide,
      0xc0, [], 0, [], rfl, by decide, by unfold IsArgument; decide, rfl⟩
  ⟨run, by decide, fromSlice_tagged run [1, 255] (by decide)⟩

/-- **What `from_slice::<Vec<u8>>` accepts, exactly**: a slice decodes to `xs` if and only if it
is a `Vec<u8>` item of `xs` within the 128 levels of `remaining_depth`, with nothing after it. Any
head form is taken, the shortest or not, so many slices decode to one vector. -/
theorem fromSlice_eq_ok_iff (slice xs : List UInt8) :
    fromSlice slice = .ok xs ↔ IsVec recursionLimit xs slice := by
  constructor
  · intro decoded
    obtain ⟨⟨xs', rest⟩, parsed, ended⟩ := bind_eq_ok.mp decoded
    dsimp only at ended
    split_ifs at ended with empty
    subst empty
    cases pure_eq_ok.mp ended
    obtain ⟨item, rfl, isVec⟩ := parseVec_eq_ok.mp parsed
    rwa [List.append_nil]
  · intro isVec
    have parsed : parseVec recursionLimit slice = .ok (xs, []) :=
      parseVec_eq_ok.mpr ⟨slice, (List.append_nil _).symm, isVec⟩
    rw [fromSlice, parsed]
    rfl

end Isomdl.SerdeCbor
