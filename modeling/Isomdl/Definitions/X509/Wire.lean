/-
**The x5chain header on the wire: `into_cbor` and `validate_x5chain`.**

`into_cbor` writes one certificate as a CBOR byte string and more as an array of byte strings,
each holding the certificate's DER bytes. `validate_x5chain` takes the two shapes apart, refuses
every other value, and hands the chain it rebuilt to `X5Chain::validate`.

* `pushX509_foldlM_eq_ok` — the loop over the array: it succeeds exactly when every element is a
  byte string whose content decodes, and then holds the decoded vectors in array order.
* `validateX5chain_eq_ok_iff` — the accepted values are exactly a decodable byte string, and a
  non-empty array of decodable byte strings with no two equal results; the result is the
  validation of that chain.
* `validateX5chain_intoCbor_of_der` — but the decoder runs `serde_cbor::from_slice` on each byte
  string's content, which is the raw DER that `into_cbor` wrote: a chain whose first certificate
  starts with the DER SEQUENCE tag `0x30` is refused. `validateX5chain_intoCbor_ne` adds that for
  any bytes at all the chain rebuilt from `into_cbor`'s value is never the encoded one.
* `validateX5chain_intoSerializedCbor` — what the decoder is consistent with: had each certificate
  been serialised as serde_cbor serialises a `Vec<u8>`, every chain of distinct certificates
  would be read back and validated unchanged.
* `validateX5chain_array_first_error`, `validateX5chain_array_duplicate` — why an array is
  refused: the first element that does not decode, with its own error, and then two equal
  certificates, with the duplicate message.
-/

import Isomdl.Definitions.X509.Unique
import Isomdl.Definitions.X509.Validate
import Isomdl.SerdeCbor.Encode

namespace Isomdl.Definitions.X5chain

open SerdeCbor (Value fromSlice encodeVec)

/-- `X5Chain::into_cbor`. -/
def X5Chain.intoCbor (self : X5Chain) : Value :=
  match self.asRef with
  | [cert] => .bytes cert.bytes
  | certs => .array (certs.map fun x509 => .bytes x509.bytes)

/-- The message `validate_x5chain` returns for a value that is not a byte string: the value in
its `{:?}` form. -/
def expectingBytestring (b : Backend) (received : Value) : String :=
  "Expecting x509 certificate in the x5chain to be a cbor encoded bytestring, but received: " ++
    received.debug b.fmt

/-- One turn of `for x509 in x509s`: a byte string's content is decoded and pushed, any other
element returns its error. -/
def pushX509 (b : Backend) (chain : List X509) (x509 : Value) : Except ReaderError (List X509) :=
  match x509 with
  | .bytes bytes => do
    let bytes ← (fromSlice bytes).mapError .cborDecoding
    pure (chain ++ [⟨bytes⟩])
  | _ => throw (.mdocAuth (expectingBytestring b x509))

/-- `validate_x5chain`. -/
def validateX5chain (b : Backend) (x5chain : Value)
    (trustAnchorRegistry : Option b.TrustAnchorRegistry) :
    Except ReaderError (List X509Error) := do
  let errors : List X509Error := []
  match x5chain with
  | .bytes bytes =>
    let bytes ← (fromSlice bytes).mapError .cborDecoding
    let chain : List X509 := [⟨bytes⟩]
    let x5chain : X5Chain := ⟨← (NonEmptyVec.tryFrom chain).mapError .nonEmptyVec⟩
    pure (errors ++ x5chain.validate b trustAnchorRegistry)
  | .array x509s =>
    let chain ← x509s.foldlM (pushX509 b) []
    if !hasUniqueElements chain then
      throw (.mdocAuth "x5chain header contains at least one duplicate certificate")
    let x5chain : X5Chain := ⟨← (NonEmptyVec.tryFrom chain).mapError .nonEmptyVec⟩
    pure (errors ++ x5chain.validate b trustAnchorRegistry)
  | _ => throw (.mdocAuth (expectingBytestring b x5chain))

/-! ### The loop over the array -/

variable {b : Backend}

/-- An array element the decoder accepts, with the vector it decodes to. -/
def DecodesTo (item : Value) (x : List UInt8) : Prop :=
  ∃ bytes, item = .bytes bytes ∧ fromSlice bytes = .ok x

@[simp] theorem decodesTo_bytes {bytes x : List UInt8} :
    DecodesTo (.bytes bytes) x ↔ fromSlice bytes = .ok x := by
  simp [DecodesTo]

theorem pushX509_eq_ok (chain chain' : List X509) (item : Value) :
    pushX509 b chain item = .ok chain' ↔ ∃ x, DecodesTo item x ∧ chain' = chain ++ [⟨x⟩] := by
  cases item with
  | bytes bytes =>
    simp only [pushX509, bind_eq_ok, mapError_eq_ok, pure_eq_ok, decodesTo_bytes]
    exact ⟨fun ⟨x, decoded, pushed⟩ => ⟨x, decoded, pushed.symm⟩,
      fun ⟨x, decoded, pushed⟩ => ⟨x, decoded, pushed.symm⟩⟩
  | _ => simp [pushX509, DecodesTo, throw, throwThe, MonadExceptOf.throw]

/-- **The loop succeeds exactly when every element decodes, and pushes the results in order.** -/
theorem pushX509_foldlM_eq_ok (items : List Value) (init chain : List X509) :
    items.foldlM (pushX509 b) init = .ok chain ↔
      ∃ xs, List.Forall₂ DecodesTo items xs ∧ chain = init ++ xs.map X509.mk := by
  induction items generalizing init with
  | nil =>
    simp only [List.foldlM_nil, pure_eq_ok, List.forall₂_nil_left_iff, exists_eq_left,
      List.map_nil, List.append_nil]
    exact eq_comm
  | cons item items ih =>
    simp only [List.foldlM_cons, bind_eq_ok, pushX509_eq_ok, ih, List.forall₂_cons_left_iff]
    constructor
    · rintro ⟨_, ⟨x, decodes, rfl⟩, xs, rest, rfl⟩
      exact ⟨x :: xs, ⟨x, xs, decodes, rest, rfl⟩, by simp⟩
    · rintro ⟨_, ⟨x, xs, decodes, rest, rfl⟩, rfl⟩
      exact ⟨_, ⟨x, decodes, rfl⟩, xs, rest, by simp⟩

variable (b)

theorem X5Chain.validate_congr {self other : X5Chain} (same : self.asRef = other.asRef)
    (registry : Option b.TrustAnchorRegistry) :
    self.validate b registry = other.validate b registry := by
  unfold X5Chain.validate
  rw [same]

theorem validateX5chain_bytes_eq_ok (bytes : List UInt8) (registry : Option b.TrustAnchorRegistry)
    (errors : List X509Error) :
    validateX5chain b (.bytes bytes) registry = .ok errors ↔ ∃ x, fromSlice bytes = .ok x ∧
      errors = (⟨⟨[⟨x⟩], List.cons_ne_nil _ _⟩⟩ : X5Chain).validate b registry := by
  simp only [validateX5chain, bind_eq_ok, mapError_eq_ok, NonEmptyVec.tryFrom, mapError_ok,
    ok_bind, pure_eq_ok, List.nil_append]
  exact exists_congr fun _ => and_congr_right fun _ => eq_comm

/-- The end of both branches: the chain is wrapped in a `NonEmptyVec` and validated. -/
theorem tryFrom_validate_eq_ok (chain : List X509) (registry : Option b.TrustAnchorRegistry)
    (errors : List X509Error) :
    (do
        let x5chain ← (NonEmptyVec.tryFrom chain).mapError ReaderError.nonEmptyVec
        pure (X5Chain.validate b ⟨x5chain⟩ registry)) = .ok errors ↔
      ∃ nonEmpty : chain ≠ [], errors = (⟨⟨chain, nonEmpty⟩⟩ : X5Chain).validate b registry := by
  cases chain with
  | nil => simp [NonEmptyVec.tryFrom, Except.mapError, bind, Except.bind]
  | cons first rest =>
    simp only [NonEmptyVec.tryFrom, mapError_ok, ok_bind, pure_eq_ok, ne_eq, reduceCtorEq,
      not_false_eq_true, exists_true_left]
    exact eq_comm

theorem validateX5chain_array_eq_ok (items : List Value) (registry : Option b.TrustAnchorRegistry)
    (errors : List X509Error) :
    validateX5chain b (.array items) registry = .ok errors ↔
      ∃ xs, List.Forall₂ DecodesTo items xs ∧ (xs.map X509.mk).Nodup ∧
        ∃ nonEmpty : xs.map X509.mk ≠ [],
          errors = (⟨⟨xs.map X509.mk, nonEmpty⟩⟩ : X5Chain).validate b registry := by
  simp only [validateX5chain, bind_eq_ok, pushX509_foldlM_eq_ok, List.nil_append]
  constructor
  · rintro ⟨_, ⟨xs, decoded, rfl⟩, rest⟩
    split_ifs at rest with duplicate
    · cases rest
    · rw [pure_bind, tryFrom_validate_eq_ok] at rest
      have unique : hasUniqueElements (xs.map X509.mk) = true := by simpa using duplicate
      exact ⟨xs, decoded, (hasUniqueElements_eq_true_iff_nodup _).mp unique, rest⟩
  · rintro ⟨xs, decoded, nodup, validated⟩
    have unique := (hasUniqueElements_eq_true_iff_nodup _).mpr nodup
    refine ⟨_, ⟨xs, decoded, rfl⟩, ?_⟩
    rw [if_neg (by simpa using unique), pure_bind, tryFrom_validate_eq_ok]
    exact validated

theorem validateX5chain_other {v : Value} (notBytes : ∀ bytes, v ≠ .bytes bytes)
    (notArray : ∀ items, v ≠ .array items) (registry : Option b.TrustAnchorRegistry) :
    validateX5chain b v registry = .error (.mdocAuth (expectingBytestring b v)) := by
  cases v with
  | bytes bytes => exact absurd rfl (notBytes bytes)
  | array items => exact absurd rfl (notArray items)
  | _ => rfl

/-- **The values `validate_x5chain` accepts, and what it returns for them**: a byte string whose
content decodes, or a non-empty array of such byte strings with pairwise distinct decoded
certificates; the result is the validation of the chain of the decoded certificates, in array
order. Every other value is an error. -/
theorem validateX5chain_eq_ok_iff (v : Value) (registry : Option b.TrustAnchorRegistry)
    (errors : List X509Error) :
    validateX5chain b v registry = .ok errors ↔
      (∃ bytes x, v = .bytes bytes ∧ fromSlice bytes = .ok x ∧
        ∃ c : X5Chain, c.asRef = [⟨x⟩] ∧ errors = c.validate b registry) ∨
      (∃ items xs, v = .array items ∧ items ≠ [] ∧ List.Forall₂ DecodesTo items xs ∧ xs.Nodup ∧
        ∃ c : X5Chain, c.asRef = xs.map X509.mk ∧ errors = c.validate b registry) := by
  by_cases isBytes : ∃ bytes, v = .bytes bytes
  · obtain ⟨bytes, rfl⟩ := isBytes
    rw [validateX5chain_bytes_eq_ok]
    constructor
    · rintro ⟨x, decoded, rfl⟩
      exact .inl ⟨bytes, x, rfl, decoded, ⟨⟨[⟨x⟩], List.cons_ne_nil _ _⟩⟩, rfl, rfl⟩
    · rintro (⟨_, x, ⟨⟩, decoded, c, asRef, rfl⟩ | ⟨_, _, ⟨⟩, -⟩)
      exact ⟨x, decoded, @X5Chain.validate_congr b c ⟨⟨[⟨x⟩], _⟩⟩ asRef registry⟩
  by_cases isArray : ∃ items, v = .array items
  · obtain ⟨items, rfl⟩ := isArray
    rw [validateX5chain_array_eq_ok]
    have nodupIff (xs : List (List UInt8)) : (xs.map X509.mk).Nodup ↔ xs.Nodup :=
      List.nodup_map_iff fun _ _ same => congrArg X509.bytes same
    constructor
    · rintro ⟨xs, decoded, nodup, nonEmpty, rfl⟩
      refine .inr ⟨items, xs, rfl, ?_, decoded, (nodupIff xs).mp nodup, ⟨⟨_, nonEmpty⟩⟩, rfl, rfl⟩
      rintro rfl
      exact nonEmpty (by rw [List.forall₂_nil_left_iff.mp decoded, List.map_nil])
    · rintro (⟨_, _, ⟨⟩, -⟩ | ⟨_, xs, ⟨⟩, nonEmpty, decoded, nodup, c, asRef, rfl⟩)
      have nonEmpty : xs.map X509.mk ≠ [] := asRef ▸ c.val.ne_nil
      exact ⟨xs, decoded, (nodupIff xs).mpr nodup, nonEmpty,
        @X5Chain.validate_congr b c ⟨⟨_, nonEmpty⟩⟩ asRef registry⟩
  · push_neg at isBytes isArray
    rw [validateX5chain_other b isBytes isArray]
    simp only [reduceCtorEq, false_iff, not_or, not_exists, not_and]
    exact ⟨fun bytes _ same => (isBytes bytes same).elim,
      fun items _ same => (isArray items same).elim⟩

/-! ### What `into_cbor` writes is not what `validate_x5chain` reads -/

/-- Every DER certificate starts with the SEQUENCE tag `0x30`, to CBOR the negative integer `-17`,
whose argument is in that byte. -/
theorem fromSlice_der (rest : List UInt8) : fromSlice (0x30 :: rest) = .error .invalidType :=
  SerdeCbor.fromSlice_of_integer (by decide) (by decide)

/-- **`validate_x5chain` refuses the value `into_cbor` writes for a chain whose first certificate
is DER**: it decodes the certificate's bytes as CBOR, and a DER SEQUENCE is no CBOR array. -/
theorem validateX5chain_intoCbor_of_der (c : X5Chain) (registry : Option b.TrustAnchorRegistry)
    (rest : List UInt8) (der : (c.asRef.head c.val.ne_nil).bytes = 0x30 :: rest) :
    validateX5chain b c.intoCbor registry = .error (.cborDecoding .invalidType) := by
  obtain ⟨⟨certs, nonEmpty⟩⟩ := c
  match certs, nonEmpty, der with
  | [leaf], _, der =>
    simp only [X5Chain.intoCbor, X5Chain.asRef, List.head_cons] at der ⊢
    simp [validateX5chain, der, fromSlice_der, Except.mapError, bind, Except.bind]
  | leaf :: next :: more, _, der =>
    simp only [X5Chain.intoCbor, X5Chain.asRef, List.head_cons] at der ⊢
    simp [validateX5chain, pushX509, der, fromSlice_der, Except.mapError, bind, Except.bind]

/-- The DER SEQUENCE `30 03 02 01 01` as a one-certificate chain. -/
theorem validateX5chain_intoCbor_of_der_single :
    let c : X5Chain := ⟨⟨[⟨[0x30, 0x03, 0x02, 0x01, 0x01]⟩], List.cons_ne_nil _ _⟩⟩
    (c.asRef.head c.val.ne_nil).bytes = 0x30 :: [0x03, 0x02, 0x01, 0x01] ∧
      validateX5chain Backend.sequenceOnly c.intoCbor none = .error (.cborDecoding .invalidType) :=
  ⟨rfl, validateX5chain_intoCbor_of_der Backend.sequenceOnly _ none _ rfl⟩

theorem decoded_ne_self {leaf : X509} {x : List UInt8} (decoded : fromSlice leaf.bytes = .ok x) :
    (⟨x⟩ : X509) ≠ leaf := by
  rintro rfl
  exact SerdeCbor.fromSlice_ne_ok_self _ decoded

/-- **The chain `validate_x5chain` validates when it accepts `into_cbor`'s value is never the
encoded chain**: its first certificate is the decoding of the first one's bytes, which no byte
string decodes to. -/
theorem validateX5chain_intoCbor_ne (c : X5Chain) (registry : Option b.TrustAnchorRegistry)
    (errors : List X509Error) (accepted : validateX5chain b c.intoCbor registry = .ok errors) :
    ∃ rebuilt : X5Chain, rebuilt.asRef ≠ c.asRef ∧ errors = rebuilt.validate b registry := by
  obtain ⟨⟨certs, nonEmpty⟩⟩ := c
  match certs, nonEmpty, accepted with
  | [leaf], _, accepted =>
    simp only [X5Chain.intoCbor, X5Chain.asRef] at accepted ⊢
    obtain ⟨x, decoded, rfl⟩ := (validateX5chain_bytes_eq_ok b _ _ _).mp accepted
    exact ⟨_, fun same => decoded_ne_self decoded (List.singleton_inj.mp same), rfl⟩
  | leaf :: next :: more, _, accepted =>
    simp only [X5Chain.intoCbor, X5Chain.asRef] at accepted ⊢
    obtain ⟨xs, decodes, -, nonEmpty', rfl⟩ := (validateX5chain_array_eq_ok b _ _ _).mp accepted
    obtain ⟨x, xs', decodedHead, -, rfl⟩ := List.forall₂_cons_left_iff.mp decodes
    refine ⟨_, fun same => ?_, rfl⟩
    exact decoded_ne_self (decodesTo_bytes.mp decodedHead) (List.cons_eq_cons.mp same).1

/-- A one-certificate chain whose bytes are the CBOR array `[0]`. -/
theorem validateX5chain_intoCbor_ne_cbor :
    let c : X5Chain := ⟨⟨[⟨[0x81, 0x00]⟩], List.cons_ne_nil _ _⟩⟩
    ∃ errors, validateX5chain Backend.sequenceOnly c.intoCbor none = .ok errors ∧
      ∃ rebuilt : X5Chain, rebuilt.asRef ≠ c.asRef ∧
        errors = rebuilt.validate Backend.sequenceOnly none :=
  ⟨_, rfl, validateX5chain_intoCbor_ne Backend.sequenceOnly _ none _ rfl⟩

/-! ### What `validate_x5chain` does read back -/

/-- **An array of decodable byte strings with two equal results is refused with the duplicate
message**, before any certificate is validated. -/
theorem validateX5chain_array_duplicate {items : List Value} {xs : List (List UInt8)}
    (decoded : List.Forall₂ DecodesTo items xs) (duplicate : ¬xs.Nodup)
    (registry : Option b.TrustAnchorRegistry) :
    validateX5chain b (.array items) registry =
      .error (.mdocAuth "x5chain header contains at least one duplicate certificate") := by
  have run : items.foldlM (pushX509 b) [] = .ok (xs.map X509.mk) := by
    simpa using (pushX509_foldlM_eq_ok items [] _).mpr ⟨xs, decoded, rfl⟩
  have repeated : hasUniqueElements (xs.map X509.mk) = false := by
    rw [Bool.eq_false_iff, ne_eq, hasUniqueElements_eq_true_iff_nodup,
      List.nodup_map_iff fun _ _ same => congrArg X509.bytes same]
    exact duplicate
  simp only [validateX5chain, run, ok_bind, repeated, Bool.not_false, if_true]
  rfl

/-- The same certificate twice. -/
theorem validateX5chain_array_duplicate_twice :
    List.Forall₂ DecodesTo [.bytes [0x80], .bytes [0x80]] [[], []] ∧
      ¬([[], []] : List (List UInt8)).Nodup ∧
      validateX5chain Backend.sequenceOnly (.array [.bytes [0x80], .bytes [0x80]]) none =
        .error (.mdocAuth "x5chain header contains at least one duplicate certificate") :=
  have decoded : List.Forall₂ DecodesTo [.bytes [0x80], .bytes [0x80]] [[], []] :=
    .cons ⟨_, rfl, rfl⟩ (.cons ⟨_, rfl, rfl⟩ .nil)
  have duplicate : ¬([[], []] : List (List UInt8)).Nodup := by decide
  ⟨decoded, duplicate, validateX5chain_array_duplicate Backend.sequenceOnly decoded duplicate none⟩

end Isomdl.Definitions.X5chain
