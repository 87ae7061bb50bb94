/-
**`X5Chain::validate`: every defect of a chain, in pass order.**

The orchestrator never stops at a failure. It runs three passes over one accumulator:

1. `signatureStep` over `windows(2)` — one error for each neighbour pair whose
   `check_signature(target, issuer)` fails;
2. `validityStep` over the certificates — each one's parse error, or all its validity errors;
3. `anchorStep` on the last certificate — its parse error, `find_anchor`'s error, the
   "No matching trust anchor found" error, or the errors of `validate_with_trust_anchor`.

`validate_eq_passes` states the result pass by pass, over the indices of the chain
(`signatureChainErrors` for the pairs at `i` and `i + 1`, `validityErrors` for each certificate,
`anchorErrors` for the last), for every chain and every backend: the library functions are
arbitrary. From it, the result is empty exactly when every pair verifies, every certificate parses
with no validity error, and the last one has an anchor that reports nothing. Each pass is one
step lemma (`signatureStep_eq`, `validityStep_eq`, `anchorStep_some`) and one fold
(`foldl_append_eq`).

* `validate_reports_every_defect` — no defect hides another: each failed pair, each validity or
  parse error and the missing anchor are all in the result.
* `validate_eq_noAnchor` — a chain of any length that passes every other check and has no anchor
  reports exactly "No matching trust anchor found".
* `validate_append` — validation is local to the links: split a chain anywhere, and its errors
  are those of the two parts with the one link across the split (`signatureChainErrors_append`,
  from `windowsTwo_append`); only the upper part's top meets the anchor check.
* `validate_none_ne_nil` — under the collaborator contract that `find_anchor` finds nothing
  without a registry, no chain validates clean without one.
-/

import Isomdl.Definitions.X509.Backend

namespace Isomdl.Definitions.X5chain

variable (b : Backend)

/-! ### The signature check -/

/-- `X509::public_key` at NistP256: the certificate is parsed and its subject public key info
read as a key; the first `map_err`'s text is dropped by the second, which leaves a fixed
message. -/
def X509.publicKey (self : X509) : Except X509Error b.PublicKey := do
  let cert ← (b.certificateFromDer self.bytes).mapError .decodingError
  (b.subjectPublicKeyInfoTryInto cert).mapError fun _ =>
    .validationError "could not parse public key from pkcs8 spki"

/-- `check_signature`: the issuer's key verifies the target's signature over the target's
to-be-signed bytes. -/
def checkSignature (target issuer : X509) : Except X509Error Unit := do
  let parentPublicKey ← issuer.publicKey b
  let childCert ← (b.certificateFromDer target.bytes).mapError .decodingError
  let sig ← (b.signatureFromDer (b.signatureRawBytes childCert)).mapError .signatureError
  let bytes ← (b.tbsCertificateToDer childCert).mapError .decodingError
  (b.verify parentPublicKey bytes sig).mapError .signatureError

/-! ### The three passes -/

/-- The closure of `x5chain.windows(2).for_each`: the error of a failed `check_signature` is
pushed. -/
def signatureStep (errors : List X509Error) (chainLink : X509 × X509) : List X509Error :=
  match checkSignature b chainLink.1 chainLink.2 with
  | .ok _ => errors
  | .error e => errors ++ [e]

/-- The body of `for x509 in x5chain`: a parse error is pushed, else every error of
`check_validity_period` is appended. -/
def validityStep (errors : List X509Error) (x509 : X509) : List X509Error :=
  match b.certificateFromDer x509.bytes with
  | .ok c => errors ++ b.checkValidityPeriod c
  | .error e => errors ++ [.decodingError e]

/-- The check of `x5chain.last()` against the trust anchor registry. -/
def anchorStep (errors : List X509Error) (lastInChain : Option X509)
    (trustAnchorRegistry : Option b.TrustAnchorRegistry) : List X509Error :=
  match lastInChain with
  | some x509 =>
    match b.certificateFromDer x509.bytes with
    | .ok cert =>
      match b.findAnchor cert trustAnchorRegistry with
      | .ok (some trustAnchor) => errors ++ b.validateWithTrustAnchor x509 trustAnchor
      | .ok none => errors ++ [.validationError "No matching trust anchor found"]
      | .error e => errors ++ [e]
    | .error e => errors ++ [.decodingError e]
  | none => errors ++ [.validationError "Empty certificate chain"]

/-- `self.0.as_ref()`: the certificates, leaf first. -/
def X5Chain.asRef (self : X5Chain) : List X509 := self.val.toList

@[simp] theorem X5Chain.asRef_mk (certs : List X509) (nonEmpty : certs ≠ []) :
    (⟨⟨certs, nonEmpty⟩⟩ : X5Chain).asRef = certs :=
  rfl

theorem X5Chain.asRef_ne_nil (self : X5Chain) : self.asRef ≠ [] :=
  self.val.ne_nil

/-- `X5Chain::validate`. -/
def X5Chain.validate (self : X5Chain) (trustAnchorRegistry : Option b.TrustAnchorRegistry) :
    List X509Error :=
  let x5chain := self.asRef
  let errors := (windowsTwo x5chain).foldl (signatureStep b) []
  let errors := x5chain.foldl (validityStep b) errors
  anchorStep b errors x5chain.getLast? trustAnchorRegistry

/-! ### The passes, index by index -/

/-- The signature-chain errors: for each `i` from `0` to `n - 2`, the error of
`check_signature(x_i, x_{i+1})` when it fails. -/
def signatureChainErrors (xs : List X509) : List X509Error :=
  (List.finRange (xs.length - 1)).flatMap fun i =>
    errorOf (checkSignature b (xs.get ⟨i.val, by omega⟩) (xs.get ⟨i.val + 1, by omega⟩))

/-- The validity errors of one certificate: its parse error, or all errors
`check_validity_period` returns for it. -/
def validityErrors (x509 : X509) : List X509Error :=
  match b.certificateFromDer x509.bytes with
  | .ok cert => b.checkValidityPeriod cert
  | .error e => [.decodingError e]

/-- The anchor errors of the last certificate: its parse error, `find_anchor`'s error, the
missing-anchor error, or the errors of `validate_with_trust_anchor`. -/
def anchorErrors (last : X509) (registry : Option b.TrustAnchorRegistry) : List X509Error :=
  match b.certificateFromDer last.bytes with
  | .ok cert =>
    match b.findAnchor cert registry with
    | .ok (some anchor) => b.validateWithTrustAnchor last anchor
    | .ok none => [.validationError "No matching trust anchor found"]
    | .error e => [e]
  | .error e => [.decodingError e]

/-! ### One lemma per step -/

theorem signatureStep_eq (errors : List X509Error) (chainLink : X509 × X509) :
    signatureStep b errors chainLink =
      errors ++ errorOf (checkSignature b chainLink.1 chainLink.2) := by
  unfold signatureStep
  split <;> rename_i result <;> simp [result]

theorem validityStep_eq (errors : List X509Error) (x509 : X509) :
    validityStep b errors x509 = errors ++ validityErrors b x509 := by
  unfold validityStep validityErrors
  split <;> rfl

theorem anchorStep_some (errors : List X509Error) (last : X509)
    (registry : Option b.TrustAnchorRegistry) :
    anchorStep b errors (some last) registry = errors ++ anchorErrors b last registry := by
  simp only [anchorStep, anchorErrors]
  split
  · split <;> rfl
  · rfl

theorem signaturePass_eq (xs : List X509) :
    (windowsTwo xs).foldl (signatureStep b) [] = signatureChainErrors b xs := by
  have step : signatureStep b = fun errors chainLink =>
      errors ++ errorOf (checkSignature b chainLink.1 chainLink.2) :=
    funext₂ (signatureStep_eq b)
  rw [step, foldl_append_eq, List.nil_append, windowsTwo_eq_map_finRange, List.flatMap_map]
  rfl

theorem validityPass_eq (errors : List X509Error) (xs : List X509) :
    xs.foldl (validityStep b) errors = errors ++ xs.flatMap (validityErrors b) := by
  have step : validityStep b = fun errors x509 => errors ++ validityErrors b x509 :=
    funext₂ (validityStep_eq b)
  rw [step, foldl_append_eq]

/-! ### Which passes report nothing -/

theorem signatureChainErrors_eq_nil (xs : List X509) :
    signatureChainErrors b xs = [] ↔ ∀ i : Fin (xs.length - 1),
      checkSignature b (xs.get ⟨i.val, by omega⟩) (xs.get ⟨i.val + 1, by omega⟩) = .ok () := by
  simp [signatureChainErrors, List.flatMap_eq_nil_iff, errorOf_eq_nil, Unique.exists_iff]

theorem validityErrors_eq_nil (x509 : X509) :
    validityErrors b x509 = [] ↔
      ∃ cert, b.certificateFromDer x509.bytes = .ok cert ∧ b.checkValidityPeriod cert = [] := by
  unfold validityErrors
  split <;> rename_i parsed <;> simp [parsed]

theorem anchorErrors_eq_nil (last : X509) (registry : Option b.TrustAnchorRegistry) :
    anchorErrors b last registry = [] ↔ ∃ cert anchor, b.certificateFromDer last.bytes = .ok cert ∧
      b.findAnchor cert registry = .ok (some anchor) ∧
        b.validateWithTrustAnchor last anchor = [] := by
  unfold anchorErrors
  split <;> rename_i parsed
  · split <;> rename_i found <;> simp [parsed, found]
  · simp [parsed]

/-! ### The whole chain -/

theorem X5Chain.validate_eq (self : X5Chain) (registry : Option b.TrustAnchorRegistry) :
    self.validate b registry = signatureChainErrors b self.asRef ++
      self.asRef.flatMap (validityErrors b) ++
      anchorErrors b (self.asRef.getLast self.val.ne_nil) registry := by
  rw [X5Chain.validate, signaturePass_eq, validityPass_eq,
    List.getLast?_eq_getLast self.asRef self.val.ne_nil, anchorStep_some]

/-- **`X5Chain::validate` is the concatenation of its three passes, and reports nothing exactly
when every check passes.** -/
theorem validate_eq_passes (self : X5Chain) (registry : Option b.TrustAnchorRegistry) :
    self.validate b registry = signatureChainErrors b self.asRef ++
        self.asRef.flatMap (validityErrors b) ++
        anchorErrors b (self.asRef.getLast self.val.ne_nil) registry ∧
      (self.validate b registry = [] ↔
        (∀ i : Fin (self.asRef.length - 1),
          checkSignature b (self.asRef.get ⟨i.val, by omega⟩)
            (self.asRef.get ⟨i.val + 1, by omega⟩) = .ok ()) ∧
        (∀ x509 ∈ self.asRef, ∃ cert,
          b.certificateFromDer x509.bytes = .ok cert ∧ b.checkValidityPeriod cert = []) ∧
        ∃ cert anchor, b.certificateFromDer (self.asRef.getLast self.val.ne_nil).bytes = .ok cert ∧
          b.findAnchor cert registry = .ok (some anchor) ∧
          b.validateWithTrustAnchor (self.asRef.getLast self.val.ne_nil) anchor = []) := by
  refine ⟨self.validate_eq b registry, ?_⟩
  rw [self.validate_eq b registry]
  simp only [List.append_eq_nil, signatureChainErrors_eq_nil, List.flatMap_eq_nil_iff,
    validityErrors_eq_nil, anchorErrors_eq_nil, and_assoc]

/-- **No defect hides another**: a failed signature check of any neighbour pair, any validity
error or parse error of any certificate, and the missing anchor of the last one each appear in
the result, whatever else fails. -/
theorem validate_reports_every_defect (self : X5Chain) (registry : Option b.TrustAnchorRegistry) :
    (∀ (i : Fin (self.asRef.length - 1)) (e : X509Error),
      checkSignature b (self.asRef.get ⟨i.val, by omega⟩)
        (self.asRef.get ⟨i.val + 1, by omega⟩) = .error e → e ∈ self.validate b registry) ∧
    (∀ x509 ∈ self.asRef, ∀ cert e, b.certificateFromDer x509.bytes = .ok cert →
      e ∈ b.checkValidityPeriod cert → e ∈ self.validate b registry) ∧
    (∀ x509 ∈ self.asRef, ∀ e, b.certificateFromDer x509.bytes = .error e →
      .decodingError e ∈ self.validate b registry) ∧
    (∀ cert, b.certificateFromDer (self.asRef.getLast self.val.ne_nil).bytes = .ok cert →
      b.findAnchor cert registry = .ok none →
      .validationError "No matching trust anchor found" ∈ self.validate b registry) := by
  simp only [self.validate_eq b registry, List.mem_append, List.mem_flatMap]
  refine ⟨fun i e failed => ?_, fun x509 member cert e parsed reported => ?_,
    fun x509 member e failed => ?_, fun cert parsed missing => ?_⟩
  · refine .inl (.inl (List.mem_flatMap.mpr ⟨i, List.mem_finRange i, ?_⟩))
    rw [failed]
    exact List.mem_singleton_self e
  · exact .inl (.inr ⟨x509, member, by simp only [validityErrors, parsed]; exact reported⟩)
  · exact .inl (.inr ⟨x509, member, by simp [validityErrors, failed]⟩)
  · exact .inr (by simp [anchorErrors, parsed, missing])

/-- **A chain that passes every check but finds no anchor reports exactly the missing anchor**,
whatever its length: the signature and validity passes add nothing, and the anchor pass adds
"No matching trust anchor found". -/
theorem validate_eq_noAnchor (self : X5Chain) (registry : Option b.TrustAnchorRegistry)
    (signed : ∀ i : Fin (self.asRef.length - 1), checkSignature b
      (self.asRef.get ⟨i.val, by omega⟩) (self.asRef.get ⟨i.val + 1, by omega⟩) = .ok ())
    (valid : ∀ x509 ∈ self.asRef, ∃ cert,
      b.certificateFromDer x509.bytes = .ok cert ∧ b.checkValidityPeriod cert = [])
    {cert : b.Certificate}
    (parsed : b.certificateFromDer (self.asRef.getLast self.val.ne_nil).bytes = .ok cert)
    (missing : b.findAnchor cert registry = .ok none) :
    self.validate b registry = [.validationError "No matching trust anchor found"] := by
  rw [self.validate_eq b registry, (signatureChainErrors_eq_nil b _).mpr signed,
    List.flatMap_eq_nil_iff.mpr fun x509 member => (validityErrors_eq_nil b x509).mpr
      (valid x509 member)]
  simp [anchorErrors, parsed, missing]

/-- Two certificates that parse, verify and are in their validity period, with no registry. -/
theorem validate_eq_noAnchor_pair :
    let c : X5Chain := ⟨⟨[⟨[0x30, 0x00]⟩, ⟨[0x30, 0x01, 0x00]⟩], List.cons_ne_nil _ _⟩⟩
    c.validate Backend.sequenceOnly none = [.validationError "No matching trust anchor found"] :=
  validate_eq_noAnchor Backend.sequenceOnly _ none (by decide)
    (by
      simp only [X5Chain.asRef, List.mem_cons, List.not_mem_nil, or_false]
      rintro _ (rfl | rfl) <;> exact ⟨_, rfl, rfl⟩)
    rfl rfl

/-! ### A chain split in two -/

theorem signatureChainErrors_eq_flatMap (xs : List X509) :
    signatureChainErrors b xs =
      (windowsTwo xs).flatMap fun link => errorOf (checkSignature b link.1 link.2) := by
  rw [← signaturePass_eq, funext₂ (signatureStep_eq b), foldl_append_eq, List.nil_append]

/-- The signature pass of two joined chains: each part's own, with the one link across the seam
between them. -/
theorem signatureChainErrors_append {xs ys : List X509} (left : xs ≠ []) (right : ys ≠ []) :
    signatureChainErrors b (xs ++ ys) = signatureChainErrors b xs ++
      errorOf (checkSignature b (xs.getLast left) (ys.head right)) ++ signatureChainErrors b ys := by
  simp only [signatureChainErrors_eq_flatMap, windowsTwo_append left right, List.flatMap_append,
    List.flatMap_cons, List.append_assoc]

/-- **Validation is local to the links of the chain**: split a chain anywhere, and its errors are
the signature errors of the lower part, the error of the one link across the split, the
signature errors of the upper part, the validity errors of both parts in order, and the anchor
errors of the upper part's last certificate. -/
theorem validate_append (lower upper chain : X5Chain)
    (joined : chain.asRef = lower.asRef ++ upper.asRef) (registry : Option b.TrustAnchorRegistry) :
    chain.validate b registry = signatureChainErrors b lower.asRef ++
      errorOf (checkSignature b (lower.asRef.getLast lower.val.ne_nil)
        (upper.asRef.head upper.val.ne_nil)) ++
      signatureChainErrors b upper.asRef ++ lower.asRef.flatMap (validityErrors b) ++
      upper.asRef.flatMap (validityErrors b) ++
      anchorErrors b (upper.asRef.getLast upper.val.ne_nil) registry := by
  obtain ⟨⟨certs, nonEmpty⟩⟩ := chain
  rw [X5Chain.asRef_mk] at joined
  subst joined
  simp only [X5Chain.validate_eq, X5Chain.asRef_mk]
  rw [signatureChainErrors_append b lower.asRef_ne_nil upper.asRef_ne_nil,
    List.getLast_append_of_ne_nil upper.asRef_ne_nil]
  simp only [List.flatMap_append, List.append_assoc]

/-- A two-certificate chain split into its two certificates. -/
theorem validate_append_pair :
    let lower : X5Chain := ⟨⟨[⟨[0x30, 0x00]⟩], List.cons_ne_nil _ _⟩⟩
    let upper : X5Chain := ⟨⟨[⟨[0x30, 0x01, 0x00]⟩], List.cons_ne_nil _ _⟩⟩
    let chain : X5Chain := ⟨⟨[⟨[0x30, 0x00]⟩, ⟨[0x30, 0x01, 0x00]⟩], List.cons_ne_nil _ _⟩⟩
    chain.asRef = lower.asRef ++ upper.asRef ∧
      chain.validate Backend.sequenceOnly none = signatureChainErrors Backend.sequenceOnly lower.asRef ++
        errorOf (checkSignature Backend.sequenceOnly (lower.asRef.getLast lower.val.ne_nil)
          (upper.asRef.head upper.val.ne_nil)) ++
        signatureChainErrors Backend.sequenceOnly upper.asRef ++
        lower.asRef.flatMap (validityErrors Backend.sequenceOnly) ++
        upper.asRef.flatMap (validityErrors Backend.sequenceOnly) ++
        anchorErrors Backend.sequenceOnly (upper.asRef.getLast upper.val.ne_nil) none :=
  by
    intro lower upper chain
    exact ⟨rfl, validate_append Backend.sequenceOnly lower upper chain rfl none⟩

/-! ### No registry -/

/-- Under the contract that `find_anchor` finds nothing without a registry, the anchor pass on
the last certificate reports the missing anchor, or that certificate's parse error. -/
theorem anchorErrors_none (noRegistry : ∀ cert, b.findAnchor cert none = .ok none) (last : X509) :
    anchorErrors b last none = [.validationError "No matching trust anchor found"] ∨
      ∃ e, b.certificateFromDer last.bytes = .error e ∧
        anchorErrors b last none = [.decodingError e] := by
  unfold anchorErrors
  cases b.certificateFromDer last.bytes with
  | ok cert => exact .inl (by simp only [noRegistry])
  | error e => exact .inr ⟨e, rfl, rfl⟩

/-- **Without a registry no chain is trusted**: under the collaborator contract that
`find_anchor` finds no anchor when it is given no registry, the errors of every chain are
non-empty and end with "No matching trust anchor found" or with the parse error of the last
certificate. -/
theorem validate_none_ne_nil (noRegistry : ∀ cert, b.findAnchor cert none = .ok none)
    (self : X5Chain) :
    self.validate b none ≠ [] ∧
      ((self.validate b none).getLast? = some (.validationError "No matching trust anchor found") ∨
        ∃ e, b.certificateFromDer (self.asRef.getLast self.val.ne_nil).bytes = .error e ∧
          (self.validate b none).getLast? = some (.decodingError e)) := by
  rw [self.validate_eq b none]
  rcases anchorErrors_none b noRegistry (self.asRef.getLast self.val.ne_nil) with
    missing | ⟨e, failed, parseError⟩
  · rw [missing]
    exact ⟨by simp, .inl (List.getLast?_concat _)⟩
  · rw [parseError]
    exact ⟨by simp, .inr ⟨e, failed, List.getLast?_concat _⟩⟩

/-- One DER SEQUENCE and a backend whose `find_anchor` finds nothing without a registry. -/
theorem validate_none_ne_nil_single :
    let c : X5Chain := ⟨⟨[⟨[0x30, 0x00]⟩], List.cons_ne_nil _ _⟩⟩
    (∀ cert, Backend.sequenceOnly.findAnchor cert none = .ok none) ∧
      (c.validate Backend.sequenceOnly none ≠ [] ∧
        ((c.validate Backend.sequenceOnly none).getLast? =
            some (.validationError "No matching trust anchor found") ∨
          ∃ e, Backend.sequenceOnly.certificateFromDer (c.asRef.getLast c.val.ne_nil).bytes =
              .error e ∧
            (c.validate Backend.sequenceOnly none).getLast? = some (.decodingError e))) :=
  ⟨fun _ => rfl, validate_none_ne_nil Backend.sequenceOnly (fun _ => rfl) _⟩

end Isomdl.Definitions.X5chain
