/-
**The data model of `definitions::x509::x5chain` and the libraries it calls.**

* `X509` — one certificate as its DER bytes; equality and hashing are those of the bytes.
* `NonEmptyVec`, `X5Chain` — the chain, whose non-emptiness is a field: a chain without a
  certificate cannot be built, and `NonEmptyVec.tryFrom` is the only way from a vector to one.
* `X509Error`, `ReaderError`, `AnyhowError` — the three error types of the module: the validation
  errors, the wire decoder's terminal error and the builder's error.
* `Backend` — the functions of x509_cert, der, ecdsa, pem_rfc7468 and the trust-anchor module that
  the x5chain module calls, each over its own types, and what `format!("{:?}")` takes from `core`
  (`SerdeCbor.Fmt`). Every result of this development that needs no law of these libraries holds
  for every `Backend`.
-/

import Isomdl.Der.Length
import Isomdl.SerdeCbor.Decode
import Isomdl.SerdeCbor.Value

namespace Isomdl.Definitions.X5chain

/-- signature::Error (the ecdsa error), by the text it displays. -/
structure SignatureError where
  msg : String
  deriving DecidableEq, Repr

/-- pem_rfc7468::Error, by the text it displays. -/
structure PemError where
  msg : String
  deriving DecidableEq, Repr

/-- std::io::Error, by the text it displays. -/
structure IoError where
  msg : String
  deriving DecidableEq, Repr

/-- anyhow::Error, by the text it displays: `anyhow!` formats it, and `?` keeps the text of the
error it converts. -/
structure AnyhowError where
  msg : String
  deriving DecidableEq, Repr

/-- Modelled from the spec: x509::error::Error is not among the sources. `ValidationError` is the
variant the code builds by name; the other two stand for the `From` conversions that `?` and
`into` apply to a DER error (a malformed certificate) and to a signature error. -/
inductive X509Error where
  | validationError (msg : String)
  | decodingError (e : Der.Error)
  | signatureError (e : SignatureError)
  deriving DecidableEq, Repr

/-- Modelled from the spec: the error `NonEmptyVec::try_from` returns for an empty vector
(definitions::helpers is not among the sources). -/
inductive NonEmptyVecError where
  | empty
  deriving DecidableEq, Repr

/-- Modelled from the spec: presentation::reader::Error is not among the sources. `MdocAuth` is
the variant the code builds by name; the other two stand for the `From` conversions that `?`
applies to a serde_cbor error and to a `NonEmptyVec` error. -/
inductive ReaderError where
  | mdocAuth (msg : String)
  | cborDecoding (e : SerdeCbor.Error)
  | nonEmptyVec (e : NonEmptyVecError)
  deriving DecidableEq, Repr

/-- X509: a certificate as its DER bytes. `Hash` and `Eq` are derived from the bytes. -/
@[ext] structure X509 where
  bytes : List UInt8
  deriving DecidableEq, Hashable, Repr

/-- Modelled from the spec: definitions::helpers::NonEmptyVec is not among the sources; a vector
that holds at least one element. -/
structure NonEmptyVec (α : Type) where
  toList : List α
  ne_nil : toList ≠ []

/-- Modelled from the spec: `NonEmptyVec::try_from`, which refuses an empty vector. -/
def NonEmptyVec.tryFrom {α : Type} : List α → Except NonEmptyVecError (NonEmptyVec α)
  | [] => .error .empty
  | first :: rest => .ok ⟨first :: rest, List.cons_ne_nil first rest⟩

theorem NonEmptyVec.tryFrom_of_ne_nil {α : Type} {v : List α} (nonEmpty : v ≠ []) :
    NonEmptyVec.tryFrom v = .ok ⟨v, nonEmpty⟩ := by
  cases v with
  | nil => exact absurd rfl nonEmpty
  | cons first rest => rfl

/-- X5Chain(NonEmptyVec<X509>): the certificates, leaf first. -/
structure X5Chain where
  val : NonEmptyVec X509

/-- The functions of x509_cert, der, ecdsa, pem_rfc7468 and `trust_anchor` that the x5chain module
calls, over their own types. -/
structure Backend where
  /-- x509_cert::Certificate -/
  Certificate : Type
  /-- trust_anchor::TrustAnchor -/
  TrustAnchor : Type
  /-- trust_anchor::TrustAnchorRegistry -/
  TrustAnchorRegistry : Type
  /-- The P-256 public key of a certificate, as the ecdsa::VerifyingKey it converts to. -/
  PublicKey : Type
  /-- ecdsa::Signature<NistP256> -/
  Signature : Type
  /-- `Certificate::from_der` -/
  certificateFromDer : List UInt8 → Except Der.Error Certificate
  /-- `Encode` on a certificate: the DER bytes `encode_to_vec` writes. -/
  certificateToDer : Certificate → Except Der.Error (List UInt8)
  /-- `cert.tbs_certificate.to_der()` -/
  tbsCertificateToDer : Certificate → Except Der.Error (List UInt8)
  /-- `cert.tbs_certificate.subject_public_key_info.owned_to_ref().try_into()`, with the text of
  its error. -/
  subjectPublicKeyInfoTryInto : Certificate → Except String PublicKey
  /-- `cert.signature.raw_bytes()` -/
  signatureRawBytes : Certificate → List UInt8
  /-- `ecdsa::Signature::from_der` -/
  signatureFromDer : List UInt8 → Except SignatureError Signature
  /-- `VerifyingKey::verify` -/
  verify : PublicKey → List UInt8 → Signature → Except SignatureError Unit
  /-- `trust_anchor::check_validity_period` -/
  checkValidityPeriod : Certificate → List X509Error
  /-- `trust_anchor::find_anchor`, its error already converted by `into`. -/
  findAnchor : Certificate → Option TrustAnchorRegistry → Except X509Error (Option TrustAnchor)
  /-- `trust_anchor::validate_with_trust_anchor` -/
  validateWithTrustAnchor : X509 → TrustAnchor → List X509Error
  /-- `pem_rfc7468::decode_vec`: the label and the decoded payload. -/
  pemDecodeVec : List UInt8 → Except PemError (String × List UInt8)
  /-- `core::fmt`, for the `{:?}` of a `serde_cbor::Value` -/
  fmt : SerdeCbor.Fmt

/-- A backend whose certificates are their own DER bytes: `from_der` takes a byte string that
starts with the SEQUENCE tag `0x30`, has a length octet and fits a `Length`, and re-encodes it
unchanged; every signature verifies, every certificate is in its validity period and no registry
holds an anchor. It is the smallest backend with the der crate's laws. No witness formats a
float or a character outside ASCII with it, so its `fmt` is a stand-in: `NaN` for every float,
every character outside ASCII printable and none a grapheme extender. -/
def Backend.sequenceOnly : Backend where
  Certificate := List UInt8
  TrustAnchor := Unit
  TrustAnchorRegistry := Unit
  PublicKey := Unit
  Signature := Unit
  certificateFromDer bytes :=
    if bytes.head? = some 0x30 ∧ 2 ≤ bytes.length ∧ bytes.length ≤ Der.maxU32 then .ok bytes
    else .error ⟨"unexpected ASN.1 DER tag"⟩
  certificateToDer cert := .ok cert
  tbsCertificateToDer cert := .ok cert
  subjectPublicKeyInfoTryInto _ := .ok ()
  signatureRawBytes _ := []
  signatureFromDer _ := .ok ()
  verify _ _ _ := .ok ()
  checkValidityPeriod _ := []
  findAnchor _ _ := .ok none
  validateWithTrustAnchor _ _ := []
  pemDecodeVec data := .ok ("CERTIFICATE", data)
  fmt := ⟨fun _ => "NaN", fun _ => true, fun _ => false⟩

end Isomdl.Definitions.X5chain
