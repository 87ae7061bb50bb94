/-
**der's `Length` and its own DER encoding.**

The chain builder calls `encode_to_vec` on a certificate and keeps its *result*, a `Length`, and
then DER-encodes that length with `to_der`. This module models the two pieces of the der crate
that path goes through:

* `Length` — at most `MAX_U32` (256 MiB), the bound carried as a field, so that `Length.toDer`
  never reaches the overflow branch of `encoded_len`;
* `Length.toDer` — the definite-length octets of X.690 §8.1.3: one octet below `0x80`, else
  `0x81` to `0x84` followed by the big-endian octets with leading zeros stripped.

`toDer_length_le` bounds the encoding by five octets, and `toDer_length_eq_val` shows that the
encoding of a length is itself that long only for the length `1`.
-/

import Isomdl.Prelude

namespace Isomdl.Der

/-- der::Error, by the text it displays. -/
structure Error where
  msg : String
  deriving DecidableEq, Repr

/-- `ErrorKind::Overflow`. -/
def Error.overflow : Error := ⟨"integer overflow"⟩

/-- `MAX_U32`: the largest length the der crate represents. -/
def maxU32 : Nat := 0xfffffff

/-- der::Length. -/
structure Length where
  val : Nat
  le_max : val ≤ maxU32

/-- `Length::try_from(usize)`. -/
def Length.tryFrom (len : Nat) : Except Error Length :=
  if bounded : len ≤ maxU32 then .ok ⟨len, bounded⟩ else .error .overflow

/-- `Encode::to_der` for a `Length`: `initial_octet`, then the big-endian octets of the value with
its leading zeros stripped. -/
def Length.toDer : Length → List UInt8
  | ⟨n, _⟩ =>
    if n < 0x80 then [n.toUInt8]
    else if n < 0x100 then [0x81, n.toUInt8]
    else if n < 0x10000 then [0x82, (n / 0x100).toUInt8, n.toUInt8]
    else if n < 0x1000000 then [0x83, (n / 0x10000).toUInt8, (n / 0x100).toUInt8, n.toUInt8]
    else [0x84, (n / 0x1000000).toUInt8, (n / 0x10000).toUInt8, (n / 0x100).toUInt8, n.toUInt8]

example : (Length.mk 500 (by decide)).toDer = [0x82, 0x01, 0xf4] := by decide

theorem Length.tryFrom_of_le {len : Nat} (bounded : len ≤ maxU32) :
    Length.tryFrom len = .ok ⟨len, bounded⟩ :=
  dif_pos bounded

theorem Length.toDer_length_le (length : Length) : length.toDer.length ≤ 5 := by
  obtain ⟨n, _⟩ := length
  simp only [Length.toDer]
  split_ifs <;> simp

/-- **A length is as long as its own encoding only when it is `1`.** -/
theorem Length.toDer_length_eq_val {length : Length} (same : length.toDer.length = length.val) :
    length.val = 1 := by
  obtain ⟨n, _⟩ := length
  simp only [Length.toDer] at same ⊢
  split_ifs at same <;> simp only [List.length_cons, List.length_nil] at same <;> omega

end Isomdl.Der
