/-
**`Builder`: certificates from PEM or DER, re-encoded and pushed in call order.**

`with_der` and `with_pem` parse a certificate, re-encode it and push the result; `build` refuses an
empty builder. The re-encoding is `cert.encode_to_vec(&mut vec![])?.to_der()`: `encode_to_vec`
writes the DER into a fresh buffer that is dropped, and *returns its length*, and it is that
`Length` whose DER is stored. So the stored bytes are the certificate's length octets.

* `pushDer_eq_encoded` — the step lemma, for every backend: a call on a parseable certificate
  whose re-encoding fits a `Length` succeeds and pushes the length octets of that re-encoding;
  `pushDer_eq` — under the spec's canonical re-encoding (`Backend.DerCanonical`), of its DER.
* `foldlM_apply_eq` and `runBuilder_build` — the run lemma: from `X5Chain::builder()`, calls on
  parseable certificates all succeed, `build` fails iff there was no call, and otherwise the chain
  holds one entry per call, in call order.
* `withDer_stores_length` — the stored bytes never parse back to the certificate: parsing them
  would make the certificate's DER equal to its own length octets, which holds of no DER value.
* `runBuilder_eq_error` — the run lemma for failures, for every backend: a run fails exactly at
  its first failing call, with that call's error, since whether a call fails never depends on the
  builder it is made on (`BuilderCall.apply_eq_error_iff`).
* `Builder.reachable_certs_length_le` — the invariant over every reachable builder
  (`Builder.Reachable`: any order of the four methods, the file variants included), for every
  backend: each entry is the DER of a `der::Length`, one lemma per method
  (`Builder.StoresLengths.withDer` ...), so no chain `build` returns holds more than five bytes per
  certificate.
-/

import Isomdl.Definitions.X509.Wire

namespace Isomdl.Definitions.X5chain

/-- `Builder`: the certificates added so far. -/
structure Builder where
  certs : List X509

/-- `X5Chain::builder`: `Builder::default()`. -/
def X5Chain.builder : Builder := ⟨[]⟩

variable (b : Backend)

/-- `cert.encode_to_vec(&mut vec![])`: the DER is written into a fresh buffer and its length is
returned. -/
def encodeToVec (cert : b.Certificate) : Except Der.Error Der.Length := do
  let bytes ← b.certificateToDer cert
  Der.Length.tryFrom bytes.length

/-- What `with_der` and `with_pem` share once they hold DER bytes: parse a certificate, with
`context` in front of a parse error, re-encode it and push it. The `map_err` on `to_der` is not
modelled: a `Length` always encodes. -/
def Builder.pushDer (self : Builder) (context : String) (der : List UInt8) :
    Except AnyhowError Builder := do
  let cert ← (b.certificateFromDer der).mapError fun e => ⟨context ++ e.msg⟩
  let x509 : X509 := ⟨(← (encodeToVec b cert).mapError fun e => ⟨e.msg⟩).toDer⟩
  pure ⟨self.certs ++ [x509]⟩

/-- `Builder::with_der`. -/
def Builder.withDer (self : Builder) (data : List UInt8) : Except AnyhowError Builder :=
  self.pushDer b "unable to parse certificate from der encoding: " data

/-- `Builder::with_pem`: the PEM document is decoded first. -/
def Builder.withPem (self : Builder) (data : List UInt8) : Except AnyhowError Builder := do
  let bytes := (← (b.pemDecodeVec data).mapError fun e => ⟨"unable to parse pem: " ++ e.msg⟩).2
  self.pushDer b "unable to parse certificate from der: " bytes

/-- `Builder::with_der_from_file`: the file is what `read_to_end` yields. -/
def Builder.withDerFromFile (self : Builder) (f : Except IoError (List UInt8)) :
    Except AnyhowError Builder := do
  let data ← f.mapError fun e => ⟨e.msg⟩
  self.withDer b data

/-- `Builder::with_pem_from_file`: the file is what `read_to_end` yields. -/
def Builder.withPemFromFile (self : Builder) (f : Except IoError (List UInt8)) :
    Except AnyhowError Builder := do
  let data ← f.mapError fun e => ⟨e.msg⟩
  self.withPem b data

/-- `Builder::build`. -/
def Builder.build (self : Builder) : Except AnyhowError X5Chain := do
  let certs ← (NonEmptyVec.tryFrom self.certs).mapError fun _ =>
    ⟨"at least one certificate must be given to the builder"⟩
  pure ⟨certs⟩

/-! ### The der crate's laws -/

/-- The laws of the certificate's encoding that the spec states: re-encoding is canonical, so a
parsed certificate encodes back to exactly the bytes it was parsed from; a DER value has at least
a tag and a length octet; and the reader takes no input longer than `Length::MAX`. The first is
stronger than what der 0.7 guarantees: its reader also accepts a `DEFAULT` field encoded
explicitly, which re-encoding drops, so such a certificate re-encodes shorter. `pushDer_eq_encoded`
holds without these laws. -/
structure Backend.DerCanonical : Prop where
  toDer_of_fromDer : ∀ {der : List UInt8} {cert : b.Certificate},
    b.certificateFromDer der = .ok cert → b.certificateToDer cert = .ok der
  two_le_length : ∀ {der : List UInt8} {cert : b.Certificate},
    b.certificateFromDer der = .ok cert → 2 ≤ der.length
  length_le_max : ∀ {der : List UInt8} {cert : b.Certificate},
    b.certificateFromDer der = .ok cert → der.length ≤ Der.maxU32

theorem Backend.sequenceOnly_derCanonical : Backend.sequenceOnly.DerCanonical where
  toDer_of_fromDer parsed := by
    simp only [Backend.sequenceOnly] at parsed ⊢
    split_ifs at parsed
    cases parsed
    rfl
  two_le_length parsed := by
    simp only [Backend.sequenceOnly] at parsed
    split_ifs at parsed with sequence
    exact sequence.2.1
  length_le_max parsed := by
    simp only [Backend.sequenceOnly] at parsed
    split_ifs at parsed with sequence
    exact sequence.2.2

/-! ### One call -/

variable {b}

/-- **The step, for every backend**: on a parseable certificate whose re-encoding fits a
`Length`, the shared part of both calls pushes the length octets of that re-encoding. -/
theorem Builder.pushDer_eq_encoded (self : Builder) (context : String) {der encoded : List UInt8}
    {cert : b.Certificate} (parsed : b.certificateFromDer der = .ok cert)
    (reencoded : b.certificateToDer cert = .ok encoded) (fits : encoded.length ≤ Der.maxU32) :
    self.pushDer b context der =
      .ok ⟨self.certs ++ [⟨(⟨encoded.length, fits⟩ : Der.Length).toDer⟩]⟩ := by
  simp only [Builder.pushDer, parsed, mapError_ok, ok_bind, encodeToVec, reencoded,
    Der.Length.tryFrom_of_le fits]
  rfl

/-- The step under the canonical re-encoding: the length octets of the certificate's DER. -/
theorem Builder.pushDer_eq (canonical : b.DerCanonical) (self : Builder) (context : String)
    {der : List UInt8} {cert : b.Certificate} (parsed : b.certificateFromDer der = .ok cert) :
    self.pushDer b context der =
      .ok ⟨self.certs ++
        [⟨(⟨der.length, canonical.length_le_max parsed⟩ : Der.Length).toDer⟩]⟩ :=
  self.pushDer_eq_encoded context parsed (canonical.toDer_of_fromDer parsed) _

/-- **`with_der` stores the length octets of the certificate, which do not parse back to it.** -/
theorem withDer_stores_length (canonical : b.DerCanonical) (self : Builder) {data : List UInt8}
    {cert : b.Certificate} (parsed : b.certificateFromDer data = .ok cert) :
    ∃ length : Der.Length, length.val = data.length ∧
      self.withDer b data = .ok ⟨self.certs ++ [⟨length.toDer⟩]⟩ ∧
      b.certificateFromDer length.toDer ≠ .ok cert := by
  refine ⟨⟨data.length, canonical.length_le_max parsed⟩, rfl, self.pushDer_eq canonical _ parsed,
    ?_⟩
  intro reparsed
  have same : Der.Length.toDer ⟨data.length, canonical.length_le_max parsed⟩ = data :=
    Except.ok.inj ((canonical.toDer_of_fromDer reparsed).symm.trans
      (canonical.toDer_of_fromDer parsed))
  have one := Der.Length.toDer_length_eq_val (congrArg List.length same)
  have two := canonical.two_le_length parsed
  simp only at one
  omega

/-- The DER SEQUENCE `30 03 02 01 01` given to `with_der` is stored as its length octet `05`. -/
theorem withDer_stores_length_sequence :
    Backend.sequenceOnly.DerCanonical ∧
      Backend.sequenceOnly.certificateFromDer [0x30, 0x03, 0x02, 0x01, 0x01] =
        .ok [0x30, 0x03, 0x02, 0x01, 0x01] ∧
      ∃ length : Der.Length, length.val = 5 ∧
        X5Chain.builder.withDer Backend.sequenceOnly [0x30, 0x03, 0x02, 0x01, 0x01] =
          .ok ⟨[] ++ [⟨length.toDer⟩]⟩ ∧
        Backend.sequenceOnly.certificateFromDer length.toDer ≠ .ok [0x30, 0x03, 0x02, 0x01, 0x01] :=
  ⟨Backend.sequenceOnly_derCanonical, rfl,
    @withDer_stores_length Backend.sequenceOnly Backend.sequenceOnly_derCanonical X5Chain.builder
      [0x30, 0x03, 0x02, 0x01, 0x01] [0x30, 0x03, 0x02, 0x01, 0x01] rfl⟩

/-! ### A run of calls -/

/-- One call on the builder, with its input. -/
inductive BuilderCall where
  | withDer (data : List UInt8)
  | withPem (data : List UInt8)

/-- A call made on a builder. -/
def BuilderCall.apply (b : Backend) (builder : Builder) : BuilderCall → Except AnyhowError Builder
  | .withDer data => builder.withDer b data
  | .withPem data => builder.withPem b data

/-- The calls, made in order on `X5Chain::builder()`. -/
def runBuilder (b : Backend) (calls : List BuilderCall) : Except AnyhowError Builder :=
  calls.foldlM (BuilderCall.apply b) X5Chain.builder

/-- A call whose certificate parses from `der`: `data` itself for `with_der`, the decoded payload
for `with_pem`. -/
def BuilderCall.Parses (b : Backend) (call : BuilderCall) (der : List UInt8) : Prop :=
  (∃ cert, b.certificateFromDer der = .ok cert) ∧
    match call with
    | .withDer data => der = data
    | .withPem data => ∃ label, b.pemDecodeVec data = .ok (label, der)

/-- A stored certificate holds the length octets of `der`. -/
def StoresLengthOf (x509 : X509) (der : List UInt8) : Prop :=
  ∃ length : Der.Length, length.val = der.length ∧ x509.bytes = length.toDer

theorem BuilderCall.apply_eq (canonical : b.DerCanonical) (builder : Builder) {call : BuilderCall}
    {der : List UInt8} (parses : call.Parses b der) :
    ∃ x509, StoresLengthOf x509 der ∧ call.apply b builder = .ok ⟨builder.certs ++ [x509]⟩ := by
  obtain ⟨⟨cert, parsed⟩, source⟩ := parses
  refine ⟨_, ⟨⟨der.length, canonical.length_le_max parsed⟩, rfl, rfl⟩, ?_⟩
  cases call with
  | withDer data =>
    cases source
    exact builder.pushDer_eq canonical _ parsed
  | withPem data =>
    obtain ⟨label, decoded⟩ := source
    simp only [BuilderCall.apply, Builder.withPem, decoded, mapError_ok, ok_bind]
    exact builder.pushDer_eq canonical _ parsed

theorem foldlM_apply_eq (canonical : b.DerCanonical) {calls : List BuilderCall}
    {ders : List (List UInt8)} (parse : List.Forall₂ (BuilderCall.Parses b) calls ders)
    (builder : Builder) :
    ∃ stored, List.Forall₂ StoresLengthOf stored ders ∧
      calls.foldlM (BuilderCall.apply b) builder = .ok ⟨builder.certs ++ stored⟩ := by
  induction parse generalizing builder with
  | nil => exact ⟨[], .nil, by simp⟩
  | cons parses _ ih =>
    obtain ⟨x509, stores, applied⟩ := BuilderCall.apply_eq canonical builder parses
    obtain ⟨stored, storesRest, run⟩ := ih ⟨builder.certs ++ [x509]⟩
    refine ⟨x509 :: stored, .cons stores storesRest, ?_⟩
    rw [List.foldlM_cons, applied, ok_bind, run]
    simp

/-- **The run**: calls on parseable certificates all succeed and store, in call order, one entry
per call, the length octets of its DER; `build` then fails exactly when there was no call, and
otherwise returns the chain of these entries. -/
theorem runBuilder_build (canonical : b.DerCanonical) {calls : List BuilderCall}
    {ders : List (List UInt8)} (parse : List.Forall₂ (BuilderCall.Parses b) calls ders) :
    ∃ builder, runBuilder b calls = .ok builder ∧
      List.Forall₂ StoresLengthOf builder.certs ders ∧
      (calls = [] → ∃ e, builder.build = .error e) ∧
      (calls ≠ [] → ∃ chain, builder.build = .ok chain ∧ chain.asRef = builder.certs) := by
  obtain ⟨stored, stores, run⟩ := foldlM_apply_eq canonical parse X5Chain.builder
  refine ⟨_, run, stores, ?_, ?_⟩
  · rintro rfl
    cases List.forall₂_nil_left_iff.mp parse
    cases List.forall₂_nil_right_iff.mp stores
    exact ⟨_, rfl⟩
  · intro called
    have nonEmpty : stored ≠ [] := by
      rintro rfl
      exact called (List.forall₂_nil_right_iff.mp
        (List.forall₂_nil_left_iff.mp stores ▸ parse))
    refine ⟨⟨⟨stored, nonEmpty⟩⟩, ?_, rfl⟩
    simp only [Builder.build, X5Chain.builder, List.nil_append,
      NonEmptyVec.tryFrom_of_ne_nil nonEmpty, mapError_ok, ok_bind]
    rfl

/-- A DER call and a PEM call on the same certificate. -/
theorem runBuilder_build_sequence :
    Backend.sequenceOnly.DerCanonical ∧
      List.Forall₂ (BuilderCall.Parses Backend.sequenceOnly)
        [.withDer [0x30, 0x00], .withPem [0x30, 0x00]] [[0x30, 0x00], [0x30, 0x00]] ∧
      ∃ builder, runBuilder Backend.sequenceOnly [.withDer [0x30, 0x00], .withPem [0x30, 0x00]] =
          .ok builder ∧ List.Forall₂ StoresLengthOf builder.certs [[0x30, 0x00], [0x30, 0x00]] ∧
        ([.withDer [0x30, 0x00], .withPem [0x30, 0x00]] = ([] : List BuilderCall) →
          ∃ e, builder.build = .error e) ∧
        ([.withDer [0x30, 0x00], .withPem [0x30, 0x00]] ≠ ([] : List BuilderCall) →
          ∃ chain, builder.build = .ok chain ∧ chain.asRef = builder.certs) :=
  have parse : List.Forall₂ (BuilderCall.Parses Backend.sequenceOnly)
      [.withDer [0x30, 0x00], .withPem [0x30, 0x00]] [[0x30, 0x00], [0x30, 0x00]] :=
    .cons ⟨⟨_, rfl⟩, rfl⟩ (.cons ⟨⟨_, rfl⟩, _, rfl⟩ .nil)
  ⟨Backend.sequenceOnly_derCanonical, parse,
    runBuilder_build Backend.sequenceOnly_derCanonical parse⟩

/-! ### A run that fails -/

/-- Whether a call fails does not depend on the builder it is made on: the builder is only read
once the certificate is parsed and encoded. -/
theorem Builder.pushDer_eq_error_iff (self other : Builder) (context : String) (der : List UInt8)
    (e : AnyhowError) :
    self.pushDer b context der = .error e ↔ other.pushDer b context der = .error e := by
  unfold Builder.pushDer
  cases (b.certificateFromDer der).mapError fun e => (⟨context ++ e.msg⟩ : AnyhowError) with
  | error => exact Iff.rfl
  | ok cert =>
    simp only [ok_bind, bind, Except.bind, pure, Except.pure]
    split <;> simp

theorem BuilderCall.apply_eq_error_iff (call : BuilderCall) (builder other : Builder)
    (e : AnyhowError) : call.apply b builder = .error e ↔ call.apply b other = .error e := by
  cases call with
  | withDer data => exact builder.pushDer_eq_error_iff other _ data e
  | withPem data =>
    simp only [BuilderCall.apply, Builder.withPem]
    cases (b.pemDecodeVec data).mapError
        fun e => (⟨"unable to parse pem: " ++ e.msg⟩ : AnyhowError) with
    | error => exact Iff.rfl
    | ok pem => exact builder.pushDer_eq_error_iff other _ pem.2 e

theorem BuilderCall.exists_apply_eq_ok_iff (call : BuilderCall) (builder other : Builder) :
    (∃ next, call.apply b builder = .ok next) ↔ ∃ next, call.apply b other = .ok next := by
  have okIff (x : Except AnyhowError Builder) : (∃ next, x = .ok next) ↔ ∀ e, x ≠ .error e := by
    cases x <;> simp
  simp only [okIff, ne_eq, call.apply_eq_error_iff builder other]

/-- The run lemma for failures, from any builder. -/
theorem foldlM_apply_eq_error (calls : List BuilderCall) (builder : Builder) (e : AnyhowError) :
    calls.foldlM (BuilderCall.apply b) builder = .error e ↔
      ∃ done call rest, calls = done ++ call :: rest ∧
        (∀ c ∈ done, ∃ next, c.apply b builder = .ok next) ∧ call.apply b builder = .error e := by
  induction calls generalizing builder with
  | nil => simp [List.nil_eq_append_iff, pure, Except.pure]
  | cons c calls ih =>
    rw [List.foldlM_cons]
    cases applied : c.apply b builder with
    | error e' =>
      refine ⟨fun failed => ⟨[], c, calls, rfl, by simp, applied.trans failed⟩, ?_⟩
      rintro ⟨_ | ⟨d, done⟩, call, rest, split, succeeded, failed⟩
      · obtain ⟨rfl, rfl⟩ := List.cons_eq_cons.mp split
        exact applied.symm.trans failed
      · obtain ⟨rfl, -⟩ := List.cons_eq_cons.mp split
        obtain ⟨next, succeeds⟩ := succeeded c (List.mem_cons_self c done)
        cases applied.symm.trans succeeds
    | ok next =>
      rw [ok_bind, ih next]
      simp only [BuilderCall.exists_apply_eq_ok_iff _ next builder,
        BuilderCall.apply_eq_error_iff _ next builder]
      constructor
      · rintro ⟨done, call, rest, rfl, succeeded, failed⟩
        exact ⟨c :: done, call, rest, rfl, List.forall_mem_cons.mpr ⟨⟨next, applied⟩, succeeded⟩,
          failed⟩
      · rintro ⟨_ | ⟨d, done⟩, call, rest, split, succeeded, failed⟩
        · obtain ⟨rfl, -⟩ := List.cons_eq_cons.mp split
          cases applied.symm.trans failed
        · obtain ⟨rfl, rfl⟩ := List.cons_eq_cons.mp split
          exact ⟨done, call, rest, rfl,
            fun x member => succeeded x (List.mem_cons_of_mem _ member), failed⟩

/-- **A run of calls fails exactly at its first failing call, with that call's error**: every
call before it succeeds, and whether a call succeeds does not depend on the certificates added
before it. -/
theorem runBuilder_eq_error (calls : List BuilderCall) (e : AnyhowError) :
    runBuilder b calls = .error e ↔
      ∃ done call rest, calls = done ++ call :: rest ∧
        (∀ c ∈ done, ∃ next, c.apply b X5Chain.builder = .ok next) ∧
        call.apply b X5Chain.builder = .error e :=
  foldlM_apply_eq_error calls X5Chain.builder e

/-! ### Every reachable builder -/

/-- The builders a program can hold: `X5Chain::builder()`, then any number of calls of the four
methods that returned `Ok`, in any order. -/
inductive Builder.Reachable (b : Backend) : Builder → Prop
  | builder : Builder.Reachable b X5Chain.builder
  | withDer {self next : Builder} (data : List UInt8) :
      Builder.Reachable b self → self.withDer b data = .ok next → Builder.Reachable b next
  | withPem {self next : Builder} (data : List UInt8) :
      Builder.Reachable b self → self.withPem b data = .ok next → Builder.Reachable b next
  | withDerFromFile {self next : Builder} (f : Except IoError (List UInt8)) :
      Builder.Reachable b self → self.withDerFromFile b f = .ok next → Builder.Reachable b next
  | withPemFromFile {self next : Builder} (f : Except IoError (List UInt8)) :
      Builder.Reachable b self → self.withPemFromFile b f = .ok next → Builder.Reachable b next

/-- Every entry the builder holds is the DER of a `der::Length`. -/
def Builder.StoresLengths (self : Builder) : Prop :=
  ∀ x509 ∈ self.certs, ∃ length : Der.Length, x509.bytes = length.toDer

section StoresLengths

variable {self next : Builder} (kept : self.StoresLengths)
include kept

theorem Builder.StoresLengths.pushDer {context : String} {der : List UInt8}
    (pushed : self.pushDer b context der = .ok next) : next.StoresLengths := by
  obtain ⟨cert, -, pushed⟩ := bind_eq_ok.mp pushed
  obtain ⟨length, -, pushed⟩ := bind_eq_ok.mp pushed
  cases pure_eq_ok.mp pushed
  intro x509 member
  rcases List.mem_append.mp member with old | new
  · exact kept x509 old
  · exact ⟨length, by rw [List.mem_singleton.mp new]⟩

theorem Builder.StoresLengths.withDer {data : List UInt8}
    (called : self.withDer b data = .ok next) : next.StoresLengths :=
  kept.pushDer called

theorem Builder.StoresLengths.withPem {data : List UInt8}
    (called : self.withPem b data = .ok next) : next.StoresLengths := by
  obtain ⟨_, -, pushed⟩ := bind_eq_ok.mp called
  exact kept.pushDer pushed

theorem Builder.StoresLengths.withDerFromFile {f : Except IoError (List UInt8)}
    (called : self.withDerFromFile b f = .ok next) : next.StoresLengths := by
  obtain ⟨_, -, called⟩ := bind_eq_ok.mp called
  exact kept.withDer called

theorem Builder.StoresLengths.withPemFromFile {f : Except IoError (List UInt8)}
    (called : self.withPemFromFile b f = .ok next) : next.StoresLengths := by
  obtain ⟨_, -, called⟩ := bind_eq_ok.mp called
  exact kept.withPem called

end StoresLengths

theorem Builder.Reachable.storesLengths {self : Builder} (reachable : self.Reachable b) :
    self.StoresLengths := by
  induction reachable with
  | builder => exact fun _ member => nomatch member
  | withDer _ _ called kept => exact kept.withDer called
  | withPem _ _ called kept => exact kept.withPem called
  | withDerFromFile _ _ called kept => exact kept.withDerFromFile called
  | withPemFromFile _ _ called kept => exact kept.withPemFromFile called

theorem Builder.build_asRef {self : Builder} {chain : X5Chain} (built : self.build = .ok chain) :
    chain.asRef = self.certs := by
  obtain ⟨certs, tried, built⟩ := bind_eq_ok.mp built
  cases pure_eq_ok.mp built
  cases nonEmpty : self.certs with
  | nil => simp [nonEmpty, NonEmptyVec.tryFrom, Except.mapError] at tried
  | cons first rest =>
    rw [nonEmpty, NonEmptyVec.tryFrom, mapError_ok] at tried
    cases tried
    rfl

/-- **Every builder the program can reach stores only DER lengths**, for every backend: whatever
methods returned `Ok` since `X5Chain::builder()`, each entry is the DER of a `der::Length`, so
every chain `build` returns holds no certificate longer than five bytes. -/
theorem Builder.reachable_certs_length_le {self : Builder} (reachable : self.Reachable b) :
    self.StoresLengths ∧
      ∀ chain, self.build = .ok chain → ∀ x509 ∈ chain.asRef, x509.bytes.length ≤ 5 := by
  have kept := reachable.storesLengths
  refine ⟨kept, fun chain built x509 member => ?_⟩
  rw [Builder.build_asRef built] at member
  obtain ⟨length, stored⟩ := kept x509 member
  rw [stored]
  exact length.toDer_length_le

/-- One `with_der` call on the DER SEQUENCE `30 00`. -/
theorem Builder.reachable_certs_length_le_withDer :
    let next : Builder := ⟨[⟨[0x02]⟩]⟩
    next.Reachable Backend.sequenceOnly ∧
      (next.StoresLengths ∧
        ∀ chain, next.build = .ok chain → ∀ x509 ∈ chain.asRef, x509.bytes.length ≤ 5) :=
  have reachable : Builder.Reachable Backend.sequenceOnly ⟨[⟨[0x02]⟩]⟩ :=
    .withDer [0x30, 0x00] .builder rfl
  ⟨reachable, Builder.reachable_certs_length_le reachable⟩

end Isomdl.Definitions.X5chain
