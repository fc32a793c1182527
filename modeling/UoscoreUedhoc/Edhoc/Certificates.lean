import UoscoreUedhoc.Edhoc.Credentials
import UoscoreUedhoc.Edhoc.CopyBounds

/-!
# Certificates

`cert.c` and the generated decoder of C509 certificates.  X.509 certificates
are parsed by the library; without it `cert_x509_verify` does nothing.

`ca_pk_get` compares as many bytes as the name in the array has with what is
stored from the issuer's name on, which is the rest of the certificate and what
is behind it in memory.
-/

namespace UoscoreUedhoc.Edhoc

open UoscoreUedhoc

/-! ## C509 certificates -/

/-- `struct cert`. -/
structure C509Cert where
  type : Int32
  serialNumber : Int32
  issuer : ByteArrayView
  validityNotBefore : Int32
  validityNotAfter : Int32
  subject : ByteArrayView
  subjectPublicKeyAlgorithm : Int32
  pk : ByteArrayView
  extensions : Int32
  issuerSignatureAlgorithm : Int32
  signature : ByteArrayView
  deriving DecidableEq, Repr

/-- `decode_cert`. -/
def C509Cert.decode (zcbor : ZcborDecoder) : Decoding C509Cert :=
  Decoding.andThen (Decoding.item zcbor.int32) fun type =>
    Decoding.andThen (Decoding.item zcbor.int32) fun serialNumber =>
    Decoding.andThen (Decoding.string zcbor.tstr) fun issuer =>
    Decoding.andThen (Decoding.item zcbor.int32) fun validityNotBefore =>
    Decoding.andThen (Decoding.item zcbor.int32) fun validityNotAfter =>
    Decoding.andThen (Decoding.string zcbor.bstr) fun subject =>
    Decoding.andThen (Decoding.item zcbor.int32)
      fun subjectPublicKeyAlgorithm =>
    Decoding.andThen (Decoding.string zcbor.bstr) fun pk =>
    Decoding.andThen (Decoding.item zcbor.int32) fun extensions =>
    Decoding.andThen (Decoding.item zcbor.int32)
      fun issuerSignatureAlgorithm =>
    Decoding.asMember
      (C509Cert.mk type serialNumber issuer validityNotBefore
        validityNotAfter subject subjectPublicKeyAlgorithm pk extensions
        issuerSignatureAlgorithm)
      (Decoding.string zcbor.bstr)

/-- The algorithm with this number in `enum sign_alg`. -/
def signAlgOfNumber (number : Int32) : Option SignAlg :=
  if number = -7 then some .es256
  else if number = -8 then some .edDsa
  else none

/-! ## X.509 certificates -/

/-- What `cert_x509_verify` finds in a parsed certificate: the common name of
the issuer, whether the signature is an ECDSA signature, whether its hash
algorithm is known, the signed part, the two numbers of the signature and the
key. -/
structure X509Cert where
  issuerId : Option ByteArrayView
  isEcdsa : Bool
  hashKnown : Bool
  tbs : Bytes
  signature : Bytes
  pk : Bytes
  deriving DecidableEq, Repr

/-- The parser of the library, if the library is there. -/
abbrev X509Parser := Option (Bytes → Option X509Cert)

/-! ## Verification -/

/-- The first bytes from a place in the certificate on, with the rest of the
certificate and what is stored behind it. -/
def memoryFrom (rest : Bytes) (behind : Nat → UInt8) (length : Nat) : Bytes :=
  (rest ++ (List.range length).map behind).take length

/-- `memcmp` of the name in an entry with as many bytes of the issuer's. -/
def matchesIssuer (behind : Nat → UInt8) (issuer : ByteArrayView)
    (other : OtherPartyCred) : Bool :=
  decide (memoryFrom issuer.ptr behind other.ca.length = other.ca)

/-- `ca_pk_get`. -/
def caPkGet (behind : Nat → UInt8) (issuer : ByteArrayView) :
    List OtherPartyCred → Outcome Bytes
  | [] => fail .noSuchCa
  | other :: others =>
      if matchesIssuer behind issuer other then
        .ok other.caPk
      else
        caPkGet behind issuer others

section

variable (platform : EdhocPlatform) (parser : X509Parser)
  (behind : Nat → UInt8)

/-- `verify` of an algorithm given as a number. -/
def verifyNumbered (number : Int32) (pk message signature : Bytes) :
    Outcome Bool :=
  match signAlgOfNumber number with
  | some alg => tryExpect (platform.crypto.verify alg pk message signature)
  | none => fail .cryptoOperationNotImplemented

/-- The bytes of the certificate before its signature, which is taken to have a
head of two bytes. -/
def C509Cert.signedPart (c : C509Cert) (cert : Bytes) : Bytes :=
  cert.take (uint32 (cert.length - 2 - c.signature.len))

/-- `cert_c509_verify`. -/
def certC509Verify (cert : Bytes) (credArray : List OtherPartyCred)
    (pkLen : Nat) : Outcome (Bytes × Bool) := do
  let c ←
    tryExpect (Decoding.decode (C509Cert.decode platform.zcbor) 11 cert)
  let rootPk ← caPkGet behind c.issuer credArray
  let verified ←
    verifyNumbered platform c.issuerSignatureAlgorithm rootPk
      (c.signedPart cert) c.signature.content
  let pk ← memcpyS pkLen c.pk.ptr c.pk.len
  .ok (pk, verified)

/-- `cert_x509_verify`. -/
def certX509Verify (cert : Bytes) (credArray : List OtherPartyCred)
    (pkLen : Nat) : Outcome (Bytes × Bool) :=
  match parser with
  | some parse => do
      let c ← tryExpect (parse cert)
      if c.isEcdsa && c.hashKnown then do
        let issuer ← orUndefined c.issuerId
        let rootPk ← caPkGet behind issuer credArray
        let verified ←
          tryExpect
            (platform.crypto.verify .es256 rootPk c.tbs c.signature)
        let pk ← memcpyS pkLen c.pk c.pk.length
        .ok (pk, verified)
      else
        fail .unsupportedSignatureAlgorithm
  | none => .ok ([], false)

/-- The platform with the two functions of `cert.c`. -/
def EdhocPlatform.withCertificates : EdhocPlatform where
  crypto :=
    { platform.crypto with
      certX509Verify := fun cert credArray pkLen =>
        (certX509Verify platform parser behind cert credArray pkLen).toOption
      certC509Verify := fun cert credArray pkLen =>
        (certC509Verify platform behind cert credArray pkLen).toOption }
  cbor := platform.cbor
  zcbor := platform.zcbor

end

/-! ## The anchor -/

/-- `ca_pk_get` takes the first entry whose name the stored bytes begin
with. -/
theorem caPkGet_eq_ok {behind : Nat → UInt8} {issuer : ByteArrayView}
    {credArray : List OtherPartyCred} {rootPk : Bytes} :
    caPkGet behind issuer credArray = .ok rootPk ↔
      ∃ other, credArray.find? (matchesIssuer behind issuer) = some other ∧
        other.caPk = rootPk := by
  induction credArray with
  | nil =>
      simp [caPkGet, fail]
  | cons head others inductionHypothesis =>
      rw [caPkGet, List.find?_cons]
      by_cases isMatch : matchesIssuer behind issuer head = true
      · simp [isMatch]
      · have noMatch : matchesIssuer behind issuer head = false :=
          Bool.eq_false_iff.mpr isMatch
        simp only [noMatch, Bool.false_eq_true, if_false]
        exact inductionHypothesis

/-! ## Signed certificates -/

/-- What the verification of either kind of certificate uses. -/
structure SignedCert where
  issuer : ByteArrayView
  alg : SignAlg
  tbs : Bytes
  signature : Bytes
  pk : Bytes
  deriving DecidableEq, Repr

/-- The signature of the certificate is valid under this key. -/
def SignedCert.VerifiesUnder (crypto : EdhocWrapper) (c : SignedCert)
    (rootPk : Bytes) : Prop :=
  crypto.verify c.alg rootPk c.tbs c.signature = some true

/-- A C509 certificate with a known algorithm. -/
def C509Cert.signed (cert : Bytes) (c : C509Cert) : Option SignedCert :=
  (signAlgOfNumber c.issuerSignatureAlgorithm).map fun alg =>
    ⟨c.issuer, alg, c.signedPart cert, c.signature.content, c.pk.content⟩

/-- An X.509 certificate with a known algorithm and the name of its issuer. -/
def X509Cert.signed (c : X509Cert) : Option SignedCert :=
  if c.isEcdsa && c.hashKnown then
    c.issuerId.map fun issuer => ⟨issuer, .es256, c.tbs, c.signature, c.pk⟩
  else
    none

/-- What the parser for this label finds in a certificate. -/
def parsedCert (zcbor : ZcborDecoder) (parser : X509Parser)
    (label : CertLabel) (cert : Bytes) : Option SignedCert :=
  match label with
  | .x5bag | .x5chain =>
      parser.bind fun parse => (parse cert).bind X509Cert.signed
  | .c5b | .c5c =>
      (Decoding.decode (C509Cert.decode zcbor) 11 cert).bind
        (C509Cert.signed cert)

section

variable {platform : EdhocPlatform} {parser : X509Parser}
  {behind : Nat → UInt8} {cert key : Bytes}
  {credArray : List OtherPartyCred} {pkLen : Nat}

/-- The certificate is verified under the key of an entry, and its own key fits
into the buffer. -/
def Verified (platform : EdhocPlatform) (behind : Nat → UInt8)
    (credArray : List OtherPartyCred) (pkLen : Nat) (c : SignedCert)
    (key : Bytes) : Prop :=
  ∃ other, credArray.find? (matchesIssuer behind c.issuer) = some other ∧
    c.VerifiesUnder platform.crypto other.caPk ∧ c.pk.length ≤ pkLen ∧
      key = c.pk

theorem c509Cert_pk_inBounds {zcbor : ZcborDecoder} {payload : Bytes}
    {c : C509Cert}
    (decoded : Decoding.decode (C509Cert.decode zcbor) 11 payload = some c) :
    c.pk.InBounds := by
  obtain ⟨⟨_, final⟩, read, rfl⟩ := Option.map_eq_some_iff.mp decoded
  unfold C509Cert.decode at read
  simp only [Decoding.andThen_eq_some, Decoding.asMember,
    Option.map_eq_some_iff, Prod.mk.injEq, Prod.exists] at read
  obtain ⟨_, _, _, _, _, _, _, _, _, _, _, _, _, _, _, _, _, _, _, _, _,
    pk, _, isPk, behindPk⟩ := read
  obtain ⟨_, _, _, _, _, _, _, _, _, rfl, _⟩ := behindPk
  exact (string_inBounds isPk).1

theorem certC509Verify_eq_ok (parser : X509Parser) :
    certC509Verify platform behind cert credArray pkLen = .ok (key, true) ↔
      ∃ c, parsedCert platform.zcbor parser .c5c cert = some c ∧
        Verified platform behind credArray pkLen c key := by
  unfold certC509Verify parsedCert Verified
  simp only [outcome_bind_eq_ok, tryExpect_eq_ok, caPkGet_eq_ok,
    Except.ok.injEq, Prod.mk.injEq, Option.bind_eq_some_iff,
    C509Cert.signed, Option.map_eq_some_iff]
  constructor
  · rintro ⟨c, decoded, _, ⟨other, found, rfl⟩, verified, valid, pk, copied,
      rfl, rfl⟩
    obtain ⟨fits, inBounds, rfl⟩ := memcpyS_eq_ok.mp copied
    unfold verifyNumbered at valid
    cases isAlg : signAlgOfNumber c.issuerSignatureAlgorithm with
    | none =>
        rw [isAlg] at valid
        cases valid
    | some alg =>
        rw [isAlg] at valid
        refine ⟨_, ⟨c, decoded, alg, isAlg, rfl⟩, other, found,
          tryExpect_eq_ok.mp valid, ?_, rfl⟩
        exact Nat.le_trans (List.length_take_le _ _) fits
  · rintro ⟨_, ⟨c, decoded, alg, isAlg, rfl⟩, other, found, valid, fits, rfl⟩
    have inBounds := c509Cert_pk_inBounds decoded
    have length : c.pk.content.length = c.pk.len :=
      ByteArrayView.content_length inBounds
    refine ⟨c, decoded, _, ⟨other, found, rfl⟩, true, ?_, _,
      memcpyS_eq_ok.mpr ⟨by rwa [length] at fits, inBounds, rfl⟩, rfl, rfl⟩
    unfold verifyNumbered
    rw [isAlg]
    exact tryExpect_eq_ok.mpr valid

theorem certX509Verify_eq_ok :
    certX509Verify platform parser behind cert credArray pkLen =
        .ok (key, true) ↔
      ∃ c, parsedCert platform.zcbor parser .x5chain cert = some c ∧
        Verified platform behind credArray pkLen c key := by
  unfold certX509Verify parsedCert
  cases parser with
  | none =>
      simp
  | some parse =>
      simp only [outcome_bind_eq_ok, tryExpect_eq_ok, Option.bind_some,
        Option.bind_eq_some_iff]
      constructor
      · rintro ⟨c, parsed, run⟩
        split at run
        · rename_i supported
          simp only [outcome_bind_eq_ok, tryExpect_eq_ok, caPkGet_eq_ok,
            orUndefined_eq_ok, Except.ok.injEq, Prod.mk.injEq] at run
          obtain ⟨issuer, isIssuer, _, ⟨other, found, rfl⟩, _, valid, pk,
            copied, rfl, rfl⟩ := run
          obtain ⟨fits, rfl⟩ := memcpyS_whole_eq_ok.mp copied
          refine ⟨⟨issuer, .es256, c.tbs, c.signature, c.pk⟩,
            ⟨c, parsed, ?_⟩, other, found, valid, fits, rfl⟩
          unfold X509Cert.signed
          rw [if_pos supported, isIssuer]
          rfl
        · cases run
      · rintro ⟨signed, ⟨c, parsed, isSigned⟩, other, found, valid, fits, rfl⟩
        unfold X509Cert.signed at isSigned
        split at isSigned
        · rename_i supported
          obtain ⟨issuer, isIssuer, rfl⟩ :=
            Option.map_eq_some_iff.mp isSigned
          refine ⟨c, parsed, ?_⟩
          rw [if_pos supported]
          simp only [outcome_bind_eq_ok, tryExpect_eq_ok, caPkGet_eq_ok,
            orUndefined_eq_ok, Except.ok.injEq, Prod.mk.injEq]
          exact ⟨issuer, isIssuer, _, ⟨other, found, rfl⟩, true, valid, _,
            memcpyS_whole_eq_ok.mpr ⟨fits, rfl⟩, rfl, rfl⟩
        · cases isSigned

/-- A certificate under either kind of label is verified under the key of the
first entry whose name the stored bytes begin with. -/
theorem certVerify_eq_ok (label : CertLabel) :
    certVerify (platform.withCertificates parser behind) label cert credArray
        pkLen = .ok (key, true) ↔
      ∃ c, parsedCert platform.zcbor parser label cert = some c ∧
        Verified platform behind credArray pkLen c key := by
  have toOption : ∀ outcome : Outcome (Bytes × Bool),
      tryExpect outcome.toOption = .ok (key, true) ↔
        outcome = .ok (key, true) := by
    intro outcome
    cases outcome with
    | ok value =>
        simp [Except.toOption]
    | error reason =>
        simp [Except.toOption]
  cases label with
  | x5bag =>
      exact (toOption _).trans certX509Verify_eq_ok
  | x5chain =>
      exact (toOption _).trans certX509Verify_eq_ok
  | c5b =>
      exact (toOption _).trans (certC509Verify_eq_ok parser)
  | c5c =>
      exact (toOption _).trans (certC509Verify_eq_ok parser)

end

end UoscoreUedhoc.Edhoc
