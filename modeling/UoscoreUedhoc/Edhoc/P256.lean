import UoscoreUedhoc.Common.External
import UoscoreUedhoc.Edhoc.Suites

/-!
# Keys on P-256

The parts of `crypto_wrapper.c` for the curve of the suites 2 and 3.  A
key pair is generated by PSA, but of the public key only the first coordinate
is kept, always behind the prefix 2.  Before a secret is derived, the public
key of the other party gets its second coordinate back as a square root.

PSA and the numbers and groups of MBEDTLS are parameters.
-/

namespace UoscoreUedhoc.Edhoc

open UoscoreUedhoc

/-! ## Numbers of MBEDTLS -/

/-- The errors of `mbedtls_ecp_decompress`: two of its own and those of the
functions on numbers. -/
inductive MbedtlsError where
  | ecpBufferTooSmall
  | ecpBadInputData
  | mpi (code : Int)
  deriving DecidableEq, Repr

/-- The functions of MBEDTLS on the integers that `mbedtls_mpi` holds. -/
structure MbedtlsMpi where
  /-- `mbedtls_mpi_size`. -/
  size : Int → Nat
  /-- `mbedtls_mpi_read_binary`. -/
  readBinary : Bytes → Except MbedtlsError Int
  /-- `mbedtls_mpi_mul_mpi`. -/
  mulMpi : Int → Int → Except MbedtlsError Int
  /-- `mbedtls_mpi_add_mpi`. -/
  addMpi : Int → Int → Except MbedtlsError Int
  /-- `mbedtls_mpi_sub_mpi`. -/
  subMpi : Int → Int → Except MbedtlsError Int
  /-- `mbedtls_mpi_add_int`. -/
  addInt : Int → Int → Except MbedtlsError Int
  /-- `mbedtls_mpi_sub_int`. -/
  subInt : Int → Int → Except MbedtlsError Int
  /-- `mbedtls_mpi_shift_r`. -/
  shiftR : Int → Nat → Except MbedtlsError Int
  /-- `mbedtls_mpi_exp_mod` of base, exponent and modulus. -/
  expMod : Int → Int → Int → Except MbedtlsError Int
  /-- `mbedtls_mpi_get_bit`. -/
  getBit : Int → Nat → Nat
  /-- `mbedtls_mpi_write_binary` into a buffer of that length. -/
  writeBinary : Int → Nat → Except MbedtlsError Bytes

/-! ## Decompression -/

/-- What `mbedtls_ecp_decompress` reads of `mbedtls_ecp_group`; `a` is `none`
where `grp->A.p` is `NULL`. -/
structure EcpGroup where
  p : Nat
  a : Option Nat
  b : Nat
  deriving DecidableEq, Repr

section

variable (mpi : MbedtlsMpi) (grp : EcpGroup)

/-- The part of `mbedtls_ecp_decompress` that computes `x^3 + ax + b`. -/
def ecpEquation (x : Int) : Except MbedtlsError Int := do
  let r ← mpi.mulMpi x x
  let r ←
    match grp.a with
    | none => mpi.subInt r 3
    | some a => mpi.addMpi r a
  let r ← mpi.mulMpi r x
  mpi.addMpi r grp.b

/-- `mbedtls_ecp_decompress`. -/
def mbedtlsEcpDecompress (input : Bytes) (osize : Nat) :
    Except MbedtlsError Bytes :=
  let plen := mpi.size grp.p
  if osize < 2 * plen + 1 then
    .error .ecpBufferTooSmall
  else if input.length ≠ plen + 1 then
    .error .ecpBadInputData
  else if input.head? ≠ some 2 ∧ input.head? ≠ some 3 then
    .error .ecpBadInputData
  else do
    let x ← mpi.readBinary input.tail
    let r ← ecpEquation mpi grp x
    let n ← mpi.addInt grp.p 1
    let n ← mpi.shiftR n 2
    let r ← mpi.expMod r n grp.p
    -- the root with the parity that the prefix tells
    let r ←
      if (if input.head? = some 3 then 1 else 0) ≠ mpi.getBit r 0 then
        mpi.subMpi grp.p r
      else
        .ok r
    let y ← mpi.writeBinary r plen
    .ok (4 :: input.tail ++ y)

end

/-! ## PSA -/

/-- The functions of PSA for keys on P-256.  `none` and `false` stand for any
status but `PSA_SUCCESS`. -/
structure PsaEcc where
  /-- `psa_import_key` of a private key. -/
  importKey : Bytes → Bool
  /-- `psa_export_public_key` of a private key. -/
  exportPublicKey : Bytes → Option Bytes
  /-- `psa_raw_key_agreement` of a private key and the public key of the other
  party. -/
  rawKeyAgreement : Bytes → Bytes → Option Bytes

/-- A private key that PSA can hold. -/
abbrev PsaEcc.PrivateKey (psa : PsaEcc) :=
  { sk : Bytes // psa.importKey sk = true }

/-- The functions of COMPACT25519. -/
structure Compact25519 where
  /-- `c25519_prepare` of the private key and `c25519_smult`. -/
  smult : Bytes → Bytes → Bytes
  /-- `compact_x25519_keygen` from a seed. -/
  keygen : Bytes → Bytes × Bytes

/-- What the wrapper uses of MBEDTLS for keys on P-256. -/
structure MbedtlsEcc where
  psa : PsaEcc
  mpi : MbedtlsMpi
  /-- `mbedtls_pk_setup` and `mbedtls_ecp_group_load` for
  `MBEDTLS_ECP_DP_SECP256R1`; `none` where either fails. -/
  groupLoad : Option EcpGroup

/-- The libraries that the wrapper is built with. -/
structure EcdhLibraries where
  compact25519 : Option Compact25519
  /-- The hash function of TINYCRYPT. -/
  tinycrypt : Option (Bytes → Bytes)
  mbedtls : Option MbedtlsEcc

/-! ## Shared secrets -/

/-- `shared_secret_derive` with MBEDTLS for `P256`. -/
def sharedSecretDeriveP256 (mbedtls : MbedtlsEcc) (sk pk : Bytes) :
    Outcome Bytes :=
  if ¬ mbedtls.psa.importKey sk then
    fail .unexpectedResultFromExtLib
  else do
    let grp ← tryExpect mbedtls.groupLoad
    let pkDecompressed ←
      tryExpect
        (mbedtlsEcpDecompress mbedtls.mpi grp pk
          p256PubKeyUncompressedSize).toOption
    tryExpect (mbedtls.psa.rawKeyAgreement sk pkDecompressed)

/-- `shared_secret_derive`. -/
def sharedSecretDerive (libraries : EcdhLibraries) (alg : EcdhAlg)
    (sk pk : Bytes) : Outcome Bytes :=
  match alg, libraries.compact25519, libraries.mbedtls with
  | .x25519, some compact25519, _ => .ok (compact25519.smult sk pk)
  | .p256, _, some mbedtls => sharedSecretDeriveP256 mbedtls sk pk
  | _, _, _ => fail .cryptoOperationNotImplemented

/-! ## Key pairs -/

/-- `ephemeral_dh_key_gen` with MBEDTLS for `P256`, where `psa_generate_key`
draws the given key. -/
def ephemeralDhKeyGenP256 (psa : PsaEcc) (drawn : Option psa.PrivateKey)
    (pkSize : Nat) : Outcome (Bytes × Bytes) :=
  if p256PubKeyCompressedSize > pkSize then
    fail .bufferToSmall
  else do
    let sk ← tryExpect drawn
    let pubKeyUncompressed ← tryExpect (psa.exportPublicKey sk)
    if pubKeyUncompressed.length ≠ p256PubKeyUncompressedSize then
      fail .unexpectedResultFromExtLib
    else
      .ok (sk, 2 :: pubKeyUncompressed.tail.take 32)

/-- `extended_seed`.  Only TINYCRYPT writes the digest of the seed there,
MBEDTLS writes it to the private key, where it does not stay. -/
def extendedSeed (libraries : EcdhLibraries) (seed unwritten : Bytes) :
    Bytes :=
  match libraries.tinycrypt with
  | some sha256 => sha256 seed
  | none => unwritten

/-- `ephemeral_dh_key_gen` into the buffers of a private and a public key.
Without the library of the curve nothing is written. -/
def ephemeralDhKeyGen (libraries : EcdhLibraries) (alg : EcdhAlg)
    (seed unwritten : Bytes) (drawn : (psa : PsaEcc) → Option psa.PrivateKey)
    (buffers : Bytes × Bytes) (pkSize : Nat) : Outcome (Bytes × Bytes) :=
  match alg with
  | .x25519 =>
      match libraries.compact25519 with
      | none => .ok buffers
      | some compact25519 =>
          .ok (compact25519.keygen (extendedSeed libraries seed unwritten))
  | .p256 =>
      match libraries.mbedtls with
      | none => .ok buffers
      | some mbedtls =>
          ephemeralDhKeyGenP256 mbedtls.psa (drawn mbedtls.psa) pkSize

end UoscoreUedhoc.Edhoc
