import UoscoreUedhoc.Common.Runtime

/-!
# Suites, methods and buffer sizes

The cipher suites of `suites.c`, the methods of `edhoc_method_type.c` and the
sizes of the buffers in `edhoc.h`, as they are with `EDHOC_BUF_SIZES_X509_CERT`.
-/

namespace UoscoreUedhoc.Edhoc

open UoscoreUedhoc

/-! ## Buffer sizes -/

def msg1DefaultSize : Nat := 255
def msg2DefaultSize : Nat := 700
def msg4DefaultSize : Nat := 700
def plaintextDefaultSize : Nat := 650
def ciphertext2DefaultSize : Nat := plaintextDefaultSize
def ciphertext3DefaultSize : Nat := plaintextDefaultSize
def ciphertext4DefaultSize : Nat := plaintextDefaultSize
def credDefaultSize : Nat := 600
def sgnOrMacDefaultSize : Nat := 128
def idCredDefaultSize : Nat := 600
def contextMacDefaultSize : Nat := 1200
def infoDefaultSize : Nat := 1200
def signatureStructDefaultSize : Nat := 1200
def p256PubKeyCompressedSize : Nat := 33
def p256PubKeyUncompressedSize : Nat := 65
def pkDefaultSize : Nat := p256PubKeyUncompressedSize
def cRDefaultSize : Nat := 1
def cIDefaultSize : Nat := 8
def gYDefaultSize : Nat := p256PubKeyCompressedSize
def gXDefaultSize : Nat := p256PubKeyCompressedSize
def gRDefaultSize : Nat := p256PubKeyUncompressedSize
def shaDefaultSize : Nat := 32
def prkDefaultSize : Nat := 32
def adDefaultSize : Nat := 256
def associatedDataDefaultSize : Nat := 64
def kidDefaultSize : Nat := 8
def macDefaultSize : Nat := 16
def aeadIvDefaultSize : Nat := 13
def signatureDefaultSize : Nat := 64
def encodingOverhead : Nat := 6

def data2DefaultSize : Nat :=
  cIDefaultSize + gYDefaultSize + cRDefaultSize

def th2InputDefaultSize : Nat :=
  msg1DefaultSize + data2DefaultSize

def th3InputDefaultSize : Nat :=
  shaDefaultSize + ciphertext3DefaultSize

def th4InputDefaultSize : Nat :=
  shaDefaultSize + ciphertext4DefaultSize

/-! ## Algorithms -/

/-- `enum aead_alg`. -/
inductive AeadAlg where
  | aesCcm16_64_128
  | aesCcm16_128_128
  deriving DecidableEq, Repr

/-- `enum hash_alg`. -/
inductive HashAlg where
  | sha256
  deriving DecidableEq, Repr

/-- `enum ecdh_alg`. -/
inductive EcdhAlg where
  | p256
  | x25519
  deriving DecidableEq, Repr

/-- `enum sign_alg`. -/
inductive SignAlg where
  | es256
  | edDsa
  deriving DecidableEq, Repr

/-- `enum mac_len`. -/
inductive MacLen where
  | mac8
  | mac16
  deriving DecidableEq, Repr

/-- The number an `enum mac_len` stands for. -/
def MacLen.toNat : MacLen → Nat
  | .mac8 => 8
  | .mac16 => 16

/-- `get_hash_len`. -/
def getHashLen : HashAlg → Nat
  | .sha256 => 32

/-- `get_aead_mac_len`. -/
def getAeadMacLen : AeadAlg → Nat
  | .aesCcm16_128_128 => 16
  | .aesCcm16_64_128 => 8

/-- `get_aead_key_len`. -/
def getAeadKeyLen : AeadAlg → Nat
  | .aesCcm16_128_128 => 16
  | .aesCcm16_64_128 => 16

/-- `get_aead_iv_len`. -/
def getAeadIvLen : AeadAlg → Nat
  | .aesCcm16_128_128 => 13
  | .aesCcm16_64_128 => 13

/-- `get_signature_len`. -/
def getSignatureLen : SignAlg → Nat
  | .es256 => 64
  | .edDsa => 64

/-- `get_ecdh_pk_len`. -/
def getEcdhPkLen : EcdhAlg → Nat
  | .p256 => 33
  | .x25519 => 32

/-! ## Suites -/

/-- `struct suite` without the algorithms of the application. -/
structure Suite where
  edhocAead : AeadAlg
  edhocHash : HashAlg
  edhocMacLenStaticDh : MacLen
  edhocEcdh : EcdhAlg
  edhocSign : SignAlg
  deriving DecidableEq, Repr

/-- `get_suite`. -/
def getSuite (label : UInt8) : Outcome Suite :=
  if label = 0 then
    .ok ⟨.aesCcm16_64_128, .sha256, .mac8, .x25519, .edDsa⟩
  else if label = 1 then
    .ok ⟨.aesCcm16_128_128, .sha256, .mac16, .x25519, .edDsa⟩
  else if label = 2 then
    .ok ⟨.aesCcm16_64_128, .sha256, .mac8, .p256, .es256⟩
  else if label = 3 then
    .ok ⟨.aesCcm16_128_128, .sha256, .mac16, .p256, .es256⟩
  else
    fail .unsupportedCipherSuite

/-- The static DH MACs of all suites are shorter than the hash. -/
theorem macLen_lt_hashLen (length : MacLen) (alg : HashAlg) :
    length.toNat < getHashLen alg := by
  cases length <;> cases alg <;> decide

theorem macLen_le_macDefaultSize (length : MacLen) :
    length.toNat ≤ macDefaultSize := by
  cases length <;> decide

/-! ## Methods -/

/-- Whether initiator and responder authenticate with static DH keys.  `none`
is a variable that nothing has written. -/
structure AuthenticationType where
  staticDhI : Option Bool
  staticDhR : Option Bool
  deriving DecidableEq, Repr

/-- `authentication_type_get`.  For an unknown method the switch writes neither
variable, and the function still returns `ok`. -/
def authenticationTypeGet (method : Int32) (before : AuthenticationType) :
    AuthenticationType :=
  if method = 0 then ⟨some false, some false⟩
  else if method = 1 then ⟨some false, some true⟩
  else if method = 2 then ⟨some true, some false⟩
  else if method = 3 then ⟨some true, some true⟩
  else before

/-- The method is one of the four that exist. -/
def IsMethod (method : Int32) : Prop :=
  method = 0 ∨ method = 1 ∨ method = 2 ∨ method = 3

/-- The variables after `authentication_type_get` do not depend on what they
were before when the method exists. -/
theorem authenticationTypeGet_of_isMethod {method : Int32}
    (known : IsMethod method) (before other : AuthenticationType) :
    authenticationTypeGet method before =
      authenticationTypeGet method other := by
  unfold authenticationTypeGet
  rcases known with rfl | rfl | rfl | rfl
  · rfl
  · rfl
  · rfl
  · rfl

end UoscoreUedhoc.Edhoc
