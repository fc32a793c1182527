import UoscoreUedhoc.Edhoc.KeyAgreement
import UoscoreUedhoc.Edhoc.PlaintextDelivery

/-!
# Steps of honest parties

The steps of a run, one by one: each succeeds when its inputs fit into the
buffers, and what one party does there is undone by the other one.
-/

namespace UoscoreUedhoc.Edhoc

open UoscoreUedhoc

/-! ## The wrapper -/

/-- The functions of the wrapper succeed, and undo each other for keys that
belong together. -/
structure EdhocWrapper.Works (crypto : EdhocWrapper)
    (keyPair : EcdhAlg → Bytes → Bytes → Prop)
    (signPair : SignAlg → Bytes → Bytes → Prop) : Prop where
  hash : ∀ alg input, ∃ digest, crypto.hash alg input = some digest
  hkdfExtract : ∀ alg salt ikm, ∃ prk,
    crypto.hkdfExtract alg salt ikm = some prk
  hkdfExpand : ∀ alg prk info, ∀ outLen ≤ 255 * shaDefaultSize, ∃ okm,
    crypto.hkdfExpand alg prk info outLen = some okm
  sharedSecret : ∀ {alg a gA b gB}, keyPair alg a gA → keyPair alg b gB →
    ∃ secret, crypto.sharedSecretDerive alg a gB = some secret
  dhCommutes : DhCommutes crypto keyPair
  sign : ∀ {alg sk pk}, signPair alg sk pk → ∀ message, ∃ signature,
    crypto.sign alg sk pk message = some signature ∧
      crypto.verify alg pk message signature = some true
  aeadEncrypt : ∀ (alg : AeadAlg) (plaintext key nonce aad : Bytes),
    key.length = getAeadKeyLen alg → nonce.length = getAeadIvLen alg →
      ∃ ciphertext,
        crypto.aeadEncrypt plaintext key nonce aad (getAeadMacLen alg) =
          some ciphertext
  aeadInverts : crypto.AeadInverts

/-! ## Credentials -/

/-- The key under which a credential is known belongs to the other party. -/
def KeyIs (keyPair : EcdhAlg → Bytes → Bytes → Prop) (suite : Suite)
    (staticDh : Bool) (pk secret key : Bytes) : Prop :=
  if staticDh then keyPair suite.edhocEcdh secret key else key = pk

/-- A party finds the credential of another one, on the device for a `kid` and
an `x5t` and in the message for an `x5chain`. -/
def Knows (platform : EdhocPlatform)
    (keyPair : EcdhAlg → Bytes → Bytes → Prop) (suite : Suite)
    (staticDh : Bool) (credArray : List OtherPartyCred) (idCredX : IdCredX)
    (cred pk secret : Bytes) : Prop :=
  cred.length ≤ credDefaultSize ∧
    match idCredX with
    | .x5chain cert =>
        cred = platform.cbor.bstr cert ∧
          ∃ key,
            platform.crypto.certX509Verify cert credArray
                (if staticDh then gRDefaultSize else pkDefaultSize) =
              some (key, true) ∧
            KeyIs keyPair suite staticDh pk secret key
    | _ =>
        ∃ other,
          credArray.find? (fun other =>
              other.idCred = idCredX.encoding platform.cbor) = some other ∧
            other.cred = cred ∧
              if staticDh then
                ∃ g, staticDhKey other.g = .ok g ∧
                  KeyIs keyPair suite staticDh pk secret g
              else
                other.pk.length ≤ pkDefaultSize ∧
                  KeyIs keyPair suite staticDh pk secret other.pk

section

variable {platform : EdhocPlatform}
  {keyPair : EcdhAlg → Bytes → Bytes → Prop}
  {signPair : SignAlg → Bytes → Bytes → Prop}

/-- The length of a signature or MAC. -/
def authLength (staticDh : Bool) (suite : Suite) : Nat :=
  if staticDh then suite.edhocMacLenStaticDh.toNat else signatureDefaultSize

/-- What a party authenticates fits into the buffers of the MAC and of the
signature. -/
structure AuthFits (platform : EdhocPlatform) (staticDh : Bool)
    (suite : Suite) (idCred cred ead macLabel : Bytes) : Prop where
  context : idCred.length + cred.length + ead.length ≤ contextMacDefaultSize
  info : ∀ th : Bytes, th.length = shaDefaultSize →
    (hkdfInfo platform.cbor th macLabel (idCred ++ cred ++ ead)
      (macLength staticDh suite)).length ≤ infoDefaultSize
  signed : staticDh = false →
    shaDefaultSize + 2 + cred.length + ead.length ≤
      credDefaultSize + shaDefaultSize + adDefaultSize
  signatureStruct : staticDh = false → ∀ th tag : Bytes,
    th.length = shaDefaultSize → tag.length = macLength staticDh suite →
      (sigStructure platform signature1Context idCred
        (platform.cbor.bstr th ++ cred ++ ead) tag).length ≤
          signatureStructDefaultSize

section Authentication

variable {staticDh : Bool} {suite : Suite}
  {prk th idCred cred ead macLabel sk pk : Bytes}

end Authentication

/-! ## Transcript hashes -/

section Sizes

end Sizes

/-- The length of the ciphertext of a plaintext of the given length. -/
def ciphertextLength (ctxt : Ciphertext) (suite : Suite) (length : Nat) :
    Nat :=
  match ctxt with
  | .ciphertext2 => length
  | .ciphertext3 | .ciphertext4 => length + getAeadMacLen suite.edhocAead

end

end UoscoreUedhoc.Edhoc
