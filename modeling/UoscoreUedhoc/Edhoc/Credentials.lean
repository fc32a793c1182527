import UoscoreUedhoc.Edhoc.Plaintext

/-!
# Credentials of the other party

`retrieve_cred.c`.  A certificate carried in `ID_CRED_x` is verified; any other
credential must be among those that the device holds.
-/

namespace UoscoreUedhoc.Edhoc

open UoscoreUedhoc

/-- What `retrieve_cred` writes: the credential, the signature key and the
static DH key.  One of the two keys is empty. -/
structure RetrievedCred where
  cred : Bytes
  pk : Bytes
  g : Bytes
  deriving DecidableEq, Repr

section

variable (platform : EdhocPlatform)

/-- The map labels that `verify_cert2cred` is called with. -/
inductive CertLabel where
  | x5bag
  | x5chain
  | c5b
  | c5c
  deriving DecidableEq, Repr

/-- `cert_x509_verify` or `cert_c509_verify`. -/
def certVerify (label : CertLabel) (cert : Bytes)
    (credArray : List OtherPartyCred) (pkLen : Nat) : Outcome (Bytes × Bool) :=
  tryExpect
    (match label with
      | .x5bag | .x5chain =>
          platform.crypto.certX509Verify cert credArray pkLen
      | .c5b | .c5c => platform.crypto.certC509Verify cert credArray pkLen)

/-- `verify_cert2cred`. -/
def verifyCert2Cred (staticDhAuth : Bool) (credArray : List OtherPartyCred)
    (label : CertLabel) (cert : Bytes) : Outcome RetrievedCred := do
  let cred ← encodeByteString platform cert credDefaultSize
  let (key, verified) ←
    certVerify platform label cert credArray
      (if staticDhAuth then gRDefaultSize else pkDefaultSize)
  if verified then
    .ok (if staticDhAuth then ⟨cred, [], key⟩ else ⟨cred, key, []⟩)
  else
    fail .certificateAuthenticationFailed

/-- A static DH key as `get_local_cred` hands it on: an uncompressed key of
65 bytes loses its second half. -/
def staticDhKey (g : Bytes) : Outcome Bytes :=
  if g.length = p256PubKeyUncompressedSize then do
    let x ← memcpyS (gRDefaultSize - 1) (g.drop 1) 32
    .ok (0x2 :: x)
  else
    memcpyS gRDefaultSize g g.length

/-- `get_local_cred`. -/
def getLocalCred (staticDhAuth : Bool) (credArray : List OtherPartyCred)
    (idCred : Bytes) : Outcome RetrievedCred :=
  match credArray.find? fun other => other.idCred = idCred with
  | some other => do
      let cred ← memcpyS credDefaultSize other.cred other.cred.length
      if staticDhAuth then do
        let g ← staticDhKey other.g
        .ok ⟨cred, [], g⟩
      else do
        let pk ← memcpyS pkDefaultSize other.pk other.pk.length
        .ok ⟨cred, pk, []⟩
  | none => fail .credentialNotFound

/-- The credential should be on the device. -/
def IdCredMap.isLocal (map : IdCredMap) : Bool :=
  map.kid.isSome || map.x5u.isSome || map.x5t.isSome || map.c5u.isSome ||
    map.c5t.isSome

/-- `retrieve_cred`. -/
def retrieveCred (staticDhAuth : Bool) (credArray : List OtherPartyCred)
    (idCred : Bytes) : Outcome RetrievedCred := do
  let map ← cborDecodeIdCredXMap platform idCred
  if map.isLocal then
    getLocalCred staticDhAuth credArray idCred
  else
    match map.x5chain, map.x5bag, map.c5c, map.c5b with
    | some cert, _, _, _ =>
        verifyCert2Cred platform staticDhAuth credArray .x5chain cert.content
    | none, some cert, _, _ =>
        verifyCert2Cred platform staticDhAuth credArray .x5bag cert.content
    | none, none, some cert, _ =>
        verifyCert2Cred platform staticDhAuth credArray .c5c cert.content
    | none, none, none, some cert =>
        verifyCert2Cred platform staticDhAuth credArray .c5b cert.content
    | none, none, none, none => fail .credentialNotFound

end

end UoscoreUedhoc.Edhoc
