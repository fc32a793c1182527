import UoscoreUedhoc.Lib.ExchangeSort
import UoscoreUedhoc.Lib.LargestEntries
import UoscoreUedhoc.Oscore.Coap2Oscore

/-!
# From OSCORE to CoAP

`oscore2coap.c`: the parser of the OSCORE option, the parser of the decrypted
plaintext, the merge of inner and outer options, the replay window, and
`oscore2coap` itself.
-/

namespace UoscoreUedhoc.Oscore

open UoscoreUedhoc

/-! ## OSCORE option -/

/-- `struct compressed_oscore_option`.  A field is `none` while nothing has
written it; `pivPtr` and `pivLen` are the two halves of `piv`, which are
written in different branches. -/
structure CompressedOscoreOption where
  h : Option UInt8
  k : Option UInt8
  n : Option UInt8
  pivPtr : Option Bytes
  pivLen : Option Nat
  kidContext : Option ByteArrayView
  kid : Option ByteArrayView
  deriving DecidableEq, Repr

def CompressedOscoreOption.unwritten : CompressedOscoreOption :=
  ⟨none, none, none, none, none, none, none⟩

/-- The branches of `oscore_option_parser` for the flags `n`.  `p` is
`temp_current_option_value_ptr` and `kidLen` is `temp_kid_len`; the results
hold the two behind the Partial IV. -/
def parsePiv (out : CompressedOscoreOption) (n : UInt8) (p : Bytes)
    (kidLen : UInt8) : Outcome (CompressedOscoreOption × Bytes × UInt8) :=
  if n = 0 then
    .ok ({ out with pivPtr := some [] }, p, kidLen)
  else if n = 6 ∨ n = 7 then
    fail .oscoreInpktInvalidPiv
  else
    .ok
      ({ out with pivPtr := some p, pivLen := some n.toNat },
        p.drop n.toNat, kidLen - n)

/-- The branches of `oscore_option_parser` for the flag `h`. -/
def parseKidContext (out : CompressedOscoreOption) (h : UInt8) (p : Bytes)
    (kidLen : UInt8) : Outcome (CompressedOscoreOption × Bytes × UInt8) :=
  if h = 0 then
    .ok ({ out with kidContext := some nullArray }, p, kidLen)
  else
    match p with
    | [] => undefinedBehaviour
    | len :: p =>
        .ok
          ({ out with kidContext := some ⟨len.toNat, p⟩ },
            p.drop len.toNat, kidLen - (len + 1))

/-- The `else` branch of `oscore_option_parser`: an OSCORE option with a
value. -/
def parseOscoreValue (out : CompressedOscoreOption)
    (option : OCoapOption) : Outcome CompressedOscoreOption :=
  match option.value with
  | [] => undefinedBehaviour
  | first :: p => do
    let h := (first &&& compOscoreOptKidcHMask) >>> 4
    let k := (first &&& compOscoreOptKidKMask) >>> 3
    let n := first &&& compOscoreOptPivNMask
    let (out, p, kidLen) ←
      parsePiv { out with h := some h, k := some k, n := some n } n p
        (option.len - 1)
    let (out, p, kidLen) ← parseKidContext out h p kidLen
    .ok
      { out with
        kid := some (if k = 0 then nullArray else ⟨kidLen.toNat, p⟩) }

/-- The body of the loop of `oscore_option_parser`. -/
def oscoreOptionStep (state : CompressedOscoreOption × Bool)
    (option : OCoapOption) : Outcome (CompressedOscoreOption × Bool) :=
  if option.optionNumber = coapOptionOscore then
    if option.len = 0 then
      .ok
        ({ state.1 with h := some 0, k := some 0, n := some 0 }, true)
    else do
      let out ← parseOscoreValue state.1 option
      .ok (out, true)
  else
    .ok state

/-- `oscore_option_parser`: the compressed option and `oscore_pkt`. -/
def oscoreOptionParser (packet : OCoapPacket) :
    Outcome (CompressedOscoreOption × Bool) := do
  let options ← orUndefined packet.options
  options.foldlM oscoreOptionStep (.unwritten, false)

/-- `*oscore_option.piv.ptr`. -/
def pivFirstByte (option : CompressedOscoreOption) : Outcome UInt8 := do
  match ← orUndefined option.pivPtr with
  | [] => undefinedBehaviour
  | first :: _ => .ok first

/-- The array `piv` of a compressed option. -/
def pivArray (option : CompressedOscoreOption) : Outcome ByteArrayView := do
  let ptr ← orUndefined option.pivPtr
  let len ← orUndefined option.pivLen
  .ok ⟨len, ptr⟩

/-! ## Decrypted plaintext -/

/-- The extended deltas and lengths of `oscore_packet_options_parser`. -/
def oscorePacketOptionsField : ExtensionDecoder where
  one first := first - 13
  two first second :=
    (((first.toUInt32 <<< 8) ||| second.toUInt32) - 269).toUInt8

/-- The room for inner options in `o_coap_pkg_generate`. -/
def maxInnerOptionCount : Nat := 10

/-- `oscore_packet_options_parser`. -/
def oscorePacketOptionsParser (inData : Bytes) (inDataLen : UInt16) :
    Outcome (List OCoapOption) :=
  optionsLoop oscorePacketOptionsField oscorePacketOptionsField inDataLen
    maxInnerOptionCount 0 0 inData

/-- What `oscore_decrypted_payload_parser` computes. -/
structure DecryptedPayload where
  code : UInt8
  eOptions : List OCoapOption
  payload : Bytes
  deriving DecidableEq, Repr

/-- `oscore_decrypted_payload_parser`.  Both tests for the payload marker come
before the test for the end of the plaintext: the byte they then read does not
matter, but it lies behind the buffer where the plaintext fills it. -/
def oscoreDecryptedPayloadParser (plaintext : Bytes) :
    Outcome DecryptedPayload :=
  match plaintext with
  | [] => undefinedBehaviour
  | code :: rest =>
      let (region, marked) := rest.span (· ≠ 0xFF)
      if marked = [] ∧ plaintext.length = maxPlaintextLen then
        undefinedBehaviour
      else do
        let optionsLen := UInt16.ofNat region.length
        let eOptions ←
          parseOptions oscorePacketOptionsParser rest optionsLen
        .ok { code, eOptions, payload := marked.tail }

/-! ## Merging the options -/

/-- The loop of `options_from_oscore_reorder` that copies options in the order
of `numbers`.  Both option arrays are compared at their current index, and
their entries behind the last option are unwritten. -/
def mergeOptions : List UInt8 → List OCoapOption → List OCoapOption →
    UInt16 → Outcome (List OCoapOption)
  | [], _, _, _ => .ok []
  | _ :: _, [], _, _ => undefinedBehaviour
  | number :: numbers, uOption :: uOptions, eOptions, deltaSum =>
      if number = uOption.optionNumber then do
        let delta := uOption.optionNumber.toUInt16 - deltaSum
        let rest ←
          mergeOptions numbers uOptions eOptions (deltaSum + delta)
        .ok ({ uOption with delta } :: rest)
      else
        match eOptions with
        | [] => undefinedBehaviour
        | eOption :: laterEOptions =>
            if number = eOption.optionNumber then do
              let delta := eOption.optionNumber.toUInt16 - deltaSum
              let rest ←
                mergeOptions numbers (uOption :: uOptions) laterEOptions
                  (deltaSum + delta)
              .ok ({ eOption with delta } :: rest)
            else
              mergeOptions numbers (uOption :: uOptions) eOptions deltaSum

/-- The option numbers `options_from_oscore_reorder` sorts: those of the outer
options other than OSCORE and of the inner options, in an array that starts
out zeroed. -/
def reorderNumbers (outer inner : List OCoapOption) (count : Nat) :
    List UInt8 :=
  let numbers :=
    ((outer.map OCoapOption.optionNumber).filter (· ≠ coapOptionOscore)) ++
      inner.map OCoapOption.optionNumber
  (numbers ++ List.replicate count 0).take count

/-- `options_from_oscore_reorder`. -/
def optionsFromOscoreReorder (outer inner : List OCoapOption) :
    Outcome (List OCoapOption) :=
  let count := UInt8.ofNat (outer.length + inner.length) - 1
  if 0 < count then do
    checkBufferSize maxOptionCount count.toNat
    mergeOptions
      (ExchangeSort.exchangeSort (reorderNumbers outer inner count.toNat))
      outer inner 0
  else
    .ok []

/-- `o_coap_pkg_generate`. -/
def oCoapPkgGenerate (plaintext : Bytes) (packet : OCoapPacket) :
    Outcome OCoapPacket := do
  let decrypted ← oscoreDecryptedPayloadParser plaintext
  let outer ← orUndefined packet.options
  let options ← optionsFromOscoreReorder outer decrypted.eOptions
  .ok
    { header := { packet.header with code := decrypted.code }
      token := if packet.header.tkl = 0 then some [] else packet.token
      options := some options
      payloadLen := decrypted.payload.length
      payload := decrypted.payload }

/-! ## Replay window -/

/-- `replay_check`.  The flag `first_run` is a local variable. -/
def replayCheck (senderSequenceNumber : UInt64)
    (replayWindow : List UInt64) : Outcome Unit :=
  let firstRun := true
  if firstRun then
    .ok ()
  else if replayWindow.getLastD 0 < senderSequenceNumber then
    .ok ()
  else if senderSequenceNumber < replayWindow.headD 0 then
    fail .replayedPackedReceived
  else if senderSequenceNumber ∈ replayWindow then
    fail .replayedPackedReceived
  else
    .ok ()

/-- `insert_sender_seq_number`: drop the first entry, move those up to
`position` down, and store the number there. -/
def insertSenderSeqNumber (senderSeqNumber : UInt64)
    (replayWindow : List UInt64) (position : Nat) : List UInt64 :=
  (replayWindow.take (position + 1)).tail ++
    senderSeqNumber :: replayWindow.drop (position + 1)

/-- The position at which `update_replay_window` inserts. -/
def replayPosition (senderSeqNumber : UInt64) : List UInt64 → Nat
  | entry :: next :: entries =>
      if entry < senderSeqNumber ∧ senderSeqNumber < next then
        0
      else
        1 + replayPosition senderSeqNumber (next :: entries)
  | _ => 0

/-- `update_replay_window`. -/
def updateReplayWindow (senderSeqNumber : UInt64)
    (replayWindow : List UInt64) : List UInt64 :=
  insertSenderSeqNumber senderSeqNumber replayWindow
    (replayPosition senderSeqNumber replayWindow)

/-! ## The conversion -/

/-- The branch of `oscore2coap` for requests: compare the KID, check for a
replay, and update the context. -/
def requestAccept (platform : Platform) (options : List OCoapOption)
    (option : CompressedOscoreOption) : Update Context Unit := do
  let c ← get
  let kid ← .lift (orUndefined option.kid)
  let same ← .lift (arrayEquals c.rc.recipientId kid)
  if same then do
    let first ← .lift (pivFirstByte option)
    .lift (replayCheck first.toUInt64 c.rc.replayWindow)
    let piv ← .lift (pivArray option)
    let kidContext ← .lift (orUndefined option.kidContext)
    contextUpdate platform .server options piv kidContext
  else
    .lift (fail .oscoreKidRecipentIdMismatch)

/-- `payload_decrypt` with the check of the buffer for the plaintext. -/
def payloadDecrypt (platform : Platform) (c : Context)
    (packet : OCoapPacket) : Outcome Bytes := do
  checkBufferSize maxPlaintextLen (uint32 (packet.payloadLen - authTagLen))
  oscoreCoseDecrypt platform packet.payload c.rrc.nonce c.rrc.aad
    c.rc.recipientKey

/-- The part of `oscore2coap` that updates the replay window. -/
def replayWindowUpdate (option : CompressedOscoreOption) :
    Update Context Unit := do
  let first ← .lift (pivFirstByte option)
  modify fun c =>
    { c with
      rc :=
        { c.rc with
          replayWindow :=
            updateReplayWindow first.toUInt64 c.rc.replayWindow } }

/-- The two `if (is_request(...))` of `oscore2coap`. -/
def whenRequest (packet : OCoapPacket) (update : Update Context Unit) :
    Update Context Unit :=
  if isRequest packet then update else pure ()

/-- The part of `oscore2coap` from the parsed OSCORE packet to the plaintext. -/
def oscorePacketDecrypt (platform : Platform) (packet : OCoapPacket)
    (option : CompressedOscoreOption) : Update Context Bytes := do
  let options ← .lift (orUndefined packet.options)
  whenRequest packet (requestAccept platform options option)
  let c ← get
  let plaintext ← .lift (payloadDecrypt platform c packet)
  whenRequest packet (replayWindowUpdate option)
  pure plaintext

/-- The end of `oscore2coap`: the CoAP packet as bytes. -/
def deliver (plaintext : Bytes) (packet : OCoapPacket) (capacity : Nat) :
    Outcome Bytes := do
  let coapPacket ← oCoapPkgGenerate plaintext packet
  coap2buf coapPacket capacity

/-- `oscore2coap` into an output buffer of `capacity` bytes: `none` where the
packet has no OSCORE option and `oscore_pkg_flag` is cleared. -/
def oscore2coap (platform : Platform) (input : Bytes) (capacity : Nat) :
    Update Context (Option Bytes) := do
  let packet ← .lift (buf2coap input)
  let parsed ← .lift (oscoreOptionParser packet)
  if parsed.2 then do
    let plaintext ← oscorePacketDecrypt platform packet parsed.1
    let output ← .lift (deliver plaintext packet capacity)
    pure (some output)
  else
    pure none

/-! ## What the request branch computes -/

open Update

/-- The fields of an OSCORE option with which `oscore2coap` gets as far as
`context_update`. -/
structure RequestFields (c : Context) (option : CompressedOscoreOption)
    (first : UInt8) (piv kidContext : ByteArrayView) : Prop where
  kid : ∃ kid, option.kid = some kid ∧
    arrayEquals c.rc.recipientId kid = .ok true
  first : pivFirstByte option = .ok first
  piv : pivArray option = .ok piv
  kidContext : option.kidContext = some kidContext

/-- The bytes of the Partial IV begin where its pointer points to. -/
theorem pivFirstByte_of_content {option : CompressedOscoreOption}
    {piv : ByteArrayView} {first : UInt8} {rest : Bytes}
    (pivRead : pivArray option = .ok piv)
    (content : piv.content = first :: rest) :
    pivFirstByte option = .ok first := by
  unfold pivArray at pivRead
  simp only [outcome_bind_eq_ok, orUndefined_eq_ok] at pivRead
  obtain ⟨ptr, isPtr, len, _, isArray⟩ := pivRead
  cases isArray
  unfold ByteArrayView.content at content
  unfold pivFirstByte
  rw [isPtr, orUndefined_some, outcome_ok_bind]
  cases ptr with
  | nil =>
      rw [List.take_nil] at content
      cases content
  | cons byte bytes =>
      cases len with
      | zero =>
          cases content
      | succ len =>
          cases content
          rfl

/-- The stub of a replay check refuses nothing. -/
theorem replayCheck_eq (senderSequenceNumber : UInt64)
    (replayWindow : List UInt64) :
    replayCheck senderSequenceNumber replayWindow = .ok () := rfl

theorem exec_requestAccept {platform : Platform}
    {options : List OCoapOption} {option : CompressedOscoreOption}
    {c : Context} {first : UInt8} {piv kidContext : ByteArrayView}
    (fields : RequestFields c option first piv kidContext) :
    exec (requestAccept platform options option) c =
      exec (contextUpdate platform .server options piv kidContext) c := by
  obtain ⟨⟨kid, kidWritten, same⟩, firstRead, pivRead, contextRead⟩ := fields
  unfold requestAccept
  rw [exec_get_bind, exec_lift_bind, kidWritten, orUndefined_some, andThen_ok,
    exec_lift_bind, same, andThen_ok, if_pos rfl, exec_lift_bind, firstRead,
    andThen_ok, exec_lift_bind, replayCheck_eq, andThen_ok, exec_lift_bind,
    pivRead, andThen_ok, exec_lift_bind, contextRead, orUndefined_some,
    andThen_ok]

/-- Without those fields the context stays as it is. -/
theorem exec_requestAccept_of_not_fields {platform : Platform}
    {options : List OCoapOption} {option : CompressedOscoreOption}
    {c : Context}
    (unread : ∀ first piv kidContext,
      ¬ RequestFields c option first piv kidContext) :
    ∃ fault, exec (requestAccept platform options option) c =
      (.error fault, c) := by
  unfold requestAccept
  simp only [exec_get_bind, exec_lift_bind]
  cases kidWritten : option.kid with
  | none =>
      exact ⟨_, rfl⟩
  | some kid =>
      rw [orUndefined_some, andThen_ok]
      cases same : arrayEquals c.rc.recipientId kid with
      | error fault =>
          exact ⟨fault, rfl⟩
      | ok equal =>
          cases equal with
          | false =>
              exact ⟨_, rfl⟩
          | true =>
              simp only [andThen_ok, if_true, exec_lift_bind, replayCheck_eq]
              cases firstRead : pivFirstByte option with
              | error fault =>
                  exact ⟨fault, rfl⟩
              | ok first =>
                  cases pivRead : pivArray option with
                  | error fault =>
                      exact ⟨fault, rfl⟩
                  | ok piv =>
                      cases contextRead : option.kidContext with
                      | none =>
                          exact ⟨_, rfl⟩
                      | some kidContext =>
                          exact
                            absurd
                              ⟨⟨kid, kidWritten, same⟩, firstRead, pivRead,
                                contextRead⟩
                              (unread first piv kidContext)

theorem requestAccept_eq_ok {platform : Platform}
    {options : List OCoapOption} {option : CompressedOscoreOption}
    {c after : Context} {done : Unit} :
    exec (requestAccept platform options option) c = (.ok done, after) ↔
      ∃ first piv kidContext,
        RequestFields c option first piv kidContext ∧
          exec (contextUpdate platform .server options piv kidContext) c =
            (.ok done, after) := by
  by_cases readable :
      ∃ first piv kidContext, RequestFields c option first piv kidContext
  · obtain ⟨first, piv, kidContext, fields⟩ := readable
    constructor
    · intro accepted
      rw [exec_requestAccept fields] at accepted
      exact ⟨first, piv, kidContext, fields, accepted⟩
    · intro updated
      obtain ⟨_, _, _, otherFields, updated⟩ := updated
      rw [exec_requestAccept otherFields]
      exact updated
  · have unread :
        ∀ first piv kidContext,
          ¬ RequestFields c option first piv kidContext := by
      intro first piv kidContext fields
      exact readable ⟨first, piv, kidContext, fields⟩
    obtain ⟨fault, refused⟩ :=
      @exec_requestAccept_of_not_fields platform options option c unread
    rw [refused]
    constructor
    · intro accepted
      simp at accepted
    · intro updated
      obtain ⟨first, piv, kidContext, fields, _⟩ := updated
      exact absurd fields (unread first piv kidContext)

/-! ## What a successful conversion computes -/

/-- A context whose replay window has recorded a Partial IV. -/
def Context.recordPiv (c : Context) (first : UInt8) : Context :=
  { c with
    rc :=
      { c.rc with
        replayWindow := updateReplayWindow first.toUInt64 c.rc.replayWindow } }

theorem exec_whenRequest (packet : OCoapPacket)
    (update : Update Context Unit) (c : Context) :
    exec (whenRequest packet update) c =
      if isRequest packet then exec update c else (.ok (), c) := by
  unfold whenRequest
  rw [exec_ite, exec_pure]

theorem replayWindowUpdate_eq_ok {option : CompressedOscoreOption}
    {c after : Context} {done : Unit} :
    exec (replayWindowUpdate option) c = (.ok done, after) ↔
      ∃ first, pivFirstByte option = .ok first ∧
        after = c.recordPiv first := by
  unfold replayWindowUpdate
  rw [exec_lift_bind, andThen_eq_ok]
  simp only [exec_modify, Prod.mk.injEq, true_and]
  apply exists_congr
  intro first
  exact and_congr_right fun _ => eq_comm

theorem oscorePacketDecrypt_eq_ok {platform : Platform}
    {packet : OCoapPacket} {option : CompressedOscoreOption}
    {c after : Context} {plaintext : Bytes} :
    exec (oscorePacketDecrypt platform packet option) c =
        (.ok plaintext, after) ↔
      ∃ options between, packet.options = some options ∧
        exec (whenRequest packet (requestAccept platform options option)) c =
          (.ok (), between) ∧
        payloadDecrypt platform between packet = .ok plaintext ∧
        exec (whenRequest packet (replayWindowUpdate option)) between =
          (.ok (), after) := by
  unfold oscorePacketDecrypt
  simp only [exec_lift_bind, andThen_eq_ok, exec_bind_eq_ok, exec_get_bind,
    orUndefined_eq_ok, exec_pure, Prod.mk.injEq, Except.ok.injEq]
  constructor
  · intro done
    obtain ⟨options, present, _, between, accepted, found, decrypted, _, _,
      recorded, rfl, rfl⟩ := done
    exact ⟨options, between, present, accepted, decrypted, recorded⟩
  · intro done
    obtain ⟨options, between, present, accepted, decrypted, recorded⟩ := done
    exact
      ⟨options, present, (), between, accepted, plaintext, decrypted, (),
        after, recorded, rfl, rfl⟩

theorem oscore2coap_eq_ok {platform : Platform} {input : Bytes}
    {capacity : Nat} {c after : Context} {result : Option Bytes} :
    exec (oscore2coap platform input capacity) c = (.ok result, after) ↔
      ∃ packet option flag, buf2coap input = .ok packet ∧
        oscoreOptionParser packet = .ok (option, flag) ∧
        if flag then
          ∃ plaintext output,
            exec (oscorePacketDecrypt platform packet option) c =
                (.ok plaintext, after) ∧
              deliver plaintext packet capacity = .ok output ∧
              result = some output
        else
          result = none ∧ after = c := by
  unfold oscore2coap
  simp only [exec_lift_bind, andThen_eq_ok, exec_ite]
  constructor
  · intro done
    obtain ⟨packet, parsed, ⟨option, flag⟩, optionParsed, done⟩ := done
    refine ⟨packet, option, flag, parsed, optionParsed, ?_⟩
    cases flag with
    | false =>
        simp only [exec_pure, Bool.false_eq_true, if_false, Prod.mk.injEq,
          Except.ok.injEq] at done ⊢
        exact ⟨done.1.symm, done.2.symm⟩
    | true =>
        simp only [if_true, exec_bind_eq_ok, exec_lift_bind, andThen_eq_ok,
          exec_pure, Prod.mk.injEq, Except.ok.injEq] at done ⊢
        obtain ⟨plaintext, _, decrypted, output, delivered, rfl, rfl⟩ := done
        exact ⟨plaintext, output, decrypted, delivered, rfl⟩
  · intro done
    obtain ⟨packet, option, flag, parsed, optionParsed, done⟩ := done
    refine ⟨packet, parsed, (option, flag), optionParsed, ?_⟩
    cases flag with
    | false =>
        simp only [exec_pure, Bool.false_eq_true, if_false, Prod.mk.injEq,
          Except.ok.injEq] at done ⊢
        exact ⟨done.1.symm, done.2.symm⟩
    | true =>
        simp only [if_true, exec_bind_eq_ok, exec_lift_bind, andThen_eq_ok,
          exec_pure, Prod.mk.injEq, Except.ok.injEq] at done ⊢
        obtain ⟨plaintext, output, decrypted, delivered, rfl⟩ := done
        exact ⟨plaintext, after, decrypted, output, delivered, rfl, rfl⟩

/-- What `oscore2coap` has done when it returned `ok` for a request: it took
over the fields of the OSCORE option, and decrypted the payload with the
context that made. -/
structure AcceptedRequest (platform : Platform) (packet : OCoapPacket)
    (capacity : Nat) (c after : Context) (output : Bytes) : Prop where
  ok :
    ∃ option options first between plaintext,
      oscoreOptionParser packet = .ok (option, true) ∧
        packet.options = some options ∧
        exec (requestAccept platform options option) c = (.ok (), between) ∧
        payloadDecrypt platform between packet = .ok plaintext ∧
        pivFirstByte option = .ok first ∧
        after = between.recordPiv first ∧
        deliver plaintext packet capacity = .ok output

theorem oscore2coap_request_eq_ok {platform : Platform} {input : Bytes}
    {capacity : Nat} {packet : OCoapPacket} {c after : Context}
    {output : Bytes} (parsed : buf2coap input = .ok packet)
    (request : isRequest packet = true) :
    exec (oscore2coap platform input capacity) c =
        (.ok (some output), after) ↔
      AcceptedRequest platform packet capacity c after output := by
  rw [oscore2coap_eq_ok]
  constructor
  · intro done
    obtain ⟨other, option, flag, otherParsed, optionParsed, done⟩ := done
    rw [parsed, Except.ok.injEq] at otherParsed
    subst otherParsed
    cases flag with
    | false =>
        simp at done
    | true =>
        rw [if_pos rfl] at done
        obtain ⟨plaintext, _, decrypted, delivered, same⟩ := done
        cases same
        obtain ⟨options, between, present, accepted, decrypted, recorded⟩ :=
          oscorePacketDecrypt_eq_ok.mp decrypted
        rw [exec_whenRequest, if_pos request] at accepted recorded
        obtain ⟨first, firstRead, recorded⟩ :=
          replayWindowUpdate_eq_ok.mp recorded
        exact
          ⟨option, options, first, between, plaintext, optionParsed, present,
            accepted, decrypted, firstRead, recorded, delivered⟩
  · intro done
    obtain ⟨option, options, first, between, plaintext, optionParsed, present,
      accepted, decrypted, firstRead, recorded, delivered⟩ := done
    refine ⟨packet, option, true, parsed, optionParsed, ?_⟩
    rw [if_pos rfl]
    refine ⟨plaintext, output, ?_, delivered, rfl⟩
    rw [oscorePacketDecrypt_eq_ok]
    refine ⟨options, between, present, ?_, decrypted, ?_⟩
    · rw [exec_whenRequest, if_pos request]
      exact accepted
    · rw [exec_whenRequest, if_pos request, replayWindowUpdate_eq_ok]
      exact ⟨first, firstRead, recorded⟩

/-- An accepted request has its nonce and AAD in the context. -/
theorem requestAccept_updated {platform : Platform}
    {options : List OCoapOption} {option : CompressedOscoreOption}
    {c after : Context} {done : Unit}
    (accepted :
      exec (requestAccept platform options option) c = (.ok done, after)) :
    ∃ first piv kidContext between nonce,
      RequestFields c option first piv kidContext ∧
        exec (serverUpdate platform piv kidContext) c = (.ok (), between) ∧
        createNonce between.rrc.kid between.rrc.piv between.cc.commonIv =
          .ok nonce ∧
        (requestAad platform.toCborEncoder between).length ≤
          between.rrc.aad.length ∧
        after =
          between.setNonceAndAad nonce
            (requestAad platform.toCborEncoder between) := by
  obtain ⟨first, piv, kidContext, fields, updated⟩ :=
    requestAccept_eq_ok.mp accepted
  obtain ⟨between, nonce, server, created, fits, same⟩ :=
    contextUpdate_server_eq_ok.mp updated
  exact
    ⟨first, piv, kidContext, between, nonce, fields, server, created, fits,
      same⟩

/-- A packet outside the request class leaves the context as it is, whatever
the outcome. -/
theorem oscore2coap_of_not_isRequest {platform : Platform} {input : Bytes}
    {capacity : Nat} {packet : OCoapPacket} (c : Context)
    (parsed : buf2coap input = .ok packet)
    (response : isRequest packet = false) :
    (exec (oscore2coap platform input capacity) c).2 = c := by
  unfold oscore2coap
  rw [exec_lift_bind, parsed, andThen_ok, exec_lift_bind]
  cases oscoreOptionParser packet with
  | error fault =>
      rfl
  | ok parsedOption =>
      obtain ⟨option, flag⟩ := parsedOption
      rw [andThen_ok, exec_ite]
      cases flag with
      | false =>
          rfl
      | true =>
          rw [if_pos rfl]
          unfold oscorePacketDecrypt whenRequest
          simp only [response, Bool.false_eq_true, if_false, pure_bind,
            exec_bind, exec_lift, exec_get]
          cases orUndefined packet.options with
          | error fault =>
              rfl
          | ok options =>
              dsimp only
              cases payloadDecrypt platform c packet with
              | error fault =>
                  rfl
              | ok plaintext =>
                  simp only [exec_pure]
                  cases deliver plaintext packet capacity <;> rfl

/-! ## What a conversion leaves unchanged -/

section Keeps

variable {relation : Context → Context → Prop} [Std.Refl relation]

theorem requestAccept_keeps_of {platform : Platform}
    {options : List OCoapOption}
    (updates : ∀ piv kidContext,
      Keeps relation (contextUpdate platform .server options piv kidContext))
    (option : CompressedOscoreOption) :
    Keeps relation (requestAccept platform options option) := by
  intro c
  by_cases readable :
      ∃ first piv kidContext, RequestFields c option first piv kidContext
  · obtain ⟨first, piv, kidContext, fields⟩ := readable
    rw [exec_requestAccept fields]
    exact updates piv kidContext c
  · have unread :
        ∀ first piv kidContext,
          ¬ RequestFields c option first piv kidContext := by
      intro first piv kidContext fields
      exact readable ⟨first, piv, kidContext, fields⟩
    obtain ⟨fault, refused⟩ :=
      @exec_requestAccept_of_not_fields platform options option c unread
    rw [refused]
    exact refl c

theorem whenRequest_keeps {packet : OCoapPacket}
    {update : Update Context Unit} (keeps : Keeps relation update) :
    Keeps relation (whenRequest packet update) :=
  Keeps.ite keeps (Keeps.pure _)

/-- Receiving a packet keeps what taking over a request and recording its
Partial IV keep. -/
theorem oscore2coap_keeps_of [IsTrans Context relation] {platform : Platform}
    (updates : ∀ options piv kidContext,
      Keeps relation (contextUpdate platform .server options piv kidContext))
    (records : ∀ c first, relation c (c.recordPiv first))
    (input : Bytes) (capacity : Nat) :
    Keeps relation (oscore2coap platform input capacity) := by
  unfold oscore2coap
  refine Keeps.bind (Keeps.lift _) ?_
  intro packet
  refine Keeps.bind (Keeps.lift _) ?_
  intro parsed
  refine Keeps.ite ?_ (Keeps.pure _)
  refine Keeps.bind ?_ ?_
  · unfold oscorePacketDecrypt
    refine Keeps.bind (Keeps.lift _) ?_
    intro options
    refine
      Keeps.bind
        (whenRequest_keeps
          (requestAccept_keeps_of (updates options) parsed.1)) ?_
    intro _
    refine Keeps.bind Keeps.get ?_
    intro c
    refine Keeps.bind (Keeps.lift _) ?_
    intro plaintext
    refine Keeps.bind (whenRequest_keeps ?_) fun _ => Keeps.pure _
    unfold replayWindowUpdate
    refine Keeps.bind (Keeps.lift _) ?_
    intro first
    exact Keeps.modify fun c => records c first
  · intro plaintext
    refine Keeps.bind (Keeps.lift _) ?_
    intro output
    exact Keeps.pure _

end Keeps

theorem requestAccept_keeps (platform : Platform)
    (options : List OCoapOption) (option : CompressedOscoreOption) :
    Keeps SameIdentity (requestAccept platform options option) :=
  requestAccept_keeps_of (contextUpdate_keeps platform .server options) option

/-- Receiving a packet changes neither the parameters of the context nor the
KID of the request-response context nor the sequence number. -/
theorem oscore2coap_keeps (platform : Platform) (input : Bytes)
    (capacity : Nat) :
    Keeps SameIdentity (oscore2coap platform input capacity) :=
  oscore2coap_keeps_of
    (contextUpdate_keeps platform .server)
    (fun _ _ => ⟨⟨rfl, rfl, rfl, rfl, rfl, rfl, rfl⟩, rfl⟩)
    input capacity

end UoscoreUedhoc.Oscore
